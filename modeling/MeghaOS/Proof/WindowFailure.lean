import MeghaOS.Proof.Grid
import MeghaOS.Proof.Memmap

/-!
# Windows that cannot be created

`kcompose_createWindow` counts the window before it allocates anything, and no path on which an
allocation fails takes the count back. When there is no memory for the record of the window,
`allocWindow` hands the `NULL` pointer to `destory_window`, which follows it.
-/

namespace MeghaOS

open Exec KState

variable {s s' : GState} {k k' : KState} {win title : Nat}

/-! ## Allocations that fail -/

/-- The allocations that the creation of a window makes, in order. -/
inductive WindowAllocation
  | buffer | record | handle

/-- `kvmm_memmap` as `allocWindow` calls it, in the context that `kprocess_getCurrentContext`
gives. -/
def mapWindowBuffer (gxBackfb : KGraphicsArea) (vmm : Nat) : K (Nat × Option Nat) :=
  kvmmMemmap vmm 0 none (bytesToPageframesCeiling (getWindowAreaSizeBytes gxBackfb))
    vmmMemmapFlagNone

/-- An allocation fails, and those before it succeed. -/
def WindowAllocation.Fails (title : Nat) (s : GState) : WindowAllocation → Prop
  | buffer => ∃ vmm out k, kprocessGetCurrentContext s.kernel = .ok (.addr vmm, s.kernel) ∧
      mapWindowBuffer s.gxBackfb vmm s.kernel = .ok ((0, out), k)
  | record => ∃ vmm va out k₁ k₂, kprocessGetCurrentContext s.kernel = .ok (.addr vmm, s.kernel) ∧
      mapWindowBuffer s.gxBackfb vmm s.kernel = .ok ((va, out), k₁) ∧ va ≠ 0 ∧
      kvmmSetAddressSpaceMetadata vmm va k₁ = .ok ((), k₂) ∧
      ∀ w, ∃ k₃, kmallocObj (.window w) k₂ = .ok (0, k₃)
  | handle => ∃ win s₁ s₂, kcomposeCreateWindow title s = .ok (win, s₁) ∧ win ≠ 0 ∧
      khandleCreateHandle win s₁ = .ok (invalidHandle, s₂)

/-- A call returns that it failed, and the count and the list of windows, the table of handles, the
address spaces of the caller and the heap are as they were. -/
def FailsHarmlessly {α : Type} (x : G α) (failure : α) (s : GState) : Prop :=
  ∃ s', x s = .ok (failure, s') ∧ s'.windowCount = s.windowCount ∧
    s'.windowsListHead = s.windowsListHead ∧ s'.handles = s.handles ∧ s'.word = s.word ∧
    ∀ vmm, kprocessGetCurrentContext s.kernel = .ok (.addr vmm, s.kernel) →
      Unchanged s.kernel s'.kernel vmm

/-! ## The count of windows -/

theorem u32_succ_ne (n : Nat) : u32 (n + 1) ≠ n := by
  simp only [u32]
  omega

/-- A call that finds a cell counts it, whether or not it makes a window. -/
theorem kcomposeCreateWindow_count (hready : HeapReady s.kernel)
    (hcell : s.windowCount ≠ winmanGridCellCount)
    (hrun : kcomposeCreateWindow title s = .ok (win, s')) :
    s'.windowCount = u32 (s.windowCount + 1) := by
  obtain ⟨-, hrun⟩ := kcomposeCreateWindow_eq_ok.1 hrun
  rw [if_neg hcell] at hrun
  rcases createInCell_spec hready hrun with ⟨-, -, heq⟩ | hnew
  · rw [heq]
  · rw [hnew.eq]

/-- `destory_window` of the `NULL` pointer follows it. -/
theorem destoryWindow_null (hready : HeapReady k) (u : Unit × KState) :
    destoryWindow 0 k ≠ .ok u := by
  intro hrun
  obtain ⟨context, k₁, hcontext, hrest⟩ := bind_eq_ok.1 hrun
  obtain ⟨w, hw, -⟩ := getWindow_bind_eq_ok.1 hrest
  have h₁ : VmStep (fun _ => False) _ _ :=
    kprocessGetCurrentContext_fixes.vmFrame _ _ _ hcontext hready
  obtain ⟨alloc, hs⟩ := h₁.ready.heapOk
  rw [hs.objs_zero] at hw
  cases hw

theorem Exec.Fixes.kernel_windowCount {α : Type} (x : K α) :
    Fixes GState.windowCount (MeghaOS.kernel x) := by
  intro s a s' hrun
  obtain ⟨k, -, rfl⟩ := kernel_eq_ok.1 hrun
  rfl

theorem createHandleFrom_windowCount (obj n i : Nat) :
    Fixes GState.windowCount (createHandleFrom obj n i) := by
  induction n generalizing i with
  | zero => exact .kernel_windowCount _
  | succ n ih =>
    exact .bind .get fun _ =>
      .bind (.bind (.modify fun _ => rfl) fun _ => .bind .get fun _ => .pure _)
      fun _ => .ite (.bind (.modify fun _ => rfl) fun _ => .pure _) (ih _)

/-- Handles and the destruction of a window leave the count alone. -/
theorem khandleCreateHandle_windowCount (obj : Nat) :
    Fixes GState.windowCount (khandleCreateHandle obj) :=
  .bind .get fun _ => .bind (.kernel_windowCount _) fun _ =>
    .ite (.kernel_windowCount _) (createHandleFrom_windowCount obj _ _)

theorem kcomposeDestroyWindow_windowCount (win : Nat) :
    Fixes GState.windowCount (kcomposeDestroyWindow win) := by
  refine .bind (.bind (.kernel_windowCount _) fun w => ?_) fun _ =>
    .bind (.kernel_windowCount _) fun _ => .pure _
  cases w.windowListNode with
  | null => exact .halt _
  | self => exact .kernel_windowCount _
  | linked _ => exact .bind (.modify fun _ => rfl) fun _ => .kernel_windowCount _

/-- A failed system call has counted its window, too. -/
theorem ksysWindowCreateWindow_count {newh : Int} (hready : HeapReady s.kernel)
    (hcell : s.windowCount ≠ winmanGridCellCount)
    (hrun : ksysWindowCreateWindow title s = .ok (newh, s')) :
    s'.windowCount = u32 (s.windowCount + 1) := by
  obtain ⟨win, s₁, hcreate, hrest⟩ := bind_eq_ok.1 hrun
  have hcount := kcomposeCreateWindow_count hready hcell hcreate
  rcases ite_eq_ok.1 hrest with ⟨-, hrest⟩ | ⟨-, hrest⟩
  · cases hrest
    exact hcount
  obtain ⟨h, s₂, hhandle, hrest⟩ := bind_eq_ok.1 hrest
  have hcount₂ := (khandleCreateHandle_windowCount _ _ _ _ hhandle).trans hcount
  rcases ite_eq_ok.1 hrest with ⟨-, hrest⟩ | ⟨-, hrest⟩
  · obtain ⟨ok, s₃, hdestroy, hrest⟩ := bind_eq_ok.1 hrest
    cases hrest
    exact (kcomposeDestroyWindow_windowCount _ _ _ _ hdestroy).trans hcount₂
  · cases hrest
    exact hcount₂

/-- `kprocess_getCurrentPID` changes nothing. -/
theorem kprocessGetCurrentPID_kernel {pid : Nat} (hrun : kprocessGetCurrentPID k = .ok (pid, k')) :
    k' = k := by
  rw [kprocessGetCurrentPID, get_bind_apply] at hrun
  rcases ite_eq_ok.1 hrun with ⟨-, hrun⟩ | ⟨-, hrun⟩
  · cases hrun
    rfl
  · obtain ⟨p, -, hrun⟩ := getProc_bind_eq_ok.1 hrun
    cases hrun
    rfl

/-- `allocWindow` does not return when it cannot make the record. -/
theorem allocWindow_record_fails (hready : HeapReady s.kernel)
    (hfail : WindowAllocation.record.Fails title s) (processID screenX screenY : Nat)
    (u : Nat × KState) :
    allocWindow s.gxBackfb processID screenX screenY s.kernel ≠ .ok u := by
  intro hrun
  obtain ⟨vmm, va, out, k₁, k₂, hcontext, hmap, hva, hmeta, hnone⟩ := hfail
  rw [allocWindow, bind_of_ok hcontext] at hrun
  replace hrun := follow_bind_eq_ok.1 hrun
  rw [Ptr.word] at hrun
  have h₁ : VmStep (fun _ => False) s.kernel k₁ := kvmmMemmap_vmFrame _ _ _ _ _ _ _ _ hmap hready
  have h₂ : VmStep (fun _ => False) k₁ k₂ :=
    (kvmmSetAddressSpaceMetadata_fixes _ _).vmFrame _ _ _ hmeta h₁.ready
  rw [mapWindowBuffer] at hmap
  rw [bind_of_ok hmap] at hrun
  dsimp only at hrun
  rw [if_neg hva, bind_of_ok hmeta] at hrun
  obtain ⟨new, k₃, hnew, hrun⟩ := bind_eq_ok.1 hrun
  obtain ⟨k₃', hzero⟩ := hnone _
  rw [hzero] at hnew
  cases hnew
  rcases kmallocObj_recordStep h₂.ready hzero with ⟨-, e, rfl⟩ | ⟨hne, -⟩
  · obtain ⟨_, k₄, hdestroy, -⟩ := bind_eq_ok.1 hrun
    have h₃ : HeapReady { k₂ with errorNumber := e } := h₂.ready.of_nonCommit rfl
    exact destoryWindow_null h₃ _ hdestroy
  · exact hne rfl

/-- A call that cannot make the record of its window does not return. -/
theorem kcomposeCreateWindow_record_fails (hready : HeapReady s.kernel)
    (hcell : s.windowCount ≠ winmanGridCellCount) (hfail : WindowAllocation.record.Fails title s)
    (r : Nat × GState) : kcomposeCreateWindow title s ≠ .ok r := by
  intro hrun
  obtain ⟨-, hrun⟩ := kcomposeCreateWindow_eq_ok.1 hrun
  rw [if_neg hcell, createInCell, get_bind_apply, modify_bind_apply, get_bind_apply] at hrun
  obtain ⟨pid, k, hpid, hrest⟩ := kernel_bind_eq_ok.1 hrun
  obtain rfl : k = s.kernel := kprocessGetCurrentPID_kernel hpid
  obtain ⟨newwin, k', halloc, -⟩ := kernel_bind_eq_ok.1 hrest
  exact allocWindow_record_fails hready hfail _ _ _ _ halloc

/-! ## No failure is harmless -/

/-- Whichever allocation fails, the creation of the window leaves a trace: the count is one too
many, or, without memory for the record, the call follows the `NULL` pointer and does not return. -/
theorem window_failure_not_harmless {P : GState → GridCall → Prop} (h : GridRun P s)
    (hcell : s.windowCount ≠ winmanGridCellCount) {a : WindowAllocation} (hfail : a.Fails title s) :
    ¬ FailsHarmlessly (kcomposeCreateWindow title) 0 s ∧
      ¬ FailsHarmlessly (ksysWindowCreateWindow title) invalidHandle s ∧
      (a = .record → ∀ r, kcomposeCreateWindow title s ≠ .ok r) := by
  have hready := h.inv.windows.ready
  refine ⟨?_, ?_, ?_⟩
  · rintro ⟨s', hrun, hcount, -⟩
    exact u32_succ_ne _ ((kcomposeCreateWindow_count hready hcell hrun).symm.trans hcount)
  · rintro ⟨s', hrun, hcount, -⟩
    exact u32_succ_ne _ ((ksysWindowCreateWindow_count hready hcell hrun).symm.trans hcount)
  · rintro rfl
    exact kcomposeCreateWindow_record_fails hready hcell hfail

/-! ## A heap without memory for the buffer -/

/-- The machine with a screen, when the heap has no section left for the record of an address
space. -/
def heapFull : G Unit := do
  screenMain
  let _ ← kernel (kmalloc 0x1FF28)

/-- The state that it leads to. -/
def heapFullState : GState := heapFull.finalState screenEntry

set_option maxRecDepth 100000 in
theorem heapFull_run : heapFull screenEntry = .ok ((), heapFullState) :=
  eq_ok_finalState (by decide +kernel)

theorem heapFullState_run : GridRun (fun _ _ => True) heapFullState := by
  obtain ⟨_, s₁, hmain, hrest⟩ := bind_eq_ok.1 heapFull_run
  have h₁ : GridRun (fun _ _ => True) s₁ := .booted (screenMain_booted hmain)
  obtain ⟨block, k₂, hblock, hrest⟩ := kernel_bind_eq_ok.1 hrest
  have h₂ := h₁.other (.kmalloc h₁.inv.windows (by decide) hblock)
  obtain ⟨-, hs⟩ := Prod.mk.inj (Except.ok.inj hrest)
  rw [← hs]
  exact h₂

set_option maxRecDepth 100000 in
theorem heapFullState_count : heapFullState.windowCount = 0 := by decide +kernel

set_option maxRecDepth 100000 in
theorem heapFullState_fails : WindowAllocation.buffer.Fails emptyTitle heapFullState := by
  have hcurrent : heapFullState.kernel.currentProcess = 0 := by decide +kernel
  have hcontext : kprocessGetCurrentContext heapFullState.kernel =
      .ok (.addr heapFullState.kernel.context, heapFullState.kernel) := by
    rw [kprocessGetCurrentContext, get_bind_apply, if_pos hcurrent]
    rfl
  have hmap := eq_ok_of_value
    (x := mapWindowBuffer heapFullState.gxBackfb heapFullState.kernel.context)
    (s := heapFullState.kernel) (a := (0, none)) (by decide +kernel)
  exact ⟨_, _, _, hcontext, hmap⟩

/-- No memory for the buffer: the call fails, and the window is counted. -/
theorem window_failure_not_harmless_heapFull :
    ¬ FailsHarmlessly (kcomposeCreateWindow emptyTitle) 0 heapFullState ∧
      ¬ FailsHarmlessly (ksysWindowCreateWindow emptyTitle) invalidHandle heapFullState ∧
      (WindowAllocation.buffer = .record → ∀ r, kcomposeCreateWindow emptyTitle
        heapFullState ≠ .ok r) :=
  window_failure_not_harmless heapFullState_run (by rw [heapFullState_count]; decide)
    heapFullState_fails

/-- A call that finds no memory for the buffer changes the count. -/
theorem window_buffer_failure_counted : ¬ ∀ s title, GridRun (fun _ _ => True) s →
    s.windowCount ≠ winmanGridCellCount → WindowAllocation.buffer.Fails title s →
      FailsHarmlessly (kcomposeCreateWindow title) 0 s := by
  intro hall
  obtain ⟨s', hrun, hcount, -⟩ := hall _ emptyTitle heapFullState_run
    (by rw [heapFullState_count]; decide) heapFullState_fails
  have hnew := kcomposeCreateWindow_count heapFullState_run.inv.windows.ready
    (by rw [heapFullState_count]; decide) hrun
  rw [hcount, heapFullState_count] at hnew
  exact absurd hnew (by decide)

end MeghaOS
