import MeghaOS.Proof.Kmalloc

/-!
# The records outside virtual memory

The programs of virtual memory create, change and release the records of managers, address spaces
and shares, and no others, once the heap is ready: a new record lies where there is none, and a
released one was an address space or a manager. They change none of the static data outside the
memory code (`KState.globals`), and a manager keeps its range and its page directory until it is
deleted.
-/

namespace MeghaOS

open Exec KState

variable {α : Type} {s s' : KState} {a : Nat}

/-- Whether a record belongs to virtual memory. -/
def Obj.isVm : Obj → Bool
  | vmm _ | vas _ | share _ => true
  | proc _ | regs _ | event _ | window _ => false

/-- The dirty flag does not decide whose record it is. -/
theorem Obj.isVm_clean (o : Obj) : o.clean.isVm = o.isVm := by
  cases o <;> rfl

/-- The static data outside the memory code. -/
structure Globals where
  bootMemoryMap : List BootMemoryMapItem
  cr3 : Nat
  sallocNext : Nat
  phase : KernelPhase
  context : Nat
  tickCount : Nat
  processCount : Nat
  currentProcess : Nat
  rootProcess : Nat
  schedulerQueue : List Nat

namespace KState

/-- The records outside virtual memory. -/
def records (s : KState) (a : Nat) : Option Obj := (s.objs a).filter fun o => !o.isVm

/-- The static data outside the memory code. -/
def globals (s : KState) : Globals :=
  ⟨s.bootMemoryMap, s.cr3, s.sallocNext, s.phase, s.context, s.tickCount, s.processCount,
    s.currentProcess, s.rootProcess, s.schedulerQueue⟩

end KState

/-- The view shows the records that are not the memory manager's. -/
theorem records_eq_some {o : Obj} : s.records a = some o ↔ s.objs a = some o ∧ o.isVm = false := by
  simp [KState.records, Option.filter_eq_some_iff]

/-- It shows nothing where there is one of the memory manager's, or none. -/
theorem records_eq_none : s.records a = none ↔ ∀ o, s.objs a = some o → o.isVm = true := by
  simp [KState.records, Option.filter_eq_none_iff]

/-- Committing a page changes no record outside virtual memory. -/
theorem records_of_nonCommit (h : s'.nonCommit = s.nonCommit) : s'.records = s.records := by
  funext a
  cases hs : s.objs a with
  | none => rw [KState.records, KState.records, hs, (objs_none_of_nonCommit h).2 hs]
  | some o =>
    cases hvm : o.isVm with
    | false =>
      have hs' := objs_of_nonCommit h hs (by rintro v rfl; cases hvm)
      rw [KState.records, KState.records, hs, hs']
    | true =>
      have hclean := objs_clean_of_nonCommit h a
      have hvm' : ∀ o', s'.objs a = some o' → o'.isVm = true := by
        intro o' hs'
        rw [hs, hs', Option.map_some, Option.map_some, Option.some.injEq] at hclean
        rw [← Obj.isVm_clean, hclean, Obj.isVm_clean, hvm]
      rw [records_eq_none.2 hvm',
        records_eq_none.2 (by rintro o' ho'; rwa [← Option.some.inj (hs.symm.trans ho')])]

/-- Committing pages changes no global variable. -/
theorem globals_of_nonCommit (h : s'.nonCommit = s.nonCommit) : s'.globals = s.globals := by
  show s'.nonCommit.globals = s.nonCommit.globals
  rw [h]

/-- Records may be made in the heap. -/
structure HeapReady (s : KState) : Prop where
  phase : s.phase.check .kmallocReady = true
  heapOk : ∃ alloc, HeapOk s alloc

namespace HeapReady

/-- The heap stays as it is when pages are committed. -/
theorem of_nonCommit (h : HeapReady s) (hnc : s'.nonCommit = s.nonCommit) : HeapReady s' where
  phase := phase_of_nonCommit hnc ▸ h.phase
  heapOk := h.heapOk.imp fun _ hs => hs.of_nonCommit hnc

/-- It stays as it is when a record is written. -/
theorem setObj (h : HeapReady s) {o : Obj} (ha : s.objs a ≠ none) : HeapReady (s.setObj a o) where
  phase := h.phase
  heapOk := h.heapOk.imp fun _ hs => hs.setObj ha

/-- Records lie at 32-bit addresses. -/
theorem lt (h : HeapReady s) (ha : s.objs a ≠ none) : a < 2 ^ 32 := by
  obtain ⟨alloc, hs⟩ := h.heapOk
  exact hs.lt ha

end HeapReady

/-! ## The guarantee -/

/-- The part of a manager that stays as `kvmm_new` made it. -/
def VMemoryManager.core (v : VMemoryManager) : VMemoryManager :=
  { v with isPageDirectoryDirty := false, head := [] }

/-- What a program of virtual memory guarantees that deletes no manager but those of `gone`. -/
structure VmStep (gone : Nat → Prop) (s s' : KState) : Prop where
  ready : HeapReady s'
  globals : s'.globals = s.globals
  records : s'.records = s.records
  managers : ∀ m v, ¬ gone m → s.objs m = some (.vmm v) →
    ∃ v', s'.objs m = some (.vmm v') ∧ v'.core = v.core

/-- The guarantee, when the heap is ready before. -/
def VmFrame (gone : Nat → Prop) (s s' : KState) : Prop := HeapReady s → VmStep gone s s'

variable {gone : Nat → Prop}

namespace VmStep

/-- Nothing happens. -/
theorem refl (h : HeapReady s) : VmStep gone s s := ⟨h, rfl, rfl, fun _ v _ hv => ⟨v, hv, rfl⟩⟩

/-- Two steps. -/
theorem trans {s₁ s₂ s₃ : KState} (h₁ : VmStep gone s₁ s₂) (h₂ : VmStep gone s₂ s₃) :
    VmStep gone s₁ s₃ where
  ready := h₂.ready
  globals := h₂.globals.trans h₁.globals
  records := h₂.records.trans h₁.records
  managers m v hm hv := by
    obtain ⟨v', hv', hcore'⟩ := h₁.managers m v hm hv
    obtain ⟨v'', hv'', hcore''⟩ := h₂.managers m v' hm hv'
    exact ⟨v'', hv'', hcore''.trans hcore'⟩

/-- Committing pages deletes no manager. -/
theorem of_nonCommit (h : HeapReady s) (hnc : s'.nonCommit = s.nonCommit) : VmStep gone s s' where
  ready := h.of_nonCommit hnc
  globals := globals_of_nonCommit hnc
  records := records_of_nonCommit hnc
  managers m v _ hv := by
    obtain ⟨dirty, hv'⟩ := vmm_of_nonCommit hnc hv
    exact ⟨_, hv', rfl⟩

/-- A record of virtual memory is put in the place of another one, which is no manager to be kept
unless its core is. -/
theorem setObj (h : HeapReady s) {o o' : Obj} (ha : s.objs a = some o) (ho : o.isVm = true)
    (ho' : o'.isVm = true)
    (hkeep : ∀ v, o = .vmm v → ∃ v', o' = .vmm v' ∧ v'.core = v.core) :
    VmStep gone s (s.setObj a o') where
  ready := h.setObj (by rw [ha]; simp)
  globals := rfl
  records := by
    funext b
    by_cases hb : b = a
    · subst hb
      simp [KState.records, KState.setObj, ha, ho, ho', Option.filter]
    · simp [KState.records, KState.setObj, hb]
  managers m v _ hv := by
    by_cases hm : m = a
    · subst hm
      rw [ha] at hv
      obtain ⟨v', rfl, hcore⟩ := hkeep v (Option.some.inj hv)
      exact ⟨v', by simp [KState.setObj], hcore⟩
    · exact ⟨v, by simpa [KState.setObj, hm] using hv, rfl⟩

end VmStep

instance : IsPreorder KState (VmFrame gone) where
  refl _ h := .refl h
  trans _ _ _ h₁ h₂ h := (h₁ h).trans (h₂ (h₁ h).ready)

/-- Setting the error number. -/
theorem VmStep.error (h : HeapReady s) (e : KernelErrorCodes) :
    VmStep gone s { s with errorNumber := e } := .of_nonCommit h rfl

/-- A program that may only commit pages. -/
theorem Exec.Fixes.vmFrame {x : K α} (h : Fixes nonCommit x) : Ensures (VmFrame gone) x :=
  fun _ _ _ hrun hready => .of_nonCommit hready (h _ _ _ hrun)

/-! ## Allocation and release -/

/-- What a program guarantees that changes, apart from virtual memory, the record at `a` alone. -/
structure RecordStep (a : Nat) (s s' : KState) : Prop where
  ready : HeapReady s'
  globals : s'.globals = s.globals
  records : ∀ b, b ≠ a → s'.records b = s.records b
  managers : ∀ m v, m ≠ a → s.objs m = some (.vmm v) →
    ∃ v', s'.objs m = some (.vmm v') ∧ v'.core = v.core

/-- A new record is put where there is none. -/
theorem kmallocObj_recordStep {o : Obj} (hready : HeapReady s)
    (hrun : kmallocObj o s = .ok (a, s')) :
    (a = 0 ∧ ∃ e, s' = { s with errorNumber := e }) ∨
      a ≠ 0 ∧ ¬ IsStatic a ∧ s.objs a = none ∧ s'.objs a = some o ∧ RecordStep a s s' := by
  obtain ⟨alloc, hs⟩ := hready.heapOk
  rcases kmallocObj_spec hs hrun with herr | ⟨node, s₁, s₂, rfl, hall, rfl⟩
  · exact .inl herr
  have hfresh := hall.objs_none hs
  have hnc := hall.nonCommit
  have hobjs := hall.objs_eq
  have hblock := hall.heapOk.not_isStatic ⟨node, by simp, rfl⟩
  refine .inr ⟨by simp only [sizeofKMallocHeader]; omega, hblock, hfresh, if_pos rfl,
    ⟨⟨hall.phase_eq ▸ hready.phase, _, hall.setObj o⟩, ?_, fun b hb => ?_, fun m v hm hv => ?_⟩⟩
  · have hglobals : s₂.globals = s₁.globals := by
      rw [hall.eq]
      rfl
    exact hglobals.trans (globals_of_nonCommit hnc)
  · rw [← records_of_nonCommit hnc]
    simp only [KState.records, KState.setObj, if_neg hb, hobjs]
  · obtain ⟨dirty, hv'⟩ := vmm_of_nonCommit hnc hv
    refine ⟨{ v with isPageDirectoryDirty := dirty }, ?_, rfl⟩
    rw [KState.setObj, hobjs]
    exact (if_neg hm).trans hv'

/-- A record is released, or nothing is. -/
theorem kfree_recordStep {ok : Bool} (hready : HeapReady s) (hlt : a < 2 ^ 32)
    (hrun : kfree a s = .ok (ok, s')) :
    RecordStep a s s' ∧ (ok = true ∧ s'.objs a = none ∨
      ok = false ∧ s'.objs = s.objs ∧ (s.objs a = none ∨ IsStatic a)) := by
  obtain ⟨alloc, hs⟩ := hready.heapOk
  rcases kfree_spec hs hlt hrun with ⟨rfl, hblock, e, rfl⟩ | ⟨rfl, node, -, -, hs', -, heq⟩
  · have h : VmStep (fun _ => False) _ _ :=
      VmStep.error hready e
    refine ⟨⟨h.ready, rfl, fun _ _ => rfl, fun m v _ hv => ⟨v, hv, rfl⟩⟩, .inr ⟨rfl, rfl, ?_⟩⟩
    by_cases hnone : s.objs a = none
    · exact .inl hnone
    · exact .inr ((hs.objs a hnone).resolve_right hblock)
  have hobjs : ∀ b, s'.objs b = if b = a then none else s.objs b := fun b => by rw [heq]; rfl
  refine ⟨⟨⟨by rw [heq]; exact hready.phase, _, hs'⟩, by rw [heq]; rfl, fun b hb => ?_,
    fun m v hm hv => ⟨v, by rw [hobjs, if_neg hm, hv], rfl⟩⟩, .inl ⟨rfl, by rw [hobjs, if_pos rfl]⟩⟩
  simp only [KState.records, hobjs, if_neg hb]

/-- A record is put in the place of another one. -/
theorem RecordStep.setObj {o : Obj} (hready : HeapReady s) (ha : s.objs a ≠ none) :
    RecordStep a s (s.setObj a o) where
  ready := hready.setObj ha
  globals := rfl
  records b hb := by simp [KState.records, KState.setObj, hb]
  managers m v hm hv := ⟨v, by simpa [KState.setObj, hm] using hv, rfl⟩

/-- A new record of virtual memory. -/
theorem kmallocObj_vmFrame {o : Obj} (ho : o.isVm = true) :
    Ensures (VmFrame gone) (kmallocObj o) := by
  intro s a s' hrun hready
  rcases kmallocObj_recordStep hready hrun with ⟨-, e, rfl⟩ | ⟨-, -, hfresh, hnew, hstep⟩
  · exact .error hready e
  refine ⟨hstep.ready, hstep.globals, ?_, fun m v _ hv => hstep.managers m v ?_ hv⟩
  · funext b
    by_cases hb : b = a
    · rw [hb, records_eq_none.2 fun o' ho' => by rw [← Option.some.inj (hnew.symm.trans ho'), ho],
        records_eq_none.2 fun o' ho' => by rw [hfresh] at ho'; cases ho']
    · exact hstep.records b hb
  · rintro rfl
    rw [hfresh] at hv
    cases hv

/-- A record of virtual memory that is no manager to be kept is released. -/
theorem kfree_vmStep {ok : Bool} (hready : HeapReady s) (hlt : a < 2 ^ 32)
    (hrecord : s.records a = none) (hgone : ∀ v, s.objs a = some (.vmm v) → gone a)
    (hrun : kfree a s = .ok (ok, s')) : VmStep gone s s' := by
  obtain ⟨hstep, hobjs⟩ := kfree_recordStep hready hlt hrun
  refine ⟨hstep.ready, hstep.globals, ?_, fun m v hm hv => hstep.managers m v ?_ hv⟩
  · funext b
    by_cases hb : b = a
    · rw [hb, hrecord]
      rcases hobjs with ⟨-, hnone⟩ | ⟨-, hsame, -⟩
      · exact records_eq_none.2 fun o ho => by rw [hnone] at ho; cases ho
      · rwa [KState.records, hsame]
    · exact hstep.records b hb
  · rintro rfl
    exact hm (hgone v hv)

/-! ## Address spaces -/

/-- A write to a manager that leaves its core. -/
theorem modifyVmm_vmFrame {m : Nat} {f : VMemoryManager → VMemoryManager}
    (hf : ∀ v, (f v).core = v.core) : Ensures (VmFrame gone) (modifyVmm m f) := by
  intro s _ s' hrun hready
  obtain ⟨v, hv, rfl⟩ := modifyVmm_eq_ok.1 hrun
  refine .setObj hready hv rfl rfl fun v' hv' => ?_
  obtain rfl := Obj.vmm.inj hv'
  exact ⟨f v, rfl, hf v⟩

/-- `create_new_virt_addr_space`. -/
theorem createNewVirtAddrSpace_vmFrame (startVm szBytes flags : Nat) :
    Ensures (VmFrame gone) (createNewVirtAddrSpace startVm szBytes flags) := by
  intro s a s' hrun hready
  simp only [createNewVirtAddrSpace, get_bind_apply, hready.phase, if_true] at hrun
  obtain ⟨new, s₁, hnew, hrest⟩ := bind_eq_ok.1 hrun
  have h₁ : VmStep gone _ _ :=
    kmallocObj_vmFrame rfl _ _ _ hnew hready
  rcases ite_eq_ok.1 hrest with ⟨-, hrest⟩ | ⟨-, hrest⟩
  · cases hrest
    exact h₁
  · obtain ⟨-, hrest⟩ := kAssert_bind_eq_ok.1 hrest
    cases hrest
    exact h₁

/-- The search for the place of a new entry. -/
theorem insertVas_vmFrame (newVas newStart newEnd : Nat) (l : List Nat) :
    Ensures (VmFrame gone) (insertVas newVas newStart newEnd l) := by
  induction l with
  | nil => exact .pure _
  | cons a l ih =>
    refine .bind (Fixes.getVas _).vmFrame fun _ => .ite (returnError_fixes _ _).commit.vmFrame ?_
    refine .ite (.pure _) (.bind ih fun found => ?_)
    cases found
    · exact .pure _
    · exact .pure _

/-- A new entry is entered in its place. -/
theorem enterVas_vmFrame (m newVas newStart newEnd : Nat) :
    Ensures (VmFrame gone) (enterVas m newVas newStart newEnd) := by
  refine .bind (Fixes.getVmm _).vmFrame fun _ => .bind (insertVas_vmFrame _ _ _ _) fun found => ?_
  cases found with
  | none => exact .pure _
  | some head => exact .bind (modifyVmm_vmFrame fun _ => rfl) fun _ => .pure _

/-- `add_new_virtual_address_space`. -/
theorem addNewVirtualAddressSpace_vmFrame (m startVa szPages flags : Nat) :
    Ensures (VmFrame gone) (addNewVirtualAddressSpace m startVa szPages flags) := by
  refine .bind (Fixes.getVmm _).vmFrame fun _ => .ite (returnError_fixes _ _).commit.vmFrame ?_
  refine .ite (returnError_fixes _ _).commit.vmFrame ?_
  refine .bind (createNewVirtAddrSpace_vmFrame _ _ _) fun _ => .ite (.pure _) ?_
  exact enterVas_vmFrame _ _ _ _

/-- `kvmm_memmap`. -/
theorem kvmmMemmap_vmFrame (m va : Nat) (pa : Option Nat) (szPages flags : Nat) :
    Ensures (VmFrame gone) (kvmmMemmap m va pa szPages flags) := by
  refine .bind (memmapVa_fixes (f := nonCommit) _ _ _).vmFrame fun _ => ?_
  refine .bind (addNewVirtualAddressSpace_vmFrame _ _ _ _) fun _ => .ite (.pure _) ?_
  exact .ite (.pure _) (.bind (commitVirtualPages_fixes _ _ _ _ _).vmFrame fun _ => .pure _)

/-- `kvmm_setAddressSpaceMetadata`. -/
theorem kvmmSetAddressSpaceMetadata_fixes (m addr : Nat) :
    Fixes nonCommit (kvmmSetAddressSpaceMetadata m addr) := by
  refine .bind (findVas_fixes _ _) fun found => ?_
  cases found
  · exact .halt _
  · exact .pure _

/-- A shared region loses a user. -/
theorem dropShare_vmFrame (share : Nat) : Ensures (VmFrame gone) (dropShare share) := by
  intro s _ s' hrun hready
  obtain ⟨r, hr, hrest⟩ := getShare_bind_eq_ok.1 hrun
  cases hrest
  exact .setObj hready hr rfl rfl (by rintro v ⟨⟩)

/-- `kvmm_free` releases the record of an address space. -/
theorem kvmmFree_vmFrame (m startVa : Nat) : Ensures (VmFrame gone) (kvmmFree m startVa) := by
  intro s ok s' hrun hready
  simp only [kvmmFree, kAssert_bind_eq_ok] at hrun
  obtain ⟨found, s₁, hfind, hrest⟩ := bind_eq_ok.1 hrun.2
  have h₁ : VmStep gone _ _ :=
    (findVas_fixes (f := nonCommit) _ _).vmFrame _ _ _ hfind hready
  cases found with
  | none => exact h₁.trans ((returnError_fixes _ _).commit.vmFrame _ _ _ hrest h₁.ready)
  | some a =>
    obtain ⟨vas, hvas, hrest⟩ := getVas_bind_eq_ok.1 hrest
    have hlt := h₁.ready.lt (a := a) (by rw [hvas]; simp)
    have hnone : s₁.records a = none := records_eq_none.2 fun o ho => by
      rw [hvas] at ho
      cases ho
      rfl
    rcases ite_eq_ok.1 hrest with ⟨-, hrest⟩ | ⟨-, hrest⟩
    · exact h₁.trans ((returnError_fixes _ _).commit.vmFrame _ _ _ hrest h₁.ready)
    have hdrop : Ensures (VmFrame gone) (when (vas.share ≠ 0) (dropShare vas.share)) :=
      .when (dropShare_vmFrame _)
    obtain ⟨_, s₂, hshare, hrest⟩ := bind_eq_ok.1 hrest
    have h₂ := h₁.trans (hdrop _ _ _ hshare h₁.ready)
    have hvas₂ : s₂.objs a = some (.vas vas) := by
      rcases ite_eq_ok.1 hshare with ⟨-, hshare⟩ | ⟨-, hshare⟩
      · obtain ⟨r, hr, hshare⟩ := getShare_bind_eq_ok.1 hshare
        cases hshare
        have hne : a ≠ vas.share := by
          rintro heq
          rw [← heq, hvas] at hr
          cases hr
        simpa [KState.setObj, hne] using hvas
      · cases hshare
        exact hvas
    obtain ⟨v, hv, hrest⟩ := getVmm_bind_eq_ok.1 hrest
    obtain ⟨pd, s₃, hmap, hrest⟩ := bind_eq_ok.1 hrest
    obtain ⟨_, s₄, hfree, hrest⟩ := bind_eq_ok.1 hrest
    obtain ⟨_, s₅, hunmap, hrest⟩ := bind_eq_ok.1 hrest
    have hnp : s₅.nonPaging = s₂.nonPaging := by
      rw [kpgTemporaryUnmap_fixes _ _ _ hunmap, freePagesFrom_fixes _ _ _ _ _ _ _ hfree,
        kpgTemporaryMap_fixes _ _ _ _ hmap]
    have hobjs : s₅.objs = s₂.objs := by
      show s₅.nonPaging.objs = s₂.nonPaging.objs
      rw [hnp]
    have h₅ := h₂.trans (.of_nonCommit h₂.ready (congrArg dropDirty hnp))
    obtain ⟨_, s₆, hlist, hrest⟩ := bind_eq_ok.1 hrest
    have hmodify : Ensures (VmFrame gone)
      (modifyVmm m fun v => { v with head := v.head.erase a }) :=
      modifyVmm_vmFrame fun _ => rfl
    have h₆ := h₅.trans (hmodify _ _ _ hlist h₅.ready)
    obtain ⟨v', hv', rfl⟩ := modifyVmm_eq_ok.1 hlist
    obtain ⟨freed, s₇, hkfree, hrest⟩ := bind_eq_ok.1 hrest
    cases hrest
    refine h₆.trans (kfree_vmStep h₆.ready hlt ?_ (fun v'' hv'' => ?_) hkfree)
    · rw [h₆.records, ← h₁.records, hnone]
    · have hne : a ≠ m := by
        rintro rfl
        rw [hobjs, hvas₂] at hv'
        cases hv'
      simp only [KState.setObj, if_neg hne, hobjs, hvas₂] at hv''
      cases hv''

/-! ## Managers -/

/-- The loop of `kvmm_delete` deletes no manager. -/
theorem freeAll_vmFrame (m n : Nat) : Ensures (VmFrame gone) (freeAll m n) := by
  induction n with
  | zero => exact .bind (Fixes.getVmm _).vmFrame fun _ => .ite (.pure _) (.halt _)
  | succ n ih =>
    refine .bind (Fixes.getVmm _).vmFrame fun v => ?_
    cases v.head with
    | nil => exact .pure _
    | cons a l =>
      refine .bind (Fixes.getVas _).vmFrame fun _ => .bind (kvmmFree_vmFrame _ _) fun _ => ?_
      exact .ite ih (.halt _)

/-- `kvmm_delete` deletes its manager and no other. -/
theorem kvmmDelete_vmFrame (m : Nat) : Ensures (VmFrame (· = m)) (kvmmDelete m) := by
  intro s ok s' hrun hready
  obtain ⟨v, hv, hrest⟩ := getVmm_bind_eq_ok.1 hrun
  rcases ite_eq_ok.1 hrest with ⟨-, hrest⟩ | ⟨-, hrest⟩
  · exact (returnError_fixes _ _).commit.vmFrame _ _ _ hrest hready
  have hlt := hready.lt (a := m) (by rw [hv]; simp)
  have hnone : s.records m = none := records_eq_none.2 fun o ho => by
    rw [hv] at ho
    cases ho
    rfl
  obtain ⟨_, s₁, hall, hrest⟩ := bind_eq_ok.1 hrest
  obtain ⟨freed, s₂, hkfree, hrest⟩ := bind_eq_ok.1 hrest
  cases hrest
  have h₁ : VmStep (· = m) _ _ :=
    freeAll_vmFrame _ _ _ _ _ hall hready
  exact h₁.trans (kfree_vmStep h₁.ready hlt (h₁.records ▸ hnone) (fun _ _ => rfl) hkfree)

/-- `kvmm_new`. -/
theorem kvmmNew_vmFrame (start end_ pd : Nat) (reg : KernelPhysicalMemoryRegions)
    (freshDirty : Bool) : Ensures (VmFrame gone) (kvmmNew start end_ pd reg freshDirty) := by
  refine .ite (returnError_fixes _ _).commit.vmFrame ?_
  refine .bind (Fixes.kAssert _ _).vmFrame fun _ => ?_
  intro s a s' hrun hready
  simp only [get_bind_apply, hready.phase, if_true] at hrun
  exact kmallocObj_vmFrame rfl _ _ _ hrun hready

end MeghaOS
