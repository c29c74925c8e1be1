import MeghaOS.Proof.HeapRun

/-!
# Runs of a manager

From `kvmm_new` on, the address spaces of a manager stay in order through every sequence of calls of
`kvmm_memmap`, `kvmm_free` and `kvmm_commitPage`, with other kernel code running in between, as long
as each reservation that `addNewVirtualAddressSpace` does not refuse fits (`MemmapFits`). Without
this condition they do not: the code accepts a range around an address space.
-/

namespace MeghaOS

open Exec KState

variable {s s' : KState} {m a va : Nat} {v : VMemoryManager} {rs : List VMemoryAddressSpace}

/-! ## Calls -/

/-- A call on a manager. -/
inductive VmmCall
  | memmap (va : Nat) (pa : Option Nat) (szPages flags : Nat)
  | free (startVa : Nat)
  | commitPage (va : Nat)

/-- Run a call on the manager at `m`, without its result. -/
def VmmCall.exec (m : Nat) : VmmCall → K Unit
  | memmap va pa szPages flags => do let _ ← kvmmMemmap m va pa szPages flags
  | free startVa => do let _ ← kvmmFree m startVa
  | commitPage va => do let _ ← kvmmCommitPage m va

/-- The manager at `m` is `v`, and the records of its address spaces, in order, are `rs`. -/
structure Manages (s : KState) (m : Nat) (v : VMemoryManager) (rs : List VMemoryAddressSpace) :
    Prop where
  vmm : s.objs m = some (.vmm v)
  vas : List.Forall₂ (fun a r => s.objs a = some (.vas r)) v.head rs

/-- The range that a call reserves is refused, or it fits. -/
def VmmCall.Fits (s : KState) (m : Nat) : VmmCall → Prop
  | memmap va _ szPages _ => ∀ v rs va', Manages s m v rs → ResolvesTo s m va szPages va' →
      MemmapFits v rs va' szPages
  | free _ | commitPage _ => True

/-- The address spaces of the manager are page aligned, not empty, sorted, disjoint, and inside its
range. -/
def VasInOrder (s : KState) (m : Nat) : Prop :=
  ∃ v rs, Manages s m v rs ∧ VasLayout v rs ∧ ∀ r ∈ rs, r.startVm % pageFrameSizeBytes = 0 ∧
    r.allocationSzBytes % pageFrameSizeBytes = 0

/-- New records lie where there is none: in the heap when it is ready, and else in static memory. -/
def AllocOk (s : KState) : Prop :=
  s.phase.check .kmallocReady = true ∧ (∃ alloc, HeapOk s alloc) ∨
    s.phase.check .kmallocReady = false ∧ SallocOk s

/-- The manager at `m` is kept, up to its dirty flag, and so are the records of its address
spaces. -/
def KeepsManager (s s' : KState) (m : Nat) : Prop :=
  ∃ v dirty, s.objs m = some (.vmm v) ∧
    s'.objs m = some (.vmm { v with isPageDirectoryDirty := dirty }) ∧
      ∀ a ∈ v.head, s'.objs a = s.objs a

/-- The runs of the manager at `m` since `kvmm_new`, whose calls all satisfy a condition. -/
inductive VmmRun (P : KState → Nat → VmmCall → Prop) (m : Nat) : KState → Prop
  | new {start end_ pd : Nat} {reg : KernelPhysicalMemoryRegions} {freshDirty : Bool}
      {s s' : KState} :
      AllocOk s → end_ < 2 ^ 32 → kvmmNew start end_ pd reg freshDirty s = .ok (m, s') → m ≠ 0 →
        VmmRun P m s'
  | call {c : VmmCall} {s s' : KState} :
      VmmRun P m s → P s m c → c.exec m s = .ok ((), s') → VmmRun P m s'
  | other {s s' : KState} :
      VmmRun P m s → AllocOk s' → KeepsManager s s' m → VmmRun P m s'

/-! ## New records -/

/-- Committing pages leaves the static allocator. -/
theorem sallocNext_of_nonCommit (h : s'.nonCommit = s.nonCommit) :
    s'.sallocNext = s.sallocNext := by
  show s'.nonCommit.sallocNext = s.nonCommit.sallocNext
  rw [h]

namespace AllocOk

/-- It leaves the heap too. -/
theorem of_nonCommit (h : AllocOk s) (hnc : s'.nonCommit = s.nonCommit) : AllocOk s' := by
  have hphase := phase_of_nonCommit hnc
  rcases h with ⟨hready, alloc, hs⟩ | ⟨hready, hs⟩
  · exact .inl ⟨hphase ▸ hready, alloc, hs.of_nonCommit hnc⟩
  · exact .inr ⟨hphase ▸ hready, hs.congr (sallocNext_of_nonCommit hnc) fun a ha hnone =>
      ha ((objs_none_of_nonCommit hnc).2 hnone)⟩

/-- Writing a record leaves the allocators. -/
theorem setObj (h : AllocOk s) {o : Obj} (ha : s.objs a ≠ none) : AllocOk (s.setObj a o) := by
  rcases h with ⟨hready, alloc, hs⟩ | ⟨hready, hs⟩
  · exact .inl ⟨hready, alloc, hs.setObj ha⟩
  · obtain ⟨hlo, hhi⟩ := hs.objs a ha
    exact .inr ⟨hready, hs.setObj hlo hhi⟩

end AllocOk

/-- A new address space lies where no other record does. -/
theorem createNewVirtAddrSpace_alloc {szBytes flags : Nat} (hs : AllocOk s) (hv : VmmOk s m v rs)
    (h : createNewVirtAddrSpace va szBytes flags s = .ok (a, s')) :
    (a = 0 ∧ ∃ e, s' = { s with errorNumber := e }) ∨
      isAligned szBytes pageFrameSizeBytes = true ∧ a ∉ v.head ∧ AllocOk s' ∧ ∃ st dirty,
        s'.objs a = some (.vas ⟨st, flags, va, szBytes, 0⟩) ∧
          VmmOk s' m { v with isPageDirectoryDirty := dirty } rs := by
  have hfresh : s.objs a = none → a ∉ v.head := fun hnone hmem => by
    obtain ⟨r, -, hr⟩ := hv.objs_head hmem
    rw [hnone] at hr
    cases hr
  rcases hs with ⟨hready, alloc, hs⟩ | ⟨hready, hs⟩
  · rcases createNewVirtAddrSpace_spec hs hready h with herr | ⟨hal, node, s₁, s₂, rfl, hall, rfl⟩
    · exact .inl herr
    · obtain ⟨dirty, hv'⟩ := hv.of_allocated hs hall (newVas va szBytes flags)
      have hready' : s₂.phase.check .kmallocReady = true := hall.phase_eq ▸ hready
      exact .inr ⟨hal, hfresh (hall.objs_none hs), .inl ⟨hready', _, hall.setObj _⟩, false, dirty,
        if_pos rfl, hv'⟩
  · rcases createNewVirtAddrSpace_static hs hready h with herr | ⟨hal, rfl, -, hs', next, rfl⟩
    · exact .inl herr
    · exact .inr ⟨hal, hfresh hs.objs_next, .inr ⟨hready, hs'⟩, true, v.isPageDirectoryDirty,
        if_pos rfl, hv.of_salloc hs _ _⟩

/-! ## What a call keeps -/

/-- What a run of calls on a manager keeps. -/
structure VmmInv (s : KState) (m start end_ : Nat) : Prop where
  allocOk : AllocOk s
  vmmOk : ∃ v rs, VmmOk s m v rs ∧ v.start = start ∧ v.end_ = end_
  le : start ≤ end_

namespace VmmInv

variable {start end_ : Nat}

/-- Committing pages keeps the invariant. -/
theorem of_nonCommit (h : VmmInv s m start end_) (hnc : s'.nonCommit = s.nonCommit) :
    VmmInv s' m start end_ where
  allocOk := h.allocOk.of_nonCommit hnc
  vmmOk := by
    obtain ⟨v, rs, hv, hstart, hend⟩ := h.vmmOk
    obtain ⟨dirty, hv'⟩ := hv.of_nonCommit hnc
    exact ⟨_, rs, hv', hstart, hend⟩
  le := h.le

/-- A failed call only sets the error number. -/
theorem error (h : VmmInv s m start end_) (e : KernelErrorCodes) :
    VmmInv { s with errorNumber := e } m start end_ := h.of_nonCommit rfl

/-- A new entry keeps the invariant when it fits. -/
theorem addNewVirtualAddressSpace (h : VmmInv s m start end_) {szPages flags : Nat}
    (hfits : ∀ v rs, Manages s m v rs → MemmapFits v rs va szPages)
    (hrun : MeghaOS.addNewVirtualAddressSpace m va szPages flags s = .ok (a, s')) :
    VmmInv s' m start end_ := by
  obtain ⟨v, rs, hv, hstart, hend⟩ := h.vmmOk
  rcases addNewVirtualAddressSpace_parts hv.vmm hrun with ⟨-, -, e, rfl⟩ | ⟨hin, new,
    s₃, hnew, hrest⟩
  · exact h.error e
  rcases createNewVirtAddrSpace_alloc h.allocOk hv hnew with ⟨rfl, e, rfl⟩ |
    ⟨hal, hfresh, halloc₃, st, dirty, hobj, hv₃⟩
  · rcases hrest with ⟨-, -, rfl⟩ | ⟨hne, -⟩
    · exact h.error e
    · exact absurd rfl hne
  have h₃ : VmmInv s₃ m start end_ := ⟨halloc₃, ⟨_, rs, hv₃, hstart, hend⟩, h.le⟩
  rcases hrest with ⟨-, -, rfl⟩ | ⟨-, henter⟩
  · exact h₃
  have hfit : MemmapFits { v with isPageDirectoryDirty := dirty } rs va szPages :=
    (hfits v rs ⟨hv.vmm, hv.vas⟩).congr rfl rfl
  rcases enterVas_vmmOk hv₃ hobj hfresh hal hin hfit henter with
    ⟨-, e, rfl⟩ | ⟨-, head, rs', rfl, hv'⟩
  · exact h₃.error e
  · exact ⟨halloc₃.setObj (by rw [hv₃.vmm]; simp), ⟨_, rs', hv', hstart, hend⟩, h.le⟩

/-- So does `kvmm_memmap`. -/
theorem memmap (h : VmmInv s m start end_) {pa : Option Nat} {szPages flags : Nat}
    {r : Nat × Option Nat} (hfits : (VmmCall.memmap va pa szPages flags).Fits s m)
    (hrun : kvmmMemmap m va pa szPages flags s = .ok (r, s')) : VmmInv s' m start end_ := by
  obtain ⟨v, rs, hv, hstart, hend⟩ := h.vmmOk
  have hle : v.start ≤ v.end_ := by
    rw [hstart, hend]
    exact h.le
  obtain ⟨va', a, s₁, hva, hadd, hrest⟩ := kvmmMemmap_parts hrun
  have h₁ := h.addNewVirtualAddressSpace (fun v rs hm => hfits v rs va' hm hva) hadd
  rcases hrest with ⟨-, -, rfl⟩ | ⟨-, -, -, rfl⟩ | ⟨-, -, done, out, hcommit, -⟩
  · exact h₁
  · exact h₁
  · exact h₁.of_nonCommit (commitVirtualPages_fixes _ _ _ _ _ s₁ _ s' hcommit)

/-- And so does `kvmm_free`. -/
theorem free (h : VmmInv s m start end_) {startVa : Nat} {ok : Bool}
    (hrun : kvmmFree m startVa s = .ok (ok, s')) : VmmInv s' m start end_ := by
  obtain ⟨v, rs, hv, hstart, hend⟩ := h.vmmOk
  rcases h.allocOk with ⟨hready, alloc, hs⟩ | ⟨hready, hs⟩
  · obtain ⟨hphase, halloc', v', rs', hv', hstart', hend'⟩ := kvmmFree_vmmOk hs hv hrun
    exact ⟨.inl ⟨hphase ▸ hready, halloc'⟩, ⟨v', rs', hv', hstart'.trans hstart,
      hend'.trans hend⟩, h.le⟩
  -- before the heap is ready only a call that fails returns: `kfree` validates the phase
  · rcases kvmmFree_parts hv hrun with ⟨-, e, rfl⟩ |
      ⟨-, a, -, r, -, -, -, -, -, pd, s₁, s₂, s₃, freed, hmap, hfree, hunmap, hkfree⟩
    · exact h.error e
    · rw [kfree, kernelPhaseValidate_bind_eq_ok] at hkfree
      have hnp : s₃.nonPaging = s.nonPaging := by
        rw [kpgTemporaryUnmap_fixes _ _ _ hunmap, freePagesFrom_fixes _ _ _ _ _ _ _ hfree,
          kpgTemporaryMap_fixes _ _ _ _ hmap]
      have hphase : s₃.phase = s.phase := phase_of_nonCommit (congrArg dropDirty hnp)
      have hcheck : s₃.phase.check .kmallocReady = true := hkfree.1
      rw [hphase, hready] at hcheck
      cases hcheck

/-- A call whose reservation fits keeps the address spaces in order. -/
theorem call (h : VmmInv s m start end_) {c : VmmCall} (hfits : c.Fits s m)
    (hrun : c.exec m s = .ok ((), s')) : VmmInv s' m start end_ := by
  cases c with
  | memmap va pa szPages flags =>
    obtain ⟨r, s₁, hcall, hrest⟩ := bind_eq_ok.1 hrun
    cases hrest
    exact h.memmap hfits hcall
  | free startVa =>
    obtain ⟨ok, s₁, hcall, hrest⟩ := bind_eq_ok.1 hrun
    cases hrest
    exact h.free hcall
  | commitPage va =>
    obtain ⟨ok, s₁, hcall, hrest⟩ := bind_eq_ok.1 hrun
    cases hrest
    exact h.of_nonCommit (kvmmCommitPage_fixes _ _ _ _ _ hcall)

/-- The invariant has the list in order. -/
theorem vasInOrder (h : VmmInv s m start end_) : VasInOrder s m := by
  obtain ⟨v, rs, hv, -, -⟩ := h.vmmOk
  exact ⟨v, rs, ⟨hv.vmm, hv.vas⟩, hv.layout, hv.aligned⟩

end VmmInv

/-! ## Runs -/

/-- A new manager has no address space. -/
theorem kvmmNew_vmmInv {start end_ pd : Nat} {reg : KernelPhysicalMemoryRegions} {freshDirty : Bool}
    (hs : AllocOk s) (hend : end_ < 2 ^ 32)
    (h : kvmmNew start end_ pd reg freshDirty s = .ok (m, s')) (hm : m ≠ 0) :
    VmmInv s' m start end_ := by
  rw [kvmmNew] at h
  rcases ite_eq_ok.1 h with ⟨-, h⟩ | ⟨hlt, h⟩
  · exact absurd (returnError_eq_ok.1 h).1 hm
  rw [kAssert_bind_eq_ok, get_bind_apply] at h
  have hempty : ∀ st, s'.objs m = some (.vmm ⟨start, end_, st, pd, freshDirty, reg, []⟩) →
      ∃ v rs, VmmOk s' m v rs ∧ v.start = start ∧ v.end_ = end_ := fun st hobj =>
    ⟨_, [], ⟨hobj, .nil, .nil, Layout.nil, by simp, by simp, hend⟩, rfl, rfl⟩
  rcases hs with ⟨hready, alloc, hs⟩ | ⟨hready, hs⟩
  · simp only [hready, if_true] at h
    rcases kmallocObj_spec hs h.2 with ⟨hzero, -⟩ | ⟨node, s₁, s₂, rfl, hall, rfl⟩
    · exact absurd hzero hm
    · have hready' : s₂.phase.check .kmallocReady = true := hall.phase_eq ▸ hready
      exact ⟨.inl ⟨hready', _, hall.setObj _⟩, hempty false (if_pos rfl), by omega⟩
  · simp only [hready, Bool.false_eq_true, if_false] at h
    rcases sallocObj_spec hs (fun h => ksalloc_spec hs.lower hs.upper h) h.2 with ⟨hzero, -⟩ |
      ⟨rfl, -, hs', next, rfl⟩
    · exact absurd hzero hm
    · exact ⟨.inr ⟨hready, hs'⟩, hempty true (if_pos rfl), by omega⟩

/-- It holds at the end of every run. -/
theorem VmmRun.inv (h : VmmRun VmmCall.Fits m s) : ∃ start end_, VmmInv s m start end_ := by
  induction h with
  | new hs hend hnew hm => exact ⟨_, _, kvmmNew_vmmInv hs hend hnew hm⟩
  | call _ hfits hrun ih =>
    obtain ⟨start, end_, hinv⟩ := ih
    exact ⟨start, end_, hinv.call hfits hrun⟩
  | other _ halloc hkeep ih =>
    obtain ⟨start, end_, hinv⟩ := ih
    obtain ⟨v, rs, hv, hstart, hend⟩ := hinv.vmmOk
    obtain ⟨v', dirty, hvmm, hvmm', hvas⟩ := hkeep
    obtain rfl : v = v' := by
      rw [hv.vmm] at hvmm
      cases hvmm
      rfl
    exact ⟨start, end_, halloc, ⟨_, rs, hv.congr hvmm' hvas, hstart, hend⟩, hinv.le⟩

/-- After every run whose reservations fit or are refused, the address spaces are in order. -/
theorem vmm_run_vasInOrder (h : VmmRun VmmCall.Fits m s) : VasInOrder s m := by
  obtain ⟨start, end_, hinv⟩ := h.inv
  exact hinv.vasInOrder

/-! ## A range around an address space -/

/-- The starts and sizes of the address spaces of a manager. -/
def vasRanges (s : KState) (m : Nat) : Option (List (Nat × Nat)) :=
  match s.objs m with
  | some (.vmm v) => v.head.mapM fun a =>
    match s.objs a with
    | some (.vas r) => some (r.startVm, r.allocationSzBytes)
    | _ => none
  | _ => none

/-- The ranges of the list are those of its entries. -/
theorem Manages.vasRanges_eq (h : Manages s m v rs) :
    vasRanges s m = some (rs.map fun r => (r.startVm, r.allocationSzBytes)) := by
  obtain ⟨hvmm, hvas⟩ := h
  rw [vasRanges, hvmm]
  dsimp only
  generalize v.head = l at hvas
  induction hvas with
  | nil => rfl
  | cons har _ ih => simp [List.mapM_cons, har, ih]

/-- The address of the manager on the small machine. -/
def smallMachineVmm : Nat := 0xC0047020

/-- The small machine with a manager of the user half. -/
def smallMachineNewVmm : KState :=
  (kvmmNew memStartProcessMemory memEndProcessMemory 0x50000 .pmmRegionAny false).finalState
    smallMachineHeap

/-- One page is reserved. -/
def smallMachineOnePage : KState :=
  ((VmmCall.memmap 0x5000 none 1 0).exec smallMachineVmm).finalState smallMachineNewVmm

/-- Three pages around it are reserved too. -/
def smallMachineEnclosed : KState :=
  ((VmmCall.memmap 0x4000 none 3 0).exec smallMachineVmm).finalState smallMachineOnePage

set_option maxRecDepth 100000 in
/-- The heap of the small machine is in order. -/
theorem smallMachine_allocOk : AllocOk smallMachineHeap := by
  have hmain : kernelMainMemory smallMachine.files false
      (entryState smallMachine fun _ _ => Entry.zero) = .ok ((), smallMachineMemory) :=
    eq_ok_finalState (by decide +kernel)
  have hinit : kmallocInit smallMachineMemory = .ok ((), smallMachineHeap) :=
    eq_ok_finalState (by decide +kernel)
  obtain ⟨hphase, -, v, rs, hready⟩ := kernelMainHeap_spec hmain hinit
  exact .inl ⟨by rw [hphase]; rfl, _, hready.heapOk⟩

set_option maxRecDepth 100000 in
/-- A run starts with `kvmm_new`. -/
theorem smallMachine_newVmm (P : KState → Nat → VmmCall → Prop) :
    VmmRun P smallMachineVmm smallMachineNewVmm := by
  have hnew : kvmmNew memStartProcessMemory memEndProcessMemory 0x50000 .pmmRegionAny false
      smallMachineHeap = .ok (smallMachineVmm, smallMachineNewVmm) :=
        eq_ok_of_value (by decide +kernel)
  exact .new smallMachine_allocOk (by decide) hnew (by decide)

set_option maxRecDepth 100000 in
/-- The code reserves a range around an address space. -/
theorem vas_enclosed : ¬ ∀ m s, VmmRun (fun _ _ _ => True) m s → VasInOrder s m := by
  intro hall
  have hone : (VmmCall.memmap 0x5000 none 1 0).exec smallMachineVmm smallMachineNewVmm =
      .ok ((), smallMachineOnePage) := eq_ok_finalState (by decide +kernel)
  have hthree : (VmmCall.memmap 0x4000 none 3 0).exec smallMachineVmm smallMachineOnePage =
      .ok ((), smallMachineEnclosed) := eq_ok_finalState (by decide +kernel)
  have hrun : VmmRun (fun _ _ _ => True) smallMachineVmm smallMachineEnclosed :=
    .call (.call (smallMachine_newVmm _) trivial hone) trivial hthree
  obtain ⟨v, rs, hman, hlayout, -⟩ := hall _ _ hrun
  have hranges : vasRanges smallMachineEnclosed smallMachineVmm =
      some [(0x4000, 0x3000), (0x5000, 0x1000)] := by decide +kernel
  rw [hman.vasRanges_eq] at hranges
  obtain ⟨r₁, r₂, rfl, h₁, h₂⟩ : ∃ r₁ r₂, rs = [r₁, r₂] ∧
      (r₁.startVm, r₁.allocationSzBytes) = (0x4000, 0x3000) ∧
        (r₂.startVm, r₂.allocationSzBytes) = (0x5000, 0x1000) := by
    simpa [List.map_eq_cons_iff] using hranges
  have hpair := (List.pairwise_cons.1 hlayout.pairwise).1 r₂ (by simp)
  simp only [Prod.mk.injEq] at h₁ h₂
  omega

/-- A reservation ends inside the range of the manager, and lies around none of its address
spaces. -/
def fitsRanges (s : KState) (m va szPages : Nat) : Bool :=
  match s.objs m, vasRanges s m with
  | some (.vmm v), some ranges =>
    decide (0 < pageframesToBytes szPages ∧ va + pageframesToBytes szPages ≤ v.end_) &&
      ranges.all fun r => !decide (va < r.1 ∧ r.1 + r.2 < va + pageframesToBytes szPages)
  | _, _ => false

/-- Whether a call fits can be evaluated. -/
theorem VmmCall.fits_of_fitsRanges {pa : Option Nat} {szPages flags : Nat} (hva : va ≠ 0)
    (h : fitsRanges s m va szPages = true) : (VmmCall.memmap va pa szPages flags).Fits s m := by
  intro v rs va' hman hresolves
  obtain ⟨-, rfl⟩ := hresolves.resolve_right fun hzero => hva hzero.1
  rw [fitsRanges, hman.vmm, hman.vasRanges_eq] at h
  simp only [Bool.and_eq_true, decide_eq_true_eq, List.all_map, List.all_eq_true] at h
  exact fun _ _ => ⟨h.1.1, h.1.2, fun r hr hin => by simpa [hin] using h.2 r hr⟩

/-- Two ranges are reserved on the small machine. -/
def smallMachineTwoRanges : KState :=
  ((VmmCall.memmap 0x7000 none 3 0).exec smallMachineVmm).finalState
    (((VmmCall.memmap 0x5000 none 2 0).exec smallMachineVmm).finalState smallMachineNewVmm)

/-- The first of them is released, and a part of it is reserved again. -/
def smallMachineReused : KState :=
  ((VmmCall.memmap 0x6000 none 1 0).exec smallMachineVmm).finalState
    (((VmmCall.free 0x5000).exec smallMachineVmm).finalState smallMachineTwoRanges)

set_option maxRecDepth 100000 in
/-- A part of a range that was freed is reserved again. -/
theorem vmm_run_vasInOrder_reused :
    vasRanges smallMachineReused smallMachineVmm = some [(0x6000, 0x1000), (0x7000, 0x3000)] ∧
      VasInOrder smallMachineReused smallMachineVmm := by
  have htwo : (VmmCall.memmap 0x5000 none 2 0).exec smallMachineVmm smallMachineNewVmm =
      .ok ((), _) := eq_ok_finalState (by decide +kernel)
  have hthree : (VmmCall.memmap 0x7000 none 3 0).exec smallMachineVmm
      (((VmmCall.memmap 0x5000 none 2 0).exec smallMachineVmm).finalState smallMachineNewVmm) =
        .ok ((), smallMachineTwoRanges) := eq_ok_finalState (by decide +kernel)
  have hfree : (VmmCall.free 0x5000).exec smallMachineVmm smallMachineTwoRanges = .ok ((), _) :=
    eq_ok_finalState (by decide +kernel)
  have hone : (VmmCall.memmap 0x6000 none 1 0).exec smallMachineVmm
      (((VmmCall.free 0x5000).exec smallMachineVmm).finalState smallMachineTwoRanges) =
        .ok ((), smallMachineReused) := eq_ok_finalState (by decide +kernel)
  have h₁ := (smallMachine_newVmm VmmCall.Fits).call
    (VmmCall.fits_of_fitsRanges (by decide) (by decide +kernel)) htwo
  have h₂ := h₁.call (VmmCall.fits_of_fitsRanges (by decide) (by decide +kernel)) hthree
  have h₃ := h₂.call (c := .free 0x5000) trivial hfree
  have h₄ := h₃.call (VmmCall.fits_of_fitsRanges (by decide) (by decide +kernel)) hone
  exact ⟨by decide +kernel, vmm_run_vasInOrder h₄⟩

end MeghaOS
