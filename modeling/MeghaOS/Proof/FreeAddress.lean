import MeghaOS.Proof.FreePages
import MeghaOS.Proof.Memmap

/-!
# The address that `kvmm_free` is given

`kvmm_free` finds the address space that an address lies in, and then frees as many pages as the
address space has from that address on, not from its start. `kvmmFree_exact` says for which
addresses these are the pages of the address space: the pages in front of the address, and the pages
behind the address space that the loop reaches instead of them, must not be mapped.
-/

namespace MeghaOS

open Exec KState

variable {s s' s₁ s₂ : KState} {d i m a x va n : Nat} {v : VMemoryManager} {r : VMemoryAddressSpace}
  {rs : List VMemoryAddressSpace} {alloc l : List Nat}

/-! ## The addresses that are visited -/

theorem visitedAddresses_eq (hva : va < 2 ^ 32) :
    visitedAddresses n va = (List.range n).map fun i => u32 (va + i * 4096) := by
  induction n generalizing va with
  | zero => rfl
  | succ n ih =>
    have hnext : u32 (va + pageFrameSizeBytes) < 2 ^ 32 := Nat.mod_lt _ (by decide)
    rw [visitedAddresses, ih hnext, List.range_succ_eq_map, List.map_cons, List.map_map]
    have hzero : u32 (va + 0 * 4096) = va := by
      rw [Nat.zero_mul, Nat.add_zero]
      exact Nat.mod_eq_of_lt hva
    rw [hzero]
    refine congrArg (va :: ·) (List.map_congr_left fun i _ => ?_)
    simp only [Function.comp_apply, u32, pageFrameSizeBytes]
    omega

/-- As many addresses as there are pages, at most, lie in different pages. -/
theorem visitedAddresses_pages (hva : va < 2 ^ 32) (hn : n ≤ 2 ^ 20) :
    (visitedAddresses n va).Pairwise fun va va' => va' / 4096 ≠ va / 4096 := by
  rw [visitedAddresses_eq hva, List.pairwise_map]
  refine List.Pairwise.imp_of_mem (fun {i j} hi hj hlt => ?_) List.pairwise_lt_range
  have hi' := List.mem_range.1 hi
  have hj' := List.mem_range.1 hj
  unfold u32
  omega

theorem visitedAddresses_lt (hva : va < 2 ^ 32) (hx : x ∈ visitedAddresses n va) : x < 2 ^ 32 := by
  rw [visitedAddresses_eq hva, List.mem_map] at hx
  obtain ⟨i, -, rfl⟩ := hx
  exact Nat.mod_lt _ (by decide)

/-! ## The call -/

/-- The state with the page directory at frame `d` in the external temporary mapping. -/
def KState.opened (s : KState) (d : Nat) : KState := { s with tempExt := some d }

/-- The address that the page directory at frame `d` maps an address to. -/
def KState.mapping (s : KState) (d va : Nat) : Option Nat := (s.opened d).lookup .temp va

/-- The manager has its list in order, its range ends below the recursive mapping, and its page
directory is the one at frame `d`. The records of the address spaces that are not static are blocks
of the heap. -/
structure ManagesDirectory (s : KState) (m : Nat) (v : VMemoryManager)
    (rs : List VMemoryAddressSpace)
    (alloc : List Nat) (d : Nat) : Prop where
  heapOk : HeapOk s alloc
  phase : s.phase.check .kmallocReady = true
  vmmOk : VmmOk s m v rs
  below : v.end_ ≤ 0xFFC00000
  frame : d < 2 ^ 20
  pd : v.parentProcessPD = d * 4096
  closed : s.tempExt = none
  directory : OpenDirectory d (s.opened d)
  blocks : ∀ a ∈ v.head, ∀ r, s.objs a = some (.vas r) → r.isStaticAllocated = false →
    IsBlock alloc a

/-- The page frames are managed when the heap is ready. -/
theorem pmmReady_of_kmallocReady {p : KernelPhase} (h : p.check .kmallocReady = true) :
    p.check .pmmReady = true := by
  simp only [KernelPhase.check, decide_eq_true_eq] at h ⊢
  exact Nat.le_trans (by decide) h

/-- Opening the page directory of a manager. -/
theorem kpgTemporaryMap_opens {pd : Nat} (hframe : d < 2 ^ 20) (hpd : pd = d * 4096)
    (hext : s.tempExt = none) : kpgTemporaryMap pd s = .ok (.temp, s.opened d) := by
  have hal : ¬ isAligned pd pageFrameSizeBytes = false := by
    rw [isAligned_page_iff.2 (hpd ▸ Nat.mul_mod_left d 4096)]
    decide
  have hd : physicalToPageframe pd = d := by
    rw [hpd, physicalToPageframe_eq, Nat.mul_div_cancel d (by decide), Nat.mod_eq_of_lt hframe]
  rw [kpgTemporaryMap, if_neg hal, get_bind_apply, if_neg (by simp [hext]), modify_bind_apply, hd]
  rfl

/-- The rest of `kvmm_free` when the page directory is open. -/
def releaseVas (m x n a : Nat) : K Bool := do
  freePagesFrom .temp 0 n a
  kpgTemporaryUnmap
  modifyVmm m fun v => { v with head := v.head.erase x }
  let _ ← kfree x
  return true

/-- `kvmm_free` of an address that lies in a dynamic address space. -/
theorem kvmmFree_found (h : ManagesDirectory s m v rs alloc d)
    (hfind : findVas m a s = .ok (some x, s))
    (hx : s.objs x = some (.vas r)) (hdyn : r.isStaticAllocated = false) (hshare : r.share = 0)
    (ha : a ≠ 0) :
    kvmmFree m a s = releaseVas m x (bytesToPageframesCeiling r.allocationSzBytes) a
      (s.opened d) := by
  have hvas : getVas x s = .ok (r, s) := getVas_eq_ok.2 ⟨hx, rfl⟩
  have hvmm : getVmm m s = .ok (v, s) := getVmm_eq_ok.2 ⟨h.vmmOk.vmm, rfl⟩
  have hmap : kpgTemporaryMap v.parentProcessPD s = .ok (.temp, s.opened d) :=
    kpgTemporaryMap_opens h.frame h.pd h.closed
  rw [kvmmFree, kAssert, if_pos ha, pure_bind, bind_of_ok hfind]
  dsimp only
  rw [bind_of_ok hvas, if_neg (by simp [hdyn]), when_false (by simp [hshare]), pure_bind,
    bind_of_ok hvmm, bind_of_ok hmap, hshare]
  rfl

/-- The state behind `kvmm_free`, from the one behind its loop: the external mapping is closed, the
address space is out of the list, and its record is released. -/
def KState.without (s : KState) (m x : Nat) (v : VMemoryManager) (heap : KHeap) : KState :=
  KState.release
    { KState.setObj { s with tempExt := none } m (.vmm { v with head := v.head.erase x }) with
      heap }
    x

/-- When the loop has left the external mapping open, the rest of the call succeeds. -/
theorem releaseVas_returns (h : ManagesDirectory s m v rs alloc d)
    (hblock : IsBlock alloc x) (hrun : freePagesFrom .temp 0 n a (s.opened d) = .ok ((), s₂))
    (hext : s₂.tempExt ≠ none) :
    ∃ heap, releaseVas m x n a (s.opened d) = .ok (true, s₂.without m x v heap) := by
  have hnp : s₂.nonPaging = (s.opened d).nonPaging := freePagesFrom_fixes _ _ _ _ _ _ _ hrun
  replace hnp : s₂.nonPaging = s.nonPaging := hnp
  have hvmm : ({ s₂ with tempExt := none } : KState).objs m = some (.vmm v) := by
    show s₂.nonPaging.objs m = _
    rw [hnp]
    exact h.vmmOk.vmm
  have hnc : ({ s₂ with tempExt := none } : KState).nonCommit = s.nonCommit :=
    congrArg dropDirty hnp
  have hheap := (h.heapOk.of_nonCommit hnc).setObj (o := .vmm { v with head := v.head.erase x })
    (by rw [hvmm]; simp)
  have hphase : (KState.setObj { s₂ with tempExt := none } m
      (.vmm { v with head := v.head.erase x })).phase.check .kmallocReady = true := by
    show s₂.nonPaging.phase.check .kmallocReady = true
    rw [hnp]
    exact h.phase
  obtain ⟨heap, hfree⟩ := kfree_of_block hheap hphase hblock
  have hunmap : kpgTemporaryUnmap s₂ = .ok ((), { s₂ with tempExt := none }) := by
    rw [kpgTemporaryUnmap, get_bind_apply, if_neg hext]
    rfl
  refine ⟨heap, ?_⟩
  rw [releaseVas, bind_of_ok hrun, bind_of_ok hunmap, modifyVmm_bind_eq_ok]
  exact ⟨v, hvmm, (bind_of_ok hfree).trans rfl⟩

/-- A call that succeeds has left its loop with the external mapping open. -/
theorem releaseVas_parts (hrun : releaseVas m x n a s = .ok (true, s')) :
    ∃ s₂, freePagesFrom .temp 0 n a s = .ok ((), s₂) ∧ s₂.tempExt ≠ none := by
  obtain ⟨_, s₂, hfree, hrest⟩ := bind_eq_ok.1 hrun
  refine ⟨s₂, hfree, fun hnone => ?_⟩
  obtain ⟨_, s₃, hunmap, -⟩ := bind_eq_ok.1 hrest
  rw [kpgTemporaryUnmap, get_bind_apply, if_pos hnone] at hunmap
  cases hunmap

/-! ## The effect of the call -/

/-- The call took the address space out of the list and released its record, unmapped its pages, and
freed the page frames that they were mapped to. It changed no other record, mapping or page
frame. -/
structure VasReleased (d m x : Nat) (v : VMemoryManager) (r : VMemoryAddressSpace) (s s' : KState) :
    Prop where
  list : s'.objs m = some (.vmm { v with head := v.head.erase x })
  record : s'.objs x = none
  records : ∀ b, b ≠ m → b ≠ x → s'.objs b = s.objs b
  pages : ∀ va, r.Covers va → s'.mapping d va = none
  mappings : ∀ va, va < 2 ^ 32 → ¬ r.Covers va → s'.mapping d va = s.mapping d va
  freed : ∀ f, (∃ va, r.Covers va ∧ va % 4096 = 0 ∧ s.mapping d va = some (f * 4096)) →
    s'.frameState f = pmmStateFree
  frames : ∀ f, ¬ (∃ va, r.Covers va ∧ va % 4096 = 0 ∧ s.mapping d va = some (f * 4096)) →
    s'.frameState f = s.frameState f

/-- The pages that the loop reaches from the address `a` are those of the address space, but for
pages that are not mapped, and they can be freed. -/
structure VisitsItsPages (s : KState) (d a : Nat) (r : VMemoryAddressSpace) : Prop where
  nonzero : a ≠ 0
  inside : ∀ va ∈ visitedAddresses (bytesToPageframesCeiling r.allocationSzBytes) a,
    s.mapping d va ≠ none → r.Covers va
  all : ∀ va, r.Covers va → s.mapping d va ≠ none →
    ∃ va' ∈ visitedAddresses (bytesToPageframesCeiling r.allocationSzBytes) a,
      va / 4096 = va' / 4096
  freeable : (s.opened d).AllFreeable d
    (visitedAddresses (bytesToPageframesCeiling r.allocationSzBytes) a)

theorem without_objs {heap : KHeap} (b : Nat) : (s.without m x v heap).objs b =
    if b = x then none
    else if b = m then some (.vmm { v with head := v.head.erase x }) else s.objs b := rfl

/-- The loop visits no more pages than there are. -/
theorem bytesToPageframesCeiling_le (n : Nat) : bytesToPageframesCeiling n ≤ 2 ^ 20 :=
  Nat.le_trans Nat.and_le_right (by decide)

/-- The addresses that the call visits make a walk, if those that are mapped lie in the address
space. -/
theorem ManagesDirectory.walk (h : ManagesDirectory s m v rs alloc d) (hr : r ∈ rs)
    (ha : a < 2 ^ 32)
    (hinside : ∀ va ∈ visitedAddresses (bytesToPageframesCeiling r.allocationSzBytes) a,
      s.mapping d va ≠ none → r.Covers va) :
    (s.opened d).Walk (visitedAddresses (bytesToPageframesCeiling r.allocationSzBytes) a) where
  lt _ hva := visitedAddresses_lt ha hva
  pages := visitedAddresses_pages ha (bytesToPageframesCeiling_le _)
  below va hva hmapped := by
    have hin := (hinside va hva hmapped).2
    have hstop := h.vmmOk.layout.upper r hr
    have hend := h.below
    unfold pdeIndex
    simp only [recursivePdeIndex]
    omega

/-- What the call does when the loop has freed the pages that it visits and these are those of the
address space. -/
theorem PagesFreed.vasReleased {heap : KHeap} (h : ManagesDirectory s m v rs alloc d) (hr : r ∈ rs)
    (hx : s.objs x = some (.vas r)) (hrun : freePagesFrom .temp 0 n a (s.opened d) = .ok ((), s₂))
    (hfreed : PagesFreed d l (s.opened d) s₂)
    (hal : ∀ va ∈ l, s.mapping d va ≠ none → va % 4096 = 0)
    (hinside : ∀ va ∈ l, s.mapping d va ≠ none → r.Covers va)
    (hall : ∀ va, r.Covers va → s.mapping d va ≠ none → ∃ va' ∈ l, va / 4096 = va' / 4096) :
    VasReleased d m x v r s (s₂.without m x v heap) := by
  have hnp : s₂.nonPaging = (s.opened d).nonPaging := freePagesFrom_fixes _ _ _ _ _ _ _ hrun
  replace hnp : s₂.nonPaging = s.nonPaging := hnp
  have hobjs : s₂.objs = s.objs := by
    show s₂.nonPaging.objs = s.nonPaging.objs
    rw [hnp]
  have hmx : m ≠ x := fun heq => by
    have hvmm := h.vmmOk.vmm
    rw [heq, hx] at hvmm
    cases hvmm
  have hmap : ∀ va, (s₂.without m x v heap).mapping d va = s₂.lookup .temp va := fun va =>
    lookup_congr hfreed.openDirectory.ext hfreed.openDirectory.int rfl hfreed.openDirectory.int rfl
  have hvisited : ∀ f, (∃ va ∈ l, (s.opened d).lookup .temp va = some (f * 4096)) ↔
      ∃ va, r.Covers va ∧ va % 4096 = 0 ∧ s.mapping d va = some (f * 4096) := by
    intro f
    constructor
    · rintro ⟨va, hva, hf⟩
      have hmapped : s.mapping d va ≠ none := by
        rw [mapping, hf]
        simp
      exact ⟨va, hinside va hva hmapped, hal va hva hmapped, hf⟩
    · rintro ⟨va, hin, hal', hf⟩
      have hmapped : s.mapping d va ≠ none := by
        rw [hf]
        simp
      obtain ⟨va', hva', hpage⟩ := hall va hin hmapped
      have hmapped' : s.mapping d va' ≠ none := fun hnone =>
        hmapped (h.directory.lookup_none hpage hnone)
      have hal'' := hal va' hva' hmapped'
      obtain rfl : va = va' := by omega
      exact ⟨va, hva', hf⟩
  refine ⟨?_, ?_, fun b hbm hbx => ?_, fun va hin => ?_, fun va hlt hout => ?_, fun f hf => ?_,
    fun f hf => ?_⟩
  · rw [without_objs, if_neg hmx, if_pos rfl]
  · rw [without_objs, if_pos rfl]
  · rw [without_objs, if_neg hbx, if_neg hbm, hobjs]
  · rw [hmap]
    by_cases hmapped : s.mapping d va = none
    · by_cases hpage : ∃ va' ∈ l, va / 4096 = va' / 4096
      · obtain ⟨va', hva', heq⟩ := hpage
        exact hfreed.self va' hva' va heq
      · have hstop := h.vmmOk.stop_lt hr
        have hlt : va < 2 ^ 32 := Nat.lt_trans hin.2 hstop
        rw [hfreed.others va hlt fun va' hva' heq => hpage ⟨va', hva', heq⟩]
        exact hmapped
    · obtain ⟨va', hva', heq⟩ := hall va hin hmapped
      exact hfreed.self va' hva' va heq
  · rw [hmap]
    by_cases hpage : ∃ va' ∈ l, va / 4096 = va' / 4096
    · obtain ⟨va', hva', heq⟩ := hpage
      have hnone : s.mapping d va' = none := by
        by_contra hmapped
        have hin := hinside va' hva' hmapped
        have hal' := hal va' hva' hmapped
        have hrange := h.vmmOk.aligned r hr
        simp only [VMemoryAddressSpace.Covers, pageFrameSizeBytes] at hin hout hrange
        omega
      rw [hfreed.self va' hva' va heq]
      exact (h.directory.lookup_none heq hnone).symm
    · exact hfreed.others va hlt fun va' hva' heq => hpage ⟨va', hva', heq⟩
  · show s₂.frameState f = _
    rw [hfreed.frameState, if_pos ((hvisited f).2 hf)]
  · show s₂.frameState f = _
    rw [hfreed.frameState, if_neg fun hv => hf ((hvisited f).1 hv)]
    rfl

/-- `kvmm_free` of an address in a dynamic address space releases that address space, its pages and
its page frames, and nothing else, if and only if the pages that it visits are those of the address
space. -/
theorem kvmmFree_exact (h : ManagesDirectory s m v rs alloc d)
    (hfind : findVas m a s = .ok (some x, s))
    (hx : s.objs x = some (.vas r)) (hdyn : r.isStaticAllocated = false) :
    (∃ s', kvmmFree m a s = .ok (true, s') ∧ VasReleased d m x v r s s') ↔
      VisitsItsPages s d a r := by
  obtain ⟨r', hr, hhead, hx', hin⟩ := (findVas_spec h.vmmOk hfind).2.2 x rfl
  obtain rfl : r = r' := by
    rw [hx] at hx'
    cases hx'
    rfl
  have hblock := h.blocks x hhead r hx hdyn
  have ha : a < 2 ^ 32 := Nat.lt_trans hin.2 (h.vmmOk.stop_lt hr)
  have hshare := h.vmmOk.share r hr
  constructor
  · rintro ⟨s', hrun, hrel⟩
    have hnonzero : a ≠ 0 := by
      rw [kvmmFree, kAssert_bind_eq_ok] at hrun
      exact hrun.1
    rw [kvmmFree_found h hfind hx hdyn hshare hnonzero] at hrun
    obtain ⟨s₂, hloop, hext⟩ := releaseVas_parts hrun
    obtain ⟨heap, hrun'⟩ := releaseVas_returns h hblock hloop hext
    obtain rfl : s' = s₂.without m x v heap :=
      (Prod.mk.inj (Except.ok.inj (hrun.symm.trans hrun'))).2
    obtain ⟨hopen, hsub, hcleared⟩ := freePagesFrom_clears h.directory hloop hext
    have hmap : ∀ va, (s₂.without m x v heap).mapping d va = s₂.lookup .temp va := fun va =>
      lookup_congr hopen.ext hopen.int rfl hopen.int rfl
    have hinside : ∀ va ∈ visitedAddresses (bytesToPageframesCeiling r.allocationSzBytes) a,
        s.mapping d va ≠ none → r.Covers va := by
      intro va hva hmapped
      by_contra hout
      have hkept := hrel.mappings va (visitedAddresses_lt ha hva) hout
      rw [hmap, hcleared va hva] at hkept
      exact hmapped hkept.symm
    obtain ⟨hall, hfreed⟩ := freePagesFrom_pagesFreed h.directory (h.walk hr ha hinside) hloop hext
    refine ⟨hnonzero, hinside, fun va hva hmapped => ?_, hall⟩
    by_contra hno
    have hlt : va < 2 ^ 32 := Nat.lt_trans hva.2 (h.vmmOk.stop_lt hr)
    have hkept := hfreed.others va hlt fun va' hva' heq => hno ⟨va', hva', heq⟩
    rw [← hmap, hrel.pages va hva] at hkept
    exact hmapped hkept.symm
  · rintro ⟨hnonzero, hinside, hall, hfreeable⟩
    have hwalk := h.walk hr ha hinside
    obtain ⟨s₂, hloop, hext⟩ := freePagesFrom_returns h.directory hwalk hfreeable
    obtain ⟨heap, hrun⟩ := releaseVas_returns h hblock hloop hext
    have hfreed := (freePagesFrom_pagesFreed h.directory hwalk hloop hext).2
    refine ⟨_, (kvmmFree_found h hfind hx hdyn hshare hnonzero).trans hrun,
      hfreed.vasReleased h hr hx hloop (fun va hva hmapped => ?_) hinside hall⟩
    obtain ⟨pa, hpa⟩ := Option.ne_none_iff_exists'.1 hmapped
    exact (hfreeable.each va hva pa hpa).1

/-! ## Two pages, one of them committed -/

/-- Two pages are reserved on the small machine. -/
def smallMachineTwoPages : KState :=
  ((VmmCall.memmap 0x5000 none 2 0).exec smallMachineVmm).finalState smallMachineNewVmm

/-- The first one is committed. -/
def smallMachineCommitted : KState :=
  ((VmmCall.commitPage 0x5000).exec smallMachineVmm).finalState smallMachineTwoPages

/-- The record of the two pages. -/
def twoPages : VMemoryAddressSpace := ⟨false, 0, 0x5000, 0x2000, 0⟩

/-- The address of that record. -/
def smallMachineVas : Nat := 0xC004705C

set_option maxRecDepth 100000 in
/-- The manager is in order there. -/
theorem smallMachineCommitted_inv :
    VmmInv smallMachineCommitted smallMachineVmm memStartProcessMemory memEndProcessMemory := by
  have htwo : (VmmCall.memmap 0x5000 none 2 0).exec smallMachineVmm smallMachineNewVmm =
      .ok ((), smallMachineTwoPages) := eq_ok_finalState (by decide +kernel)
  have hcommit : (VmmCall.commitPage 0x5000).exec smallMachineVmm smallMachineTwoPages =
      .ok ((), smallMachineCommitted) := eq_ok_finalState (by decide +kernel)
  have hnew : kvmmNew memStartProcessMemory memEndProcessMemory 0x50000 .pmmRegionAny false
      smallMachineHeap = .ok (smallMachineVmm, smallMachineNewVmm) :=
        eq_ok_of_value (by decide +kernel)
  have hinv := kvmmNew_vmmInv smallMachine_allocOk (by decide) hnew (by decide)
  have hfits : (VmmCall.memmap 0x5000 none 2 0).Fits smallMachineNewVmm smallMachineVmm := by
    intro v rs va' hman hva
    obtain ⟨-, rfl⟩ := hva.resolve_right fun h => absurd h.1 (by decide)
    have hv := hman.vmm
    rw [smallMachineNewVmm_manages.vmm] at hv
    cases hv
    obtain rfl := List.forall₂_nil_left_iff.1 hman.vas
    exact fun _ _ => ⟨by decide, by decide, by simp⟩
  exact (hinv.call hfits htwo).call (c := .commitPage 0x5000) trivial hcommit

set_option maxRecDepth 100000 in
/-- What is in that state. -/
theorem smallMachineCommitted_values :
    (smallMachineCommitted.objs smallMachineVmm =
      some (.vmm ⟨memStartProcessMemory, memEndProcessMemory,
        false, 0x50000, true, .pmmRegionAny, [smallMachineVas]⟩) ∧
      smallMachineCommitted.objs smallMachineVas = some (.vas twoPages)) ∧
    (smallMachineCommitted.phase.check .kmallocReady = true ∧ smallMachineCommitted.tempExt = none ∧
      smallMachineCommitted.tempInt = none ∧ smallMachineCommitted.pab.bitsPerState =
        pabBitsPerState ∧
      smallMachineCommitted.pab.size = pabSizeBytes ∧
      (smallMachineCommitted.opened 0x50).Releasable 0x48) ∧
    (∀ i, i < 1024 → ((smallMachineCommitted.opened 0x50).entry 0x50 i).present = true → i = 0) ∧
    ((smallMachineCommitted.opened 0x50).entry 0x50 0).tableFrame = 0x49 ∧
    smallMachineCommitted.mapping 0x50 0x5000 = some 0x48000 ∧
    smallMachineCommitted.mapping 0x50 0x6000 = none := by decide +kernel

/-- Its page directory has one page table. -/
theorem smallMachineCommitted_directory :
    OpenDirectory 0x50 (smallMachineCommitted.opened 0x50) := by
  obtain ⟨-, ⟨hphase, -, hint, hbits, hsize, -⟩, hone, htable, -⟩ := smallMachineCommitted_values
  generalize smallMachineCommitted = s at *
  refine ⟨⟨hbits, hsize⟩, pmmReady_of_kmallocReady hphase, rfl, hint, by decide,
    fun i hi hp => ?_, fun i j hi hj hp hp' _ => ?_, fun hp => ?_⟩
  · obtain rfl := hone i (Nat.lt_of_lt_of_le hi (by decide)) hp
    rw [htable]
    decide
  · rw [hone i (Nat.lt_of_lt_of_le hi (by decide)) hp,
      hone j (Nat.lt_of_lt_of_le hj (by decide)) hp']
  · exact absurd (hone _ (by decide) hp) (by decide)

theorem smallMachineCommitted_manages : ∃ v rs alloc,
    ManagesDirectory smallMachineCommitted smallMachineVmm v rs alloc 0x50 := by
  have hinv := smallMachineCommitted_inv
  obtain ⟨v, rs, hv, -, hend⟩ := hinv.vmmOk
  obtain ⟨⟨hvmm, -⟩, ⟨hphase, hext, -⟩, -⟩ := smallMachineCommitted_values
  obtain ⟨alloc, hheap⟩ : ∃ alloc, HeapOk smallMachineCommitted alloc := by
    rcases hinv.allocOk with ⟨-, h⟩ | ⟨h, -⟩
    · exact h
    · rw [hphase] at h
      cases h
  have hrecord := hv.vmm
  rw [hvmm] at hrecord
  obtain rfl : _ = v := Obj.vmm.inj (Option.some.inj hrecord)
  refine ⟨_, rs, alloc, hheap, hphase, hv, by decide, by decide, rfl, hext,
    smallMachineCommitted_directory, fun a ha r hr hdyn => ?_⟩
  obtain rfl := List.mem_singleton.1 ha
  refine (hheap.objs smallMachineVas (by rw [hr]; simp)).resolve_left fun hstatic => ?_
  exact absurd hstatic.2 (by decide)

set_option maxRecDepth 100000 in
/-- Freed by the address of its first page, the address space is released. -/
theorem kvmmFree_exact_start : ∃ v s', kvmmFree smallMachineVmm 0x5000 smallMachineCommitted =
    .ok (true, s') ∧
    VasReleased 0x50 smallMachineVmm smallMachineVas v twoPages smallMachineCommitted s' := by
  obtain ⟨v, rs, alloc, h⟩ := smallMachineCommitted_manages
  have hfind := eq_ok_of_value (x := findVas smallMachineVmm 0x5000) (s := smallMachineCommitted)
    (a := some smallMachineVas) (by decide +kernel)
  rw [(findVas_spec h.vmmOk hfind).1] at hfind
  obtain ⟨⟨-, hrecord⟩, ⟨-, -, -, -, -, hrel⟩, -, htable, hfirst, hsecond⟩ :=
    smallMachineCommitted_values
  have hvisited : visitedAddresses (bytesToPageframesCeiling twoPages.allocationSzBytes) 0x5000 =
      [0x5000, 0x6000] := by decide
  obtain ⟨s', hrun⟩ := (kvmmFree_exact h hfind hrecord rfl).2
    { nonzero := by decide
      inside := by
        rw [hvisited]
        simp [VMemoryAddressSpace.Covers, twoPages]
      all := by
        intro va hin _
        rw [hvisited]
        simp only [VMemoryAddressSpace.Covers, twoPages] at hin
        by_cases hva : va < 0x6000
        · exact ⟨0x5000, by simp, by omega⟩
        · exact ⟨0x6000, by simp, by omega⟩
      freeable := by
        rw [hvisited]
        refine ⟨fun va hva pa hpa => ?_, List.pairwise_pair.2 fun _ => ?_⟩
        · rcases List.mem_pair.1 hva with rfl | rfl
          · obtain rfl : 0x48000 = pa := Option.some.inj (hfirst.symm.trans hpa)
            exact ⟨by decide, fun hslot => absurd (htable.symm.trans hslot.1) (by decide), hrel⟩
          · rw [← mapping, hsecond] at hpa
            cases hpa
        · rw [← mapping, ← mapping, hfirst, hsecond]
          simp }
  exact ⟨v, s', hrun⟩

set_option maxRecDepth 100000 in
/-- Freed by the address of its second page, it leaves the list, and its first page stays mapped. -/
theorem kvmmFree_interior : ¬ ∀ s m v rs alloc d a x r, ManagesDirectory s m v rs alloc d →
    findVas m a s = .ok (some x, s) → s.objs x = some (.vas r) → r.isStaticAllocated = false →
    ∃ s', kvmmFree m a s = .ok (true, s') ∧ VasReleased d m x v r s s' := by
  intro hall
  obtain ⟨v, rs, alloc, h⟩ := smallMachineCommitted_manages
  obtain ⟨hfound, hfreed, hmapped⟩ :
      (findVas smallMachineVmm 0x6000 smallMachineCommitted).map Prod.fst =
        .ok (some smallMachineVas) ∧
      (kvmmFree smallMachineVmm 0x6000 smallMachineCommitted).map Prod.fst = .ok true ∧
      ((kvmmFree smallMachineVmm 0x6000).finalState smallMachineCommitted).mapping 0x50 0x5000 ≠
        none := by
    decide +kernel
  have hfind := eq_ok_of_value hfound
  rw [(findVas_spec h.vmmOk hfind).1] at hfind
  obtain ⟨s', hrun, hrel⟩ := hall _ _ _ _ _ _ _ _ _ h hfind
    smallMachineCommitted_values.1.2 rfl
  have hfree := eq_ok_of_value hfreed
  rw [(Prod.mk.inj (Except.ok.inj (hrun.symm.trans hfree))).2] at hrel
  exact hmapped (hrel.pages 0x5000 ⟨by decide, by decide⟩)

end MeghaOS
