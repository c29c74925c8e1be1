import MeghaOS.Proof.VmmRun

/-!
# Failed reservations

`kvmm_memmap` makes the record of an address space before it looks for overlaps, and enters it in
the list before it commits pages, and takes neither back. A call that fails leaves everything as it
was if and only if it fails before there is a record.
-/

namespace MeghaOS

open Exec KState

variable {s s' s₁ : KState} {m a va bytes : Nat} {v : VMemoryManager}
  {rs : List VMemoryAddressSpace}
  {alloc : List Nat}

/-! ## Memory for a record -/

/-- `kmalloc` fails if and only if it finds no free section that is large enough. -/
theorem kmalloc_eq_zero_iff (hs : HeapOk s alloc)
    (hbytes : bytes + 2 * sizeofKMallocHeader < 2 ^ 32)
    (h : kmalloc bytes s = .ok (a, s')) :
    a = 0 ↔ ∃ heap, findFreeNode bytes s.heap = .ok (none, heap) := by
  obtain ⟨secs, free, hinv⟩ := hs.inv
  simp only [kmalloc, kernelPhaseValidate_bind_eq_ok] at h
  obtain ⟨found, s₁, hfind, h⟩ := bind_eq_ok.1 h.2
  obtain ⟨t, ht, rfl⟩ := zoom_eq_ok.1 hfind
  cases found with
  | none =>
    obtain ⟨rfl, -⟩ := returnError_eq_ok.1 h
    exact iff_of_true rfl ⟨t, ht⟩
  | some node =>
    obtain ⟨found', hfound', hspec⟩ := findFreeNode_spec hinv.toHeapCore hbytes
    rw [ht] at hfound'
    cases hfound'
    obtain ⟨hfree, hsize⟩ := hspec node rfl
    have hbounds := hinv.bounds ((hinv.mem_free node).1 hfree).1
    have hbound := hinv.bound
    refine iff_of_false ?_ fun hnone => ?_
    · obtain ⟨_, s₂, -, h⟩ := bind_eq_ok.1 h
      obtain ⟨_, s₃, -, h⟩ := bind_eq_ok.1 h
      rw [modify_bind_apply] at h
      cases h
      have hbuffer := hs.buffer
      simp only [u32, sizeofKMallocHeader, memLenBytesKmalloc, memStartSalloc, memLenBytesSalloc]
        at *
      omega
    · obtain ⟨heap, hnone⟩ := hnone
      rw [ht] at hnone
      cases hnone

/-- There is no memory for the record of another address space. -/
def NoRecordMemory (s : KState) : Prop :=
  if s.phase.check .kmallocReady = true then
    ∃ heap, findFreeNode sizeofVMemoryAddressSpace s.heap = .ok (none, heap)
  else memStartSalloc + memLenBytesSalloc <
    s.sallocNext + alignUp sizeofVMemoryAddressSpace sallocGranuality

/-- `salloc` fails if and only if the bytes do not fit behind those it handed out. -/
theorem ksalloc_eq_zero_iff {size : Nat} (hs : SallocOk s) (hpos : bytes ≠ 0)
    (hsize : roundedSize bytes = size) (h : ksalloc bytes s = .ok (a, s')) :
    a = 0 ↔ memStartSalloc + memLenBytesSalloc < s.sallocNext + size := by
  obtain ⟨hlower, hupper, -⟩ := hs
  have hphase : s.phase.check .sallocReady = true := by
    rw [ksalloc, kernelPhaseValidate_bind_eq_ok] at h
    exact h.1
  by_cases hroom : s.sallocNext + size ≤ memStartSalloc + memLenBytesSalloc
  · rw [ksalloc_ok bytes size hphase hpos hsize hlower hroom] at h
    cases h
    simp only [memStartSalloc] at hlower
    exact iff_of_false (by omega) (Nat.not_lt.2 hroom)
  · have hfull := Nat.lt_of_not_le hroom
    rw [ksalloc_refused bytes hphase hlower hupper fun _ => hsize ▸ hfull] at h
    cases h
    exact iff_of_true rfl hfull

/-- `kmalloc` or `salloc` for a record returns what it allocates. -/
theorem kmallocObj_value {o : Obj} (h : kmallocObj o s = .ok (a, s')) :
    ∃ s₁, kmalloc o.size s = .ok (a, s₁) := by
  obtain ⟨b, s₁, hcall, h⟩ := bind_eq_ok.1 h
  rcases ite_eq_ok.1 h with ⟨-, h⟩ | ⟨-, h⟩
  · rw [modify_bind_apply] at h
    cases h
    exact ⟨s₁, hcall⟩
  · cases h
    exact ⟨_, hcall⟩

theorem sallocObj_value {x : Nat → K Nat} {o : Obj} (h : sallocObj x o s = .ok (a, s')) :
    ∃ s₁, x o.size s = .ok (a, s₁) := by
  obtain ⟨b, s₁, hcall, h⟩ := bind_eq_ok.1 h
  rcases ite_eq_ok.1 h with ⟨-, h⟩ | ⟨-, h⟩
  · rw [modify_bind_apply] at h
    cases h
    exact ⟨s₁, hcall⟩
  · cases h
    exact ⟨_, hcall⟩

/-- No record is made if and only if there is no memory for it. -/
theorem createNewVirtAddrSpace_eq_zero_iff {szBytes flags : Nat} (hs : AllocOk s)
    (h : createNewVirtAddrSpace va szBytes flags s = .ok (a, s')) : a = 0 ↔ NoRecordMemory s := by
  rw [createNewVirtAddrSpace, get_bind_apply] at h
  dsimp only at h
  rw [NoRecordMemory]
  rcases hs with ⟨hready, alloc, hs⟩ | ⟨hready, hs⟩
  · rw [if_pos hready] at h ⊢
    obtain ⟨new, s₁, hnew, h⟩ := bind_eq_ok.1 h
    obtain ⟨s₂, hcall⟩ := kmallocObj_value hnew
    have hcall : kmalloc sizeofVMemoryAddressSpace s = .ok (new, s₂) := hcall
    have hzero := kmalloc_eq_zero_iff hs (by decide) hcall
    rcases ite_eq_ok.1 h with ⟨hnull, h⟩ | ⟨-, h⟩
    · cases h
      exact iff_of_true rfl (hzero.1 hnull)
    · obtain ⟨-, h⟩ := kAssert_bind_eq_ok.1 h
      cases h
      exact hzero
  · have hfalse : ¬ s.phase.check .kmallocReady = true := by
      rw [hready]
      exact Bool.false_ne_true
    rw [if_neg hfalse] at h ⊢
    obtain ⟨new, s₁, hnew, h⟩ := bind_eq_ok.1 h
    obtain ⟨s₂, hcall⟩ := sallocObj_value hnew
    have hcall : kscalloc sizeofVMemoryAddressSpace s = .ok (new, s₂) := hcall
    rw [kscalloc_eq_ksalloc] at hcall
    have hzero := ksalloc_eq_zero_iff hs (by decide) rfl hcall
    rcases ite_eq_ok.1 h with ⟨hnull, h⟩ | ⟨-, h⟩
    · cases h
      exact iff_of_true rfl (hzero.1 hnull)
    · obtain ⟨-, h⟩ := kAssert_bind_eq_ok.1 h
      cases h
      exact hzero

/-! ## What a failed call leaves -/

/-- The address spaces of the manager at `m`, the allocated blocks of the heap, the states of the
page frames and the page tables are as they were. -/
structure Unchanged (s s' : KState) (m : Nat) : Prop where
  spaces : ∀ v rs, Manages s m v rs → ∃ v', Manages s' m v' rs ∧ v'.head = v.head
  blocks : ∀ alloc, HeapOk s alloc → HeapOk s' alloc
  pab : s'.pab = s.pab
  mem : s'.mem = s.mem
  tempExt : s'.tempExt = s.tempExt
  tempInt : s'.tempInt = s.tempInt

theorem Unchanged.error (e : KernelErrorCodes) : Unchanged s { s with errorNumber := e } m where
  spaces v _ hm := ⟨v, ⟨hm.vmm, hm.vas⟩, rfl⟩
  blocks _ hs := hs.of_nonCommit rfl
  pab := rfl
  mem := rfl
  tempExt := rfl
  tempInt := rfl

/-- The heap does not have one block more and one less. -/
theorem HeapOk.not_append {node : Nat} (hs : HeapOk s alloc) (hs' : HeapOk s (alloc ++ [node])) :
    False := by
  obtain ⟨secs, free, hinv⟩ := hs.inv
  obtain ⟨secs', free', hinv'⟩ := hs'.inv
  have hused := heapUsedMemory_spec hinv
  rw [heapUsedMemory_spec hinv'] at hused
  simp only [Except.ok.injEq, Prod.mk.injEq, and_true, List.map_append, List.sum_append,
    List.map_cons,
    List.map_nil, List.sum_cons, List.sum_nil] at hused
  have hsize := (hs'.bounds (List.mem_append_right alloc (.head _))).2.2.1
  simp only [sizeofKMallocHeader] at hsize
  omega

/-- The manager and its address spaces stay where they are when a record is made. -/
theorem createNewVirtAddrSpace_manages {szBytes flags : Nat} (hs : AllocOk s)
    (hm : Manages s m v rs)
    (h : createNewVirtAddrSpace va szBytes flags s = .ok (a, s₁)) :
    ∃ dirty, Manages s₁ m { v with isPageDirectoryDirty := dirty } rs := by
  rcases hs with ⟨hready, alloc, hs⟩ | ⟨hready, hs⟩
  · rcases createNewVirtAddrSpace_spec hs hready h with ⟨-, e, rfl⟩ | ⟨-, node, s₂, s₃,
      rfl, hall, rfl⟩
    · exact ⟨v.isPageDirectoryDirty, hm.vmm, hm.vas⟩
    · have hfresh := (objs_none_of_nonCommit hall.nonCommit).2 (hall.objs_none hs)
      have hkept : ∀ b o, s₂.objs b = some o → (s₃.setObj (node + sizeofKMallocHeader)
          (newVas va szBytes flags)).objs b = some o := fun b o hb => by
        have hne : b ≠ node + sizeofKMallocHeader := fun heq => by
          rw [heq, hfresh] at hb
          cases hb
        rw [objs_setObj_of_ne _ hne, hall.objs_eq, hb]
      obtain ⟨dirty, hvmm⟩ := vmm_of_nonCommit hall.nonCommit hm.vmm
      exact ⟨dirty, hkept m _ hvmm, hm.vas.imp fun b r hb =>
        hkept b _ (objs_of_nonCommit hall.nonCommit hb (by simp))⟩
  · rcases createNewVirtAddrSpace_static hs hready h with ⟨-, e, rfl⟩ | ⟨-, rfl, -, -, next, rfl⟩
    · exact ⟨v.isPageDirectoryDirty, hm.vmm, hm.vas⟩
    · have hkept : ∀ b o, s.objs b = some o →
        (KState.setObj { s with sallocNext := next } s.sallocNext
          (newStaticVas va szBytes flags)).objs b = some o := fun b o hb => by
        have hne : b ≠ s.sallocNext := fun heq => by
          rw [heq, hs.objs_next] at hb
          cases hb
        rw [objs_setObj_of_ne _ hne]
        exact hb
      exact ⟨v.isPageDirectoryDirty, hkept m _ hm.vmm, hm.vas.imp fun b r => hkept b _⟩

theorem createNewVirtAddrSpace_zero {szBytes flags : Nat} (hs : AllocOk s)
    (h : createNewVirtAddrSpace va szBytes flags s = .ok (0, s₁)) :
      ∃ e, s₁ = { s with errorNumber := e } := by
  rcases hs with ⟨hready, alloc, hs⟩ | ⟨hready, hs⟩
  · rcases createNewVirtAddrSpace_spec hs hready h with ⟨-, herr⟩ | ⟨-, node, s₂, s₃, hzero, -⟩
    · exact herr
    · simp only [sizeofKMallocHeader] at hzero
      omega
  · rcases createNewVirtAddrSpace_static hs hready h with ⟨-, herr⟩ | ⟨-, -, hne, -⟩
    · exact herr
    · exact absurd rfl hne

/-- A record that is not entered in the list is a block that is lost, if it is in the heap. -/
theorem createNewVirtAddrSpace_lost {szBytes flags : Nat} {e : KernelErrorCodes} (hs : AllocOk s)
    (ha : a ≠ 0) (h : createNewVirtAddrSpace va szBytes flags s = .ok (a, s₁)) :
    Unchanged s { s₁ with errorNumber := e } m ↔ s.phase.check .kmallocReady = false := by
  have hspaces : ∀ v rs, Manages s m v rs →
      ∃ v', Manages { s₁ with errorNumber := e } m v' rs ∧ v'.head = v.head := fun v rs hm => by
    obtain ⟨dirty, hm'⟩ := createNewVirtAddrSpace_manages hs hm h
    exact ⟨_, ⟨hm'.vmm, hm'.vas⟩, rfl⟩
  rcases hs with ⟨hready, alloc, hs⟩ | ⟨hready, hs⟩
  · refine iff_of_false (fun hsame => ?_) (by rw [hready]; exact Bool.noConfusion)
    rcases createNewVirtAddrSpace_spec hs hready h with ⟨hzero, -⟩ | ⟨-, node, s₂, s₃,
      rfl, hall, rfl⟩
    · exact ha hzero
    · have hblocks : HeapOk (s₃.setObj (node + sizeofKMallocHeader) (newVas va szBytes flags))
        alloc :=
        (hsame.blocks alloc hs).of_nonCommit rfl
      exact hblocks.not_append (hall.setObj _)
  · refine iff_of_true ?_ hready
    rcases createNewVirtAddrSpace_static hs hready h with ⟨hzero, -⟩ | ⟨-, rfl, -, hs', next, rfl⟩
    · exact absurd hzero ha
    · refine ⟨hspaces, fun alloc hheap => ⟨hheap.inv, hheap.buffer, fun b hb => ?_⟩, rfl,
        rfl, rfl, rfl⟩
      by_cases hbn : b = s.sallocNext
      · -- the record lies in static memory
        obtain ⟨hlower, hlt⟩ := hs'.objs b hb
        exact .inl ⟨hlower, Nat.lt_of_lt_of_le hlt hs'.upper⟩
      · refine hheap.objs b fun hnone => hb ?_
        exact (objs_setObj_of_ne _ hbn).trans hnone

theorem ResolvesTo.unique {szPages va₁ va₂ : Nat} (h₁ : ResolvesTo s m va szPages va₁)
    (h₂ : ResolvesTo s m va szPages va₂) : va₁ = va₂ := by
  rcases h₁ with ⟨hne, rfl⟩ | ⟨hzero, h₁⟩ <;> rcases h₂ with ⟨hne', rfl⟩ | ⟨hzero', h₂⟩
  · rfl
  · exact absurd hzero' hne
  · exact absurd hzero hne'
  · rw [h₁] at h₂
    cases h₂
    rfl

/-- A call of `kvmm_memmap` that returns 0 leaves everything as it was if and only if it fails
before the record of the address space is made, or the record is in static memory and overlaps
another one. -/
theorem kvmmMemmap_unchanged_iff {szPages flags va' : Nat} {pa out : Option Nat} (hs : AllocOk s)
    (hm : Manages s m v rs) (hva : ResolvesTo s m va szPages va')
    (hrun : kvmmMemmap m va pa szPages flags s = .ok ((0, out), s')) :
    Unchanged s s' m ↔ OutOfRange v va' (pageframesToBytes szPages) ∨ NoRecordMemory s ∨
      s.phase.check .kmallocReady = false ∧
        Overlaps rs va' (u32Sub (va' + pageframesToBytes szPages) 1) := by
  obtain ⟨va'', a, s₁, hva'', hadd, hrest⟩ := kvmmMemmap_parts hrun
  obtain rfl := hva.unique hva''
  have hfailed : a = 0 → s' = s₁ := fun ha => by
    rcases hrest with ⟨-, -, rfl⟩ | ⟨hne, -⟩ | ⟨hne, -⟩
    · rfl
    · exact absurd ha hne
    · exact absurd ha hne
  rcases addNewVirtualAddressSpace_parts hm.vmm hadd with ⟨ha, hout, e, rfl⟩ | ⟨hin, new,
    s₃, hnew, hadd⟩
  · rw [hfailed ha]
    exact iff_of_true (.error e) (.inl hout)
  have hrecord := createNewVirtAddrSpace_eq_zero_iff hs hnew
  rcases hadd with ⟨rfl, ha, rfl⟩ | ⟨hne, henter⟩
  · obtain ⟨e, rfl⟩ := createNewVirtAddrSpace_zero hs hnew
    rw [hfailed ha]
    exact iff_of_true (.error e) (.inr (.inl (hrecord.1 rfl)))
  obtain ⟨dirty, hm₃⟩ := createNewVirtAddrSpace_manages hs hm hnew
  rcases enterVas_spec hm₃.vmm hm₃.vas henter with
    ⟨ha, hover, e, rfl⟩ | ⟨rfl, l₁, l₂, rs₁, rs₂, hl, -, -, hno, -, -, rfl⟩
  · rw [hfailed ha, createNewVirtAddrSpace_lost hs hne hnew, or_iff_right hin,
      or_iff_right (mt hrecord.2 hne), and_iff_left hover]
  · -- the entry stays in the list
    refine iff_of_false (fun hsame => ?_) ?_
    · obtain ⟨v', hm', hhead⟩ := hsame.spaces v rs hm
      obtain ⟨dirty', hvmm⟩ : ∃ dirty', s'.objs m = some (.vmm { v with
          isPageDirectoryDirty := dirty', head := l₁ ++ a :: l₂ }) := by
        rcases hrest with ⟨ha, -⟩ | ⟨-, -, -, rfl⟩ | ⟨-, -, done, out', hcommit, -⟩
        · exact absurd ha hne
        · exact ⟨dirty, objs_setObj_self _⟩
        · exact vmm_of_nonCommit (commitVirtualPages_fixes _ _ _ _ _ _ _ _ hcommit)
            (objs_setObj_self _)
      have heq := hm'.vmm
      rw [hvmm] at heq
      cases heq
      have hlen := congrArg List.length (hhead.trans hl)
      simp only [List.length_append, List.length_cons] at hlen
      omega
    · rintro (hout | hnone | ⟨-, hover⟩)
      · exact hin hout
      · exact hne (hrecord.2 hnone)
      · exact hno hover

theorem smallMachineNewVmm_allocOk : AllocOk smallMachineNewVmm := by
  obtain ⟨start, end_, hinv⟩ := (smallMachine_newVmm VmmCall.Fits).inv
  exact hinv.allocOk

set_option maxRecDepth 100000 in
theorem smallMachineNewVmm_manages : Manages smallMachineNewVmm smallMachineVmm
    ⟨memStartProcessMemory, memEndProcessMemory, false, 0x50000, false, .pmmRegionAny, []⟩ [] :=
  ⟨by decide +kernel, .nil⟩

set_option maxRecDepth 100000 in
/-- An address that is not that of a page is refused. -/
theorem kvmmMemmap_unchanged_misaligned : ∃ s', kvmmMemmap smallMachineVmm 0x5001 none 1 0
    smallMachineNewVmm = .ok ((0, none), s') ∧ Unchanged smallMachineNewVmm s' smallMachineVmm := by
  have hrun := eq_ok_of_value (x := kvmmMemmap smallMachineVmm 0x5001 none 1 0)
    (s := smallMachineNewVmm)
    (a := (0, none)) (by decide +kernel)
  exact ⟨_, hrun, (kvmmMemmap_unchanged_iff smallMachineNewVmm_allocOk smallMachineNewVmm_manages
    (.inl ⟨by decide, rfl⟩) hrun).2 (.inl (.inl rfl))⟩

set_option maxRecDepth 100000 in
/-- A reservation for which there are not enough page frames fails, and stays in the list. -/
theorem kvmmMemmap_keeps_entry : ¬ ∀ s s' m v rs va pa szPages flags out, AllocOk s →
    Manages s m v rs →
    kvmmMemmap m va pa szPages flags s = .ok ((0, out), s') → Unchanged s s' m := by
  intro hall
  obtain ⟨hvalue, hranges⟩ :
      (kvmmMemmap smallMachineVmm 0x5000 none 0x10000 vmmMemmapFlagImmcommit
        smallMachineNewVmm).map Prod.fst = .ok (0, none) ∧
      vasRanges ((kvmmMemmap smallMachineVmm 0x5000 none 0x10000
        vmmMemmapFlagImmcommit).finalState smallMachineNewVmm) smallMachineVmm =
          some [(0x5000, 0x10000000)] := by
    decide +kernel
  have hrun := eq_ok_of_value hvalue
  have hsame := hall _ _ _ _ _ _ _ _ _ _ smallMachineNewVmm_allocOk smallMachineNewVmm_manages hrun
  obtain ⟨v', hm', -⟩ := hsame.spaces _ _ smallMachineNewVmm_manages
  rw [hm'.vasRanges_eq] at hranges
  cases hranges

end MeghaOS
