import MeghaOS.Proof.Heap
import MeghaOS.Proof.Frame

/-!
# The allocator in the kernel

`HeapOk` ties the records of the kernel to the blocks of the heap: every record lies in the memory
of `salloc` or in an allocated block. `kmallocObj_spec` and `kfree_spec` say what allocation and
release do to both: a new record never lies where another one does, and a release takes away the
record of its block and no other.
-/

namespace MeghaOS

open Exec KState

variable {s s' : KState} {alloc : List Nat} {a bytes : Nat}

/-! ## Writing a record -/

/-- A record that is written is read. -/
theorem objs_setObj_self (o : Obj) : (s.setObj a o).objs a = some o := if_pos rfl

/-- The other records stay. -/
theorem objs_setObj_of_ne {b : Nat} (o : Obj) (hb : b ≠ a) : (s.setObj a o).objs b = s.objs b :=
  if_neg hb

/-! ## What is left of the state -/

section

variable (h : s'.nonCommit = s.nonCommit)
include h

/-- Committing pages leaves the heap. -/
theorem heap_of_nonCommit : s'.heap = s.heap := by
  show s'.nonCommit.heap = s.nonCommit.heap
  rw [h]

/-- It leaves the phase. -/
theorem phase_of_nonCommit : s'.phase = s.phase := by
  show s'.nonCommit.phase = s.nonCommit.phase
  rw [h]

/-- It leaves the kernel's context. -/
theorem context_of_nonCommit : s'.context = s.context := by
  show s'.nonCommit.context = s.nonCommit.context
  rw [h]

/-- It leaves the records but for their dirty flags. -/
theorem objs_clean_of_nonCommit (a : Nat) :
    (s'.objs a).map Obj.clean = (s.objs a).map Obj.clean := by
  show s'.nonCommit.objs a = s.nonCommit.objs a
  rw [h]

/-- A record that is no `VMemoryManager` is left as it is. -/
theorem objs_of_nonCommit {o : Obj} (ho : s.objs a = some o) (hvmm : ∀ v, o ≠ .vmm v) :
    s'.objs a = some o := by
  have hclean := objs_clean_of_nonCommit h a
  rw [ho] at hclean
  cases hs : s'.objs a with
  | none => rw [hs] at hclean; cases hclean
  | some o' =>
    rw [hs] at hclean
    have heq : o'.clean = o.clean := by simpa using hclean
    cases o <;> cases o' <;> simp_all [Obj.clean]

/-- A `VMemoryManager` may only get another dirty flag. -/
theorem vmm_of_nonCommit {v : VMemoryManager} (hv : s.objs a = some (.vmm v)) :
    ∃ dirty, s'.objs a = some (.vmm { v with isPageDirectoryDirty := dirty }) := by
  have hclean := objs_clean_of_nonCommit h a
  rw [hv] at hclean
  cases hs : s'.objs a with
  | none => rw [hs] at hclean; cases hclean
  | some o' =>
    rw [hs] at hclean
    have heq : o'.clean = (Obj.vmm v).clean := by simpa using hclean
    cases o' <;> simp [Obj.clean] at heq
    rename_i v'
    refine ⟨v'.isPageDirectoryDirty, ?_⟩
    cases v
    cases v'
    simp_all

/-- No record is created or taken away. -/
theorem objs_none_of_nonCommit : s'.objs a = none ↔ s.objs a = none := by
  have hclean := objs_clean_of_nonCommit h a
  cases hs : s.objs a <;> cases hs' : s'.objs a <;> simp_all

end

/-! ## Records and blocks -/

/-- The memory that `salloc` hands out. -/
def IsStatic (a : Nat) : Prop := memStartSalloc ≤ a ∧ a < memStartSalloc + memLenBytesSalloc

/-- The block of an allocated section starts behind its header. -/
def IsBlock (alloc : List Nat) (a : Nat) : Prop := ∃ node ∈ alloc, a = node + sizeofKMallocHeader

/-- The heap is intact, and every record lies in static memory or in an allocated block. -/
structure HeapOk (s : KState) (alloc : List Nat) : Prop where
  inv : ∃ secs free, HeapInv s.heap secs free alloc
  buffer : memStartSalloc + memLenBytesSalloc ≤ s.heap.buffer
  objs : ∀ a, s.objs a ≠ none → IsStatic a ∨ IsBlock alloc a

namespace HeapOk

/-- Allocated sections lie in the buffer. -/
theorem bounds (hs : HeapOk s alloc) {node : Nat} (hn : node ∈ alloc) :
    s.heap.buffer ≤ node ∧
      node + s.heap.size node + sizeofKMallocHeader ≤ s.heap.buffer + memLenBytesKmalloc ∧
      sizeofKMallocHeader ≤ s.heap.size node ∧ s.heap.buffer + memLenBytesKmalloc < 2 ^ 32 := by
  obtain ⟨secs, free, hinv⟩ := hs.inv
  have hsecs := ((hinv.mem_alloc node).1 hn).1
  exact ⟨(hinv.bounds hsecs).1, hinv.end_le hn, hinv.minSize node hsecs, hinv.bound⟩

/-- A block is not static memory. -/
theorem not_isStatic (hs : HeapOk s alloc) (ha : IsBlock alloc a) : ¬ IsStatic a := by
  rintro ⟨-, h⟩
  obtain ⟨node, hn, rfl⟩ := ha
  have h1 := (hs.bounds hn).1
  have h2 := hs.buffer
  simp only [sizeofKMallocHeader] at h
  omega

/-- Committing pages does not touch the heap. -/
theorem of_nonCommit (hs : HeapOk s alloc) (h : s'.nonCommit = s.nonCommit) : HeapOk s' alloc where
  inv := heap_of_nonCommit h ▸ hs.inv
  buffer := heap_of_nonCommit h ▸ hs.buffer
  objs a ha := hs.objs a fun hnone => ha ((objs_none_of_nonCommit h).2 hnone)

/-- Records may be rewritten in place. -/
theorem setObj (hs : HeapOk s alloc) {o : Obj} (ha : s.objs a ≠ none) :
    HeapOk (s.setObj a o) alloc where
  inv := hs.inv
  buffer := hs.buffer
  objs b hb := by
    by_cases hba : b = a
    · subst hba; exact hs.objs b ha
    · exact hs.objs b (by simpa [KState.setObj, hba] using hb)

/-- Records lie at 32-bit addresses. -/
theorem lt (hs : HeapOk s alloc) (ha : s.objs a ≠ none) : a < 2 ^ 32 := by
  rcases hs.objs a ha with ⟨-, h⟩ | ⟨node, hn, rfl⟩
  · simp only [memStartSalloc, memLenBytesSalloc] at h
    omega
  · have := hs.bounds hn
    simp only [sizeofKMallocHeader] at *
    omega

/-- Nothing lies at the address zero. -/
theorem objs_zero (hs : HeapOk s alloc) : s.objs 0 = none := by
  by_contra hne
  rcases hs.objs 0 hne with h | ⟨node, -, h⟩
  · exact absurd h.1 (by decide)
  · simp only [sizeofKMallocHeader] at h
    omega

end HeapOk

/-! ## Allocation and release -/

/-- What `kmalloc` does when it succeeds: the header of the section that remains is made accessible,
which leads to `s₁`, and a free section at `node` becomes an allocated one. -/
structure Allocated (s s₁ s' : KState) (bytes : Nat) (alloc : List Nat) (node : Nat) : Prop where
  notMem : node ∉ alloc
  heapOk : HeapOk s' (alloc ++ [node])
  size : s'.heap.size node = bytes + sizeofKMallocHeader
  sizes : ∀ n ∈ alloc, s'.heap.size n = s.heap.size n
  touch : touchRange (node + sizeofKMallocHeader + bytes) sizeofKMallocHeader s = .ok ((), s₁)
  eq : s' = { s₁ with heap := s'.heap, freedContext := s'.freedContext }

/-- The parts of `kmalloc`: it has no free section that is large enough, or it takes one. -/
theorem kmalloc_parts {secs free : List Nat} (hinv : HeapInv s.heap secs free alloc)
    (hbytes : bytes + 2 * sizeofKMallocHeader < 2 ^ 32) (h : kmalloc bytes s = .ok (a, s')) :
    (a = 0 ∧ ∃ e, s' = { s with errorNumber := e }) ∨
      ∃ node s₁, a = node + sizeofKMallocHeader ∧ node ∈ free ∧
        bytes + 2 * sizeofKMallocHeader ≤ s.heap.size node ∧
        touchRange (node + sizeofKMallocHeader + bytes) sizeofKMallocHeader s = .ok ((), s₁) ∧
        s' = { s₁ with heap := s'.heap, freedContext := s'.freedContext } ∧
        (∃ secs' free', HeapInv s'.heap secs' free' (alloc ++ [node])) ∧
        s'.heap.size node = bytes + sizeofKMallocHeader ∧
        (∀ n ∈ alloc, s'.heap.size n = s.heap.size n) ∧ s'.heap.buffer = s.heap.buffer := by
  simp only [kmalloc, kernelPhaseValidate_bind_eq_ok] at h
  obtain ⟨found, s₁, hfind, h⟩ := bind_eq_ok.1 h.2
  obtain ⟨t, ht, rfl⟩ := zoom_eq_ok.1 hfind
  obtain ⟨found', hfound', hspec⟩ := findFreeNode_spec hinv.toHeapCore hbytes
  obtain ⟨rfl, rfl⟩ : found' = found ∧ s.heap = t := by
    rw [hfound'] at ht
    cases ht
    exact ⟨rfl, rfl⟩
  cases found' with
  | none =>
    obtain ⟨rfl, rfl⟩ := returnError_eq_ok.1 h
    exact .inl ⟨rfl, _, rfl⟩
  | some node =>
    obtain ⟨hfree, hsize⟩ := hspec node rfl
    obtain ⟨hnsecs, hnused⟩ := (hinv.mem_free node).1 hfree
    have hbounds := hinv.bounds hnsecs
    have hbound := hinv.bound
    have hsplitAt : splitAt bytes node = node + sizeofKMallocHeader + bytes := by
      simp only [splitAt, netAllocationSize, u32, sizeofKMallocHeader, memLenBytesKmalloc] at *
      omega
    have haddr : u32 (node + sizeofKMallocHeader) = node + sizeofKMallocHeader :=
      Nat.mod_eq_of_lt (by simp only [sizeofKMallocHeader, memLenBytesKmalloc] at *; omega)
    obtain ⟨_, s₂, htouch, h⟩ := bind_eq_ok.1 h
    obtain ⟨_, s₃, hsplit, h⟩ := bind_eq_ok.1 h
    obtain ⟨h', hrun, rfl⟩ := zoom_eq_ok.1 hsplit
    simp only [modify_bind_apply, pure_apply, Except.ok.injEq, Prod.mk.injEq] at h
    obtain ⟨rfl, rfl⟩ := h
    have hnc := touchRange_fixes _ _ s _ s₂ htouch
    have hheap : s₂.heap = s.heap := heap_of_nonCommit hnc
    rw [hheap] at hrun
    obtain ⟨h'', secs', free', hrun', hinv', hnode, hsizes, hbuf⟩ :=
      sSplitFreeNode_inv hinv hfree hsize
    obtain rfl : h'' = h' := by
      rw [hrun'] at hrun
      cases hrun
      rfl
    rw [hsplitAt] at htouch ⊢
    rw [haddr]
    exact .inr ⟨node, s₂, rfl, hfree, hsize, htouch, rfl, ⟨secs', free', hinv'⟩,
      hnode, hsizes, hbuf⟩

/-- `kmalloc` fails with an error, or takes a section from the heap and commits its pages. -/
theorem kmalloc_spec (hs : HeapOk s alloc) (hbytes : bytes + 2 * sizeofKMallocHeader < 2 ^ 32)
    (h : kmalloc bytes s = .ok (a, s')) :
    (a = 0 ∧ ∃ e, s' = { s with errorNumber := e }) ∨
      ∃ node s₁, a = node + sizeofKMallocHeader ∧ Allocated s s₁ s' bytes alloc node := by
  obtain ⟨secs, free, hinv⟩ := hs.inv
  rcases kmalloc_parts hinv hbytes h with herr |
    ⟨node, s₁, rfl, hfree, -, htouch, heq, hinv', hsize, hsizes, hbuf⟩
  · exact .inl herr
  · have hnc := touchRange_fixes _ _ s _ s₁ htouch
    refine .inr ⟨node, s₁, rfl, ?_, ⟨hinv', hbuf ▸ hs.buffer, fun b hb => ?_⟩, hsize, hsizes,
      htouch, heq⟩
    · intro hmem
      have hnused := ((hinv.mem_free node).1 hfree).2
      rw [((hinv.mem_alloc node).1 hmem).2] at hnused
      cases hnused
    · rw [heq] at hb
      rcases (hs.of_nonCommit hnc).objs b hb with h | ⟨n, hn, rfl⟩
      · exact .inl h
      · exact .inr ⟨n, List.mem_append_left _ hn, rfl⟩

namespace Allocated

variable {s₁ : KState} {node : Nat}

/-- Taking the section commits nothing. -/
theorem nonCommit (h : Allocated s s₁ s' bytes alloc node) : s₁.nonCommit = s.nonCommit :=
  touchRange_fixes _ _ s _ s₁ h.touch

/-- There is no record in it yet. -/
theorem objs_eq (h : Allocated s s₁ s' bytes alloc node) : s'.objs = s₁.objs := by rw [h.eq]

/-- The phase stays. -/
theorem phase_eq (h : Allocated s s₁ s' bytes alloc node) : s'.phase = s.phase := by
  rw [h.eq]
  show s₁.phase = s.phase
  exact phase_of_nonCommit h.nonCommit

/-- No record lies in a section that was free. -/
theorem objs_none (hs : HeapOk s alloc) (h : Allocated s s₁ s' bytes alloc node) :
    s.objs (node + sizeofKMallocHeader) = none := by
  by_contra hne
  rcases hs.objs _ hne with hstatic | ⟨n, hn, heq⟩
  · exact h.heapOk.not_isStatic ⟨node, by simp, rfl⟩ hstatic
  · rw [Nat.add_right_cancel_iff] at heq
    exact h.notMem (heq ▸ hn)

/-- The new block may take a record. -/
theorem setObj (h : Allocated s s₁ s' bytes alloc node) (o : Obj) :
    HeapOk (s'.setObj (node + sizeofKMallocHeader) o) (alloc ++ [node]) where
  inv := h.heapOk.inv
  buffer := h.heapOk.buffer
  objs b hb := by
    by_cases hba : b = node + sizeofKMallocHeader
    · exact .inr ⟨node, by simp, hba⟩
    · refine h.heapOk.objs b ?_
      simpa only [KState.setObj, if_neg hba] using hb

end Allocated

/-- The largest record is a `KProcessInfo`. -/
theorem Obj.size_le (o : Obj) : o.size ≤ sizeofKProcessInfo := by
  cases o <;> exact Nat.le_of_ble_eq_true rfl

/-- A new record is put where there was none. -/
theorem kmallocObj_spec {o : Obj} (hs : HeapOk s alloc) (h : kmallocObj o s = .ok (a, s')) :
    (a = 0 ∧ ∃ e, s' = { s with errorNumber := e }) ∨
      ∃ node s₁ s₂, a = node + sizeofKMallocHeader ∧ Allocated s s₁ s₂ o.size alloc node ∧
        s' = s₂.setObj a o := by
  have hsize : o.size + 2 * sizeofKMallocHeader < 2 ^ 32 :=
    Nat.lt_of_le_of_lt (Nat.add_le_add_right o.size_le _) (by decide)
  obtain ⟨b, s₂, hcall, h⟩ := bind_eq_ok.1 h
  rcases kmalloc_spec hs hsize hcall with ⟨rfl, e, rfl⟩ | ⟨node, s₁, rfl, hnew⟩
  · cases h
    exact .inl ⟨rfl, e, rfl⟩
  · rw [if_pos (by simp only [sizeofKMallocHeader]; omega), modify_bind_apply] at h
    cases h
    exact .inr ⟨node, s₁, s₂, rfl, hnew, rfl⟩

/-- `kfree` reports an error, or takes an allocated block and its record away. -/
theorem kfree_spec {ok : Bool} (hs : HeapOk s alloc) (ha : a < 2 ^ 32)
    (h : kfree a s = .ok (ok, s')) :
    (ok = false ∧ ¬ IsBlock alloc a ∧ ∃ e, s' = { s with errorNumber := e }) ∨
      ok = true ∧ ∃ node ∈ alloc, a = node + sizeofKMallocHeader ∧
        HeapOk s' (alloc.erase node) ∧ (∀ n ∈ alloc.erase node, s'.heap.size n = s.heap.size n) ∧
        s' = KState.release { s with heap := s'.heap } a := by
  obtain ⟨secs, free, hinv⟩ := hs.inv
  simp only [kfree, kernelPhaseValidate_bind_eq_ok] at h
  obtain ⟨found, s₁, hfree, h⟩ := bind_eq_ok.1 h.2
  obtain ⟨t, ht, rfl⟩ := zoom_eq_ok.1 hfree
  have hblock : ∀ node ∈ alloc, u32Sub a sizeofKMallocHeader = node ↔
      a = node + sizeofKMallocHeader := by
    intro node hn
    have := hs.bounds hn
    simp only [u32Sub, sizeofKMallocHeader, memLenBytesKmalloc] at *
    omega
  by_cases hmem : u32Sub a sizeofKMallocHeader ∈ alloc
  · obtain ⟨h', secs', free', hrun, hinv', hsizes, hbuf⟩ := heapFree_of_mem hinv hmem
    have heq := (hblock _ hmem).1 rfl
    have hnd := hinv.alloc_nodup
    rw [hrun] at ht
    cases ht
    simp only [if_true, modify_bind_apply, pure_apply, Except.ok.injEq, Prod.mk.injEq] at h
    obtain ⟨rfl, rfl⟩ := h
    generalize u32Sub a sizeofKMallocHeader = node at *
    refine .inr ⟨rfl, node, hmem, heq, ⟨⟨secs', free', hinv'⟩, ?_, fun b hb => ?_⟩, hsizes, rfl⟩
    · show _ ≤ t.buffer
      rw [hbuf]
      exact hs.buffer
    · have hba : b ≠ a := fun hba => hb (by simp [KState.release, hba])
      have hb' : s.objs b ≠ none := by simpa [KState.release, hba] using hb
      refine (hs.objs b hb').imp id ?_
      rintro ⟨n, hn, rfl⟩
      refine ⟨n, (List.Nodup.mem_erase_iff hnd).2 ⟨?_, hn⟩, rfl⟩
      rintro rfl
      exact hba heq.symm
  · have hno := heapFree_of_notMem hinv.toHeapCore hmem
    rw [hno] at ht
    cases ht
    obtain ⟨rfl, rfl⟩ := returnError_eq_ok.1 h
    refine .inl ⟨rfl, ?_, _, rfl⟩
    rintro ⟨node, hn, heq⟩
    exact hmem ((hblock node hn).2 heq ▸ hn)

/-- `kfree` of an allocated block takes the block away. -/
theorem kfree_of_block (hs : HeapOk s alloc) (hphase : s.phase.check .kmallocReady = true)
    (ha : IsBlock alloc a) : ∃ heap, kfree a s = .ok (true, KState.release { s with heap } a) := by
  obtain ⟨secs, free, hinv⟩ := hs.inv
  obtain ⟨node, hnode, rfl⟩ := ha
  have hbounds := hs.bounds hnode
  have haddr : u32Sub (node + sizeofKMallocHeader) sizeofKMallocHeader = node := by
    simp only [u32Sub, sizeofKMallocHeader, memLenBytesKmalloc] at *
    omega
  obtain ⟨heap, -, -, hfree, -⟩ := heapFree_of_mem hinv (haddr.symm ▸ hnode)
  have hheap : onHeap (heapFree (node + sizeofKMallocHeader)) s = .ok (true, { s with heap }) :=
    zoom_eq_ok.2 ⟨heap, hfree, rfl⟩
  refine ⟨heap, kernelPhaseValidate_bind_eq_ok.2 ⟨hphase, ?_⟩⟩
  rw [bind_of_ok hheap]
  rfl

/-- `kfree` of a record takes away that record alone. -/
theorem kfree_objs {ok : Bool} (hs : HeapOk s alloc) (ha : s.objs a ≠ none)
    (h : kfree a s = .ok (ok, s')) :
    s'.phase = s.phase ∧ (∃ alloc', HeapOk s' alloc') ∧ ∀ b, b ≠ a → s'.objs b = s.objs b := by
  rcases kfree_spec hs (hs.lt ha) h with ⟨-, -, e, rfl⟩ | ⟨-, node, -, -, hs', -, heq⟩
  · exact ⟨rfl, ⟨alloc, hs.of_nonCommit rfl⟩, fun _ _ => rfl⟩
  · refine ⟨by rw [heq]; rfl, ⟨_, hs'⟩, fun b hb => ?_⟩
    rw [heq]
    exact if_neg hb

end MeghaOS
