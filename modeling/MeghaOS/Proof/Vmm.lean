import MeghaOS.Lib.Layout
import MeghaOS.Proof.Kmalloc

/-!
# Address-space lists

`VmmOk` says that a `VMemoryManager` has a list of address spaces that are page aligned, not empty,
sorted, disjoint and inside the range of the manager. The theorems say what a lookup finds in it and
what a reservation does to it. `MemmapFits` is the condition under which the list stays in order:
the code compares only the two ends of the new range with the entries it passes, in 32-bit
arithmetic.
-/

namespace MeghaOS

open Exec KState

variable {s s' : KState} {m a va : Nat} {v : VMemoryManager} {rs : List VMemoryAddressSpace}
  {alloc : List Nat}

/-- The address spaces of a manager form a layout of its range. -/
def VasLayout (v : VMemoryManager) (rs : List VMemoryAddressSpace) : Prop :=
  Layout VMemoryAddressSpace.startVm VMemoryAddressSpace.allocationSzBytes v.start v.end_ rs

/-- The manager at `m` is `v`, and the records of its address spaces, in order, are `rs`. -/
structure VmmOk (s : KState) (m : Nat) (v : VMemoryManager) (rs : List VMemoryAddressSpace) :
    Prop where
  vmm : s.objs m = some (.vmm v)
  vas : List.Forall₂ (fun a r => s.objs a = some (.vas r)) v.head rs
  nodup : v.head.Nodup
  layout : VasLayout v rs
  aligned : ∀ r ∈ rs, r.startVm % pageFrameSizeBytes = 0 ∧
    r.allocationSzBytes % pageFrameSizeBytes = 0
  share : ∀ r ∈ rs, r.share = 0
  end_lt : v.end_ < 2 ^ 32

namespace VmmOk

/-- A change of the state that keeps the manager, up to its dirty flag, and its records. -/
theorem congr (h : VmmOk s m v rs) {d : Bool}
    (hvmm : s'.objs m = some (.vmm { v with isPageDirectoryDirty := d }))
    (hvas : ∀ a ∈ v.head, s'.objs a = s.objs a) :
    VmmOk s' m { v with isPageDirectoryDirty := d } rs where
  vmm := hvmm
  vas := by
    refine List.forall₂_iff_get.2 ⟨h.vas.length_eq, fun i hi hr => ?_⟩
    rw [hvas _ (List.get_mem _ _)]
    exact (List.forall₂_iff_get.1 h.vas).2 i hi hr
  nodup := h.nodup
  layout := h.layout
  aligned := h.aligned
  share := h.share
  end_lt := h.end_lt

/-- The entries of the list are records. -/
theorem objs_head (h : VmmOk s m v rs) (ha : a ∈ v.head) : ∃ r ∈ rs, s.objs a = some (.vas r) := by
  obtain ⟨i, hi, rfl⟩ := List.getElem_of_mem ha
  have hlen := h.vas.length_eq
  exact ⟨rs[i], List.getElem_mem _, (List.forall₂_iff_get.1 h.vas).2 i hi (by omega)⟩

/-- Committing pages changes at most the dirty flag. -/
theorem of_nonCommit (h : VmmOk s m v rs) (hnc : s'.nonCommit = s.nonCommit) :
    ∃ dirty, VmmOk s' m { v with isPageDirectoryDirty := dirty } rs := by
  obtain ⟨dirty, hvmm⟩ := vmm_of_nonCommit hnc h.vmm
  refine ⟨dirty, h.congr hvmm fun a ha => ?_⟩
  obtain ⟨r, -, hr⟩ := h.objs_head ha
  rw [hr]
  exact objs_of_nonCommit hnc hr (by simp)

/-- An address space ends inside the 32-bit address space. -/
theorem stop_lt (h : VmmOk s m v rs) {r : VMemoryAddressSpace} (hr : r ∈ rs) :
    r.startVm + r.allocationSzBytes < 2 ^ 32 := by
  have h1 := h.layout.upper r hr
  have h2 := h.end_lt
  omega

end VmmOk

/-! ## Lookup -/

/-- The loop of `find_vas` finds the entry that contains an address, or there is none. -/
theorem findVasFrom_spec {l : List Nat} {found : Option Nat} {s' : KState}
    (hvas : List.Forall₂ (fun a r => s.objs a = some (.vas r)) l rs)
    (hlt : ∀ r ∈ rs, r.startVm + r.allocationSzBytes < 2 ^ 32)
    (h : findVasFrom va l s = .ok (found, s')) :
    s' = s ∧ (found = none → ∀ r ∈ rs, ¬ (r.startVm ≤ va ∧ va < r.startVm + r.allocationSzBytes)) ∧
      ∀ a ∈ found, ∃ r ∈ rs, a ∈ l ∧ s.objs a = some (.vas r) ∧ r.startVm ≤ va ∧
        va < r.startVm + r.allocationSzBytes := by
  induction hvas with
  | nil =>
    cases h
    exact ⟨rfl, by simp, by simp⟩
  | @cons a r l rs har _ ih =>
    have hr := hlt r (by simp)
    simp only [findVasFrom, getVas_bind_eq_ok, har, Option.some.injEq, Obj.vas.injEq,
      exists_eq_left'] at h
    rw [u32, Nat.mod_eq_of_lt hr] at h
    rcases ite_eq_ok.1 h with ⟨hin, h⟩ | ⟨hout, h⟩
    · cases h
      refine ⟨rfl, by simp, fun b hb => ?_⟩
      cases hb
      exact ⟨r, by simp, by simp, har, hin.1, hin.2⟩
    · obtain ⟨hs, hnone, hsome⟩ := ih (fun r hr => hlt r (.tail _ hr)) h
      refine ⟨hs, fun hf x hx => ?_, fun b hb => ?_⟩
      · rcases List.mem_cons.1 hx with rfl | hx
        · exact hout
        · exact hnone hf x hx
      · obtain ⟨x, hx, hbl, hrest⟩ := hsome b hb
        exact ⟨x, .tail _ hx, .tail _ hbl, hrest⟩

theorem findVas_spec (hv : VmmOk s m v rs) {found : Option Nat}
    (h : findVas m va s = .ok (found, s')) :
    s' = s ∧ (found = none → ∀ r ∈ rs, ¬ (r.startVm ≤ va ∧ va < r.startVm + r.allocationSzBytes)) ∧
      ∀ a ∈ found, ∃ r ∈ rs, a ∈ v.head ∧ s.objs a = some (.vas r) ∧ r.startVm ≤ va ∧
        va < r.startVm + r.allocationSzBytes := by
  simp only [findVas, getVmm_bind_eq_ok, hv.vmm, Option.some.injEq, Obj.vmm.injEq,
    exists_eq_left'] at h
  exact findVasFrom_spec hv.vas (fun r hr => hv.stop_lt hr) h

/-! ## Insertion -/

/-- The entries that the loop of `addNewVirtualAddressSpace` looks at: those up to the first one
that starts above the new range. -/
def visited (newStart : Nat) : List VMemoryAddressSpace → List VMemoryAddressSpace
  | [] => []
  | r :: rs => if r.startVm > newStart then [r] else r :: visited newStart rs

theorem visited_append {rs₁ rs₂ : List VMemoryAddressSpace} (h : ∀ r ∈ rs₁, r.startVm ≤ va) :
    visited va (rs₁ ++ rs₂) = rs₁ ++ visited va rs₂ := by
  induction rs₁ with
  | nil => rfl
  | cons r rs₁ ih =>
    have hr := h r (by simp)
    rw [List.cons_append, visited, if_neg (by omega), ih fun x hx => h x (.tail _ hx)]
    rfl

/-- One of the comparisons of `addNewVirtualAddressSpace` finds an overlap. -/
def Overlaps (rs : List VMemoryAddressSpace) (newStart newEnd : Nat) : Prop :=
  ∃ r ∈ visited newStart rs,
    endPointsOverlap newStart newEnd r.startVm (u32Sub (r.startVm + r.allocationSzBytes) 1) = true

/-- The loop of `addNewVirtualAddressSpace` reports an overlap, or puts the new entry before the
first one that starts above it. -/
theorem insertVas_spec {newStart newEnd new : Nat} {l : List Nat} {found : Option (List Nat)}
    (hvas : List.Forall₂ (fun a r => s.objs a = some (.vas r)) l rs)
    (h : insertVas new newStart newEnd l s = .ok (found, s')) :
    (found = none ∧ Overlaps rs newStart newEnd ∧ ∃ e, s' = { s with errorNumber := e }) ∨
      ∃ l₁ l₂ rs₁ rs₂, l = l₁ ++ l₂ ∧ rs = rs₁ ++ rs₂ ∧ l₁.length = rs₁.length ∧
        found = some (l₁ ++ new :: l₂) ∧ s' = s ∧ ¬ Overlaps rs newStart newEnd ∧
        (∀ r ∈ rs₁, r.startVm ≤ newStart) ∧ ∀ r ∈ rs₂.head?, newStart < r.startVm := by
  induction hvas generalizing found s' with
  | nil =>
    cases h
    exact .inr ⟨[], [], [], [], rfl, rfl, rfl, rfl, rfl, by simp [Overlaps, visited], by simp,
      by simp⟩
  | @cons a r l rs har _ ih =>
    simp only [insertVas, getVas_bind_eq_ok, har, Option.some.injEq, Obj.vas.injEq,
      exists_eq_left'] at h
    rcases ite_eq_ok.1 h with ⟨hover, h⟩ | ⟨hover, h⟩
    · obtain ⟨rfl, rfl⟩ := returnError_eq_ok.1 h
      refine .inl ⟨rfl, ⟨r, ?_, hover⟩, _, rfl⟩
      rw [visited]
      split <;> simp
    rcases ite_eq_ok.1 h with ⟨hgt, h⟩ | ⟨hle, h⟩
    · cases h
      refine .inr ⟨[], a :: l, [], r :: rs, rfl, rfl, rfl, rfl, rfl, ?_, by simp, ?_⟩
      · rintro ⟨x, hx, hxo⟩
        rw [visited, if_pos hgt, List.mem_singleton] at hx
        exact hover (hx ▸ hxo)
      · rintro _ ⟨⟩
        exact hgt
    · obtain ⟨found', s₁, hrest, hdone⟩ := bind_eq_ok.1 h
      have hvisited : visited newStart (r :: rs) = r :: visited newStart rs := by
        rw [visited, if_neg hle]
      rcases ih hrest with ⟨rfl, ⟨x, hx, hxo⟩, e, rfl⟩ |
        ⟨l₁, l₂, rs₁, rs₂, rfl, rfl, hlen, rfl, rfl, hno, hlow, hhigh⟩
      · cases hdone
        exact .inl ⟨rfl, ⟨x, by rw [hvisited]; exact .tail _ hx, hxo⟩, e, rfl⟩
      · cases hdone
        refine .inr ⟨a :: l₁, l₂, r :: rs₁, rs₂, rfl, rfl, by simp [hlen], rfl, rfl, ?_, ?_, hhigh⟩
        · rintro ⟨x, hx, hxo⟩
          rw [hvisited] at hx
          rcases List.mem_cons.1 hx with rfl | hx
          · exact hover hxo
          · exact hno ⟨x, hx, hxo⟩
        · intro x hx
          rcases List.mem_cons.1 hx with rfl | hx
          · omega
          · exact hlow x hx

/-- The range of a reservation is not empty, ends inside the range of the manager, and no entry lies
strictly inside it. -/
structure Fits (v : VMemoryManager) (rs : List VMemoryAddressSpace) (va szBytes : Nat) : Prop where
  pos : 0 < szBytes
  upper : va + szBytes ≤ v.end_
  empty : ∀ r ∈ rs, ¬ (va < r.startVm ∧ r.startVm + r.allocationSzBytes < va + szBytes)

/-- What the comparisons of `addNewVirtualAddressSpace` say about a range that fits: the entries
that do not start above it end before it, and the first of the others starts behind it. -/
theorem gap_of_not_overlaps {rs₁ rs₂ : List VMemoryAddressSpace} {szBytes : Nat}
    (hlayout : VasLayout v (rs₁ ++ rs₂)) (hend : v.end_ < 2 ^ 32)
    (hfits : Fits v (rs₁ ++ rs₂) va szBytes)
    (hno : ¬ Overlaps (rs₁ ++ rs₂) va (u32Sub (va + szBytes) 1))
    (hlow : ∀ r ∈ rs₁, r.startVm ≤ va) (hhigh : ∀ r ∈ rs₂.head?, va < r.startVm) :
    (∀ r ∈ rs₁, r.startVm + r.allocationSzBytes ≤ va) ∧
      ∀ r ∈ rs₂, va + szBytes ≤ r.startVm := by
  obtain ⟨hpos, hupper, hempty⟩ := hfits
  have hnewEnd : u32Sub (va + szBytes) 1 = va + szBytes - 1 := by
    unfold u32Sub
    omega
  -- what one comparison says about an entry that was visited
  have hcmp : ∀ r ∈ visited va (rs₁ ++ rs₂), r ∈ rs₁ ++ rs₂ →
      ¬ ((r.startVm ≤ va ∧ va < r.startVm + r.allocationSzBytes) ∨
        (r.startVm < va + szBytes ∧ va + szBytes ≤ r.startVm + r.allocationSzBytes)) := by
    intro r hr hmem hover
    refine hno ⟨r, hr, ?_⟩
    have h1 := hlayout.pos r hmem
    have h2 := hlayout.upper r hmem
    have hvasEnd : u32Sub (r.startVm + r.allocationSzBytes) 1 =
        r.startVm + r.allocationSzBytes - 1 := by
      unfold u32Sub
      omega
    rw [hnewEnd, hvasEnd, endPointsOverlap, decide_eq_true_eq]
    omega
  rw [visited_append hlow] at hcmp
  constructor
  · intro r hr
    have h1 := hcmp r (List.mem_append_left _ hr) (List.mem_append_left _ hr)
    have h2 := hlow r hr
    omega
  · cases rs₂ with
    | nil => simp
    | cons z rs₂ =>
      have hz : va < z.startVm := hhigh z rfl
      have h1 := hcmp z (by simp [visited, hz]) (by simp)
      have h2 := hempty z (by simp)
      intro r hr
      have h3 := (hlayout.sublist (List.sublist_append_right rs₁ _)).start_head_le hr
      omega

/-! ## Reservation -/

/-- The record that `createNewVirtAddrSpace` makes once the heap is ready. -/
def newVas (startVm szBytes flags : Nat) : Obj := .vas ⟨false, flags, startVm, szBytes, 0⟩

theorem createNewVirtAddrSpace_spec {szBytes flags : Nat} (hs : HeapOk s alloc)
    (hphase : s.phase.check .kmallocReady = true)
    (h : createNewVirtAddrSpace va szBytes flags s = .ok (a, s')) :
    (a = 0 ∧ ∃ e, s' = { s with errorNumber := e }) ∨
      isAligned szBytes pageFrameSizeBytes = true ∧ ∃ node s₁ s₂, a = node + sizeofKMallocHeader ∧
        Allocated s s₁ s₂ sizeofVMemoryAddressSpace alloc node ∧
        s' = s₂.setObj a (newVas va szBytes flags) := by
  simp only [createNewVirtAddrSpace, get_bind_apply, hphase, if_true] at h
  obtain ⟨new, s₁, hnew, h⟩ := bind_eq_ok.1 h
  rcases kmallocObj_spec hs hnew with ⟨rfl, e, rfl⟩ | ⟨node, s₂, s₃, rfl, hall, rfl⟩
  · cases h
    exact .inl ⟨rfl, e, rfl⟩
  · rw [if_neg (by simp only [sizeofKMallocHeader]; omega), kAssert_bind_eq_ok] at h
    obtain ⟨hal, h⟩ := h
    cases h
    exact .inr ⟨hal, node, s₂, s₃, rfl, hall, rfl⟩

/-- The records of a manager stay in place when a new record is made. -/
theorem VmmOk.of_allocated (hv : VmmOk s m v rs) (hs : HeapOk s alloc) {s₁ s₂ : KState}
    {bytes node : Nat} (hall : Allocated s s₁ s₂ bytes alloc node) (o : Obj) :
    ∃ dirty, VmmOk (s₂.setObj (node + sizeofKMallocHeader) o) m
      { v with isPageDirectoryDirty := dirty } rs := by
  obtain ⟨dirty, hv₁⟩ := hv.of_nonCommit hall.nonCommit
  have hfresh := (objs_none_of_nonCommit hall.nonCommit).2 (hall.objs_none hs)
  refine ⟨dirty, hv₁.congr (d := dirty) ?_ fun b hb => ?_⟩
  · have hne : m ≠ node + sizeofKMallocHeader := fun heq => by
      rw [← heq, hv₁.vmm] at hfresh
      cases hfresh
    rw [KState.setObj, hall.objs_eq]
    simpa only [if_neg hne] using hv₁.vmm
  · obtain ⟨r, -, hr⟩ := hv₁.objs_head hb
    have hne : b ≠ node + sizeofKMallocHeader := fun heq => by
      rw [← heq, hr] at hfresh
      cases hfresh
    rw [KState.setObj, hall.objs_eq]
    simp only [if_neg hne]

/-- What the insertion of a new record does: it reports an overlap, or makes an entry. -/
theorem enterVas_spec {new newStart newEnd : Nat} (hvmm : s.objs m = some (.vmm v))
    (hvas : List.Forall₂ (fun a r => s.objs a = some (.vas r)) v.head rs)
    (h : enterVas m new newStart newEnd s = .ok (a, s')) :
    (a = 0 ∧ Overlaps rs newStart newEnd ∧ ∃ e, s' = { s with errorNumber := e }) ∨
      a = new ∧ ∃ l₁ l₂ rs₁ rs₂, v.head = l₁ ++ l₂ ∧ rs = rs₁ ++ rs₂ ∧ l₁.length = rs₁.length ∧
        ¬ Overlaps rs newStart newEnd ∧ (∀ r ∈ rs₁, r.startVm ≤ newStart) ∧
        (∀ r ∈ rs₂.head?, newStart < r.startVm) ∧
        s' = s.setObj m (.vmm { v with head := l₁ ++ a :: l₂ }) := by
  simp only [enterVas, getVmm_bind_eq_ok, hvmm, Option.some.injEq, Obj.vmm.injEq,
    exists_eq_left'] at h
  obtain ⟨found, s₁, hins, hrest⟩ := bind_eq_ok.1 h
  rcases insertVas_spec hvas hins with ⟨rfl, hover, e, rfl⟩ |
    ⟨l₁, l₂, rs₁, rs₂, hl, hrs, hlen, rfl, rfl, hno, hlow, hhigh⟩
  · cases hrest
    exact .inl ⟨rfl, hover, e, rfl⟩
  · simp only [modifyVmm_bind_eq_ok, hvmm, Option.some.injEq, Obj.vmm.injEq,
      exists_eq_left'] at hrest
    cases hrest
    exact .inr ⟨rfl, l₁, l₂, rs₁, rs₂, hl, hrs, hlen, hno, hlow, hhigh, rfl⟩

/-- `addNewVirtualAddressSpace` refuses the range before it makes an entry. -/
def OutOfRange (v : VMemoryManager) (va szBytes : Nat) : Prop :=
  isAligned va pageFrameSizeBytes = false ∨ va < v.start ∨ u32 (va + szBytes) > v.end_

/-- The parts of `addNewVirtualAddressSpace`. -/
theorem addNewVirtualAddressSpace_parts {szPages flags : Nat} (hvmm : s.objs m = some (.vmm v))
    (h : addNewVirtualAddressSpace m va szPages flags s = .ok (a, s')) :
    (a = 0 ∧ OutOfRange v va (pageframesToBytes szPages) ∧ ∃ e, s' = { s with errorNumber := e }) ∨
      ¬ OutOfRange v va (pageframesToBytes szPages) ∧ ∃ new s₃,
        createNewVirtAddrSpace va (pageframesToBytes szPages) flags s = .ok (new, s₃) ∧
        (new = 0 ∧ a = 0 ∧ s' = s₃ ∨ new ≠ 0 ∧
          enterVas m new va (u32Sub (va + pageframesToBytes szPages) 1) s₃ = .ok (a, s')) := by
  simp only [addNewVirtualAddressSpace, getVmm_bind_eq_ok, hvmm, Option.some.injEq,
    Obj.vmm.injEq, exists_eq_left'] at h
  rcases ite_eq_ok.1 h with ⟨hal, h⟩ | ⟨hal, h⟩
  · obtain ⟨rfl, rfl⟩ := returnError_eq_ok.1 h
    exact .inl ⟨rfl, .inl hal, _, rfl⟩
  rcases ite_eq_ok.1 h with ⟨hrange, h⟩ | ⟨hrange, h⟩
  · obtain ⟨rfl, rfl⟩ := returnError_eq_ok.1 h
    exact .inl ⟨rfl, .inr hrange, _, rfl⟩
  obtain ⟨new, s₃, hnew, h⟩ := bind_eq_ok.1 h
  refine .inr ⟨fun hout => hout.elim hal hrange, new, s₃, hnew, ?_⟩
  rcases ite_eq_ok.1 h with ⟨hzero, h⟩ | ⟨hne, h⟩
  · cases h
    exact .inl ⟨hzero, rfl, rfl⟩
  · exact .inr ⟨hne, h⟩

/-- The range of a reservation is refused, or it fits. -/
def MemmapFits (v : VMemoryManager) (rs : List VMemoryAddressSpace) (va szPages : Nat) : Prop :=
  ¬ OutOfRange v va (pageframesToBytes szPages) →
    ¬ Overlaps rs va (u32Sub (va + pageframesToBytes szPages) 1) →
      Fits v rs va (pageframesToBytes szPages)

/-- The records of the two parts of the list. -/
theorem VmmOk.split {l₁ l₂ : List Nat} {rs₁ rs₂ : List VMemoryAddressSpace}
    (hv : VmmOk s m v (rs₁ ++ rs₂)) (hhead : v.head = l₁ ++ l₂) (hlen : l₁.length = rs₁.length) :
    List.Forall₂ (fun a r => s.objs a = some (.vas r)) l₁ rs₁ ∧
      List.Forall₂ (fun a r => s.objs a = some (.vas r)) l₂ rs₂ := by
  have hvas := hv.vas
  rw [hhead] at hvas
  have h₁ := List.forall₂_take l₁.length hvas
  have h₂ := List.forall₂_drop l₁.length hvas
  rw [List.take_left' rfl, List.take_left' hlen.symm] at h₁
  rw [List.drop_left' rfl, List.drop_left' hlen.symm] at h₂
  exact ⟨h₁, h₂⟩

/-- The list with a new entry in its gap. -/
theorem VmmOk.insert {l₁ l₂ : List Nat} {rs₁ rs₂ : List VMemoryAddressSpace}
    {new : VMemoryAddressSpace} {d : Bool} (hv : VmmOk s m v (rs₁ ++ rs₂))
    (ha : s.objs a = some (.vas new)) (hfresh : a ∉ v.head) (hhead : v.head = l₁ ++ l₂)
    (hlen : l₁.length = rs₁.length) (hlayout : VasLayout v (rs₁ ++ new :: rs₂))
    (haligned : new.startVm % pageFrameSizeBytes = 0 ∧
      new.allocationSzBytes % pageFrameSizeBytes = 0) (hshare : new.share = 0) :
    VmmOk (s.setObj m (.vmm { v with isPageDirectoryDirty := d, head := l₁ ++ a :: l₂ })) m
      { v with isPageDirectoryDirty := d, head := l₁ ++ a :: l₂ } (rs₁ ++ new :: rs₂) where
  vmm := by simp [KState.setObj]
  vas := by
    have hkeep : ∀ b r, s.objs b = some (.vas r) →
        (s.setObj m (.vmm { v with isPageDirectoryDirty := d, head := l₁ ++ a :: l₂ })).objs b =
          some (.vas r) := by
      intro b r hb
      have hne : b ≠ m := fun heq => by
        rw [heq, hv.vmm] at hb
        cases hb
      simpa [KState.setObj, hne] using hb
    obtain ⟨h₁, h₂⟩ := hv.split hhead hlen
    exact List.rel_append (h₁.imp hkeep) (.cons (hkeep a new ha) (h₂.imp hkeep))
  nodup := by
    have hnd := hv.nodup
    rw [hhead] at hnd hfresh
    exact List.nodup_middle.2 (List.nodup_cons.2 ⟨hfresh, hnd⟩)
  layout := hlayout
  aligned r hr := by
    rcases List.mem_append.1 hr with hr | hr
    · exact hv.aligned r (by simp [hr])
    · rcases List.mem_cons.1 hr with rfl | hr
      · exact haligned
      · exact hv.aligned r (by simp [hr])
  share r hr := by
    rcases List.mem_append.1 hr with hr | hr
    · exact hv.share r (by simp [hr])
    · rcases List.mem_cons.1 hr with rfl | hr
      · exact hshare
      · exact hv.share r (by simp [hr])
  end_lt := hv.end_lt

/-- Whether a range fits depends on the range of the manager alone. -/
theorem MemmapFits.congr {v' : VMemoryManager} {szPages : Nat} (h : MemmapFits v rs va szPages)
    (hstart : v'.start = v.start) (hend : v'.end_ = v.end_) : MemmapFits v' rs va szPages := by
  intro hin hno
  rw [OutOfRange, hstart, hend] at hin
  obtain ⟨hpos, hupper, hempty⟩ := h hin hno
  exact ⟨hpos, hend ▸ hupper, hempty⟩

/-- A record that fits is entered in its gap, or the list stays as it is. -/
theorem enterVas_vmmOk {new szPages flags : Nat} {st : Bool} (hv : VmmOk s m v rs)
    (hnew : s.objs new = some (.vas ⟨st, flags, va, pageframesToBytes szPages, 0⟩))
    (hfresh : new ∉ v.head) (hal : isAligned (pageframesToBytes szPages) pageFrameSizeBytes = true)
    (hin : ¬ OutOfRange v va (pageframesToBytes szPages)) (hfits : MemmapFits v rs va szPages)
    (h : enterVas m new va (u32Sub (va + pageframesToBytes szPages) 1) s = .ok (a, s')) :
    (a = 0 ∧ ∃ e, s' = { s with errorNumber := e }) ∨
      a = new ∧ ∃ head rs', s' = s.setObj m (.vmm { v with head }) ∧
        VmmOk s' m { v with head } rs' := by
  rcases enterVas_spec hv.vmm hv.vas h with ⟨rfl, -, herr⟩ |
    ⟨rfl, l₁, l₂, rs₁, rs₂, hl, rfl, hlen, hno, hlow, hhigh, rfl⟩
  · exact .inl ⟨rfl, herr⟩
  have hfit := hfits hin hno
  obtain ⟨hbelow, habove⟩ := gap_of_not_overlaps hv.layout hv.end_lt hfit hno hlow hhigh
  have hlo : v.start ≤ va := Nat.le_of_not_lt fun hlt => hin (.inr (.inl hlt))
  have hvaAligned : va % 4096 = 0 := isAligned_page_iff.1 (by simpa using fun hal => hin (.inl hal))
  have hlayout := hv.layout.insert (x := ⟨st, flags, va, pageframesToBytes szPages, 0⟩) hlo
    hfit.pos hfit.upper hbelow habove
  exact .inr ⟨rfl, _, _, rfl, hv.insert (d := v.isPageDirectoryDirty) hnew hfresh hl hlen hlayout
    ⟨hvaAligned, isAligned_page_iff.1 hal⟩ rfl⟩

/-! ## Searching for a gap -/

/-- The range that `find_next_va` returns lies in a gap. -/
structure InGap (v : VMemoryManager) (rs : List VMemoryAddressSpace) (lo va szBytes : Nat) :
    Prop where
  lower : lo ≤ va
  upper : va + szBytes ≤ v.end_
  apart : ∀ r ∈ rs, r.startVm + r.allocationSzBytes ≤ va ∨ va + szBytes ≤ r.startVm

/-- The loop of `find_next_va` from the end `lo` of the entries passed. -/
theorem findNextVaFrom_spec {szBytes lo : Nat} {prev : Option VMemoryAddressSpace} {l : List Nat}
    (hvas : List.Forall₂ (fun a r => s.objs a = some (.vas r)) l rs)
    (hlayout : Layout VMemoryAddressSpace.startVm VMemoryAddressSpace.allocationSzBytes lo v.end_
      rs)
    (hlo : lo ≤ v.end_) (hend : v.end_ < 2 ^ 32)
    (hprev : lo = prev.elim v.start fun r => r.startVm + r.allocationSzBytes)
    (h : findNextVaFrom v szBytes prev l s = .ok (va, s')) :
    s' = s ∧ (va = 0 ∨ InGap v rs lo va szBytes) := by
  induction hvas generalizing lo prev with
  | nil =>
    cases prev with
    | none => cases h
    | some p =>
      simp only [Option.elim_some] at hprev
      simp only [findNextVaFrom, pure_apply, Except.ok.injEq, Prod.mk.injEq] at h
      obtain ⟨hva, rfl⟩ := h
      have hnew : u32 (p.startVm + p.allocationSzBytes) = lo := by
        rw [hprev]
        exact Nat.mod_eq_of_lt (by omega)
      rw [hnew] at hva
      refine ⟨rfl, ?_⟩
      split at hva
      · rename_i hgap
        unfold u32Sub at hgap
        exact .inr ⟨by omega, by omega, by simp⟩
      · exact .inl hva.symm
  | @cons a r l rs har hrest ih =>
    have hr := hlayout.lower r (by simp)
    have hpos := hlayout.pos r (by simp)
    have hup := hlayout.upper r (by simp)
    obtain ⟨hpair, -⟩ := List.pairwise_cons.1 hlayout.pairwise
    have hstep : ∀ newVa : Nat, newVa = lo →
        (if u32Sub r.startVm newVa ≥ szBytes then pure newVa
          else findNextVaFrom v szBytes (some r) l : K Nat) s = .ok (va, s') →
        s' = s ∧ (va = 0 ∨ InGap v (r :: rs) lo va szBytes) := by
      rintro newVa rfl h
      rcases ite_eq_ok.1 h with ⟨hgap, h⟩ | ⟨-, h⟩
      · cases h
        unfold u32Sub at hgap
        refine ⟨rfl, .inr ⟨by omega, by omega, fun x hx => .inr ?_⟩⟩
        have := hlayout.start_head_le hx
        omega
      · have hlayout' : Layout VMemoryAddressSpace.startVm VMemoryAddressSpace.allocationSzBytes
            (r.startVm + r.allocationSzBytes) v.end_ rs :=
          ⟨(List.pairwise_cons.1 hlayout.pairwise).2, hpair, fun x hx => hlayout.pos x (.tail _ hx),
            fun x hx => hlayout.upper x (.tail _ hx)⟩
        obtain ⟨hs, hva⟩ := ih hlayout' hup rfl h
        refine ⟨hs, hva.imp id fun hgap => ⟨by have := hgap.lower; omega, hgap.upper, ?_⟩⟩
        intro x hx
        rcases List.mem_cons.1 hx with rfl | hx
        · exact .inl hgap.lower
        · exact hgap.apart x hx
    cases prev with
    | none =>
      simp only [findNextVaFrom, getVas_bind_eq_ok, har, Option.some.injEq, Obj.vas.injEq,
        exists_eq_left', pure_bind] at h
      exact hstep _ hprev.symm h
    | some p =>
      simp only [Option.elim_some] at hprev
      simp only [findNextVaFrom, getVas_bind_eq_ok, har, Option.some.injEq, Obj.vas.injEq,
        exists_eq_left', kAssert_bind_eq_ok, pure_bind] at h
      refine hstep _ ?_ h.2
      rw [hprev]
      exact Nat.mod_eq_of_lt (by omega)

theorem findNextVa_spec {szPages : Nat} (hv : VmmOk s m v rs) (hle : v.start ≤ v.end_)
    (h : findNextVa m szPages s = .ok (va, s')) :
    s' = s ∧ (va = 0 ∨ (rs = [] ∧ va = v.start) ∨
      InGap v rs v.start va (pageframesToBytes szPages)) := by
  simp only [findNextVa, getVmm_bind_eq_ok, hv.vmm, Option.some.injEq, Obj.vmm.injEq,
    exists_eq_left'] at h
  rcases ite_eq_ok.1 h with ⟨hnil, h⟩ | ⟨-, h⟩
  · cases h
    refine ⟨rfl, .inr (.inl ⟨?_, rfl⟩)⟩
    have hvas := hv.vas
    rw [hnil] at hvas
    exact List.forall₂_nil_left_iff.1 hvas
  · obtain ⟨hs, hva⟩ := findNextVaFrom_spec hv.vas hv.layout hle hv.end_lt rfl h
    exact ⟨hs, hva.imp id .inr⟩

/-! ## The calls on a manager -/

/-- The address that a reservation resolves to. -/
def ResolvesTo (s : KState) (m va szPages va' : Nat) : Prop :=
  va ≠ 0 ∧ va' = va ∨ va = 0 ∧ findNextVa m szPages s = .ok (va', s)

/-- The parts of `kvmm_memmap`. -/
theorem kvmmMemmap_parts {szPages flags : Nat} {pa : Option Nat} {r : Nat × Option Nat}
    (h : kvmmMemmap m va pa szPages flags s = .ok (r, s')) :
    ∃ va' a s₁, ResolvesTo s m va szPages va' ∧
      addNewVirtualAddressSpace m va' szPages flags s = .ok (a, s₁) ∧
      ((a = 0 ∧ r = (0, none) ∧ s' = s₁) ∨
        a ≠ 0 ∧ bitIsUnset flags vmmMemmapFlagImmcommit = true ∧ r = (va', none) ∧ s' = s₁ ∨
        a ≠ 0 ∧ bitIsUnset flags vmmMemmapFlagImmcommit = false ∧ ∃ done out,
          commitVirtualPages m va' pa szPages flags s₁ = .ok ((done, out), s') ∧
            r = (if done then va' else 0, out)) := by
  obtain ⟨va', s₀, hva, hrest⟩ := bind_eq_ok.1 h
  have hresolve : ResolvesTo s m va szPages va' ∧ s₀ = s := by
    rcases ite_eq_ok.1 hva with ⟨hzero, hva⟩ | ⟨hne, hva⟩
    · obtain rfl : s₀ = s := findNextVa_fixes (f := id) _ _ _ _ _ hva
      exact ⟨.inr ⟨hzero, hva⟩, rfl⟩
    · cases hva
      exact ⟨.inl ⟨hne, rfl⟩, rfl⟩
  obtain ⟨hresolve, rfl⟩ := hresolve
  obtain ⟨a, s₁, hadd, hrest⟩ := bind_eq_ok.1 hrest
  refine ⟨va', a, s₁, hresolve, hadd, ?_⟩
  rcases ite_eq_ok.1 hrest with ⟨ha, hrest⟩ | ⟨ha, hrest⟩
  · cases hrest
    exact .inl ⟨ha, rfl, rfl⟩
  rcases ite_eq_ok.1 hrest with ⟨hflag, hrest⟩ | ⟨hflag, hrest⟩
  · cases hrest
    exact .inr (.inl ⟨ha, hflag, rfl, rfl⟩)
  · obtain ⟨⟨done, out⟩, s₂, hcommit, hrest⟩ := bind_eq_ok.1 hrest
    cases hrest
    exact .inr (.inr ⟨ha, by simpa using hflag, done, out, hcommit, rfl⟩)

/-- A pairing of two lists splits where the first one does. -/
theorem forall₂_split {α β : Type} {R : α → β → Prop} {l₁ l₂ : List α} {x : α} {ys : List β}
    (h : List.Forall₂ R (l₁ ++ x :: l₂) ys) : ∃ ys₁ y ys₂, ys = ys₁ ++ y :: ys₂ ∧
      List.Forall₂ R l₁ ys₁ ∧ R x y ∧ List.Forall₂ R l₂ ys₂ := by
  induction l₁ generalizing ys with
  | nil =>
    cases h with
    | cons hxy h => exact ⟨[], _, _, rfl, .nil, hxy, h⟩
  | cons z l₁ ih =>
    cases h with
    | cons hz h =>
      obtain ⟨ys₁, y, ys₂, rfl, h₁, hxy, h₂⟩ := ih h
      exact ⟨_ :: ys₁, y, ys₂, rfl, .cons hz h₁, hxy, h₂⟩

/-- The record of a member of the list, and the list without it. -/
theorem VmmOk.erase (hv : VmmOk s m v rs) (ha : a ∈ v.head) :
    ∃ rs₁ r rs₂, rs = rs₁ ++ r :: rs₂ ∧ s.objs a = some (.vas r) ∧
      VmmOk (s.setObj m (.vmm { v with head := v.head.erase a })) m
        { v with head := v.head.erase a } (rs₁ ++ rs₂) := by
  obtain ⟨l₁, l₂, hl⟩ := List.append_of_mem ha
  have hvas := hv.vas
  have hnd := hv.nodup
  rw [hl] at hvas hnd
  obtain ⟨hnot, hnd⟩ := List.nodup_cons.1 (List.nodup_middle.1 hnd)
  obtain ⟨rs₁, r, rs₂, rfl, h₁, har, h₂⟩ := forall₂_split hvas
  have herase : v.head.erase a = l₁ ++ l₂ := by
    rw [hl, List.erase_append_right _ fun h => hnot (by simp [h]), List.erase_cons_head]
  have hkeep : ∀ b r, s.objs b = some (.vas r) →
      (s.setObj m (.vmm { v with head := v.head.erase a })).objs b = some (.vas r) := by
    intro b r hb
    have hne : b ≠ m := fun heq => by
      rw [heq, hv.vmm] at hb
      cases hb
    simpa [KState.setObj, hne] using hb
  have hsub : (rs₁ ++ rs₂).Sublist (rs₁ ++ r :: rs₂) :=
    List.Sublist.append_left (List.sublist_cons_self _ _) _
  refine ⟨rs₁, r, rs₂, rfl, har, by simp [KState.setObj], ?_, ?_, hv.layout.sublist hsub,
    fun x hx => hv.aligned x (hsub.subset hx), fun x hx => hv.share x (hsub.subset hx), hv.end_lt⟩
  · have happend := List.rel_append (h₁.imp hkeep) (h₂.imp hkeep)
    dsimp only at happend
    rwa [← herase] at happend
  · show (v.head.erase a).Nodup
    rw [herase]
    exact hnd

/-- What `kvmm_free` does: it reports an error, or it releases the pages of an entry and the entry,
whose record it gives back to the heap. -/
theorem kvmmFree_parts {startVa : Nat} {ok : Bool} (hv : VmmOk s m v rs)
    (h : kvmmFree m startVa s = .ok (ok, s')) :
    (ok = false ∧ ∃ e, s' = { s with errorNumber := e }) ∨
      ok = true ∧ ∃ a ∈ v.head, ∃ r ∈ rs, s.objs a = some (.vas r) ∧ r.isStaticAllocated = false ∧
        r.startVm ≤ startVa ∧ startVa < r.startVm + r.allocationSzBytes ∧ ∃ pd s₁ s₂ s₃ freed,
          kpgTemporaryMap v.parentProcessPD s = .ok (pd, s₁) ∧
          freePagesFrom pd 0 (bytesToPageframesCeiling r.allocationSzBytes) startVa s₁ =
            .ok ((), s₂) ∧
          kpgTemporaryUnmap s₂ = .ok ((), s₃) ∧
          kfree a (s₃.setObj m (.vmm { v with head := v.head.erase a })) = .ok (freed, s') := by
  simp only [kvmmFree, kAssert_bind_eq_ok] at h
  obtain ⟨found, s₀, hfind, hrest⟩ := bind_eq_ok.1 h.2
  obtain ⟨rfl, -, hsome⟩ := findVas_spec hv hfind
  cases found with
  | none =>
    obtain ⟨rfl, rfl⟩ := returnError_eq_ok.1 hrest
    exact .inl ⟨rfl, _, rfl⟩
  | some a =>
    obtain ⟨r, hr, ha, har, hlo, hhi⟩ := hsome a rfl
    simp only [getVas_bind_eq_ok, har, Option.some.injEq, Obj.vas.injEq, exists_eq_left'] at hrest
    rcases ite_eq_ok.1 hrest with ⟨hstatic, hrest⟩ | ⟨hstatic, hrest⟩
    · obtain ⟨rfl, rfl⟩ := returnError_eq_ok.1 hrest
      exact .inl ⟨rfl, _, rfl⟩
    have hshare := hv.share r hr
    simp only [hshare, ne_eq, not_true_eq_false, not_false_eq_true, when_false, pure_bind,
      getVmm_bind_eq_ok, hv.vmm, Option.some.injEq, Obj.vmm.injEq, exists_eq_left'] at hrest
    obtain ⟨pd, s₁, hmap, hrest⟩ := bind_eq_ok.1 hrest
    obtain ⟨_, s₂, hfree, hrest⟩ := bind_eq_ok.1 hrest
    obtain ⟨_, s₃, hunmap, hrest⟩ := bind_eq_ok.1 hrest
    have hobjs : s₃.objs = s₀.objs := by
      have h₁ := kpgTemporaryMap_fixes _ _ _ _ hmap
      have h₂ := freePagesFrom_fixes _ _ _ _ _ _ _ hfree
      have h₃ := kpgTemporaryUnmap_fixes _ _ _ hunmap
      show s₃.nonPaging.objs = s₀.nonPaging.objs
      rw [h₃, h₂, h₁]
    simp only [modifyVmm_bind_eq_ok, hobjs, hv.vmm, Option.some.injEq, Obj.vmm.injEq,
      exists_eq_left'] at hrest
    obtain ⟨freed, s₄, hkfree, hrest⟩ := bind_eq_ok.1 hrest
    cases hrest
    exact .inr ⟨rfl, a, ha, r, hr, har, by simpa using hstatic, hlo, hhi, pd, s₁, s₂, s₃, freed,
      hmap, hfree, hunmap, hkfree⟩

/-- `kvmm_free` keeps the list in order. -/
theorem kvmmFree_vmmOk {startVa : Nat} {ok : Bool} (hs : HeapOk s alloc) (hv : VmmOk s m v rs)
    (h : kvmmFree m startVa s = .ok (ok, s')) :
    s'.phase = s.phase ∧ (∃ alloc', HeapOk s' alloc') ∧
      ∃ v' rs', VmmOk s' m v' rs' ∧ v'.start = v.start ∧ v'.end_ = v.end_ := by
  rcases kvmmFree_parts hv h with ⟨-, e, rfl⟩ |
    ⟨-, a, ha, r, hr, har, -, -, -, pd, s₁, s₂, s₃, freed, hmap, hfree, hunmap, hkfree⟩
  · exact ⟨rfl, ⟨alloc, hs.of_nonCommit rfl⟩, v, rs, hv.congr hv.vmm fun _ _ => rfl, rfl, rfl⟩
  have hnp : s₃.nonPaging = s.nonPaging := by
    rw [kpgTemporaryUnmap_fixes _ _ _ hunmap, freePagesFrom_fixes _ _ _ _ _ _ _ hfree,
      kpgTemporaryMap_fixes _ _ _ _ hmap]
  have hobjs : s₃.objs = s.objs := by
    show s₃.nonPaging.objs = s.nonPaging.objs
    rw [hnp]
  have hnc : s₃.nonCommit = s.nonCommit := congrArg dropDirty hnp
  have hv₃ : VmmOk s₃ m v rs :=
    hv.congr (d := v.isPageDirectoryDirty) (by rw [hobjs]; exact hv.vmm) fun b _ => by rw [hobjs]
  obtain ⟨rs₁, r', rs₂, -, har', hv₄⟩ := hv₃.erase ha
  have hs₄ := (hs.of_nonCommit hnc).setObj (o := .vmm { v with head := v.head.erase a })
    (by rw [hv₃.vmm]; simp)
  have ham : a ≠ m := fun heq => by
    rw [heq, hv₃.vmm] at har'
    cases har'
  have halive : (s₃.setObj m (.vmm { v with head := v.head.erase a })).objs a ≠ none := by
    simp [KState.setObj, ham, har']
  obtain ⟨hphase, halloc, hkeep⟩ := kfree_objs hs₄ halive hkfree
  have hv' := hv₄.congr (d := v.isPageDirectoryDirty) (hkeep m ham.symm ▸ hv₄.vmm) fun b hb =>
    hkeep b fun heq => (List.Nodup.mem_erase_iff hv.nodup).1 (heq ▸ hb) |>.1 rfl
  have hphase₃ : s₃.phase = s.phase := phase_of_nonCommit hnc
  exact ⟨hphase.trans hphase₃, halloc, _, _, hv', rfl, rfl⟩

end MeghaOS
