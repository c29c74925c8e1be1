import MeghaOS.Proof.Malloc

/-!
# The section sequence of the kernel heap

`SectionSeq` is the abstract heap: the sections in address order, and the order of the free list. A
call of `kmalloc` takes the first free section that is large enough (`SectionSeq.Allocates`), and
one of `kfree` turns a section, together with its free neighbours, into one free section
(`SectionSeq.Releases`). Either names every section of the heap before and after the call, so that
the sections it does not name as changed are the same. In a run of the allocator the allocated
sections are those of the live blocks (`KmallocRun.allocated`), which decides what `kfree` finds.
-/

namespace MeghaOS

open Exec KState

variable {h h' : KHeap} {secs free alloc ys left right zs : List Nat} {live : List (Nat × Nat)}
  {a bytes node addr : Nat} {s s' : KState}

/-! ## Section sequences -/

/-- A section of the buffer: its address, its net size, and whether it is allocated. -/
structure Section where
  addr : Nat
  size : Nat
  used : Bool
  deriving DecidableEq

/-- The sections of a heap in address order, and the free ones in the order of the free list. -/
structure SectionSeq where
  sections : List Section
  free : List Nat

namespace SectionSeq

/-- A free section holds a block of this size, its header and a further header. -/
def CanMeet (L : SectionSeq) (bytes : Nat) : Prop :=
  ∃ x ∈ L.sections, x.used = false ∧ bytes + 2 * sizeofKMallocHeader ≤ x.size

/-- The first section of the free list that is large enough became an allocated section of exactly
the block and its header, followed by a free section that takes its place in the free list. The
block is at `addr`. -/
def Allocates (L : SectionSeq) (bytes addr : Nat) (L' : SectionSeq) : Prop :=
  ∃ ys a n zs fs₁ fs₂,
    L = ⟨ys ++ ⟨a, n, false⟩ :: zs, fs₁ ++ a :: fs₂⟩ ∧
      bytes + 2 * sizeofKMallocHeader ≤ n ∧
      (∀ x ∈ L.sections, x.addr ∈ fs₁ → x.size < bytes + 2 * sizeofKMallocHeader) ∧
      addr = a + sizeofKMallocHeader ∧
      L' = ⟨ys ++ ⟨a, bytes + sizeofKMallocHeader, true⟩ ::
          ⟨addr + bytes, n - (bytes + sizeofKMallocHeader), false⟩ :: zs,
        fs₁ ++ (addr + bytes) :: fs₂⟩

/-- The allocated section `x` of the block at `addr` and its free neighbours, `left` and `right`,
became one free section. It takes the place of the one in `left`, if any, in the free list, and
comes first in it otherwise. -/
def Releases (L : SectionSeq) (addr : Nat) (L' : SectionSeq) : Prop :=
  ∃ ys left x right zs,
    L.sections = ys ++ left ++ x :: (right ++ zs) ∧ x.used = true ∧
      addr = x.addr + sizeofKMallocHeader ∧ left.length ≤ 1 ∧ right.length ≤ 1 ∧
      (∀ y ∈ left ++ right, y.used = false) ∧ (∀ y ∈ ys.getLast?, y.used = true) ∧
      (∀ z ∈ zs.head?, z.used = true) ∧
      L'.sections = ys ++ ⟨(left.headD x).addr,
        (left.map Section.size).sum + x.size + (right.map Section.size).sum, false⟩ :: zs ∧
      L'.free = if left = [] then x.addr :: L.free.diff (right.map Section.addr)
        else L.free.diff (right.map Section.addr)

end SectionSeq

namespace KHeap

/-- What the header at an address says. -/
def sectionAt (h : KHeap) (a : Nat) : Section := ⟨a, h.size a, h.used a⟩

/-- The heap is intact, and these are its sections and its free list. -/
def HasSections (h : KHeap) (L : SectionSeq) : Prop :=
  ∃ secs alloc, HeapInv h secs L.free alloc ∧ L.sections = secs.map h.sectionAt

end KHeap

/-- The allocated sections of a heap are determined by it. -/
theorem HeapInv.mem_alloc_unique {secs' free' alloc' : List Nat} (hh : HeapInv h secs free alloc)
    (hh' : HeapInv h secs' free' alloc') : a ∈ alloc' ↔ a ∈ alloc := by
  rw [hh.mem_alloc, hh'.mem_alloc, hh.secs_unique hh']

/-- A request can be met exactly when a section of the sequence can meet it. -/
theorem canMeet_iff {L : SectionSeq} (hh : HeapInv h secs free alloc)
    (hL : L.sections = secs.map h.sectionAt) : L.CanMeet bytes ↔ h.CanMeet bytes := by
  constructor
  · rintro ⟨x, hx, hused, hsize⟩
    rw [hL, List.mem_map] at hx
    obtain ⟨a, ha, rfl⟩ := hx
    exact ⟨a, hh.freeSection_iff.2 ((hh.mem_free a).2 ⟨ha, hused⟩), hsize⟩
  · rintro ⟨a, ha, hsize⟩
    obtain ⟨hsecs, hused⟩ := (hh.mem_free a).1 (hh.freeSection_iff.1 ha)
    exact ⟨h.sectionAt a, by rw [hL]; exact List.mem_map_of_mem hsecs, hused, hsize⟩

/-! ## Allocation -/

/-- The free section at which `kmalloc` finds what it looks for. -/
theorem findFreeNode_first (hh : HeapInv h secs free alloc) (hfits : h.Fits bytes)
    (hmeet : h.CanMeet bytes) :
    ∃ fs₁ node fs₂, free = fs₁ ++ node :: fs₂ ∧ findFreeNode bytes h = .ok (some node, h) ∧
      bytes + 2 * sizeofKMallocHeader ≤ h.size node ∧
      ∀ x ∈ fs₁, h.size x < bytes + 2 * sizeofKMallocHeader := by
  rcases request hh hfits with ⟨hno, -⟩ | ⟨node, -, hbytes, hfind, -, hsize⟩
  · exact absurd hmeet hno
  have heq := findFreeNode_eq hh.toHeapCore hbytes
  rw [hfind] at heq
  obtain ⟨-, fs₁, fs₂, hfree, hfirst⟩ :=
    List.find?_eq_some_iff_append.1 (Prod.mk.inj (Except.ok.inj heq)).1.symm
  exact ⟨fs₁, node, fs₂, hfree, hfind, hsize, fun x hx => by simpa using hfirst x hx⟩

/-- What splitting the section that was found does to the sequence. -/
theorem split_sections {fs₁ fs₂ : List Nat} {L : SectionSeq}
    (hh : HeapInv h (ys ++ a :: zs) (fs₁ ++ a :: fs₂) alloc)
    (hL : L = ⟨(ys ++ a :: zs).map h.sectionAt, fs₁ ++ a :: fs₂⟩)
    (hsize : bytes + 2 * sizeofKMallocHeader ≤ h.size a)
    (hfirst : ∀ x ∈ fs₁, h.size x < bytes + 2 * sizeofKMallocHeader) :
    ∃ h' L', sSplitFreeNode bytes a h = .ok ((), h') ∧ h'.HasSections L' ∧
      L.Allocates bytes (a + sizeofKMallocHeader) L' := by
  obtain ⟨h', hrun, hh', hheader, -⟩ := sSplitFreeNode_sections hh hsize
  have hused := ((hh.mem_free a).1 (by simp)).2
  have hle : bytes + 32 + 32 ≤ h.size a := by simpa only [sizeofKMallocHeader] using hsize
  obtain ⟨hsa, hsb, hold⟩ := hh.splitHeader_eq (by omega) (by omega) hheader
  have hys : ys.map h'.sectionAt = ys.map h.sectionAt := List.map_congr_left fun x hx => by
    obtain ⟨hsz, hus⟩ := hold x (List.mem_append_left _ hx)
    rw [KHeap.sectionAt, hsz, hus, KHeap.sectionAt]
  have hzs : zs.map h'.sectionAt = zs.map h.sectionAt := List.map_congr_left fun x hx => by
    obtain ⟨hsz, hus⟩ := hold x (List.mem_append_right _ hx)
    rw [KHeap.sectionAt, hsz, hus, KHeap.sectionAt]
  have haddr : a + sizeofKMallocHeader + bytes = a + (bytes + 32) := by
    simp only [sizeofKMallocHeader]
    omega
  refine ⟨h', ⟨(ys ++ a :: (a + (bytes + 32)) :: zs).map h'.sectionAt,
    fs₁ ++ (a + (bytes + 32)) :: fs₂⟩, hrun, ⟨_, _, hh', rfl⟩, ys.map h.sectionAt, a, h.size a,
    zs.map h.sectionAt, fs₁, fs₂, ?_, hsize, fun x hx hx₁ => ?_, rfl, ?_⟩
  · rw [hL, List.map_append, List.map_cons, KHeap.sectionAt, hused]
  · rw [hL, List.mem_map] at hx
    obtain ⟨b, -, rfl⟩ := hx
    exact hfirst b hx₁
  · rw [haddr, List.map_append, List.map_cons, List.map_cons, hys, hzs, KHeap.sectionAt, hsa.1,
      hsa.2, KHeap.sectionAt, hsb.1, hsb.2]

/-- `kmalloc` splits the section it finds, unless the access of the header behind the block stops
the kernel. -/
theorem kmalloc_split (hphase : s.phase.check .kmallocReady = true)
    (hfind : findFreeNode bytes s.heap = .ok (some node, s.heap))
    (hsplit : sSplitFreeNode bytes node s.heap = .ok ((), h')) (hat : splitAt bytes node = a)
    (haddr : u32 (node + sizeofKMallocHeader) = addr) :
    (∃ s', kmalloc bytes s = .ok (addr, s') ∧ s'.heap = h') ∨
      ∃ e, touchRange a sizeofKMallocHeader s = .error e ∧ kmalloc bytes s = .error e := by
  have hvalid : kernelPhaseValidate .kmallocReady s = .ok ((), s) :=
    kernelPhaseValidate_eq_ok.2 ⟨hphase, rfl⟩
  rw [kmalloc, bind_of_ok hvalid, bind_of_ok (KmallocInv.onHeap_of_ok hfind)]
  dsimp only
  rw [hat, haddr]
  cases htouch : touchRange a sizeofKMallocHeader s with
  | error e => exact .inr ⟨e, rfl, bind_of_error htouch⟩
  | ok p =>
    obtain ⟨⟨⟩, s₁⟩ := p
    have hheap : s₁.heap = s.heap := heap_of_nonCommit (touchRange_fixes _ _ _ _ _ htouch)
    have hsplit₁ : onHeap (sSplitFreeNode bytes node) s₁ = .ok ((), { s₁ with heap := h' }) :=
      KmallocInv.onHeap_of_ok (hheap ▸ hsplit)
    refine .inl ⟨({ s₁ with heap := h' } : KState).reuse node (a + sizeofKMallocHeader), ?_, rfl⟩
    rw [bind_of_ok htouch, bind_of_ok hsplit₁, modify_bind_apply]
    rfl

/-! ## Release -/

/-- What merging a released section with its free neighbours does to the sequence. -/
theorem merged_sections {L : SectionSeq}
    (hh : HeapInv h (ys ++ left ++ a :: (right ++ zs)) L.free alloc)
    (hL : L.sections = (ys ++ left ++ a :: (right ++ zs)).map h.sectionAt) (hused : h.used a = true)
    (hh' : HeapInv h' (ys ++ left.headD a :: zs)
      (if left = [] then a :: L.free.diff right else L.free.diff right) (alloc.erase a))
    (hm : Merged h h' ys left a right zs) :
    ∃ L', h'.HasSections L' ∧ L.Releases (a + sizeofKMallocHeader) L' := by
  have hnd := hh.secs_nodup
  have hnd' := hh'.secs_nodup
  have hkept : ∀ x ∈ ys ++ zs, h'.sectionAt x = h.sectionAt x := fun x hx => by
    have hxa : x ≠ a := by
      rintro rfl
      simp only [List.nodup_append, List.nodup_cons, List.mem_append, List.mem_cons] at hnd hx
      grind
    have hxl : x ≠ left.headD a := by
      rintro rfl
      rw [List.nodup_middle, List.nodup_cons] at hnd'
      exact hnd'.1 hx
    rw [KHeap.sectionAt, hm.size_other x hxl hxa, hm.used_other x hxa, KHeap.sectionAt]
  have hys : ys.map h'.sectionAt = ys.map h.sectionAt := List.map_congr_left fun x hx =>
    hkept x (List.mem_append_left _ hx)
  have hzs : zs.map h'.sectionAt = zs.map h.sectionAt := List.map_congr_left fun x hx =>
    hkept x (List.mem_append_right _ hx)
  have hsizes : ∀ l : List Nat, (l.map h.sectionAt).map Section.size = l.map h.size := fun l => by
    rw [List.map_map]
    rfl
  have haddrs : (right.map h.sectionAt).map Section.addr = right := by
    rw [List.map_map]
    exact List.map_id right
  have hfirst : ((left.map h.sectionAt).headD (h.sectionAt a)).addr = left.headD a := by
    cases left <;> rfl
  refine ⟨⟨(ys ++ left.headD a :: zs).map h'.sectionAt,
    if left = [] then a :: L.free.diff right else L.free.diff right⟩, ⟨_, _, hh', rfl⟩,
    ys.map h.sectionAt, left.map h.sectionAt, h.sectionAt a, right.map h.sectionAt,
    zs.map h.sectionAt, by rw [hL]; simp, hused, rfl, by simpa using hm.left_length,
    by simpa using hm.right_length, fun y hy => ?_, fun y hy => ?_, fun z hz => ?_, ?_, ?_⟩
  · rw [← List.map_append, List.mem_map] at hy
    obtain ⟨x, hx, rfl⟩ := hy
    rcases List.mem_append.1 hx with hx | hx
    · exact hm.left_free x hx
    · exact hm.right_free x hx
  · rw [List.getLast?_map, Option.mem_def, Option.map_eq_some_iff] at hy
    obtain ⟨x, hx, rfl⟩ := hy
    exact hm.before x hx
  · rw [List.head?_map, Option.mem_def, Option.map_eq_some_iff] at hz
    obtain ⟨x, hx, rfl⟩ := hz
    exact hm.behind x hx
  · rw [List.map_append, List.map_cons, hys, hzs, hfirst, hsizes, hsizes, KHeap.sectionAt, hm.size,
      hm.used]
    rfl
  · rw [haddrs]
    cases left <;> rfl

/-! ## Runs -/

/-- Every allocated section is that of a live block. -/
def SectionSeq.OnlyLive (L : SectionSeq) (live : List (Nat × Nat)) : Prop :=
  ∀ x ∈ L.sections, x.used = true → x.addr + sizeofKMallocHeader ∈ live.map Prod.fst

namespace SectionSeq

variable {L L' : SectionSeq}

theorem OnlyLive.allocates (hlive : L.OnlyLive live) (halloc : L.Allocates bytes addr L') :
    L'.OnlyLive ((addr, bytes) :: live) := by
  obtain ⟨ys, a, n, zs, fs₁, fs₂, rfl, -, -, rfl, rfl⟩ := halloc
  intro x hx hused
  rw [List.map_cons]
  simp only [List.mem_append, List.mem_cons] at hx
  rcases hx with hx | rfl | rfl | hx
  · exact .tail _ (hlive x (by simp [hx]) hused)
  · exact .head _
  · cases hused
  · exact .tail _ (hlive x (by simp [hx]) hused)

theorem OnlyLive.releases (hlive : L.OnlyLive live) (hnd : (L.sections.map Section.addr).Nodup)
    (hrel : L.Releases addr L') : L'.OnlyLive (live.filter (·.1 ≠ addr)) := by
  obtain ⟨ys, left, x, right, zs, hL, -, rfl, -, -, -, -, -, hL', -⟩ := hrel
  have hkept : ∀ y ∈ ys ++ zs, y.used = true →
      y.addr + sizeofKMallocHeader ∈
        (live.filter (·.1 ≠ x.addr + sizeofKMallocHeader)).map Prod.fst := by
    intro y hy hused
    have hmem : y ∈ L.sections := by
      rw [hL]
      simp only [List.mem_append, List.mem_cons] at hy ⊢
      tauto
    have hne : y.addr ≠ x.addr := fun heq => by
      rw [hL, List.map_append, List.map_cons, List.nodup_middle, List.nodup_cons] at hnd
      refine hnd.1 (heq ▸ ?_)
      rw [← List.map_append]
      refine List.mem_map_of_mem ?_
      simp only [List.mem_append] at hy ⊢
      tauto
    obtain ⟨b, hb, haddr⟩ := List.mem_map.1 (hlive y hmem hused)
    refine List.mem_map.2 ⟨b, List.mem_filter.2 ⟨hb, ?_⟩, haddr⟩
    simpa [haddr] using hne
  intro y hy hused
  rw [hL'] at hy
  rcases List.mem_append.1 hy with hy | hy
  · exact hkept y (List.mem_append_left _ hy) hused
  · rcases List.mem_cons.1 hy with rfl | hy
    · cases hused
    · exact hkept y (List.mem_append_right _ hy) hused

end SectionSeq

namespace KHeap

variable {L L' : SectionSeq}

/-- The sections of a heap are determined by it. -/
theorem HasSections.unique (hL : h.HasSections L) (hL' : h.HasSections L') :
    L'.sections = L.sections := by
  obtain ⟨secs, alloc, hh, hsecs⟩ := hL
  obtain ⟨secs', alloc', hh', hsecs'⟩ := hL'
  rw [hsecs, hsecs', hh.secs_unique hh']

/-- They begin at different addresses. -/
theorem HasSections.nodup (hL : h.HasSections L) : (L.sections.map Section.addr).Nodup := by
  obtain ⟨secs, alloc, hh, hsecs⟩ := hL
  rw [hsecs, List.map_map]
  exact (List.map_id secs).symm ▸ hh.secs_nodup

end KHeap

namespace KmallocInv

variable {L : SectionSeq}

/-- A request that can be met splits a section, unless the access of the header behind the block
stops the kernel. -/
theorem kmalloc_sections (hi : KmallocInv s live) (hL : s.heap.HasSections L)
    (hfits : s.heap.Fits bytes) (hmeet : L.CanMeet bytes) :
    ∃ addr L', L.Allocates bytes addr L' ∧
      ((∃ s', MeghaOS.kmalloc bytes s = .ok (addr, s') ∧ s'.heap.HasSections L') ∨
        ∃ e, touchRange (addr + bytes) sizeofKMallocHeader s = .error e ∧
          MeghaOS.kmalloc bytes s = .error e) := by
  obtain ⟨secs, alloc, hh, hsecs⟩ := hL
  obtain ⟨fs₁, node, fs₂, hfree, hfind, hsize, hfirst⟩ :=
    findFreeNode_first hh hfits ((canMeet_iff hh hsecs).1 hmeet)
  rw [hfree] at hh
  obtain ⟨hnode, -⟩ := (hh.mem_free node).1 (by simp)
  obtain ⟨ys, zs, rfl⟩ := List.append_of_mem hnode
  obtain ⟨h', L', hsplit, hL', halloc⟩ :=
    split_sections hh (show L = ⟨_, _⟩ by rw [← hsecs, ← hfree]) hsize hfirst
  have hbounds := (hh.bounds hnode).2
  have hbound := hh.bound
  simp only [sizeofKMallocHeader, memLenBytesKmalloc] at hsize hbounds hbound
  have haddr : u32 (node + sizeofKMallocHeader) = node + sizeofKMallocHeader :=
    Nat.mod_eq_of_lt (by simp only [sizeofKMallocHeader]; omega)
  have hat : splitAt bytes node = node + sizeofKMallocHeader + bytes := by
    simp only [splitAt, netAllocationSize, u32, sizeofKMallocHeader]
    omega
  refine ⟨_, L', halloc, ?_⟩
  rcases kmalloc_split hi.phase hfind hsplit hat haddr with ⟨s', hrun, hheap⟩ | herror
  · exact .inl ⟨s', hrun, hheap ▸ hL'⟩
  · exact .inr herror

/-- Giving a live block back merges its section with its free neighbours. -/
theorem kfree_sections (hi : KmallocInv s live) (hL : s.heap.HasSections L) {b : Nat × Nat}
    (hmem : b ∈ live) :
    ∃ s' L', MeghaOS.kfree b.1 s = .ok (true, s') ∧ s'.heap.HasSections L' ∧ L.Releases b.1 L' := by
  obtain ⟨secs, alloc, hh, hsecs⟩ := hL
  obtain ⟨secs', free', alloc', hh', hl⟩ := hi.blocks
  obtain ⟨node, hnode, haddr, -⟩ := hl.mem b hmem
  rw [hh.mem_alloc_unique hh'] at hnode
  obtain ⟨hnode₁, hused⟩ := (hh.mem_alloc node).1 hnode
  have hsub : node = u32Sub b.1 sizeofKMallocHeader := by
    have hbounds := (hh.bounds hnode₁).2
    have hbound := hh.bound
    simp only [haddr, u32Sub, sizeofKMallocHeader, memLenBytesKmalloc] at *
    omega
  obtain ⟨h', ys, left, right, zs, rfl, hrun, hinv, hm⟩ := heapFree_merges hh (hsub ▸ hnode) hsub
  obtain ⟨L', hL', hrel⟩ := merged_sections hh hsecs hused hinv hm
  refine ⟨({ s with heap := h' } : KState).release b.1, L', ?_, hL', haddr ▸ hrel⟩
  rw [MeghaOS.kfree, kernelPhaseValidate_bind_eq_ok, bind_of_ok (onHeap_of_ok hrun)]
  exact ⟨hi.phase, rfl⟩

/-- Giving anything else back fails. -/
theorem kfree_refused (hi : KmallocInv s live) (hL : s.heap.HasSections L) (hlive : L.OnlyLive live)
    (hlt : addr < 2 ^ 32) (hno : addr ∉ live.map Prod.fst) :
    MeghaOS.kfree addr s = .ok (false, { s with errorNumber := .errDoubleFree }) := by
  obtain ⟨secs, alloc, hh, hsecs⟩ := hL
  have hnot : u32Sub addr sizeofKMallocHeader ∉ alloc := by
    intro hmem
    obtain ⟨hnode, hused⟩ := (hh.mem_alloc _).1 hmem
    have haddr : u32Sub addr sizeofKMallocHeader + sizeofKMallocHeader = addr := by
      have hbounds := (hh.bounds hnode).2
      have hmin := hh.minSize _ hnode
      have hbound := hh.bound
      simp only [u32Sub, sizeofKMallocHeader, memLenBytesKmalloc] at *
      omega
    have := hlive (s.heap.sectionAt _) (by rw [hsecs]; exact List.mem_map_of_mem hnode) hused
    exact hno (haddr ▸ this)
  rw [MeghaOS.kfree, kernelPhaseValidate_bind_eq_ok,
    bind_of_ok (onHeap_of_ok (heapFree_of_notMem hh.toHeapCore hnot))]
  exact ⟨hi.phase, rfl⟩

/-- The invariant of `KmallocRun.onlyLive` under a request. -/
theorem kmalloc_onlyLive (hi : KmallocInv s live) (hL : s.heap.HasSections L)
    (hlive : L.OnlyLive live) (hfits : s.heap.Fits bytes)
    (hrun : MeghaOS.kmalloc bytes s = .ok (addr, s')) :
    ∃ L', s'.heap.HasSections L' ∧ L'.OnlyLive (addBlock live addr bytes) := by
  by_cases hmeet : L.CanMeet bytes
  · obtain ⟨addr', L', halloc, ⟨s₁, hrun', hL'⟩ | ⟨e, -, herror⟩⟩ :=
      hi.kmalloc_sections hL hfits hmeet
    · rw [hrun'] at hrun
      cases hrun
      have hne : addr ≠ 0 := by
        obtain ⟨-, -, -, -, -, -, -, -, -, rfl, -⟩ := halloc
        simp [sizeofKMallocHeader]
      rw [addBlock, if_neg hne]
      exact ⟨L', hL', hlive.allocates halloc⟩
    · rw [herror] at hrun
      cases hrun
  · obtain ⟨secs, alloc, hh, hsecs⟩ := id hL
    rw [hi.kmalloc_null hfits fun hc => hmeet ((canMeet_iff hh hsecs).2 hc)] at hrun
    cases hrun
    exact ⟨L, hL, hlive⟩

end KmallocInv

/-- All along a run of the allocator, the allocated sections are those of the live blocks. -/
theorem KmallocRun.onlyLive (hr : KmallocRun s live) :
    ∃ L, s.heap.HasSections L ∧ L.OnlyLive live := by
  induction hr with
  | init hmain hinit =>
    obtain ⟨-, ⟨buffer, hinv, -⟩, -⟩ := kernelMainHeap_spec hmain hinit
    refine ⟨⟨[_].map (KHeap.sectionAt _), [_]⟩, ⟨_, _, hinv, rfl⟩, fun x hx hused => ?_⟩
    rw [List.mem_map] at hx
    obtain ⟨a, ha, rfl⟩ := hx
    exact absurd ((hinv.mem_alloc a).2 ⟨ha, hused⟩) List.not_mem_nil
  | malloc hr hfits hrun ih =>
    obtain ⟨L, hL, hlive⟩ := ih
    exact hr.inv.kmalloc_onlyLive hL hlive hfits hrun
  | mallocz hr hfits hrun ih =>
    obtain ⟨L, hL, hlive⟩ := ih
    obtain ⟨addr, s₁, hcall, hrest⟩ := bind_eq_ok.1 hrun
    obtain ⟨L', hL', hlive'⟩ := hr.inv.kmalloc_onlyLive hL hlive hfits hcall
    rcases ite_eq_ok.1 hrest with ⟨-, hrest⟩ | ⟨-, hrest⟩
    · obtain ⟨_, s₂, htouch, hrest⟩ := bind_eq_ok.1 hrest
      cases hrest
      rw [← heap_of_nonCommit (touchRange_fixes _ _ _ _ _ htouch)] at hL'
      exact ⟨L', hL', hlive'⟩
    · cases hrest
      exact ⟨L', hL', hlive'⟩
  | free hr hmem hrun ih =>
    obtain ⟨L, hL, hlive⟩ := ih
    obtain ⟨s₁, L', hrun', hL', hrel⟩ := hr.inv.kfree_sections hL hmem
    rw [hrun'] at hrun
    cases hrun
    exact ⟨L', hL', hlive.releases hL.nodup hrel⟩
  | other _ hheap _ ih =>
    obtain ⟨L, hL, hlive⟩ := ih
    exact ⟨L, hheap ▸ hL, hlive⟩

/-- What the allocator does to the sections of a heap, in every state of a run: a request that no
free section can meet changes nothing, and another splits the first section that can, unless the
access of the header behind the block stops the kernel; a live block that is given back becomes,
with its free neighbours, one free section; and giving back anything else fails and changes
nothing. -/
theorem kmalloc_kfree_sections (hr : KmallocRun s live) :
    (∃ L, s.heap.HasSections L) ∧ ∀ L, s.heap.HasSections L →
      (∀ bytes : UInt32, s.heap.Fits bytes.toNat →
        (¬ L.CanMeet bytes.toNat →
          kmalloc bytes.toNat s = .ok (0, { s with errorNumber := .errOutOfMem })) ∧
        (L.CanMeet bytes.toNat → ∃ addr L', addr ≠ 0 ∧ L.Allocates bytes.toNat addr L' ∧
          ((∃ s', kmalloc bytes.toNat s = .ok (addr, s') ∧ s'.heap.HasSections L') ∨
            ∃ e, touchRange (addr + bytes.toNat) sizeofKMallocHeader s = .error e ∧
              kmalloc bytes.toNat s = .error e))) ∧
      (∀ b ∈ live, ∃ s' L', kfree b.1 s = .ok (true, s') ∧ s'.heap.HasSections L' ∧
        L.Releases b.1 L') ∧
      ∀ addr : UInt32, addr.toNat ∉ live.map Prod.fst →
        kfree addr.toNat s = .ok (false, { s with errorNumber := .errDoubleFree }) := by
  obtain ⟨L₀, hL₀, hlive₀⟩ := hr.onlyLive
  refine ⟨⟨L₀, hL₀⟩, fun L hL => ⟨fun bytes hfits => ⟨fun hno => ?_, fun hmeet => ?_⟩,
    fun b hb => hr.inv.kfree_sections hL hb, fun addr hno => ?_⟩⟩
  · obtain ⟨secs, alloc, hh, hsecs⟩ := hL
    exact hr.inv.kmalloc_null hfits fun hc => hno ((canMeet_iff hh hsecs).2 hc)
  · obtain ⟨addr, L', halloc, hrun⟩ := hr.inv.kmalloc_sections hL hfits hmeet
    refine ⟨addr, L', ?_, halloc, hrun⟩
    obtain ⟨-, -, -, -, -, -, -, -, -, rfl, -⟩ := halloc
    simp [sizeofKMallocHeader]
  · have hlive : L.OnlyLive live := fun x hx => hlive₀ x ((hL₀.unique hL) ▸ hx)
    exact hr.inv.kfree_refused hL hlive (UInt32.toNat_lt addr) hno

/-- Giving back the only block of a heap. -/
theorem kmalloc_kfree_sections_block : ∃ L s' L', smallMachineAlloc.heap.HasSections L ∧
    kfree 0xC0047020 smallMachineAlloc = .ok (true, s') ∧ s'.heap.HasSections L' ∧
      L.Releases 0xC0047020 L' := by
  obtain ⟨⟨L, hL⟩, heffect⟩ := kmalloc_kfree_sections kmallocRun_block
  obtain ⟨s', L', hrun, hL', hrel⟩ := (heffect L hL).2.1 _ (List.mem_singleton_self _)
  exact ⟨L, s', L', hL, hrun, hL', hrel⟩

end MeghaOS
