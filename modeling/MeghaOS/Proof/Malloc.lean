import MeghaOS.CmMalloc
import MeghaOS.Proof.HeapRun

/-!
# The blocks of the two allocators

`LiveIn` gives every block that was handed out an allocated section of its own, so that a tiling of
the buffer by sections keeps the blocks apart. `Request` is what a call does to the heap when the
size of the search does not overflow, or no free section is as large as the size that is left of it.
From it, the blocks stay in order through every run of `cm_malloc` and `cm_free`, and of `kmalloc`
and `kfree`.
-/

namespace MeghaOS

open Exec KState

variable {h h' : KHeap} {secs free alloc : List Nat} {live : List (Nat × Nat)}
  {bytes node addr : Nat}

/-! ## Blocks -/

/-- The blocks, each an address and the size that was asked for, lie inside the buffer and overlap
neither one another nor the header of a section. -/
structure BlocksIn (h : KHeap) (secs : List Nat) (live : List (Nat × Nat)) : Prop where
  inside : ∀ b ∈ live, h.buffer ≤ b.1 ∧ b.1 + b.2 ≤ h.buffer + memLenBytesKmalloc
  apart : live.Pairwise fun b c => b.1 + b.2 ≤ c.1 ∨ c.1 + c.2 ≤ b.1
  headers : ∀ b ∈ live, ∀ a ∈ secs, a + sizeofKMallocHeader ≤ b.1 ∨ b.1 + b.2 ≤ a

/-- The heap is intact and the blocks are in order in it. -/
def BlocksOk (h : KHeap) (live : List (Nat × Nat)) : Prop :=
  ∃ secs free alloc, HeapInv h secs free alloc ∧ BlocksIn h secs live

/-- Every block lies behind the header of an allocated section of its own. -/
structure LiveIn (h : KHeap) (alloc : List Nat) (live : List (Nat × Nat)) : Prop where
  mem : ∀ b ∈ live, ∃ node ∈ alloc,
    b.1 = node + sizeofKMallocHeader ∧ b.2 + sizeofKMallocHeader ≤ h.size node
  nodup : (live.map Prod.fst).Nodup

namespace LiveIn

/-- Blocks of sections that tile the buffer are in order. -/
theorem blocksIn (hh : HeapInv h secs free alloc) (hl : LiveIn h alloc live) :
    BlocksIn h secs live where
  inside b hb := by
    obtain ⟨node, hnode, haddr, hsize⟩ := hl.mem b hb
    have := hh.bounds ((hh.mem_alloc node).1 hnode).1
    omega
  apart := by
    have hne : live.Pairwise fun b c => b.1 ≠ c.1 := List.pairwise_map.1 hl.nodup
    refine hne.imp_of_mem fun {b c} hb hc hbc => ?_
    obtain ⟨node, hnode, haddr, hsize⟩ := hl.mem b hb
    obtain ⟨node', hnode', haddr', hsize'⟩ := hl.mem c hc
    have hnodes : node ≠ node' := fun heq => hbc (by rw [haddr, haddr', heq])
    have := hh.tiles.disjoint ((hh.mem_alloc node).1 hnode).1
      ((hh.mem_alloc node').1 hnode').1 hnodes
    omega
  headers b hb a ha := by
    obtain ⟨node, hnode, haddr, hsize⟩ := hl.mem b hb
    have hmin := hh.minSize a ha
    by_cases hnodes : a = node
    · exact .inl (by rw [haddr, hnodes])
    · have := hh.tiles.disjoint ha ((hh.mem_alloc node).1 hnode).1 hnodes
      omega

/-- A section that is taken holds a new block. -/
theorem cons (hl : LiveIn h alloc live) (hnode : node ∉ alloc)
    (hsize : h'.size node = bytes + sizeofKMallocHeader)
    (hsizes : ∀ n ∈ alloc, h'.size n = h.size n) :
    LiveIn h' (alloc ++ [node]) ((node + sizeofKMallocHeader, bytes) :: live) where
  mem b hb := by
    rcases List.mem_cons.1 hb with rfl | hb
    · exact ⟨node, by simp, rfl, Nat.le_of_eq hsize.symm⟩
    · obtain ⟨n, hn, haddr, hle⟩ := hl.mem b hb
      exact ⟨n, List.mem_append_left _ hn, haddr, by rwa [hsizes n hn]⟩
  nodup := by
    rw [List.map_cons, List.nodup_cons]
    refine ⟨fun hmem => ?_, hl.nodup⟩
    obtain ⟨b, hb, heq⟩ := List.mem_map.1 hmem
    obtain ⟨n, hn, haddr, -⟩ := hl.mem b hb
    exact hnode (Nat.add_right_cancel (haddr.symm.trans heq) ▸ hn)

/-- A section that is given back held the block at its address alone. -/
theorem filter (hl : LiveIn h alloc live) (hnd : alloc.Nodup)
    (hsizes : ∀ n ∈ alloc.erase node, h'.size n = h.size n) :
    LiveIn h' (alloc.erase node) (live.filter (·.1 ≠ node + sizeofKMallocHeader)) where
  mem b hb := by
    obtain ⟨hb, hne⟩ := List.mem_filter.1 hb
    obtain ⟨n, hn, haddr, hle⟩ := hl.mem b hb
    have hn' : n ∈ alloc.erase node := (List.Nodup.mem_erase_iff hnd).2
      ⟨fun heq => by simp [haddr, heq] at hne, hn⟩
    exact ⟨n, hn', haddr, by rwa [hsizes n hn']⟩
  nodup := (List.filter_sublist.map Prod.fst).nodup hl.nodup

end LiveIn

/-! ## Requests -/

namespace KHeap

/-- A section is on the free list. -/
def FreeSection (h : KHeap) (a : Nat) : Prop :=
  ∃ secs free alloc, HeapInv h secs free alloc ∧ a ∈ free

/-- There is a free section for a block, its header and a further header. -/
def CanMeet (h : KHeap) (bytes : Nat) : Prop :=
  ∃ a, h.FreeSection a ∧ bytes + 2 * sizeofKMallocHeader ≤ h.size a

/-- The size that is searched for does not overflow, or no free section is as large as what is left
of it. -/
def Fits (h : KHeap) (bytes : Nat) : Prop :=
  bytes + 2 * sizeofKMallocHeader < 2 ^ 32 ∨
    ∀ a, h.FreeSection a → h.size a < (bytes + 2 * sizeofKMallocHeader) % 2 ^ 32

end KHeap

/-- The sections of a heap are determined by it. -/
theorem HeapInv.secs_unique {secs' free' alloc' : List Nat} (hh : HeapInv h secs free alloc)
    (hh' : HeapInv h secs' free' alloc') : secs' = secs := by
  have hpos : ∀ x, sizeofKMallocHeader ≤ h.size x → 0 < h.size x := fun x hx => by
    simp only [sizeofKMallocHeader] at hx
    omega
  exact hh'.tiles.unique hh.tiles (fun x hx => hpos x (hh'.minSize x hx)) fun x hx =>
    hpos x (hh.minSize x hx)

/-- So are the free ones. -/
theorem HeapInv.freeSection_iff (hh : HeapInv h secs free alloc) {a : Nat} :
    h.FreeSection a ↔ a ∈ free := by
  constructor
  · rintro ⟨secs', free', alloc', hh', ha⟩
    rw [hh.mem_free, ← hh.secs_unique hh']
    exact (hh'.mem_free a).1 ha
  · exact fun ha => ⟨secs, free, alloc, hh, ha⟩

/-- The search finds nothing when every free section is too small for it. -/
theorem findFreeNode_none (hh : HeapCore h secs free alloc)
    (hno : ∀ a ∈ free, h.size a < u32 (netAllocationSize bytes + sizeofKMallocHeader)) :
    findFreeNode bytes h = .ok (none, h) := by
  have hnone : free.find? (fun a => findMatches h .findCritNodeSize a
      (u32 (netAllocationSize bytes + sizeofKMallocHeader))) = none := by
    rw [List.find?_eq_none]
    intro a ha
    simpa [findMatches, KHeap.size] using hno a ha
  rw [findFreeNode, bind_of_ok (hh.findFirst_free .findCritNodeSize), hnone]
  rfl

/-- The search finds nothing only when every free section is too small for it. -/
theorem lt_of_findFreeNode_none (hh : HeapCore h secs free alloc)
    (hfind : findFreeNode bytes h = .ok (none, h)) :
    ∀ a ∈ free, h.size a < u32 (netAllocationSize bytes + sizeofKMallocHeader) := by
  rw [findFreeNode, bind_of_ok (hh.findFirst_free .findCritNodeSize)] at hfind
  cases hfound : free.find? fun a => findMatches h .findCritNodeSize a
      (u32 (netAllocationSize bytes + sizeofKMallocHeader)) with
  | none =>
    intro a ha
    simpa [findMatches, KHeap.size] using List.find?_eq_none.1 hfound a ha
  | some node =>
    rw [hfound] at hfind
    obtain ⟨_, h₁, -, hret⟩ := bind_eq_ok.1 (show (get >>= _ : Exec KHeap _) h = _ from hfind)
    obtain ⟨_, h₂, -, hret⟩ := bind_eq_ok.1 hret
    cases hret

/-- What the search of a request leads to: no free section, or one that is large enough. -/
inductive Request (h : KHeap) (free : List Nat) (bytes : Nat) : Prop
  | none (hno : ¬ h.CanMeet bytes) (hfind : findFreeNode bytes h = .ok (none, h))
  | some (node : Nat) (hmeet : h.CanMeet bytes) (hbytes : bytes + 2 * sizeofKMallocHeader < 2 ^ 32)
      (hfind : findFreeNode bytes h = .ok (some node, h)) (hnode : node ∈ free)
      (hsize : bytes + 2 * sizeofKMallocHeader ≤ h.size node)

/-- A request under the condition of `Fits` finds a section exactly when it can be met. -/
theorem request (hh : HeapInv h secs free alloc) (hfits : h.Fits bytes) :
    Request h free bytes := by
  have hsearch : u32 (netAllocationSize bytes + sizeofKMallocHeader) =
      (bytes + 2 * sizeofKMallocHeader) % 2 ^ 32 := by
    simp only [netAllocationSize, u32, sizeofKMallocHeader]
    omega
  have hnone : ¬ h.CanMeet bytes →
      (∀ a ∈ free, h.size a < (bytes + 2 * sizeofKMallocHeader) % 2 ^ 32) →
      Request h free bytes := fun hno hsmall =>
    .none hno (findFreeNode_none hh.toHeapCore fun a ha => by rw [hsearch]; exact hsmall a ha)
  rcases hfits with hbytes | hsmall
  · obtain ⟨found, hfind, hspec⟩ := findFreeNode_spec hh.toHeapCore hbytes
    by_cases hmeet : h.CanMeet bytes
    · cases found with
      | none =>
        obtain ⟨a, ha, hle⟩ := hmeet
        have hlt := lt_of_findFreeNode_none hh.toHeapCore hfind a (hh.freeSection_iff.1 ha)
        rw [hsearch, Nat.mod_eq_of_lt hbytes] at hlt
        omega
      | some node =>
        obtain ⟨hnode, hsize⟩ := hspec node rfl
        exact .some node hmeet hbytes hfind hnode hsize
    · refine hnone hmeet fun a ha => ?_
      rw [Nat.mod_eq_of_lt hbytes]
      exact Nat.lt_of_not_le fun hle => hmeet ⟨a, hh.freeSection_iff.2 ha, hle⟩
  · refine hnone ?_ fun a ha => hsmall a (hh.freeSection_iff.2 ha)
    rintro ⟨a, ha, hle⟩
    have := hsmall a ha
    have := Nat.mod_le (bytes + 2 * sizeofKMallocHeader) (2 ^ 32)
    omega

/-! ## `cm_malloc` -/

/-- The blocks that are live after a request returned `addr`. -/
def addBlock (live : List (Nat × Nat)) (addr bytes : Nat) : List (Nat × Nat) :=
  if addr = 0 then live else (addr, bytes) :: live

/-- The runs of `cm_malloc` and of `cm_free` on live blocks, since `cm_malloc_init` on a buffer. -/
inductive CmRun (buffer : Nat) : CmHeap → List (Nat × Nat) → Prop
  | init {s₀ s : CmHeap} : cmMallocInit buffer s₀ = .ok ((), s) → CmRun buffer s []
  | malloc {s s' : CmHeap} {live : List (Nat × Nat)} {bytes : UInt32} {addr : Nat} :
      CmRun buffer s live → s.heap.Fits bytes.toNat → cmMalloc bytes.toNat s = .ok (addr, s') →
        CmRun buffer s' (addBlock live addr bytes.toNat)
  | free {s s' : CmHeap} {live : List (Nat × Nat)} {b : Nat × Nat} {ok : Bool} :
      CmRun buffer s live → b ∈ live → cmFree b.1 s = .ok (ok, s') →
        CmRun buffer s' (live.filter (·.1 ≠ b.1))

/-- The heap is intact, and every live block has its section. -/
def BlocksInv (h : KHeap) (live : List (Nat × Nat)) : Prop :=
  ∃ secs free alloc, HeapInv h secs free alloc ∧ LiveIn h alloc live

namespace BlocksInv

/-- The invariant has the blocks apart. -/
theorem blocksOk (hb : BlocksInv h live) : BlocksOk h live := by
  obtain ⟨secs, free, alloc, hh, hl⟩ := hb
  exact ⟨secs, free, alloc, hh, hl.blocksIn hh⟩

/-- A section that is split for a request holds the new block. -/
theorem split (hh : HeapInv h secs free alloc) (hl : LiveIn h alloc live) (hnode : node ∈ free)
    (hsize : bytes + 2 * sizeofKMallocHeader ≤ h.size node) :
    ∃ h', sSplitFreeNode bytes node h = .ok ((), h') ∧
      BlocksInv h' ((node + sizeofKMallocHeader, bytes) :: live) := by
  obtain ⟨h', secs', free', hrun, hh', hnew, hsizes, -⟩ := sSplitFreeNode_inv hh hnode hsize
  have hnot : node ∉ alloc := fun hmem => by
    have hused := ((hh.mem_free node).1 hnode).2
    rw [((hh.mem_alloc node).1 hmem).2] at hused
    cases hused
  exact ⟨h', hrun, secs', free', _, hh', hl.cons hnot hnew hsizes⟩

/-- Giving a live block back takes it away from the live blocks. -/
theorem heapFree (hb : BlocksInv h live) {b : Nat × Nat} (hmem : b ∈ live) :
    ∃ h', MeghaOS.heapFree b.1 h = .ok (true, h') ∧ BlocksInv h' (live.filter (·.1 ≠ b.1)) := by
  obtain ⟨secs, free, alloc, hh, hl⟩ := hb
  obtain ⟨node, hnode, haddr, -⟩ := hl.mem b hmem
  have hsub : u32Sub b.1 sizeofKMallocHeader = node := by
    have hbounds := (hh.bounds ((hh.mem_alloc node).1 hnode).1).2
    have hbound := hh.bound
    simp only [haddr, u32Sub, sizeofKMallocHeader, memLenBytesKmalloc] at *
    omega
  obtain ⟨h', secs', free', hrun, hh', hsizes, -⟩ := heapFree_of_mem hh (hsub ▸ hnode)
  rw [hsub] at hh' hsizes
  refine ⟨h', hrun, secs', free', _, hh', ?_⟩
  rw [haddr]
  exact hl.filter hh.alloc_nodup hsizes

end BlocksInv

/-- A program of the heap that ends well. -/
theorem onCmHeap_of_ok {α : Type} {x : Exec KHeap α} {s : CmHeap} {a : α}
    (hx : x s.heap = .ok (a, h)) : onCmHeap x s = .ok (a, { s with heap := h }) := by
  rw [onCmHeap, hx]

/-- A program that ends well changes the heap only. -/
theorem onCmHeap_eq_ok {α : Type} {x : Exec KHeap α} {s s' : CmHeap} {a : α}
    (hrun : onCmHeap x s = .ok (a, s')) :
    ∃ h, x s.heap = .ok (a, h) ∧ s' = { s with heap := h } := by
  rw [onCmHeap] at hrun
  split at hrun
  · rename_i hx
    cases hrun
    exact ⟨_, hx, rfl⟩
  · cases hrun
  · cases hrun

/-- `cm_malloc` returns: `NULL` when it cannot meet the request, else a new block. -/
theorem cmMalloc_spec {s : CmHeap} (hb : BlocksInv s.heap live) (hfits : s.heap.Fits bytes) :
    ∃ addr s', cmMalloc bytes s = .ok (addr, s') ∧
      (addr = 0 ↔ bytes = 0 ∨ ¬ s.heap.CanMeet bytes) ∧ (addr = 0 → s'.heap = s.heap) ∧
      BlocksInv s'.heap (addBlock live addr bytes) := by
  obtain ⟨secs, free, alloc, hh, hl⟩ := id hb
  rw [cmMalloc]
  by_cases hzero : bytes = 0
  · rw [if_pos hzero]
    exact ⟨0, _, rfl, by simp [hzero], fun _ => rfl, hb⟩
  rw [if_neg hzero]
  rcases request hh hfits with ⟨hno, hfind⟩ | ⟨node, hmeet, hbytes, hfind, hnode, hsize⟩
  · rw [bind_of_ok (onCmHeap_of_ok hfind)]
    exact ⟨0, _, rfl, by simp [hno], fun _ => rfl, hb⟩
  · obtain ⟨h', hrun, hb'⟩ := BlocksInv.split hh hl hnode hsize
    have hbounds := (hh.bounds ((hh.mem_free node).1 hnode).1).2
    have hbound := hh.bound
    have haddr : u32 (node + sizeofKMallocHeader) = node + sizeofKMallocHeader :=
      Nat.mod_eq_of_lt (by simp only [sizeofKMallocHeader, memLenBytesKmalloc] at *; omega)
    have hne : node + sizeofKMallocHeader ≠ 0 := by simp [sizeofKMallocHeader]
    rw [bind_of_ok (onCmHeap_of_ok hfind)]
    dsimp only
    rw [bind_of_ok (onCmHeap_of_ok (s := { s with heap := s.heap }) hrun), haddr]
    refine ⟨_, _, rfl, by simp [hzero, hmeet], fun h0 => absurd h0 hne, ?_⟩
    rwa [addBlock, if_neg hne]

/-- `cm_free` gives a live block back. -/
theorem cmFree_spec {s s' : CmHeap} {ok : Bool} {b : Nat × Nat} (hb : BlocksInv s.heap live)
    (hmem : b ∈ live) (hrun : cmFree b.1 s = .ok (ok, s')) :
    BlocksInv s'.heap (live.filter (·.1 ≠ b.1)) := by
  obtain ⟨h', hfree, hb'⟩ := hb.heapFree hmem
  rw [cmFree, bind_of_ok (onCmHeap_of_ok hfree)] at hrun
  cases hrun
  exact hb'

/-- All along a run of the allocator of a process, the blocks have their sections. -/
theorem CmRun.inv {buffer : Nat} (hbound : buffer + memLenBytesKmalloc < 2 ^ 32) {s : CmHeap}
    (hr : CmRun buffer s live) : BlocksInv s.heap live := by
  induction hr with
  | init hinit =>
    obtain ⟨h, hrun, rfl⟩ := onCmHeap_eq_ok hinit
    obtain ⟨h', hrun', hh, -⟩ := heapInit_spec hbound
    rw [hrun'] at hrun
    cases hrun
    exact ⟨_, _, _, hh, fun b hb => absurd hb List.not_mem_nil, List.nodup_nil⟩
  | malloc _ hfits hrun ih =>
    obtain ⟨addr, s', hrun', -, -, hb⟩ := cmMalloc_spec ih hfits
    rw [hrun'] at hrun
    cases hrun
    exact hb
  | free _ hmem hrun ih => exact cmFree_spec ih hmem hrun

/-! ## `kmalloc` -/

/-- The runs of `kmalloc`, of `kmallocz` and of `kfree` on live blocks since `kmalloc_init`, with
the rest of the kernel running in between. -/
inductive KmallocRun : KState → List (Nat × Nat) → Prop
  | init {info : BootLoaderInfo} {mem : Nat → Nat → Entry} {freshDirty : Bool} {s₀ s : KState} :
      kernelMainMemory info.files freshDirty (entryState info mem) = .ok ((), s₀) →
        kmallocInit s₀ = .ok ((), s) → KmallocRun s []
  | malloc {s s' : KState} {live : List (Nat × Nat)} {bytes : UInt32} {addr : Nat} :
      KmallocRun s live → s.heap.Fits bytes.toNat → kmalloc bytes.toNat s = .ok (addr, s') →
        KmallocRun s' (addBlock live addr bytes.toNat)
  | mallocz {s s' : KState} {live : List (Nat × Nat)} {bytes : UInt32} {addr : Nat} :
      KmallocRun s live → s.heap.Fits bytes.toNat → kmallocz bytes.toNat s = .ok (addr, s') →
        KmallocRun s' (addBlock live addr bytes.toNat)
  | free {s s' : KState} {live : List (Nat × Nat)} {b : Nat × Nat} {ok : Bool} :
      KmallocRun s live → b ∈ live → kfree b.1 s = .ok (ok, s') →
        KmallocRun s' (live.filter (·.1 ≠ b.1))
  | other {s s' : KState} {live : List (Nat × Nat)} :
      KmallocRun s live → s'.heap = s.heap → s'.phase.check .kmallocReady = true →
        KmallocRun s' live

/-- Between two calls the allocator may be called, and the blocks have their sections. -/
structure KmallocInv (s : KState) (live : List (Nat × Nat)) : Prop where
  phase : s.phase.check .kmallocReady = true
  blocks : BlocksInv s.heap live

namespace KmallocInv

variable {s s' : KState}

/-- The same for the heap of the kernel. -/
theorem onHeap_of_ok {α : Type} {x : Exec KHeap α} {a : α} (hx : x s.heap = .ok (a, h)) :
    onHeap x s = .ok (a, { s with heap := h }) :=
  zoom_eq_ok.2 ⟨h, hx, rfl⟩

/-- A request that cannot be met returns `NULL`. -/
theorem kmalloc_null (hi : KmallocInv s live) (hfits : s.heap.Fits bytes)
    (hno : ¬ s.heap.CanMeet bytes) :
    MeghaOS.kmalloc bytes s = .ok (0, { s with errorNumber := .errOutOfMem }) := by
  obtain ⟨secs, free, alloc, hh, -⟩ := hi.blocks
  rcases request hh hfits with ⟨-, hfind⟩ | ⟨_, hmeet, -⟩
  · rw [MeghaOS.kmalloc, kernelPhaseValidate_bind_eq_ok]
    refine ⟨hi.phase, ?_⟩
    rw [bind_of_ok (onHeap_of_ok hfind)]
    rfl
  · exact absurd hmeet hno

/-- A request that can be met returns a new block, unless the access of the header behind it stops
the kernel. -/
theorem kmalloc_block (hi : KmallocInv s live) (hfits : s.heap.Fits bytes)
    (hmeet : s.heap.CanMeet bytes) {addr : Nat} (hrun : MeghaOS.kmalloc bytes s = .ok (addr, s')) :
    addr ≠ 0 ∧ KmallocInv s' ((addr, bytes) :: live) := by
  obtain ⟨secs, free, alloc, hh, hl⟩ := hi.blocks
  rcases request hh hfits with ⟨hno, -⟩ | ⟨node, -, hbytes, hfind, hnode, hsize⟩
  · exact absurd hmeet hno
  obtain ⟨h', hsplit, hb⟩ := BlocksInv.split hh hl hnode hsize
  have hbounds := (hh.bounds ((hh.mem_free node).1 hnode).1).2
  have hbound := hh.bound
  have haddr : u32 (node + sizeofKMallocHeader) = node + sizeofKMallocHeader :=
    Nat.mod_eq_of_lt (by simp only [sizeofKMallocHeader, memLenBytesKmalloc] at *; omega)
  rw [MeghaOS.kmalloc, kernelPhaseValidate_bind_eq_ok,
    bind_of_ok (onHeap_of_ok hfind)] at hrun
  obtain ⟨_, s₁, htouch, hrest⟩ := bind_eq_ok.1 hrun.2
  obtain ⟨_, s₂, hsplit', hrest⟩ := bind_eq_ok.1 hrest
  obtain ⟨h'', hrun', rfl⟩ := zoom_eq_ok.1 hsplit'
  have hnc := touchRange_fixes _ _ _ _ _ htouch
  have hheap : s₁.heap = s.heap := heap_of_nonCommit hnc
  rw [hheap, hsplit] at hrun'
  cases hrun'
  cases hrest
  rw [haddr]
  refine ⟨by simp [sizeofKMallocHeader], ?_, hb⟩
  show s₁.phase.check .kmallocReady = true
  rw [phase_of_nonCommit hnc]
  exact hi.phase

/-- `kmalloc` does what the answer to a request is. -/
theorem kmalloc (hi : KmallocInv s live) (hfits : s.heap.Fits bytes) {addr : Nat}
    (hrun : MeghaOS.kmalloc bytes s = .ok (addr, s')) :
    (addr = 0 ↔ ¬ s.heap.CanMeet bytes) ∧ (addr = 0 → s'.heap = s.heap) ∧
      KmallocInv s' (addBlock live addr bytes) := by
  by_cases hmeet : s.heap.CanMeet bytes
  · obtain ⟨hne, hi'⟩ := hi.kmalloc_block hfits hmeet hrun
    rw [addBlock, if_neg hne]
    exact ⟨by simp [hne, hmeet], fun h0 => absurd h0 hne, hi'⟩
  · rw [hi.kmalloc_null hfits hmeet] at hrun
    cases hrun
    exact ⟨by simp [hmeet], fun _ => rfl, hi.phase, hi.blocks⟩

/-- The heap and the phase decide. -/
theorem of_heap (hi : KmallocInv s live) (hheap : s'.heap = s.heap)
    (hphase : s'.phase.check .kmallocReady = true) : KmallocInv s' live :=
  ⟨hphase, hheap ▸ hi.blocks⟩

/-- The bytes that `kmallocz` clears are no header. -/
theorem kmallocz (hi : KmallocInv s live) (hfits : s.heap.Fits bytes) {addr : Nat}
    (hrun : MeghaOS.kmallocz bytes s = .ok (addr, s')) :
    KmallocInv s' (addBlock live addr bytes) := by
  obtain ⟨addr', s₁, hcall, hrest⟩ := bind_eq_ok.1 hrun
  obtain ⟨-, -, hi₁⟩ := hi.kmalloc hfits hcall
  rcases ite_eq_ok.1 hrest with ⟨-, hrest⟩ | ⟨-, hrest⟩
  · obtain ⟨_, s₂, htouch, hrest⟩ := bind_eq_ok.1 hrest
    cases hrest
    have hnc := touchRange_fixes _ _ _ _ _ htouch
    exact hi₁.of_heap (heap_of_nonCommit hnc) (by rw [phase_of_nonCommit hnc]; exact hi₁.phase)
  · cases hrest
    exact hi₁

/-- `kfree` gives a live block back. -/
theorem kfree (hi : KmallocInv s live) {b : Nat × Nat} (hmem : b ∈ live) {ok : Bool}
    (hrun : MeghaOS.kfree b.1 s = .ok (ok, s')) : KmallocInv s' (live.filter (·.1 ≠ b.1)) := by
  obtain ⟨h', hfree, hb⟩ := hi.blocks.heapFree hmem
  rw [MeghaOS.kfree, kernelPhaseValidate_bind_eq_ok,
    bind_of_ok (onHeap_of_ok hfree)] at hrun
  cases hrun.2
  exact ⟨hi.phase, hb⟩

end KmallocInv

/-- All along a run of the allocator of the kernel, the blocks have their sections. -/
theorem KmallocRun.inv {s : KState} (hr : KmallocRun s live) : KmallocInv s live := by
  induction hr with
  | init hmain hinit =>
    obtain ⟨hphase, ⟨buffer, hinv, -⟩, -⟩ := kernelMainHeap_spec hmain hinit
    exact ⟨by rw [hphase]; rfl, _, _, _, hinv, fun b hb => absurd hb List.not_mem_nil,
      List.nodup_nil⟩
  | malloc _ hfits hrun ih => exact (ih.kmalloc hfits hrun).2.2
  | mallocz _ hfits hrun ih => exact ih.kmallocz hfits hrun
  | free _ hmem hrun ih => exact ih.kfree hmem hrun
  | other _ hheap hphase ih => exact ih.of_heap hheap hphase

/-! ## Both allocators -/

/-- What a request does: it returns `NULL` and leaves the heap as it is, or returns a new block that
is in order with the live ones. -/
def Answer (h h' : KHeap) (live : List (Nat × Nat)) (bytes addr : Nat) : Prop :=
  (addr = 0 → h' = h) ∧ (addr ≠ 0 → BlocksOk h' ((addr, bytes) :: live))

/-- All along a run of either allocator, the live blocks lie inside the buffer and overlap neither
one another nor the header of a section, and so does the block of the next request: `cm_malloc`
returns one or, when no free section is large enough, `NULL`; `kmalloc` does the same, where it
returns. -/
theorem malloc_run_blocks {live : List (Nat × Nat)} :
    (∀ {buffer : Nat} {s : CmHeap}, buffer + memLenBytesKmalloc < 2 ^ 32 → CmRun buffer s live →
      BlocksOk s.heap live ∧ ∀ bytes : UInt32, s.heap.Fits bytes.toNat →
        ∃ addr s', cmMalloc bytes.toNat s = .ok (addr, s') ∧
          (addr = 0 ↔ bytes.toNat = 0 ∨ ¬ s.heap.CanMeet bytes.toNat) ∧
          Answer s.heap s'.heap live bytes.toNat addr) ∧
    ∀ {s : KState}, KmallocRun s live →
      BlocksOk s.heap live ∧ ∀ bytes : UInt32, s.heap.Fits bytes.toNat →
        (¬ s.heap.CanMeet bytes.toNat → ∃ s', kmalloc bytes.toNat s = .ok (0, s')) ∧
        ∀ addr s', kmalloc bytes.toNat s = .ok (addr, s') →
          (addr = 0 ↔ ¬ s.heap.CanMeet bytes.toNat) ∧
          Answer s.heap s'.heap live bytes.toNat addr := by
  have hanswer : ∀ {h h' : KHeap} {bytes addr : Nat}, (addr = 0 → h' = h) →
      BlocksInv h' (addBlock live addr bytes) → Answer h h' live bytes addr :=
    fun hnull hb => ⟨hnull, fun hne => by rw [addBlock, if_neg hne] at hb; exact hb.blocksOk⟩
  refine ⟨fun hbound hr => ?_, fun hr => ?_⟩
  · have hinv := hr.inv hbound
    refine ⟨hinv.blocksOk, fun bytes hfits => ?_⟩
    obtain ⟨addr, s', hrun, hzero, hnull, hb⟩ := cmMalloc_spec hinv hfits
    exact ⟨addr, s', hrun, hzero, hanswer hnull hb⟩
  · have hinv := hr.inv
    refine ⟨hinv.blocks.blocksOk, fun bytes hfits => ⟨fun hno => ?_, fun addr s' hrun => ?_⟩⟩
    · exact ⟨_, hinv.kmalloc_null hfits hno⟩
    · obtain ⟨hzero, hnull, hinv'⟩ := hinv.kmalloc hfits hrun
      exact ⟨hzero, hanswer hnull hinv'.blocks⟩

/-- The heap of a process with its data memory at 2 MB, after `cm_malloc_init`. -/
def cmHeapReady : CmHeap := (cmMallocInit 0x200000).finalState ⟨smallMachineMemory.heap,
    .libraryErrorsStart⟩

/-- It with one block of 100 bytes. -/
def cmHeapBlock : CmHeap := (cmMalloc 100).finalState cmHeapReady

set_option maxRecDepth 100000 in
/-- A run starts with `cm_malloc_init`. -/
theorem cmRun_init : CmRun 0x200000 cmHeapReady [] := .init (eq_ok_finalState (by decide +kernel))

set_option maxRecDepth 100000 in
/-- One block is taken. -/
theorem cmRun_block : CmRun 0x200000 cmHeapBlock [(0x200020, 100)] := by
  have hrun : cmMalloc (100 : UInt32).toNat cmHeapReady = .ok (0x200020, cmHeapBlock) :=
    eq_ok_of_value (by decide +kernel)
  exact cmRun_init.malloc (.inl (by decide)) hrun

/-- The small machine after the same request to the kernel. -/
def smallMachineAlloc : KState := (kmalloc 100).finalState smallMachineHeap

set_option maxRecDepth 100000 in
/-- A run starts with `kmalloc_init`. -/
theorem kmallocRun_init : KmallocRun smallMachineHeap [] :=
  @KmallocRun.init smallMachine (fun _ _ => Entry.zero) false smallMachineMemory smallMachineHeap
    (eq_ok_finalState (by decide +kernel)) (eq_ok_finalState (by decide +kernel))

set_option maxRecDepth 100000 in
/-- One block is taken. -/
theorem kmallocRun_block : KmallocRun smallMachineAlloc [(0xC0047020, 100)] := by
  have hrun : kmalloc (100 : UInt32).toNat smallMachineHeap = .ok (0xC0047020, smallMachineAlloc) :=
    eq_ok_of_value (by decide +kernel)
  exact kmallocRun_init.malloc (.inl (by decide)) hrun

/-- One block from either heap. -/
theorem malloc_run_blocks_block :
    BlocksOk cmHeapBlock.heap [(0x200020, 100)] ∧ BlocksOk smallMachineAlloc.heap
      [(0xC0047020, 100)] :=
  ⟨(malloc_run_blocks.1 (by decide) cmRun_block).1, (malloc_run_blocks.2 kmallocRun_block).1⟩

/-- A block that reaches past the end of the buffer is not in order. -/
theorem not_blocksOk {h : KHeap} (hend : h.buffer + memLenBytesKmalloc < addr + bytes) :
    ¬ BlocksOk h [(addr, bytes)] := by
  rintro ⟨secs, free, alloc, -, hb⟩
  have := (hb.inside (addr, bytes) (by simp)).2
  omega

set_option maxRecDepth 100000 in
/-- A request for the largest number of bytes is answered with a block of either heap, although the
buffer ends long before the block does. -/
theorem malloc_run_blocks_overflow :
    (CmRun 0x200000 cmHeapReady [] ∧ ∃ s', cmMalloc 0xFFFFFFFF cmHeapReady = .ok (0x200020, s') ∧
      ¬ BlocksOk s'.heap [(0x200020, 0xFFFFFFFF)]) ∧
    KmallocRun smallMachineHeap [] ∧ ∃ s', kmalloc 0xFFFFFFFF smallMachineHeap =
      .ok (0xC0047020, s') ∧
      ¬ BlocksOk s'.heap [(0xC0047020, 0xFFFFFFFF)] := by
  refine ⟨⟨cmRun_init, _, eq_ok_of_value (by decide +kernel), not_blocksOk ?_⟩,
    kmallocRun_init, _, eq_ok_of_value (by decide +kernel), not_blocksOk ?_⟩
  · decide +kernel
  · decide +kernel

end MeghaOS
