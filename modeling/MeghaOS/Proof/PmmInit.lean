import MeghaOS.Proof.Frame
import MeghaOS.Proof.Pmm

/-!
# The free memory after `kpmm_init`

`s_markFreeMemory` rounds the start of a region down to a page, counts the whole pages of its
length, and marks one page at least. So the frames it marks are those that lie in a region as a
whole (`kpmmInit_marks_iff`) if and only if every region it does not skip begins on a page, holds a
page below the usable memory size, and ends in the address space (`WholePages`). Otherwise it marks
a frame that is not all free memory, or it panics.
-/

namespace MeghaOS

open Exec KState

variable {s s' : KState} {size f : Nat} {items rest : List BootMemoryMapItem}
  {item : BootMemoryMapItem}

/-! ## Regions -/

/-- The fields of the entry are of their C types. -/
def BootMemoryMapItem.Typed (item : BootMemoryMapItem) : Prop :=
  item.baseAddr < 2 ^ 64 ∧ item.length < 2 ^ 64

/-- The address lies in the region. -/
def BootMemoryMapItem.Contains (item : BootMemoryMapItem) (addr : Nat) : Prop :=
  item.baseAddr ≤ addr ∧ addr < item.baseAddr + item.length

/-- No address lies in two regions. -/
def DisjointRegions (items : List BootMemoryMapItem) : Prop :=
  items.Pairwise fun x y => ∀ addr, ¬ (x.Contains addr ∧ y.Contains addr)

/-- The frame lies in a single free region, as a whole, and below the usable memory size. -/
def WholeFrameFree (size : Nat) (items : List BootMemoryMapItem) (f : Nat) : Prop :=
  4096 * f + 4096 ≤ size ∧ ∃ item ∈ items, item.type = mmTypeFree ∧ item.baseAddr ≤ 4096 * f ∧
    4096 * f + 4096 ≤ item.baseAddr + item.length

/-- `kpmm_init` returns, the frames that are free memory as a whole are free, and all others are
reserved. -/
def MarksFreeMemory (s : KState) : Prop :=
  ∃ s', kpmmInit s = .ok ((), s') ∧ ∀ f, f < 16384 →
    (WholeFrameFree (kpmmGetUsableMemorySize s) s.bootMemoryMap f → s'.frameState f =
      pmmStateFree) ∧
    (¬ WholeFrameFree (kpmmGetUsableMemorySize s) s.bootMemoryMap f →
      s'.frameState f = pmmStateReserved)

/-- `s_markFreeMemory` marks pages of the region. -/
def Taken (size : Nat) (item : BootMemoryMapItem) : Prop :=
  item.type = mmTypeFree ∧ item.length ≠ 0 ∧ item.baseAddr < size

/-- The region begins on a page, holds a page below `size`, and ends in the address space. -/
def WholePages (size : Nat) (item : BootMemoryMapItem) : Prop :=
  item.baseAddr % 4096 = 0 ∧ item.baseAddr + 4096 ≤ min size (item.baseAddr + item.length) ∧
    item.baseAddr + item.length ≤ 2 ^ 64

/-! ## One region -/

/-- `endAddress` of `s_markFreeMemory`. -/
def markEnd (size : Nat) (item : BootMemoryMapItem) : Nat :=
  min (u32Sub size 1) ((item.baseAddr + item.length + (2 ^ 64 - 1)) % 2 ^ 64)

/-- `lengthBytes` of `s_markFreeMemory`, before a whole page is taken for less than one. -/
def markLength (size : Nat) (item : BootMemoryMapItem) : Nat :=
  (markEnd size item + (2 ^ 64 - item.baseAddr) + 1) % 2 ^ 64

/-- `startPageFrame` and `pageFrameCount`. -/
def markStart (item : BootMemoryMapItem) : Nat := bytesToPageframesFloor (u32 item.baseAddr)
def markCount (size : Nat) (item : BootMemoryMapItem) : Nat :=
  bytesToPageframesFloor (u32 (max pageFrameSizeBytes (markLength size item)))

theorem markFreeMemoryFrom_skip (h : ¬ Taken size item) :
    markFreeMemoryFrom size (item :: rest) = markFreeMemoryFrom size rest := by
  rw [markFreeMemoryFrom, if_pos]
  by_contra hne
  simp only [not_or, not_not, not_le] at hne
  exact h ⟨hne.1, hne.2.1, by omega⟩

theorem markFreeMemoryFrom_take (h : Taken size item) :
    markFreeMemoryFrom size (item :: rest) =
      (do if ← pabSetContinous (markStart item) (markCount size item) pmmStateFree then
            markFreeMemoryFrom size rest
          else kPanic "PAB cannot be initialized.") := by
  rw [markFreeMemoryFrom, if_neg]
  · rfl
  · obtain ⟨h1, h2, h3⟩ := h
    simp only [not_or, not_not]
    exact ⟨h1, h2, by omega⟩

theorem bytesToPageframesFloor_eq (n : Nat) : bytesToPageframesFloor n = n / 4096 % 2 ^ 20 :=
  Nat.and_two_pow_sub_one_eq_mod (n / 4096) 20

section

variable (hsize : size ≤ maxPabAddressableByteCount) (htaken : Taken size item)
include hsize htaken

/-- The first frame is the one that holds the start of the region. -/
theorem markStart_eq : markStart item = item.baseAddr / 4096 := by
  have hlt := htaken.2.2
  simp only [maxPabAddressableByteCount] at hsize
  rw [markStart, bytesToPageframesFloor_eq, u32]
  omega

/-- The frames that are marked for a region of whole pages are those that lie in it as a whole. -/
theorem markCount_eq (hw : WholePages size item) :
    markCount size item = (min size (item.baseAddr + item.length) - item.baseAddr) / 4096 := by
  obtain ⟨-, hpage, hend⟩ := hw
  obtain ⟨-, hne, hlt⟩ := htaken
  have hlen : markLength size item = min size (item.baseAddr + item.length) - item.baseAddr := by
    simp only [markLength, markEnd, u32Sub, maxPabAddressableByteCount] at *
    omega
  rw [markCount, bytesToPageframesFloor_eq, hlen, u32]
  simp only [pageFrameSizeBytes, maxPabAddressableByteCount] at *
  omega

/-- At least one frame is marked, and far too many when the region does not end in the address
space. -/
theorem markCount_bounds (ht : item.Typed) :
    0 < markCount size item ∧
      (2 ^ 64 < item.baseAddr + item.length → 2 ^ 20 - 2 ^ 14 ≤ markCount size item) := by
  obtain ⟨-, hne, hlt⟩ := htaken
  obtain ⟨hbase, hlength⟩ := ht
  have hlen : (item.baseAddr + item.length ≤ 2 ^ 64 ∧ markLength size item ≤ size) ∨
      (2 ^ 64 < item.baseAddr + item.length ∧ markLength size item = item.length) := by
    simp only [markLength, markEnd, u32Sub, maxPabAddressableByteCount] at *
    omega
  rw [markCount, bytesToPageframesFloor_eq, u32]
  simp only [pageFrameSizeBytes, maxPabAddressableByteCount] at *
  omega

end

/-! ## All regions -/

/-- A change of the PAB before it is ready sets its whole range when none of it is free. -/
theorem pabSetContinous_free_of_reserved (hs : PabOk s) (hphase : s.phase.check .pmmReady = false)
    {start count : Nat} (hcount : 0 < count)
    (hin : start + count ≤ kpmmGetUsableMemoryPagesCount s)
    (hstate : ∀ f, start ≤ f → f < start + count → s.frameState f = pmmStateReserved) :
    ∃ s', pabSetContinous start count pmmStateFree s = .ok (true, s') := by
  have hcap := hs.capacity
  have hle := usablePages_le s
  have hmax : pmmStateFree < s.pab.maxState := by
    rw [Bitmap.maxState, hs.bitsPerState]
    decide
  obtain ⟨pab, hset⟩ := bitmapSetContinous_of_allowed hs.packed hmax (by omega) hcount
    (show start + count ≤ s.pab.capacity by omega) fun f h1 h2 => by
      have hold : s.pab.stateAt f = pmmStateReserved := hstate f h1 h2
      show sVerifyChange s f _ _ = .ok true
      rw [hold, sVerifyChange, if_neg (by omega), hphase]
      rfl
  refine ⟨{ s with pab }, ?_⟩
  simp only [pabSetContinous, get_bind_apply, lift_bind_eq_ok, set_bind_apply, pure_apply]
  exact ⟨_, hset, rfl⟩

/-- The frames are marked as the regions `done` say. -/
structure MarkedBy (s : KState) (size : Nat) (done : List BootMemoryMapItem) : Prop where
  pabOk : PabOk s
  phase : s.phase.check .pmmReady = false
  usable : kpmmGetUsableMemorySize s = size
  free : ∀ f, f < 16384 → WholeFrameFree size done f → s.frameState f = pmmStateFree
  reserved : ∀ f, f < 16384 → ¬ WholeFrameFree size done f → s.frameState f = pmmStateReserved

/-- A region that is skipped holds no frame that is to be free. -/
theorem wholeFrameFree_skip {done : List BootMemoryMapItem} (h : ¬ Taken size item) :
    WholeFrameFree size (done ++ [item]) f ↔ WholeFrameFree size done f := by
  constructor
  · rintro ⟨hle, x, hx, htype, hlo, hhi⟩
    rcases List.mem_append.1 hx with hx | hx
    · exact ⟨hle, x, hx, htype, hlo, hhi⟩
    · obtain rfl := List.mem_singleton.1 hx
      exact absurd ⟨htype, by omega, by omega⟩ h
  · rintro ⟨hle, x, hx, hrest⟩
    exact ⟨hle, x, List.mem_append_left _ hx, hrest⟩

theorem MarkedBy.skip {done : List BootMemoryMapItem} (hm : MarkedBy s size done)
    (h : ¬ Taken size item) : MarkedBy s size (done ++ [item]) where
  pabOk := hm.pabOk
  phase := hm.phase
  usable := hm.usable
  free f hf hw := hm.free f hf ((wholeFrameFree_skip h).1 hw)
  reserved f hf hw := hm.reserved f hf fun hw' => hw ((wholeFrameFree_skip h).2 hw')

/-- Marking a region of whole pages marks the frames that lie in it as a whole. -/
theorem MarkedBy.take {done : List BootMemoryMapItem} (hm : MarkedBy s size done)
    (htaken : Taken size item) (hw : WholePages size item)
    (hdisjoint : ∀ x ∈ done, ∀ addr, ¬ (x.Contains addr ∧ item.Contains addr)) :
    ∃ s', pabSetContinous (markStart item) (markCount size item) pmmStateFree s = .ok (true, s') ∧
      MarkedBy s' size (done ++ [item]) := by
  have hsize : size ≤ maxPabAddressableByteCount := hm.usable ▸ Nat.min_le_right _ _
  have hstart := markStart_eq hsize htaken
  have hcount := markCount_eq hsize htaken hw
  obtain ⟨hal, hpage, -⟩ := hw
  have hrange : ∀ f, markStart item ≤ f ∧ f < markStart item + markCount size item ↔
      item.baseAddr ≤ 4096 * f ∧ 4096 * f + 4096 ≤ min size (item.baseAddr + item.length) := by
    intro f
    rw [hstart, hcount]
    omega
  have hreserved : ∀ f, markStart item ≤ f → f < markStart item + markCount size item →
      s.frameState f = pmmStateReserved := by
    intro f h1 h2
    obtain ⟨hlo, hhi⟩ := (hrange f).1 ⟨h1, h2⟩
    simp only [maxPabAddressableByteCount] at hsize
    refine hm.reserved f (by omega) ?_
    rintro ⟨-, x, hx, -, hxlo, hxhi⟩
    exact hdisjoint x hx (4096 * f) ⟨⟨hxlo, by omega⟩, hlo, by omega⟩
  have hpages : kpmmGetUsableMemoryPagesCount s = size / 4096 := by
    rw [kpmmGetUsableMemoryPagesCount, hm.usable, bytesToPageframesFloor_eq]
    simp only [maxPabAddressableByteCount] at hsize
    omega
  obtain ⟨s', hset⟩ := pabSetContinous_free_of_reserved hm.pabOk hm.phase
    (by rw [hcount]; omega) (by rw [hpages, hstart, hcount]; omega) hreserved
  have hlt : markStart item < 2 ^ 32 := by
    simp only [maxPabAddressableByteCount] at hsize
    omega
  obtain ⟨-, hframes, -⟩ := pabSetContinous_spec hm.pabOk hlt hset
  have heq := hframes.eq
  have hmem : ∀ f, WholeFrameFree size (done ++ [item]) f ↔ WholeFrameFree size done f ∨
      (markStart item ≤ f ∧ f < markStart item + markCount size item) := by
    intro f
    rw [hrange]
    constructor
    · rintro ⟨hle, x, hx, htype, hlo, hhi⟩
      rcases List.mem_append.1 hx with hx | hx
      · exact .inl ⟨hle, x, hx, htype, hlo, hhi⟩
      · obtain rfl := List.mem_singleton.1 hx
        exact .inr ⟨hlo, by omega⟩
    · rintro (⟨hle, x, hx, hrest⟩ | ⟨hlo, hhi⟩)
      · exact ⟨hle, x, List.mem_append_left _ hx, hrest⟩
      · exact ⟨by omega, item, List.mem_append_right _ (.head _), htaken.1, hlo, by omega⟩
  refine ⟨s', hset, hframes.pabOk hm.pabOk, ?_, ?_, fun f hf hwhole => ?_, fun f hf hwhole => ?_⟩
  · rw [heq]
    exact hm.phase
  · rw [heq]
    exact hm.usable
  · rw [hframes.frameState]
    split
    · rfl
    · exact hm.free f hf (((hmem f).1 hwhole).resolve_right (by assumption))
  · have hnot := fun h => hwhole ((hmem f).2 h)
    rw [hframes.frameState, if_neg fun h => hnot (.inr h)]
    exact hm.reserved f hf fun h => hnot (.inl h)

/-- Regions of whole pages are marked without a panic. -/
theorem markFreeMemoryFrom_marked {done : List BootMemoryMapItem} (hm : MarkedBy s size done)
    (hdisjoint : DisjointRegions (done ++ rest))
    (hw : ∀ item ∈ rest, Taken size item → WholePages size item) :
    ∃ s', markFreeMemoryFrom size rest s = .ok ((), s') ∧ MarkedBy s' size (done ++ rest) := by
  induction rest generalizing s done with
  | nil => exact ⟨s, rfl, by simpa using hm⟩
  | cons item rest ih =>
    have hsplit : done ++ item :: rest = (done ++ [item]) ++ rest := by simp
    rw [hsplit] at hdisjoint ⊢
    have hrest : ∀ x ∈ rest, Taken size x → WholePages size x := fun x hx => hw x (.tail _ hx)
    by_cases htaken : Taken size item
    · have hbefore : ∀ x ∈ done, ∀ addr, ¬ (x.Contains addr ∧ item.Contains addr) :=
        fun x hx => (List.pairwise_append.1 (List.pairwise_append.1 hdisjoint).1).2.2 x hx item
          (.head _)
      obtain ⟨s₁, hset, hm₁⟩ := hm.take htaken (hw item (.head _) htaken) hbefore
      obtain ⟨s', hs', hm'⟩ := ih hm₁ hdisjoint hrest
      refine ⟨s', ?_, hm'⟩
      rw [markFreeMemoryFrom_take htaken, bind_of_ok hset]
      exact hs'
    · rw [markFreeMemoryFrom_skip htaken]
      exact ih (hm.skip htaken) hdisjoint hrest

/-! ## What a map of other regions leads to -/

/-- A frame that is free stays free. -/
theorem markFreeMemoryFrom_free (hs : PabOk s) (h : markFreeMemoryFrom size items s = .ok ((), s'))
    (hf : s.frameState f = pmmStateFree) : s'.frameState f = pmmStateFree := by
  induction items generalizing s with
  | nil => cases h; exact hf
  | cons item rest ih =>
    by_cases htaken : Taken size item
    · rw [markFreeMemoryFrom_take htaken] at h
      obtain ⟨ok, s₁, hset, h⟩ := bind_eq_ok.1 h
      have hlt : markStart item < 2 ^ 32 := Nat.lt_of_le_of_lt Nat.and_le_right (by omega)
      obtain ⟨rfl, hframes, -⟩ := pabSetContinous_spec hs hlt hset
      refine ih (hframes.pabOk hs) h ?_
      rw [hframes.frameState]
      split
      · rfl
      · exact hf
    · rw [markFreeMemoryFrom_skip htaken] at h
      exact ih hs h hf

/-- When `s_markFreeMemory` returns, it has marked the frame in which each region starts. -/
theorem markFreeMemoryFrom_start (hs : PabOk s) (hsize : size ≤ maxPabAddressableByteCount)
    (h : markFreeMemoryFrom size items s = .ok ((), s')) (hitem : item ∈ items)
    (htyped : item.Typed) (htaken : Taken size item) :
    s'.frameState (item.baseAddr / 4096) = pmmStateFree ∧
      item.baseAddr + item.length ≤ 2 ^ 64 := by
  induction items generalizing s with
  | nil => cases hitem
  | cons x rest ih =>
    by_cases hx : Taken size x
    · rw [markFreeMemoryFrom_take hx] at h
      obtain ⟨ok, s₁, hset, hrest⟩ := bind_eq_ok.1 h
      have hlt : markStart x < 2 ^ 32 := Nat.lt_of_le_of_lt Nat.and_le_right (by omega)
      obtain ⟨rfl, hframes, -⟩ := pabSetContinous_spec hs hlt hset
      rcases List.mem_cons.1 hitem with rfl | hitem
      · obtain ⟨hpos, hbig⟩ := markCount_bounds hsize htaken htyped
        have hin := hframes.inside
        have hstart := markStart_eq hsize htaken
        refine ⟨markFreeMemoryFrom_free (hframes.pabOk hs) hrest ?_, by omega⟩
        rw [hframes.frameState, if_pos (by omega)]
      · exact ih (hframes.pabOk hs) hrest hitem
    · rw [markFreeMemoryFrom_skip hx] at h
      rcases List.mem_cons.1 hitem with rfl | hitem
      · exact absurd htaken hx
      · exact ih hs h hitem

/-! ## `kpmm_init` -/

/-- The state in which `s_markFreeMemory` runs: every frame is reserved. -/
def allReserved (s : KState) : KState :=
  { s with pab := ⟨fun _ => 0xAA, pabSizeBytes, pabBitsPerState⟩ }

theorem allReserved_frameState (f : Nat) : (allReserved s).frameState f = pmmStateReserved := by
  have hlt : f % 4 < 4 := Nat.mod_lt f (by decide)
  simp only [frameState, allReserved, Bitmap.stateAt, Bitmap.bitIndex, Bitmap.statesPerByte,
    Bitmap.stateMask, pabBitsPerState, pmmStateReserved]
  norm_num only
  generalize f % 4 = k at hlt
  obtain rfl | rfl | rfl | rfl : k = 0 ∨ k = 1 ∨ k = 2 ∨ k = 3 := by omega
  all_goals rfl

theorem allReserved_marked (hphase : s.phase = .textdispReady) :
    MarkedBy (allReserved s) (kpmmGetUsableMemorySize s) [] where
  pabOk := ⟨rfl, rfl⟩
  phase := by
    rw [allReserved, hphase]
    rfl
  usable := rfl
  free f _ hw := by
    obtain ⟨-, x, hx, -⟩ := hw
    cases hx
  reserved f _ _ := allReserved_frameState f

/-- Marking free memory changes the PAB alone. -/
theorem markFreeMemoryFrom_fixes (size : Nat) (items : List BootMemoryMapItem) :
    Exec.Fixes nonPaging (markFreeMemoryFrom size items) := by
  induction items with
  | nil => exact .pure _
  | cons item rest ih =>
    by_cases htaken : Taken size item
    · rw [markFreeMemoryFrom_take htaken]
      exact .bind (pabSetContinous_fixes _ _ _) fun _ => .ite ih (.kPanic _)
    · rw [markFreeMemoryFrom_skip htaken]
      exact ih

/-- `kpmm_init` marks the free memory of the boot memory map. -/
theorem kpmmInit_eq_ok (hphase : s.phase = .textdispReady) :
    kpmmInit s = .ok ((), s') ↔ ∃ s₁,
      markFreeMemoryFrom (kpmmGetUsableMemorySize s) s.bootMemoryMap (allReserved s) =
        .ok ((), s₁) ∧ s' = { s₁ with phase := .pmmReady } := by
  rw [kpmmInit, modify_bind_apply, kpmmArchInit, bind_assoc, modify_bind_apply, sMarkFreeMemory,
    bind_assoc, get_bind_apply, bind_eq_ok]
  constructor
  · rintro ⟨_, s₁, hmark, hset⟩
    exact ⟨s₁, hmark, (kernelPhaseSet_eq_ok.1 hset).2⟩
  · rintro ⟨s₁, hmark, rfl⟩
    have hkept : s₁.nonPaging.phase = (allReserved s).nonPaging.phase :=
      congrArg KState.phase (markFreeMemoryFrom_fixes _ _ _ _ _ hmark)
    replace hkept : s₁.phase = s.phase := hkept
    refine ⟨(), s₁, hmark, kernelPhaseSet_eq_ok.2 ⟨.inr ?_, rfl⟩⟩
    rw [hkept, hphase]
    rfl

/-- Marking the free memory leaves every other frame as it was. -/
theorem markFreeMemoryFrom_spec (hs : PabOk s)
    (h : markFreeMemoryFrom size items s = .ok ((), s')) :
    PabOk s' ∧ s' = { s with pab := s'.pab } ∧
      ∀ f, s'.frameState f = pmmStateFree ∨ s'.frameState f = s.frameState f := by
  induction items generalizing s with
  | nil =>
    cases h
    exact ⟨hs, rfl, fun _ => .inr rfl⟩
  | cons item rest ih =>
    by_cases htaken : Taken size item
    · rw [markFreeMemoryFrom_take htaken] at h
      obtain ⟨ok, s₁, hset, hrest⟩ := bind_eq_ok.1 h
      have hlt : markStart item < 2 ^ 32 := Nat.lt_of_le_of_lt Nat.and_le_right (by omega)
      obtain ⟨rfl, hframes, -⟩ := pabSetContinous_spec hs hlt hset
      obtain ⟨hs', heq, hstates⟩ := ih (hframes.pabOk hs) hrest
      refine ⟨hs', by rw [heq, hframes.eq], fun f => ?_⟩
      have hf := hframes.frameState f
      rcases hstates f with hfree | hsame
      · exact .inl hfree
      · rw [hsame, hf]
        split
        · exact .inl rfl
        · exact .inr rfl
    · rw [markFreeMemoryFrom_skip htaken] at h
      exact ih hs h

/-- After `kpmm_init` every frame is free or reserved, and nothing but the PAB has changed. -/
theorem kpmmInit_spec (hphase : s.phase = .textdispReady) (h : kpmmInit s = .ok ((), s')) :
    PabOk s' ∧ s' = { s with pab := s'.pab, phase := .pmmReady } ∧
      ∀ f, s'.frameState f = pmmStateFree ∨ s'.frameState f = pmmStateReserved := by
  obtain ⟨s₁, hmark, rfl⟩ := (kpmmInit_eq_ok hphase).1 h
  obtain ⟨hs₁, heq, hstates⟩ := markFreeMemoryFrom_spec ⟨rfl, rfl⟩ hmark
  refine ⟨hs₁.congr rfl, by rw [heq]; rfl, fun f => ?_⟩
  rw [← allReserved_frameState f]
  exact hstates f

/-- For a map of disjoint regions, `kpmm_init` does not panic and leaves exactly the frames free
that are free memory as a whole, if and only if every free region that begins below the usable
memory size begins on a page, holds a whole page below that size, and ends in the address space. -/
theorem kpmmInit_marks_iff (hphase : s.phase = .textdispReady)
    (htyped : ∀ item ∈ s.bootMemoryMap, item.Typed) (hdisjoint : DisjointRegions s.bootMemoryMap) :
    MarksFreeMemory s ↔ ∀ item ∈ s.bootMemoryMap, Taken (kpmmGetUsableMemorySize s) item →
      WholePages (kpmmGetUsableMemorySize s) item := by
  have hsize : kpmmGetUsableMemorySize s ≤ maxPabAddressableByteCount := Nat.min_le_right _ _
  have hstart := allReserved_marked hphase
  constructor
  · rintro ⟨s', hinit, hframes⟩ item hitem htaken
    obtain ⟨s₁, hmark, rfl⟩ := (kpmmInit_eq_ok hphase).1 hinit
    obtain ⟨hfree, hend⟩ := markFreeMemoryFrom_start hstart.pabOk hsize hmark hitem
      (htyped item hitem) htaken
    have hlt := htaken.2.2
    have hpos := htaken.2.1
    simp only [maxPabAddressableByteCount] at hsize
    have hframe : item.baseAddr / 4096 < 16384 := by omega
    have hwhole : WholeFrameFree (kpmmGetUsableMemorySize s) s.bootMemoryMap
        (item.baseAddr / 4096) := by
      by_contra hnot
      have hres := (hframes _ hframe).2 hnot
      exact absurd (hfree.symm.trans hres) (by decide)
    obtain ⟨hle, x, hx, -, hlo, hhi⟩ := hwhole
    obtain rfl : x = item := by
      by_contra hne
      have : Std.Symm fun x y : BootMemoryMapItem =>
          ∀ addr, ¬ (x.Contains addr ∧ y.Contains addr) :=
        ⟨fun _ _ hxy addr hyx => hxy addr hyx.symm⟩
      exact hdisjoint.forall hx hitem hne item.baseAddr
        ⟨⟨by omega, by omega⟩, Nat.le_refl _, by omega⟩
    exact ⟨by omega, by omega, hend⟩
  · intro hw
    obtain ⟨s₁, hmark, hm⟩ := markFreeMemoryFrom_marked hstart (by simpa using hdisjoint) hw
    rw [List.nil_append] at hm
    exact ⟨_, (kpmmInit_eq_ok hphase).2 ⟨s₁, hmark, rfl⟩,
      fun f hf => ⟨hm.free f hf, hm.reserved f hf⟩⟩

/-- A memory map of nine pages. -/
theorem kpmmInit_marks_ninePages :
    ninePages.phase = .textdispReady ∧ (∀ item ∈ ninePages.bootMemoryMap, item.Typed) ∧
      DisjointRegions ninePages.bootMemoryMap ∧ MarksFreeMemory ninePages := by
  have htyped : ∀ item ∈ ninePages.bootMemoryMap, item.Typed := by
    intro item hitem
    obtain rfl := List.mem_singleton.1 hitem
    exact ⟨by decide, by decide⟩
  have hdisjoint : DisjointRegions ninePages.bootMemoryMap := List.pairwise_singleton _ _
  refine ⟨rfl, htyped, hdisjoint, (kpmmInit_marks_iff rfl htyped hdisjoint).2 ?_⟩
  intro item hitem _
  obtain rfl := List.mem_singleton.1 hitem
  exact ⟨by decide, by decide, by decide⟩

/-- A machine whose free memory begins in the middle of a page. -/
def halfPage : KState := KState.static [⟨0x800, 0x2000, mmTypeFree⟩] 0 fun _ _ => Entry.zero

/-- The page in whose middle the free memory begins is free. -/
theorem kpmmInit_marks_halfPage :
    ¬ ∀ s : KState, s.phase = .textdispReady → (∀ item ∈ s.bootMemoryMap, item.Typed) →
      DisjointRegions s.bootMemoryMap → MarksFreeMemory s := by
  intro hall
  obtain ⟨s', hinit, hframes⟩ := hall halfPage rfl
    (fun item hitem => by
      obtain rfl := List.mem_singleton.1 hitem
      exact ⟨by decide, by decide⟩)
    (List.pairwise_singleton _ _)
  have hnot : ¬ WholeFrameFree (kpmmGetUsableMemorySize halfPage) halfPage.bootMemoryMap 0 := by
    rintro ⟨-, item, hitem, -, hlo, -⟩
    obtain rfl := List.mem_singleton.1 hitem
    exact absurd hlo (by decide)
  have hreserved := (hframes 0 (by decide)).2 hnot
  have hfinal : s' = kpmmInit.finalState halfPage := by
    rw [finalState, hinit]
  rw [hfinal] at hreserved
  exact absurd hreserved (by decide +kernel)

end MeghaOS
