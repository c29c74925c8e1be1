import MeghaOS.Proof.Pmm

/-!
# The size of the free memory

`kpmm_getFreeMemorySize` counts the free frames from frame 1 on. The three entry points of the
allocator change whole ranges of frames, so that the size follows a call exactly when the range lies
inside the frames that are counted.
-/

namespace MeghaOS

open Exec Bitmap

variable {s s' : KState}

/-- The free frames among those of a range. -/
def KState.freeIn (s : KState) (frames : Finset Nat) : Finset Nat :=
  frames.filter (s.frameState · = pmmStateFree)

/-- The free frames of the usable memory. -/
def KState.freeFrames (s : KState) : Finset Nat :=
  s.freeIn (Finset.range (kpmmGetUsableMemoryPagesCount s))

/-- The frames that `kpmm_getFreeMemorySize` looks at. -/
def KState.countedFrames (s : KState) : Finset Nat :=
  Finset.Ico 1 (kpmmGetUsableMemoryPagesCount s)

theorem freeIn_insert_pos {frame : Nat} {frames : Finset Nat}
    (h : s.frameState frame = pmmStateFree) :
    s.freeIn (insert frame frames) = insert frame (s.freeIn frames) := by
  rw [KState.freeIn, Finset.filter_insert, if_pos h, KState.freeIn]

theorem freeIn_insert_neg {frame : Nat} {frames : Finset Nat}
    (h : s.frameState frame ≠ pmmStateFree) :
    s.freeIn (insert frame frames) = s.freeIn frames := by
  rw [KState.freeIn, Finset.filter_insert, if_neg h, KState.freeIn]

/-- The loop counts the free frames of its range. -/
theorem countFreeFrom_eq (hs : PabOk s) {n frame freePages : Nat} (hin : frame + n ≤ 16384) :
    countFreeFrom s.pab n frame freePages =
      .ok (freePages + (s.freeIn (Finset.Ico frame (frame + n))).card) := by
  induction n generalizing frame freePages with
  | zero => simp [countFreeFrom, KState.freeIn, pure, Except.pure]
  | succ n ih =>
    have hget : bitmapGet s.pab frame = .ok (s.frameState frame) := by
      have hcap := hs.capacity
      exact bitmapGet_eq_ok.2 ⟨hs.packed.eight_mod, by omega, rfl⟩
    have hins : Finset.Ico frame (frame + (n + 1)) =
        insert frame (Finset.Ico (frame + 1) (frame + 1 + n)) := by
      ext f
      simp only [Finset.mem_Ico, Finset.mem_insert]
      omega
    have hnot : frame ∉ s.freeIn (Finset.Ico (frame + 1) (frame + 1 + n)) := fun h => by
      have := (Finset.mem_Ico.1 (Finset.mem_filter.1 h).1).1
      omega
    rw [countFreeFrom, hget]
    by_cases hfree : s.frameState frame = pmmStateFree
    · simp only [bind, Except.bind, hfree, if_true]
      rw [ih (by omega), hins, freeIn_insert_pos hfree, Finset.card_insert_of_notMem hnot,
        Nat.add_assoc, Nat.add_comm 1]
    · simp only [bind, Except.bind, hfree, if_false]
      rw [ih (by omega), hins, freeIn_insert_neg hfree]

/-- The size is that of the free frames from frame 1 on. -/
theorem kpmmGetFreeMemorySize_eq (hs : PabOk s) (hphase : s.phase.check .pmmReady) :
    kpmmGetFreeMemorySize s = .ok ((s.freeIn s.countedFrames).card * 4096, s) := by
  have husable := usablePages_le s
  have hcard : (s.freeIn s.countedFrames).card ≤ kpmmGetUsableMemoryPagesCount s := by
    calc (s.freeIn s.countedFrames).card ≤ s.countedFrames.card := Finset.card_filter_le _ _
      _ ≤ _ := by rw [KState.countedFrames, Nat.card_Ico]; omega
  have hcount : countFreeFrom s.pab (kpmmGetUsableMemoryPagesCount s - 1) 1 0 =
      .ok (s.freeIn s.countedFrames).card := by
    rw [countFreeFrom_eq hs (by omega), Nat.zero_add, KState.countedFrames]
    rcases Nat.eq_zero_or_pos (kpmmGetUsableMemoryPagesCount s) with h0 | hpos
    · rw [h0]
      rfl
    · rw [Nat.add_sub_cancel' hpos]
  have hbytes : pageframesToBytes (s.freeIn s.countedFrames).card =
      (s.freeIn s.countedFrames).card * 4096 := by
    rw [pageframesToBytes, u32, Nat.shiftLeft_eq, Nat.mod_eq_of_lt (by omega)]
  rw [kpmmGetFreeMemorySize, kernelPhaseValidate_bind_eq_ok]
  refine ⟨hphase, ?_⟩
  simp only [get_bind_apply, hcount, lift_bind_eq_ok, kAssert_bind_eq_ok, pure_apply]
  exact ⟨_, rfl, hcard, by rw [hbytes]⟩

/-- The frames that are counted are the usable ones without the first. -/
theorem countedFrames_eq (s : KState) :
    s.countedFrames = (Finset.range (kpmmGetUsableMemoryPagesCount s)).erase 0 := by
  ext f
  simp only [KState.countedFrames, Finset.mem_Ico, Finset.mem_erase, Finset.mem_range]
  omega

/-- The count misses frame 0, and no other. -/
theorem card_freeIn_countedFrames (s : KState) :
    (s.freeIn s.countedFrames).card = s.freeFrames.card ↔
      kpmmGetUsableMemoryPagesCount s = 0 ∨ s.frameState 0 ≠ pmmStateFree := by
  have herase : s.freeIn s.countedFrames = s.freeFrames.erase 0 := by
    rw [countedFrames_eq, KState.freeIn, Finset.filter_erase]
    rfl
  have hmem : 0 ∈ s.freeFrames ↔
      ¬ (kpmmGetUsableMemoryPagesCount s = 0 ∨ s.frameState 0 ≠ pmmStateFree) := by
    rw [KState.freeFrames, KState.freeIn, Finset.mem_filter, Finset.mem_range]
    omega
  rw [herase, ← not_iff_not, ← hmem]
  constructor
  · intro hne
    by_contra hnot
    exact hne (by rw [Finset.erase_eq_of_notMem hnot])
  · intro h
    exact Nat.ne_of_lt (Finset.card_erase_lt_of_mem h)

/-! ## The effect of a call -/

/-- Between two states that differ in a range of frames, free in the one and used in the other, the
number of free frames differs by the frames of the range. -/
theorem card_freeIn_of_range {a b : KState} {range frames : Finset Nat}
    (hfree : ∀ f ∈ range, a.frameState f = pmmStateFree)
    (hb : ∀ f, b.frameState f = if f ∈ range then pmmStateUsed else a.frameState f) :
    (a.freeIn frames).card = (b.freeIn frames).card + (range ∩ frames).card := by
  have hsdiff : b.freeIn frames = a.freeIn frames \ range := by
    ext f
    simp only [KState.freeIn, Finset.mem_filter, Finset.mem_sdiff, hb f]
    by_cases hf : f ∈ range
    · simp [hf, pmmStateUsed, pmmStateFree]
    · simp [hf]
  have hinter : range ∩ frames = a.freeIn frames ∩ range := by
    ext f
    simp only [KState.freeIn, Finset.mem_inter, Finset.mem_filter]
    exact ⟨fun ⟨h1, h2⟩ => ⟨⟨h2, hfree f h1⟩, h1⟩, fun ⟨⟨h1, _⟩, h2⟩ => ⟨h2, h1⟩⟩
  rw [hsdiff, hinter, Finset.card_sdiff_add_card_inter]

namespace PmmCall

/-- The number of pages a call is about. -/
def pages : PmmCall → Nat
  | alloc pageCount | allocAt _ pageCount | free _ pageCount => pageCount.toNat

/-- How the size of the free memory follows a successful call. -/
def Tracks (c : PmmCall) (size size' : Nat) : Prop :=
  match c with
  | free _ _ => size' = size + c.pages * 4096
  | _ => size' + c.pages * 4096 = size

/-- The frames of a call are all counted: they begin after frame 0, and those that `kpmm_alloc`
finds end inside the usable memory. -/
def Counted (s : KState) : PmmCall → Prop
  | alloc pageCount => ∀ f, bitmapFindContinous s.pab pmmStateFree pageCount.toNat = .ok (some f) →
      f ≠ 0 ∧ f + pageCount.toNat ≤ kpmmGetUsableMemoryPagesCount s
  | allocAt start _ | free start _ => 4096 ≤ start.toNat

/-- The range that `kpmm_alloc` returns is the one that `bitmap_findContinous` finds. -/
theorem kpmmAlloc_find {count addr : Nat} {reg : KernelPhysicalMemoryRegions}
    (h : kpmmAlloc count reg s = .ok (some addr, s')) :
    ∃ f, bitmapFindContinous s.pab pmmStateFree count = .ok (some f) ∧
      addr = pageframesToBytes f := by
  simp only [kpmmAlloc, kernelPhaseValidate_bind_eq_ok] at h
  rcases ite_eq_ok.1 h.2 with ⟨-, h⟩ | ⟨-, h⟩
  · obtain ⟨h, -⟩ := returnError_eq_ok.1 h
    cases h
  rw [get_bind_apply, lift_bind_eq_ok] at h
  obtain ⟨found, hfind, h⟩ := h
  cases found with
  | none =>
    obtain ⟨h, -⟩ := returnError_eq_ok.1 h
    cases h
  | some f =>
    simp only [get_bind_apply, kAssert_bind_eq_ok] at h
    obtain ⟨ok, s₁, -, h⟩ := bind_eq_ok.1 h.2
    cases ok with
    | false => cases h
    | true =>
      simp only [if_true, kAssert_bind_eq_ok, pure_apply, Except.ok.injEq, Prod.mk.injEq,
        Option.some.injEq] at h
      exact ⟨f, hfind, h.2.1.symm⟩

/-- The range that `kpmm_free` released ends inside the usable memory. -/
theorem kpmmFree_end {start count : Nat} (h : kpmmFree start count s = .ok (true, s')) :
    u32Sub (start + u32 (count * pageFrameSizeBytes)) 1 < kpmmGetUsableMemorySize s := by
  rw [kpmmFree, kernelPhaseValidate_bind_eq_ok] at h
  rcases ite_eq_ok.1 h.2 with ⟨-, h⟩ | ⟨-, h⟩
  · obtain ⟨h, -⟩ := returnError_eq_ok.1 h
    cases h
  rw [get_bind_apply] at h
  rcases ite_eq_ok.1 h with ⟨-, h⟩ | ⟨hend, -⟩
  · obtain ⟨h, -⟩ := returnError_eq_ok.1 h
    cases h
  · exact Nat.lt_of_not_le hend

/-- A range whose last byte is usable lies inside the usable frames. -/
theorem le_usablePages {start count : Nat} (hstart : start < 2 ^ 32) (hpos : 0 < count)
    (hin : start / 4096 + count ≤ 16384)
    (hend : u32Sub (start + u32 (count * pageFrameSizeBytes)) 1 < kpmmGetUsableMemorySize s) :
    start / 4096 + count ≤ kpmmGetUsableMemoryPagesCount s := by
  have hsize : kpmmGetUsableMemorySize s ≤ 0x4000000 := Nat.min_le_right _ _
  have hpages : kpmmGetUsableMemoryPagesCount s = kpmmGetUsableMemorySize s / 4096 :=
    startPageFrame_eq (by omega)
  have hcount : u32 (count * pageFrameSizeBytes) = count * 4096 := Nat.mod_eq_of_lt (by
    rw [show pageFrameSizeBytes = 4096 from rfl]
    omega)
  rw [hcount, u32Sub] at hend
  omega

/-- A call that succeeds changes a range, which lies inside the frames that are counted under the
condition of `Counted`. -/
theorem exec_range (hs : PabOk s) {c : PmmCall} {range : Finset Nat}
    (h : c.exec s = .ok (some range, s')) :
    s' = { s with pab := s'.pab } ∧ range.card = c.pages ∧
      (c.Counted s ↔ range ⊆ s.countedFrames) := by
  have hcard : ∀ start count, (frameRange start count).card = count := fun start count => by
    rw [frameRange, Nat.card_Ico, Nat.add_sub_cancel_left]
  have hsubset : ∀ {start count : Nat}, 0 < count → (frameRange start count ⊆ s.countedFrames ↔
      1 ≤ start / 4096 ∧ start / 4096 + count ≤ kpmmGetUsableMemoryPagesCount s) :=
    fun {start count} hpos => by
      rw [frameRange, KState.countedFrames, Finset.Ico_subset_Ico_iff (by omega)]
  cases c with
  | alloc pageCount =>
    obtain ⟨addr, s₁, hcall, h⟩ := bind_eq_ok.1 h
    cases addr with
    | none => cases h
    | some addr =>
      cases h
      obtain ⟨f, hfind, hbytes⟩ := kpmmAlloc_find hcall
      rcases kpmmAlloc_spec hs hcall with ⟨h, -⟩ | ⟨f', haddr, -, hset, -⟩
      · cases h
      have hcap := hs.capacity
      obtain ⟨hpos, hin, -⟩ := bitmapFindContinous_spec (by omega) hfind
      have hf : addr = f * 4096 := by
        rw [hbytes, pageframesToBytes, u32, Nat.shiftLeft_eq, Nat.mod_eq_of_lt (by omega)]
      obtain rfl : f = f' := Nat.eq_of_mul_eq_mul_right (by omega)
        (hf.symm.trans (Option.some.inj haddr))
      refine ⟨hset.eq, hcard _ _, ?_⟩
      rw [hsubset hpos, hf, Nat.mul_div_cancel f (by omega), Counted, hfind]
      constructor
      · intro h
        obtain ⟨h0, h1⟩ := h f rfl
        exact ⟨Nat.pos_of_ne_zero h0, h1⟩
      · rintro ⟨h0, h1⟩ _ ⟨⟩
        exact ⟨Nat.ne_of_gt h0, h1⟩
  | allocAt start pageCount =>
    obtain ⟨ok, s₁, hcall, h⟩ := bind_eq_ok.1 h
    cases ok with
    | false => cases h
    | true =>
      cases h
      rcases kpmmAllocAt_parts hcall with ⟨h, -⟩ | ⟨hend, -, -⟩
      · cases h
      rcases kpmmAllocAt_spec hs start.toNat_lt hcall with ⟨h, -⟩ | ⟨-, hset, -⟩
      · cases h
      refine ⟨hset.eq, hcard _ _, ?_⟩
      have := le_usablePages start.toNat_lt hset.pos hset.inside hend
      rw [hsubset hset.pos, Counted]
      omega
  | free start pageCount =>
    obtain ⟨ok, s₁, hcall, h⟩ := bind_eq_ok.1 h
    cases ok with
    | false => cases h
    | true =>
      cases h
      have hend := kpmmFree_end hcall
      rcases kpmmFree_spec hs start.toNat_lt hcall with ⟨h, -⟩ | ⟨-, hset, -⟩
      · cases h
      refine ⟨hset.eq, hcard _ _, ?_⟩
      have := le_usablePages start.toNat_lt hset.pos hset.inside hend
      rw [hsubset hset.pos, Counted]
      omega

/-- The number of counted free frames follows a call that succeeds exactly when its frames are all
counted. -/
theorem tracks_iff (hs : PabOk s) {c : PmmCall} {range : Finset Nat}
    (h : c.exec s = .ok (some range, s')) :
    c.Tracks ((s.freeIn s.countedFrames).card * 4096) ((s'.freeIn s.countedFrames).card * 4096) ↔
      c.Counted s := by
  obtain ⟨-, hcard, hcounted⟩ := exec_range hs h
  obtain ⟨-, hold, hnew⟩ := exec_spec hs h
  simp only [Option.getD_some] at hold hnew
  have hiff : (range ∩ s.countedFrames).card = c.pages ↔ c.Counted s := by
    rw [hcounted, ← hcard, ← Finset.inter_eq_left]
    constructor
    · intro heq
      exact Finset.eq_of_subset_of_card_le Finset.inter_subset_left (Nat.le_of_eq heq.symm)
    · intro heq
      rw [heq]
  have halloc : c.change = (pmmStateFree, pmmStateUsed) → (s.freeIn s.countedFrames).card =
      (s'.freeIn s.countedFrames).card + (range ∩ s.countedFrames).card := fun hc => by
    rw [hc] at hold hnew
    exact card_freeIn_of_range hold hnew
  cases c with
  | alloc n =>
    have := halloc rfl
    rw [← hiff, Tracks]
    · omega
    · simp
  | allocAt start n =>
    have := halloc rfl
    rw [← hiff, Tracks]
    · omega
    · simp
  | free start n =>
    have hfree : (s'.freeIn s.countedFrames).card =
        (s.freeIn s.countedFrames).card + (range ∩ s.countedFrames).card := by
      refine card_freeIn_of_range (fun f hf => by rw [hnew f, if_pos hf]; rfl) fun f => ?_
      split_ifs with hf
      · exact hold f hf
      · rw [hnew f, if_neg hf]
    rw [← hiff, Tracks]
    omega

end PmmCall

/-- In every state of the PAB, the size that `kpmm_getFreeMemorySize` returns is that of the usable
free frames exactly when frame 0 is not one of them, and it follows a successful call exactly when
the frames of the call are all among those it counts. -/
theorem kpmmGetFreeMemorySize_exact (hs : PabOk s) (hphase : s.phase.check .pmmReady) :
    ∃ size, kpmmGetFreeMemorySize s = .ok (size, s) ∧
      (size = 4096 * s.freeFrames.card ↔
        kpmmGetUsableMemoryPagesCount s = 0 ∨ s.frameState 0 ≠ pmmStateFree) ∧
      ∀ (c : PmmCall) (range : Finset Nat) (s' : KState), c.exec s = .ok (some range, s') →
        ∃ size', kpmmGetFreeMemorySize s' = .ok (size', s') ∧
          (c.Tracks size size' ↔ c.Counted s) := by
  refine ⟨_, kpmmGetFreeMemorySize_eq hs hphase, ?_, fun c range s' h => ?_⟩
  · rw [← card_freeIn_countedFrames, Nat.mul_comm, Nat.mul_right_inj (by omega)]
  · obtain ⟨heq, -, -⟩ := PmmCall.exec_range hs h
    have hs' := (PmmCall.exec_spec hs h).1
    have hframes : s'.countedFrames = s.countedFrames := by rw [heq]; rfl
    have hphase' : s'.phase.check .pmmReady := by rw [heq]; exact hphase
    refine ⟨_, kpmmGetFreeMemorySize_eq hs' hphase', ?_⟩
    rw [hframes]
    exact PmmCall.tracks_iff hs h

/-- The state after `kpmm_init` on a machine with nine frames, all of them free. -/
def ninePagesReady : KState := finalState kpmmInit ninePages

theorem kpmmInit_ninePages : kpmmInit ninePages = .ok ((), ninePagesReady) :=
  eq_ok_finalState (by decide +kernel)

/-- On that machine, the size leaves out frame 0, and the allocation of frame 0 does not change
it. -/
theorem kpmmGetFreeMemorySize_ninePages :
    kpmmInit ninePages = .ok ((), ninePagesReady) ∧ ninePagesReady.freeFrames.card = 9 ∧
      kpmmGetFreeMemorySize ninePagesReady = .ok (8 * 4096, ninePagesReady) ∧
      ∃ s', (PmmCall.alloc 1).exec ninePagesReady = .ok (some (frameRange 0 1), s') ∧
        kpmmGetFreeMemorySize s' = .ok (8 * 4096, s') := by
  have hs : PabOk ninePagesReady := kpmmInit_pabOk kpmmInit_ninePages
  have hexec : (PmmCall.alloc 1).exec ninePagesReady =
      .ok (some (frameRange 0 1), (PmmCall.alloc 1).exec.finalState ninePagesReady) :=
    eq_ok_of_value (by decide +kernel)
  have hs' := (PmmCall.exec_spec hs hexec).1
  refine ⟨kpmmInit_ninePages, by decide +kernel, ?_, _, hexec, ?_⟩
  · rw [kpmmGetFreeMemorySize_eq hs (by decide +kernel)]
    have : (ninePagesReady.freeIn ninePagesReady.countedFrames).card = 8 := by decide +kernel
    rw [this]
  · rw [kpmmGetFreeMemorySize_eq hs' (by decide +kernel)]
    have : (KState.freeIn ((PmmCall.alloc 1).exec.finalState ninePagesReady)
        (KState.countedFrames ((PmmCall.alloc 1).exec.finalState ninePagesReady))).card = 8 := by
      decide +kernel
    rw [this]

/-- There, an allocation of two pages is not followed either, since it begins with frame 0. -/
theorem kpmmGetFreeMemorySize_exact_ninePages :
    ∃ size, kpmmGetFreeMemorySize ninePagesReady = .ok (size, ninePagesReady) ∧
      (size = 4096 * ninePagesReady.freeFrames.card ↔
        kpmmGetUsableMemoryPagesCount ninePagesReady = 0 ∨
          ninePagesReady.frameState 0 ≠ pmmStateFree) ∧
      ∀ (c : PmmCall) (range : Finset Nat) (s' : KState),
        c.exec ninePagesReady = .ok (some range, s') →
        ∃ size', kpmmGetFreeMemorySize s' = .ok (size', s') ∧
          (c.Tracks size size' ↔ c.Counted ninePagesReady) :=
  kpmmGetFreeMemorySize_exact (kpmmInit_pabOk kpmmInit_ninePages) (by decide +kernel)

end MeghaOS
