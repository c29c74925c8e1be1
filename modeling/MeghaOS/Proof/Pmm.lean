import MeghaOS.Pmm
import MeghaOS.Proof.Bitmap
import Mathlib.Data.Finset.Basic
import Mathlib.Order.Interval.Finset.Nat

/-!
# The physical memory manager

`SetFrames` is what a successful change of the PAB does. Each of the three entry points either
changes nothing but the error number, or changes the frames of its range in this way, all of which
were in a state that `s_verifyChange` allows. The guarantees about whole runs of the allocator
follow from these three lemmas.
-/

namespace MeghaOS

open Exec Bitmap

variable {s s' : KState}

/-- The state of a page frame in the PAB. -/
def KState.frameState (s : KState) (frame : Nat) : Nat := s.pab.stateAt frame

/-- The shape of the PAB that `kpmm_init` sets up. -/
structure PabOk (s : KState) : Prop where
  bitsPerState : s.pab.bitsPerState = pabBitsPerState
  size : s.pab.size = pabSizeBytes

namespace PabOk

theorem packed (h : PabOk s) : s.pab.Packed := .inr (.inl h.bitsPerState)

/-- The PAB has a state for each of 16384 page frames. -/
theorem capacity (h : PabOk s) : s.pab.capacity = 16384 := by
  rw [Bitmap.capacity, statesPerByte, h.bitsPerState, h.size]
  rfl

theorem congr (h : PabOk s) (hp : s'.pab = s.pab) : PabOk s' :=
  ⟨by rw [hp]; exact h.bitsPerState, by rw [hp]; exact h.size⟩

end PabOk

/-- The states of the frames from `start` on, `count` of them, are set to `state`. -/
structure SetFrames (s s' : KState) (start count state : Nat) : Prop where
  eq : s' = { s with pab := s'.pab }
  pabOk : PabOk s → PabOk s'
  pos : 0 < count
  inside : start + count ≤ 16384
  frameState : ∀ f, s'.frameState f =
    if start ≤ f ∧ f < start + count then state else s.frameState f

/-- The usable memory lies inside what the PAB can address. -/
theorem usablePages_le (s : KState) : kpmmGetUsableMemoryPagesCount s ≤ 16384 := by
  have h : kpmmGetUsableMemorySize s ≤ 0x4000000 := Nat.min_le_right _ _
  calc kpmmGetUsableMemoryPagesCount s ≤ kpmmGetUsableMemorySize s / 4096 := Nat.and_le_left
    _ ≤ 0x4000000 / 4096 := Nat.div_le_div_right h

/-- `s_verifyChange` never refuses, it panics. -/
theorem sVerifyChange_ne_false (s : KState) (i old new : Nat) :
    sVerifyChange s i old new ≠ .ok false := by
  unfold sVerifyChange
  split_ifs <;> simp

/-- The changes that `s_verifyChange` lets through. -/
theorem sVerifyChange_eq_true {i old new : Nat} (h : sVerifyChange s i old new = .ok true) :
    i ≤ kpmmGetUsableMemoryPagesCount s ∧ ¬ (old = pmmStateUsed ∧ new = pmmStateUsed) ∧
      ¬ (old = pmmStateFree ∧ new = pmmStateFree) ∧
      ¬ (s.phase.check .pmmReady ∧ old = pmmStateReserved) ∧ old ≠ pmmStateInvalid := by
  unfold sVerifyChange at h
  split_ifs at h
  exact ⟨by omega, by assumption, by assumption, by assumption, by assumption⟩

/-- A change of the PAB that returns set its whole range, and every frame of it was in a state that
`s_verifyChange` lets through. -/
theorem pabSetContinous_spec (hs : PabOk s) {start count state : Nat} {ok : Bool}
    (hstart : start < 2 ^ 32) (h : pabSetContinous start count state s = .ok (ok, s')) :
    ok = true ∧ SetFrames s s' start count state ∧
      ∀ f, start ≤ f → f < start + count → sVerifyChange s f (s.frameState f) state = .ok true := by
  simp only [pabSetContinous, get_bind_apply, lift_bind_eq_ok, set_bind_apply, pure_apply,
    Except.ok.injEq, Prod.mk.injEq] at h
  obtain ⟨⟨ok', pab⟩, hset, rfl, rfl⟩ := h
  have hcap := hs.capacity
  obtain ⟨rfl, hpos, hin, hallow, hst, hsize, hbits⟩ := bitmapSetContinous_spec
    (sVerifyChange_ne_false s) hs.packed (by omega) hstart hset
  refine ⟨rfl, ⟨rfl, fun _ => ⟨hbits.trans hs.bitsPerState, hsize.trans hs.size⟩, hpos,
    hcap ▸ hin, hst⟩, hallow⟩

/-! ## The three entry points -/

/-- `kpmm_alloc` reports an error, or finds a range of free frames and marks it used. -/
theorem kpmmAlloc_spec (hs : PabOk s) {count : Nat} {reg : KernelPhysicalMemoryRegions}
    {addr : Option Nat} (h : kpmmAlloc count reg s = .ok (addr, s')) :
    (addr = none ∧ ∃ e, s' = { s with errorNumber := e }) ∨
      ∃ f, addr = some (f * 4096) ∧ f < kpmmGetUsableMemoryPagesCount s ∧
        SetFrames s s' f count pmmStateUsed ∧
        ∀ j, f ≤ j → j < f + count → s.frameState j = pmmStateFree := by
  simp only [kpmmAlloc, kernelPhaseValidate_bind_eq_ok] at h
  obtain ⟨hphase, h⟩ := h
  split at h
  · obtain ⟨rfl, rfl⟩ := returnError_eq_ok.1 h
    exact .inl ⟨rfl, _, rfl⟩
  · rw [get_bind_apply, lift_bind_eq_ok] at h
    obtain ⟨found, hfind, h⟩ := h
    cases found with
    | none =>
      obtain ⟨rfl, rfl⟩ := returnError_eq_ok.1 h
      exact .inl ⟨rfl, _, rfl⟩
    | some f =>
      have hcap := hs.capacity
      obtain ⟨-, hin, hfree⟩ := bitmapFindContinous_spec (by omega) hfind
      simp only [get_bind_apply, kAssert_bind_eq_ok] at h
      obtain ⟨hlt, h⟩ := h
      obtain ⟨ok, s₁, hset, h⟩ := bind_eq_ok.1 h
      obtain ⟨rfl, hframes, -⟩ := pabSetContinous_spec hs (by omega) hset
      simp only [if_true, kAssert_bind_eq_ok, pure_apply, Except.ok.injEq, Prod.mk.injEq] at h
      obtain ⟨-, rfl, rfl⟩ := h
      have haddr : pageframesToBytes f = f * 4096 := by
        have := usablePages_le s
        rw [pageframesToBytes, u32, Nat.shiftLeft_eq, Nat.mod_eq_of_lt (by omega)]
      exact .inr ⟨f, by rw [haddr], hlt, hframes, hfree⟩

/-- A range of free frames. -/
structure KState.FreeRun (s : KState) (count f : Nat) : Prop where
  inside : f + count ≤ 16384
  free : ∀ j, f ≤ j → j < f + count → s.frameState j = pmmStateFree

/-- The page frames that are free are usable ones. -/
def FreeUsable (s : KState) : Prop :=
  ∀ f, f < 16384 → s.frameState f = pmmStateFree → f < kpmmGetUsableMemoryPagesCount s

theorem PabOk.lt_maxState (hs : PabOk s) {state : Nat} (h : state < 4) :
    state < s.pab.maxState := by
  rw [maxState, hs.bitsPerState]
  exact h

theorem PabOk.runAt_iff (hs : PabOk s) {count f : Nat} :
    s.pab.RunAt pmmStateFree count f ↔ s.FreeRun count f :=
  ⟨fun h => ⟨hs.capacity ▸ h.inside, h.states⟩, fun h => ⟨hs.capacity ▸ h.inside, h.free⟩⟩

/-- Free frames may be used. -/
theorem sVerifyChange_free {i : Nat} (h : i ≤ kpmmGetUsableMemoryPagesCount s) :
    sVerifyChange s i pmmStateFree pmmStateUsed = .ok true := by
  rw [sVerifyChange, if_neg (Nat.not_lt.2 h), if_neg (by decide), if_neg (by decide),
    if_neg (by simp),
    if_neg (by decide)]

/-- A range of free frames can be marked used. -/
theorem pabSetContinous_free (hs : PabOk s) (hfree : FreeUsable s) {count f : Nat}
    (hpos : 0 < count)
    (hrun : s.FreeRun count f) :
    ∃ pab, pabSetContinous f count pmmStateUsed s = .ok (true, { s with pab }) := by
  have hcap := hs.capacity
  have hin := hrun.inside
  have hmax : pmmStateUsed < s.pab.maxState := hs.lt_maxState (by decide)
  have hallowed : ∀ j, f ≤ j → j < f + count →
      sVerifyChange s j (s.pab.stateAt j) pmmStateUsed = .ok true := fun j h1 h2 => by
    have hstate : s.pab.stateAt j = pmmStateFree := hrun.free j h1 h2
    have husable := hfree j (by omega) hstate
    rw [hstate]
    exact sVerifyChange_free husable.le
  obtain ⟨pab, hset⟩ := bitmapSetContinous_of_allowed hs.packed hmax (by omega) hpos
    (show f + count ≤ s.pab.capacity by omega) hallowed
  refine ⟨pab, ?_⟩
  simp only [pabSetContinous, get_bind_apply, lift_bind_eq_ok, set_bind_apply, pure_apply]
  exact ⟨_, hset, rfl⟩

/-- `kpmm_alloc` returns: it marks the first range of free frames used, or there is none and it
reports that. -/
theorem kpmmAlloc_returns (reg : KernelPhysicalMemoryRegions) (hs : PabOk s)
    (hphase : s.phase.check .pmmReady = true) (hfree : FreeUsable s) {count : Nat}
    (hpos : 0 < count)
    (hlt : count < 2 ^ 20) :
    (∃ f s₁, kpmmAlloc count reg s = .ok (some (f * 4096), s₁) ∧ s.FreeRun count f ∧
      (∀ g < f, ¬ s.FreeRun count g) ∧ SetFrames s s₁ f count pmmStateUsed) ∨
    kpmmAlloc count reg s = .ok (none, { s with errorNumber := .errOutOfMem }) ∧
      ∀ f, ¬ s.FreeRun count f := by
  have hcap := hs.capacity
  have hne : count ≠ 0 := Nat.pos_iff_ne_zero.1 hpos
  have hmax : pmmStateFree < s.pab.maxState := hs.lt_maxState (by decide)
  obtain ⟨found, hfind, hsearch⟩ := bitmapFindContinous_returns hs.packed hmax hpos (by omega)
  cases hsearch with
  | none hnone =>
    refine .inr ⟨?_, fun f hrun => hnone f (Nat.zero_le f) (hs.runAt_iff.2 hrun)⟩
    refine kernelPhaseValidate_bind_eq_ok.2 ⟨hphase, ?_⟩
    rw [if_neg hne, get_bind_apply, lift_bind_eq_ok]
    exact ⟨_, hfind, rfl⟩
  | @some f _ hrun hleast =>
    have hfreeRun := hs.runAt_iff.1 hrun
    have hin := hfreeRun.inside
    have husable := hfree f (by omega) (hfreeRun.free f (Nat.le_refl f) (by omega))
    obtain ⟨pab, hset⟩ := pabSetContinous_free hs hfree hpos hfreeRun
    have haddr : pageframesToBytes f = f * 4096 := by
      rw [pageframesToBytes, u32, Nat.shiftLeft_eq, Nat.mod_eq_of_lt (by omega)]
    refine .inl ⟨f, { s with pab }, ?_, hfreeRun,
      fun g hg h => hleast g (Nat.zero_le g) hg (hs.runAt_iff.2 h),
      (pabSetContinous_spec hs (by omega) hset).2.1⟩
    refine kernelPhaseValidate_bind_eq_ok.2 ⟨hphase, ?_⟩
    rw [if_neg hne, get_bind_apply, lift_bind_eq_ok]
    refine ⟨_, hfind, ?_⟩
    dsimp only
    rw [get_bind_apply, kAssert_bind_eq_ok]
    refine ⟨husable, ?_⟩
    rw [bind_of_ok hset, if_pos rfl, haddr, kAssert_bind_eq_ok]
    exact ⟨isAligned_page_iff.2 (Nat.mul_mod_left f 4096), rfl⟩

/-- The page frame of an address that passed the checks of `kpmm_free` or `kpmm_allocAt`. -/
theorem startPageFrame_eq {start : Nat} (h : start < 2 ^ 32) :
    bytesToPageframesFloor start = start / 4096 := by
  have : start / 4096 < 2 ^ 20 := by omega
  rw [bytesToPageframesFloor]
  exact Nat.and_two_pow_sub_one_of_lt_two_pow this

/-- The parts of `kpmm_allocAt`: it reports an error, or finds the range usable and free and sets
it. -/
theorem kpmmAllocAt_parts {start count : Nat} {reg : KernelPhysicalMemoryRegions} {ok : Bool}
    (h : kpmmAllocAt start count reg s = .ok (ok, s')) :
    (ok = false ∧ ∃ e, e ≠ .errNone ∧ s' = { s with errorNumber := e }) ∨
      u32Sub (start + u32 (count * pageFrameSizeBytes)) 1 < kpmmGetUsableMemorySize s ∧
        bitmapFindContinousAt s.pab pmmStateFree count (bytesToPageframesFloor start) = .ok true ∧
        pabSetContinous (bytesToPageframesFloor start) count pmmStateUsed s = .ok (ok, s') := by
  rw [kpmmAllocAt, kernelPhaseValidate_bind_eq_ok] at h
  rcases ite_eq_ok.1 h.2 with ⟨-, h⟩ | ⟨-, h⟩
  · obtain ⟨rfl, rfl⟩ := returnError_eq_ok.1 h
    exact .inl ⟨rfl, _, by decide, rfl⟩
  rw [get_bind_apply] at h
  rcases ite_eq_ok.1 h with ⟨-, h⟩ | ⟨hend, h⟩
  · obtain ⟨rfl, rfl⟩ := returnError_eq_ok.1 h
    exact .inl ⟨rfl, _, by decide, rfl⟩
  rcases ite_eq_ok.1 h with ⟨-, h⟩ | ⟨-, h⟩
  · obtain ⟨rfl, rfl⟩ := returnError_eq_ok.1 h
    exact .inl ⟨rfl, _, by decide, rfl⟩
  rw [get_bind_apply, lift_bind_eq_ok] at h
  obtain ⟨found, hfind, h⟩ := h
  rcases ite_eq_ok.1 h with ⟨-, h⟩ | ⟨hfound, h⟩
  · obtain ⟨rfl, rfl⟩ := returnError_eq_ok.1 h
    exact .inl ⟨rfl, _, by decide, rfl⟩
  · rw [Bool.not_eq_false] at hfound
    subst hfound
    exact .inr ⟨Nat.lt_of_not_le hend, hfind, h⟩

/-- `kpmm_allocAt` reports an error, or marks the free frames from `start` on used. -/
theorem kpmmAllocAt_spec (hs : PabOk s) {start count : Nat} {reg : KernelPhysicalMemoryRegions}
    {ok : Bool} (hstart : start < 2 ^ 32) (h : kpmmAllocAt start count reg s = .ok (ok, s')) :
    (ok = false ∧ ∃ e, s' = { s with errorNumber := e }) ∨
      ok = true ∧ SetFrames s s' (start / 4096) count pmmStateUsed ∧
        ∀ j, start / 4096 ≤ j → j < start / 4096 + count → s.frameState j = pmmStateFree := by
  have hcap := hs.capacity
  have hlt : start / 4096 < 2 ^ 32 := by omega
  rcases kpmmAllocAt_parts h with ⟨rfl, e, -, rfl⟩ | ⟨-, hfind, hset⟩
  · exact .inl ⟨rfl, _, rfl⟩
  · rw [startPageFrame_eq hstart] at hfind hset
    obtain ⟨-, -, hfree⟩ := bitmapFindContinousAt_spec (by omega) hlt hfind
    obtain ⟨rfl, hframes, -⟩ := pabSetContinous_spec hs hlt hset
    exact .inr ⟨rfl, hframes, hfree⟩

/-- `kpmm_free` reports an error, or marks the used frames from `start` on free. -/
theorem kpmmFree_spec (hs : PabOk s) {start count : Nat} {ok : Bool} (hstart : start < 2 ^ 32)
    (h : kpmmFree start count s = .ok (ok, s')) :
    (ok = false ∧ ∃ e, s' = { s with errorNumber := e }) ∨
      ok = true ∧ SetFrames s s' (start / 4096) count pmmStateFree ∧
        ∀ j, start / 4096 ≤ j → j < start / 4096 + count → s.frameState j = pmmStateUsed := by
  have hlt : start / 4096 < 2 ^ 32 := by omega
  simp only [kpmmFree, kernelPhaseValidate_bind_eq_ok, startPageFrame_eq hstart] at h
  obtain ⟨hphase, h⟩ := h
  split at h
  · obtain ⟨rfl, rfl⟩ := returnError_eq_ok.1 h
    exact .inl ⟨rfl, _, rfl⟩
  rw [get_bind_apply] at h
  split at h
  · obtain ⟨rfl, rfl⟩ := returnError_eq_ok.1 h
    exact .inl ⟨rfl, _, rfl⟩
  split at h
  · obtain ⟨rfl, rfl⟩ := returnError_eq_ok.1 h
    exact .inl ⟨rfl, _, rfl⟩
  · obtain ⟨rfl, hframes, hallow⟩ := pabSetContinous_spec hs hlt h
    refine .inr ⟨rfl, hframes, fun j h1 h2 => ?_⟩
    obtain ⟨-, -, hfree, hres, hinv⟩ := sVerifyChange_eq_true (hallow j h1 h2)
    have hlt4 : s.frameState j < 4 := by
      have := s.pab.stateAt_lt j
      rwa [Bitmap.maxState, hs.bitsPerState] at this
    simp only [pmmStateFree, pmmStateUsed, pmmStateReserved, pmmStateInvalid, hphase, true_and,
      and_true] at *
    omega

/-! ## Initialisation -/

/-- Marking the free memory keeps the shape of the PAB. -/
theorem markFreeMemoryFrom_pabOk {size : Nat} {items : List BootMemoryMapItem} (hs : PabOk s)
    (h : markFreeMemoryFrom size items s = .ok ((), s')) : PabOk s' := by
  induction items generalizing s with
  | nil => cases h; exact hs
  | cons item rest ih =>
    rw [markFreeMemoryFrom] at h
    split at h
    · exact ih hs h
    · obtain ⟨ok, s₁, hset, h⟩ := bind_eq_ok.1 h
      have hstart : ∀ b, bytesToPageframesFloor b < 2 ^ 32 := fun b =>
        Nat.lt_of_le_of_lt Nat.and_le_right (by omega)
      obtain ⟨rfl, hframes, -⟩ := pabSetContinous_spec hs (hstart _) hset
      exact ih (hframes.pabOk hs) h

/-- `kpmm_init` sets up a PAB of the right shape. -/
theorem kpmmInit_pabOk (h : kpmmInit s = .ok ((), s')) : PabOk s' := by
  simp only [kpmmInit, kpmmArchInit, sMarkFreeMemory, kernelPhaseSet, modify_bind_apply,
    get_bind_apply, bind_assoc] at h
  obtain ⟨_, s₁, hmark, h⟩ := bind_eq_ok.1 h
  have hs₁ : PabOk s₁ := markFreeMemoryFrom_pabOk ⟨rfl, rfl⟩ hmark
  simp only [get_bind_apply, kAssert_bind_eq_ok, modify_apply, Except.ok.injEq, Prod.mk.injEq,
    true_and] at h
  obtain ⟨-, rfl⟩ := h
  exact hs₁.congr rfl

/-! ## Whole runs -/

/-- A call of one of the three entry points, with the words it is given. -/
inductive PmmCall
  | alloc (pageCount : UInt32)
  | allocAt (start pageCount : UInt32)
  | free (startAddress pageCount : UInt32)

/-- The frames of a range that starts at an address. -/
def frameRange (addr count : Nat) : Finset Nat := Finset.Ico (addr / 4096) (addr / 4096 + count)

namespace PmmCall

/-- Make a call; the result is the range of frames of a call that succeeds. -/
def exec : PmmCall → K (Option (Finset Nat))
  | alloc pageCount => do
    return (← kpmmAlloc pageCount.toNat .pmmRegionAny).map (frameRange · pageCount.toNat)
  | allocAt start pageCount => do
    let ok ← kpmmAllocAt start.toNat pageCount.toNat .pmmRegionAny
    return if ok then some (frameRange start.toNat pageCount.toNat) else none
  | free startAddress pageCount => do
    let ok ← kpmmFree startAddress.toNat pageCount.toNat
    return if ok then some (frameRange startAddress.toNat pageCount.toNat) else none

/-- The frames that are handed out after a call that succeeds on a range, one set for each
successful allocation, without the frames released since. -/
def handOut (live : List (Finset Nat)) (range : Finset Nat) : PmmCall → List (Finset Nat)
  | free _ _ => live.map (· \ range)
  | _ => range :: live

/-- The state that the frames of a successful call had before it, and the one they have after it. -/
def change : PmmCall → Nat × Nat
  | free _ _ => (pmmStateUsed, pmmStateFree)
  | _ => (pmmStateFree, pmmStateUsed)

/-- What a call does: nothing to any frame when it fails, and when it succeeds on a range, a change
of exactly that range, all of which was in the state the call changes. -/
def Effect (c : PmmCall) (s s' : KState) (range : Finset Nat) : Prop :=
  PabOk s' ∧ (∀ f ∈ range, s.frameState f = c.change.1) ∧
    ∀ f, s'.frameState f = if f ∈ range then c.change.2 else s.frameState f

theorem Effect.of_setFrames (hs : PabOk s) {c : PmmCall} {start count : Nat}
    (h : SetFrames s s' (start / 4096) count c.change.2)
    (hold : ∀ f, start / 4096 ≤ f → f < start / 4096 + count → s.frameState f = c.change.1) :
    c.Effect s s' (frameRange start count) := by
  refine ⟨h.pabOk hs, fun f hf => ?_, fun f => ?_⟩
  · obtain ⟨h1, h2⟩ := Finset.mem_Ico.1 hf
    exact hold f h1 h2
  · simp only [frameRange, Finset.mem_Ico]
    exact h.frameState f

theorem Effect.of_error (hs : PabOk s) {c : PmmCall} {e : KernelErrorCodes}
    (h : s' = { s with errorNumber := e }) : c.Effect s s' ∅ := by
  subst h
  exact ⟨hs.congr rfl, fun f hf => absurd hf (Finset.notMem_empty f), fun f => rfl⟩

/-- Every call has the effect of its result. -/
theorem exec_spec (hs : PabOk s) {c : PmmCall} {range : Option (Finset Nat)}
    (h : c.exec s = .ok (range, s')) : c.Effect s s' (range.getD ∅) := by
  cases c with
  | alloc pageCount =>
    obtain ⟨addr, s₁, hcall, h⟩ := bind_eq_ok.1 h
    cases h
    rcases kpmmAlloc_spec hs hcall with ⟨rfl, e, he⟩ | ⟨f, rfl, -, hset, hfree⟩
    · exact .of_error hs he
    · have hf : f * 4096 / 4096 = f := Nat.mul_div_cancel f (by omega)
      exact .of_setFrames hs (hf.symm ▸ hset) (hf.symm ▸ hfree)
  | allocAt start pageCount =>
    obtain ⟨ok, s₁, hcall, h⟩ := bind_eq_ok.1 h
    cases h
    rcases kpmmAllocAt_spec hs start.toNat_lt hcall with ⟨rfl, e, he⟩ | ⟨rfl, hset, hfree⟩
    · exact .of_error hs he
    · exact .of_setFrames hs hset hfree
  | free start pageCount =>
    obtain ⟨ok, s₁, hcall, h⟩ := bind_eq_ok.1 h
    cases h
    rcases kpmmFree_spec hs start.toNat_lt hcall with ⟨rfl, e, he⟩ | ⟨rfl, hset, hused⟩
    · exact .of_error hs he
    · exact .of_setFrames hs hset hused

end PmmCall

/-- The state of the kernel in a run of calls, with the frames handed out so far. -/
structure PmmRun where
  state : KState
  live : List (Finset Nat)

/-- One call of a run; a call that stops the kernel is not a step. -/
inductive PmmStep : PmmRun → PmmRun → Prop
  | call {r : PmmRun} {c : PmmCall} {range : Option (Finset Nat)} {s' : KState}
      (h : c.exec r.state = .ok (range, s')) :
      PmmStep r ⟨s', match range with
        | none => r.live
        | some range => c.handOut r.live range⟩

/-- What holds all along a run that started in `s₀`: the sets of frames handed out are disjoint and
used, and the reserved frames are still reserved. -/
structure PmmInv (s₀ : KState) (r : PmmRun) : Prop where
  pabOk : PabOk r.state
  disjoint : r.live.Pairwise Disjoint
  used : ∀ range ∈ r.live, ∀ f ∈ range, r.state.frameState f = pmmStateUsed
  reserved : ∀ f, s₀.frameState f = pmmStateReserved → r.state.frameState f = pmmStateReserved

/-- A frame that is in neither of the states of a call is not in the range of the call. -/
theorem PmmCall.Effect.keep {c : PmmCall} {range : Finset Nat} (h : c.Effect s s' range) {f v : Nat}
    (hf : s.frameState f = v) (hv : v ≠ c.change.1) : s'.frameState f = v := by
  rw [h.2.2 f, if_neg, hf]
  exact fun hmem => hv (hf.symm.trans (h.2.1 f hmem))

/-- One call keeps the invariant. -/
theorem PmmInv.step {s₀ : KState} {r r' : PmmRun} (hr : PmmInv s₀ r) (h : PmmStep r r') :
    PmmInv s₀ r' := by
  obtain @⟨c, range, s', hexec⟩ := h
  have heff := PmmCall.exec_spec hr.pabOk hexec
  have hreserved : ∀ f, s₀.frameState f = pmmStateReserved → s'.frameState f = pmmStateReserved :=
    fun f hf => heff.keep (hr.reserved f hf) (by cases c <;> simp [PmmCall.change])
  cases range with
  | none =>
    have hsame : ∀ f, s'.frameState f = r.state.frameState f := fun f => by
      simpa using heff.2.2 f
    exact ⟨heff.1, hr.disjoint, fun R hR f hf => (hsame f).trans (hr.used R hR f hf), hreserved⟩
  | some range =>
    rw [Option.getD_some] at heff
    have halloc : c.change = (pmmStateFree, pmmStateUsed) →
        PmmInv s₀ ⟨s', range :: r.live⟩ := fun hc => by
      have hnew : ∀ f ∈ range, s'.frameState f = pmmStateUsed := fun f hf => by
        rw [heff.2.2 f, if_pos hf, hc]
      have hold : ∀ R ∈ r.live, ∀ f ∈ R, s'.frameState f = pmmStateUsed := fun R hR f hf =>
        heff.keep (hr.used R hR f hf) (by rw [hc]; decide)
      refine ⟨heff.1, List.pairwise_cons.2 ⟨fun R hR => ?_, hr.disjoint⟩, ?_, hreserved⟩
      · rw [Finset.disjoint_left]
        intro f hf hfR
        have hused := hr.used R hR f hfR
        rw [heff.2.1 f hf, hc] at hused
        exact absurd hused (by decide)
      · intro R hR
        rcases List.mem_cons.1 hR with rfl | hR
        · exact hnew
        · exact hold R hR
    cases c with
    | alloc _ => exact halloc rfl
    | allocAt _ _ => exact halloc rfl
    | free _ _ =>
      refine ⟨heff.1, ?_, ?_, hreserved⟩
      · exact hr.disjoint.map _ fun A B hAB => hAB.mono Finset.sdiff_subset Finset.sdiff_subset
      · intro R hR f hf
        obtain ⟨R, hR', rfl⟩ := List.mem_map.1 hR
        obtain ⟨hfR, hnot⟩ := Finset.mem_sdiff.1 hf
        rw [heff.2.2 f, if_neg (by simpa using hnot)]
        exact hr.used R hR' f hfR

/-- All along a run, the invariant holds. -/
theorem PmmInv.run {s₀ : KState} (h₀ : PabOk s₀) {r : PmmRun}
    (hr : Relation.ReflTransGen PmmStep ⟨s₀, []⟩ r) : PmmInv s₀ r := by
  induction hr with
  | refl => exact ⟨h₀, List.Pairwise.nil, fun R hR => absurd hR List.not_mem_nil, fun f hf => hf⟩
  | tail _ hstep ih => exact ih.step hstep

/-- After `kpmm_init`, in every run of calls: the frames of the successful allocations that were not
released since are disjoint and used, the reserved frames stay reserved, and a call changes the
state of no frame outside the range of a call that succeeds. -/
theorem kpmm_run_safe {boot s₀ : KState} (hinit : kpmmInit boot = .ok ((), s₀)) {r : PmmRun}
    (hr : Relation.ReflTransGen PmmStep ⟨s₀, []⟩ r) :
    r.live.Pairwise Disjoint ∧
      (∀ range ∈ r.live, ∀ f ∈ range, r.state.frameState f = pmmStateUsed) ∧
      (∀ f, s₀.frameState f = pmmStateReserved → r.state.frameState f = pmmStateReserved) ∧
      ∀ c range s', PmmCall.exec c r.state = .ok (range, s') →
        ∀ f, f ∉ range.getD ∅ → s'.frameState f = r.state.frameState f := by
  have hinv := PmmInv.run (kpmmInit_pabOk hinit) hr
  refine ⟨hinv.disjoint, hinv.used, hinv.reserved, fun c range s' hexec f hf => ?_⟩
  rw [(PmmCall.exec_spec hinv.pabOk hexec).2.2 f, if_neg hf]

/-- A machine with nine page frames, before `kpmm_init`. -/
def ninePages : KState := KState.static [⟨0, 0x9000, mmTypeFree⟩] 0 fun _ _ => Entry.zero

/-- The machine after `kpmm_init` and some calls. -/
def ninePagesAfter (calls : List PmmCall) : KState :=
  calls.foldl (fun s c => c.exec.finalState s) (finalState kpmmInit ninePages)

/-- The frames from 1 to 3 are allocated, and the first free one; then frame 2 is released, and the
first free one is allocated again. -/
def ninePagesCalls : List PmmCall := [.allocAt 0x1000 3, .alloc 1, .free 0x2000 1, .alloc 1]

/-- Frames that were freed are allocated again, and no two live ranges share one. -/
theorem kpmm_run_safe_ninePages : ∃ r : PmmRun, r.live = [{2}, {0}, {1, 3}] ∧
    r.live.Pairwise Disjoint ∧
    ∀ range ∈ r.live, ∀ f ∈ range, r.state.frameState f = pmmStateUsed := by
  have hinit : kpmmInit ninePages = .ok ((), ninePagesAfter []) :=
    eq_ok_finalState (by decide +kernel)
  have h₁ := @PmmStep.call ⟨ninePagesAfter [], []⟩ (.allocAt 0x1000 3) (some {1, 2, 3}) _
    (eq_ok_of_value (by decide +kernel))
  have h₂ := @PmmStep.call ⟨ninePagesAfter (ninePagesCalls.take 1), [{1, 2, 3}]⟩ (.alloc 1)
    (some {0}) _ (eq_ok_of_value (by decide +kernel))
  have h₃ := @PmmStep.call ⟨ninePagesAfter (ninePagesCalls.take 2), [{0}, {1, 2, 3}]⟩
    (.free 0x2000 1) (some {2}) _ (eq_ok_of_value (by decide +kernel))
  have h₄ := @PmmStep.call ⟨ninePagesAfter (ninePagesCalls.take 3), [{0} \ {2}, {1, 2, 3} \ {2}]⟩
    (.alloc 1) (some {2}) _ (eq_ok_of_value (by decide +kernel))
  obtain ⟨hdisjoint, hused, -⟩ :=
    kpmm_run_safe hinit ((((Relation.ReflTransGen.single h₁).tail h₂).tail h₃).tail h₄)
  exact ⟨_, by decide, hdisjoint, hused⟩

end MeghaOS
