import MeghaOS.Proof.Pmm

/-!
# What the physical memory calls return

`kpmm_alloc` finds the lowest range of free frames. `kpmm_free` and `kpmm_allocAt` compute the last
byte of a range in 32 bits, so a range that leaves the usable memory is refused only if the wrapped
address of its last byte does too.
-/

namespace MeghaOS

open Exec Bitmap

variable {s s' : KState}

/-! ## Allocation -/

/-- `kpmm_alloc` succeeds if and only if there is a range of free frames. It returns the lowest one
and marks it used, and else reports that there is none. -/
theorem kpmmAlloc_lowest (reg : KernelPhysicalMemoryRegions) (hs : PabOk s)
    (hphase : s.phase.check .pmmReady = true) (hfree : FreeUsable s) {count : Nat}
    (hpos : 1 ≤ count)
    (hlt : count < 2 ^ 20) :
    ((∃ addr s', kpmmAlloc count reg s = .ok (some addr, s')) ↔ ∃ f, s.FreeRun count f) ∧
    (∀ f, s.FreeRun count f → (∀ g < f, ¬ s.FreeRun count g) →
      ∃ s', kpmmAlloc count reg s = .ok (some (f * 4096), s') ∧ s' = { s with pab := s'.pab } ∧
        ∀ j, s'.frameState j = if f ≤ j ∧ j < f + count then pmmStateUsed else s.frameState j) ∧
    ((∀ f, ¬ s.FreeRun count f) →
      kpmmAlloc count reg s = .ok (none, { s with errorNumber := .errOutOfMem })) := by
  rcases kpmmAlloc_returns reg hs hphase hfree hpos hlt with
    ⟨f, s₁, hrun, hfreeRun, hleast, hset⟩ | ⟨hrun, hnone⟩
  · refine ⟨⟨fun _ => ⟨f, hfreeRun⟩, fun _ => ⟨_, s₁, hrun⟩⟩, fun f' hf' hleast' => ?_,
      fun hno => absurd hfreeRun (hno f)⟩
    obtain rfl : f' = f := by
      rcases Nat.lt_trichotomy f' f with h | h | h
      · exact absurd hf' (hleast f' h)
      · exact h
      · exact absurd hfreeRun (hleast' f h)
    exact ⟨s₁, hrun, hset.eq, hset.frameState⟩
  · refine ⟨⟨?_, ?_⟩, fun f hf _ => absurd hf (hnone f), fun _ => hrun⟩
    · rintro ⟨addr, s', hrun'⟩
      rw [hrun] at hrun'
      cases hrun'
    · rintro ⟨f, hf⟩
      exact absurd hf (hnone f)

/-- A machine with as much memory as the PAB can address, all of it free. -/
def freeMachine : KState :=
  { KState.static [⟨0, 0x4000000, mmTypeFree⟩] 0 (fun _ _ => Entry.zero) with
    pab := ⟨fun _ => 0, pabSizeBytes, pabBitsPerState⟩
    phase := .pmmReady }

theorem freeMachine_frameState (f : Nat) : freeMachine.frameState f = pmmStateFree := by
  simp [KState.frameState, stateAt, freeMachine]

/-- It hands out the first frames. -/
theorem kpmmAlloc_lowest_freeMachine :
    ∃ s', kpmmAlloc 2 .pmmRegionAny freeMachine = .ok (some 0, s') := by
  have hfree : FreeUsable freeMachine := fun f hf _ => hf
  have hrun : freeMachine.FreeRun 2 0 := ⟨by decide, fun j _ _ => freeMachine_frameState j⟩
  obtain ⟨s', hs', -⟩ := (kpmmAlloc_lowest .pmmRegionAny ⟨rfl, rfl⟩ rfl hfree (by decide)
    (by decide)).2.1 0
    hrun fun g hg => absurd hg (Nat.not_lt_zero g)
  exact ⟨s', hs'⟩

/-! ## Ranges outside the usable memory -/

/-- The call reports that its range is outside the usable memory, and changes nothing. -/
def OutsideRange (x : K Bool) (s : KState) : Prop :=
  x s = .ok (false, { s with errorNumber := .errOutsideAddressableRange })

/-- The address of the last byte of a range, as the code computes it. -/
theorem lastByte_eq {start count : Nat} (hcount : 1 ≤ count) :
    u32Sub (start + u32 (count * pageFrameSizeBytes)) 1 = (start + count * 4096 - 1) % 2 ^ 32 := by
  simp only [u32Sub, u32, pageFrameSizeBytes]
  omega

/-- A change of the PAB reports nothing. -/
theorem pabSetContinous_not_outside (s : KState) (start count state : Nat) :
    ¬ OutsideRange (pabSetContinous start count state) s := by
  intro h
  simp only [OutsideRange, pabSetContinous, get_bind_apply, lift_bind_eq_ok,
    set_bind_apply, pure_apply,
    Except.ok.injEq, Prod.mk.injEq] at h
  obtain ⟨⟨ok, pab⟩, hset, rfl, -⟩ := h
  simp only [bitmapSetContinous, except_bind_eq_ok] at hset
  obtain ⟨_, -, _, -, _, -, _, -, hset⟩ := hset
  cases bitmapSetFrom_true (sVerifyChange_ne_false s) hset

/-- Another error was reported. -/
theorem not_outside_returnError {e : KernelErrorCodes} (he : e ≠ .errOutsideAddressableRange) :
    ¬ OutsideRange (returnError e false) s := by
  intro h
  have heq := congrArg KState.errorNumber (returnError_eq_ok.1 h).2
  exact he heq.symm

/-- The checks that `kpmm_free` and `kpmm_allocAt` make before they read the PAB. -/
def checkRange (start count : Nat) (rest : K Bool) : K Bool := do
  kernelPhaseValidate .pmmReady
  if count = 0 then returnError .errInvalidArgument false
  else
    let allocationEndByte := u32Sub (start + u32 (count * pageFrameSizeBytes)) 1
    if allocationEndByte ≥ kpmmGetUsableMemorySize (← get) then
      returnError .errOutsideAddressableRange false
    else if isAligned start pageFrameSizeBytes = false then
      returnError .errWrongAlignment false
    else rest

theorem checkRange_outside_iff {start count : Nat} {rest : K Bool} (hcount : 1 ≤ count)
    (hrest : ¬ OutsideRange rest s) :
    OutsideRange (checkRange start count rest) s ↔ s.phase.check .pmmReady = true ∧
      kpmmGetUsableMemorySize s ≤ (start + count * 4096 - 1) % 2 ^ 32 := by
  rw [OutsideRange, checkRange, kernelPhaseValidate_bind_eq_ok, if_neg (Nat.ne_of_gt hcount),
    lastByte_eq hcount, get_bind_apply]
  refine and_congr_right fun _ => ?_
  by_cases hend : kpmmGetUsableMemorySize s ≤ (start + count * 4096 - 1) % 2 ^ 32
  · rw [if_pos hend]
    exact iff_of_true rfl hend
  · rw [if_neg hend]
    refine iff_of_false ?_ hend
    by_cases halign : isAligned start pageFrameSizeBytes = false
    · rw [if_pos halign]
      exact not_outside_returnError (by decide)
    · rw [if_neg halign]
      exact hrest

/-- `kpmm_allocAt` reports a range outside the usable memory in its checks alone. -/
theorem allocFree_not_outside (s : KState) (start count : Nat) :
    ¬ OutsideRange (do
      let found ← lift (bitmapFindContinousAt (← get).pab pmmStateFree count start)
      if found = false then returnError .errDoubleAlloc false
      else pabSetContinous start count pmmStateUsed) s := by
  intro h
  rw [OutsideRange, get_bind_apply, lift_bind_eq_ok] at h
  obtain ⟨found, -, h⟩ := h
  by_cases hfound : found = false
  · rw [if_pos hfound] at h
    exact not_outside_returnError (by decide) h
  · rw [if_neg hfound] at h
    exact pabSetContinous_not_outside s _ _ _ h

/-- The range from `start` on, in unbounded arithmetic, lies in the usable memory. -/
def InUsableRange (s : KState) (start count : Nat) : Prop :=
  start + count * 4096 ≤ kpmmGetUsableMemorySize s

/-- `kpmm_free` and `kpmm_allocAt` refuse a range that leaves the usable memory, without any other
effect, if and only if the wrapped address of its last byte is outside too. -/
theorem kpmm_outside_iff (reg : KernelPhysicalMemoryRegions) {start count : UInt32}
    (hcount : 1 ≤ count.toNat) :
    (¬ InUsableRange s start.toNat count.toNat →
      OutsideRange (kpmmFree start.toNat count.toNat) s ∧
        OutsideRange (kpmmAllocAt start.toNat count.toNat reg) s) ↔
    (InUsableRange s start.toNat count.toNat ∨ s.phase.check .pmmReady = true ∧
      kpmmGetUsableMemorySize s ≤ (start.toNat + count.toNat * 4096 - 1) % 2 ^ 32) := by
  have hfree : OutsideRange (kpmmFree start.toNat count.toNat) s ↔ _ :=
    checkRange_outside_iff hcount (pabSetContinous_not_outside s _ _ _)
  have halloc : OutsideRange (kpmmAllocAt start.toNat count.toNat reg) s ↔ _ :=
    checkRange_outside_iff hcount (allocFree_not_outside s _ _)
  rw [hfree, halloc, and_self, or_iff_not_imp_left]

/-- A range behind the memory of the machine is refused. -/
theorem kpmm_outside_iff_behind :
    OutsideRange (kpmmFree 0x4000000 1) freeMachine ∧
      OutsideRange (kpmmAllocAt 0x4000000 1 .pmmRegionAny) freeMachine := by
  have hout : ¬ InUsableRange freeMachine 0x4000000 1 := by
    unfold InUsableRange
    decide
  exact (@kpmm_outside_iff freeMachine .pmmRegionAny 0x4000000 1 (by decide)).2
    (.inr ⟨rfl, by decide⟩) hout

set_option maxRecDepth 20000 in
/-- A range of 4 GB that starts at the second frame is not refused: `kpmm_free` panics. -/
theorem kpmm_outside_panics : ¬ InUsableRange freeMachine 0x1000 0x100000 ∧
    ¬ OutsideRange (kpmmFree 0x1000 0x100000) freeMachine ∧
    kpmmFree 0x1000 0x100000 freeMachine =
      .error (.panic "Assertion failed: Index out of bounds.") := by
  refine ⟨?_, fun h => (by cases h), rfl⟩
  unfold InUsableRange
  decide

end MeghaOS
