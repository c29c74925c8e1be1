import MeghaOS.Delay

/-!
# How long a delay lasts

The end of a delay is computed in 32 bits and compared with `<`. When neither the microseconds nor
the end tick wrap, the loop ends at a reading that is at least the end tick, which is after the
delay (`delay_lastsFor_iff`). When one of them wraps, a loop that reads every tick ends too early.
-/

namespace MeghaOS

open Exec

variable {clock : TickClock} {endTick turns ms n n' : Nat}

/-- The loop ends with the first reading that is not below the end tick. -/
theorem waitForTick_eq_ok :
    waitForTick clock endTick turns n = .ok ((), n') ↔
      ∃ k < turns, n' = n + k + 1 ∧ (∀ i < k, u32 (clock.start + clock.elapsed (n + i)) < endTick) ∧
        endTick ≤ u32 (clock.start + clock.elapsed (n + k)) := by
  induction turns generalizing n with
  | zero => simp [waitForTick]
  | succ turns ih =>
    have hturn : waitForTick clock endTick (turns + 1) n =
        if u32 (clock.start + clock.elapsed n) < endTick then
          waitForTick clock endTick turns (n + 1)
        else .ok ((), n + 1) := by
      rw [waitForTick]
      show (if _ then _ else _ : Exec Nat Unit) (n + 1) = _
      rw [Exec.ite_apply]
      rfl
    rw [hturn]
    by_cases hlt : u32 (clock.start + clock.elapsed n) < endTick
    · rw [if_pos hlt, ih]
      constructor
      · rintro ⟨k, hk, rfl, hbelow, hend⟩
        refine ⟨k + 1, by omega, by omega, fun i hi => ?_, ?_⟩
        case refine_2 => rwa [← Nat.add_assoc, Nat.add_right_comm]
        cases i with
        | zero => exact hlt
        | succ i => rw [← Nat.add_assoc, Nat.add_right_comm]; exact hbelow i (by omega)
      · rintro ⟨k, hk, rfl, hbelow, hend⟩
        cases k with
        | zero => exact absurd hlt (Nat.not_lt.2 hend)
        | succ k =>
          refine ⟨k, by omega, by omega, fun i hi => ?_, by rwa [Nat.add_right_comm, Nat.add_assoc]⟩
          rw [Nat.add_right_comm, Nat.add_assoc]
          exact hbelow (i + 1) (by omega)
    · rw [if_neg hlt]
      constructor
      · rintro ⟨⟩
        exact ⟨0, by omega, rfl, by simp, Nat.not_lt.1 hlt⟩
      · rintro ⟨k, hk, rfl, hbelow, hend⟩
        cases k with
        | zero => rfl
        | succ k => exact absurd (hbelow 0 (by omega)) hlt

/-- A delay does not return before so many milliseconds of ticks have passed, however the readings
of the counter are spread. -/
def LastsFor (delay : TickClock → Nat → Nat → Exec Nat Unit) (ms start : Nat) : Prop :=
  ∀ clock : TickClock, clock.start = start → ∀ turns n,
    delay clock turns ms 0 = .ok ((), n + 1) →
      ms * 1000 ≤ clock.elapsed n * configTickPeriodMicrosec

/-- The clock of a program that reads every tick. -/
def TickClock.everyTick (start : Nat) (h : start < 2 ^ 32) : TickClock where
  start
  elapsed n := n - 1
  start_lt := h
  elapsed_zero := rfl
  monotone _ _ hij := Nat.sub_le_sub_right hij 1

/-- The delay does not wrap: neither its microseconds nor its end tick do. -/
def DelayFits (ms start : Nat) : Prop := ms * 1000 < 2 ^ 32 ∧ start + ms < 2 ^ 32

/-- What the two functions share: read the counter, and wait for so many ticks. -/
def waitTicks (ticks : Nat) (clock : TickClock) (turns : Nat) : Exec Nat Unit := do
  let startTick ← readTickCount clock
  waitForTick clock (u32 (startTick + ticks)) turns

/-- The ticks that a delay waits for. -/
def delayTicks (ms : Nat) : Nat := u32 (ms * 1000) / configTickPeriodMicrosec

theorem cmDelay_eq (turns ms : Nat) : cmDelay clock turns ms = waitTicks (delayTicks ms)
    clock turns := rfl

theorem kDelay_eq (turns ms : Nat) :
    kDelay clock turns ms =
      if configInterruptClockTpMicrosec ≤ u32 (ms * 1000) then waitTicks (delayTicks ms) clock turns
      else halt (.panic "Assertion failed: Delay too small") := rfl

/-- The readings of the loop come after the one at the start. -/
theorem waitTicks_eq_ok {ticks : Nat} :
    waitTicks ticks clock turns 0 = .ok ((), n') ↔
      ∃ k < turns, n' = 1 + k + 1 ∧
        (∀ i < k, u32 (clock.start + clock.elapsed (1 + i)) < u32 (clock.start + ticks)) ∧
        u32 (clock.start + ticks) ≤ u32 (clock.start + clock.elapsed (1 + k)) := by
  have hstart : u32 (clock.start + clock.elapsed 0) = clock.start := by
    rw [clock.elapsed_zero]
    exact Nat.mod_eq_of_lt clock.start_lt
  have hrun : waitTicks ticks clock turns 0 =
      waitForTick clock (u32 (u32 (clock.start + clock.elapsed 0) + ticks)) turns 1 := rfl
  rw [hrun, hstart]
  exact waitForTick_eq_ok

/-- An end tick that does not wrap is not reached before its time. -/
theorem waitTicks_late {ms : Nat} (hfits : clock.start + ms < 2 ^ 32)
    (hrun : waitTicks ms clock turns 0 = .ok ((), n + 1)) : ms ≤ clock.elapsed n := by
  obtain ⟨k, -, hn, -, hend⟩ := waitTicks_eq_ok.1 hrun
  obtain rfl : n = 1 + k := Nat.succ_injective hn
  unfold u32 at hend
  omega

/-- When the delay wraps, the loop ends too early with the clock of every tick. -/
theorem waitTicks_early {ms start : Nat} (h : start < 2 ^ 32) (hfits : ¬ DelayFits ms start) :
    ∃ turns n, waitTicks (delayTicks ms) (.everyTick start h) turns 0 = .ok ((), n + 1) ∧
      (TickClock.everyTick start h).elapsed n < ms := by
  have hticks : delayTicks ms = ms * 1000 % 2 ^ 32 / 1000 := rfl
  unfold DelayFits at hfits
  by_cases hwrap : start + delayTicks ms < 2 ^ 32
  · -- too few ticks are waited for, each of which is read
    refine ⟨delayTicks ms + 1, 1 + delayTicks ms, waitTicks_eq_ok.2
      ⟨delayTicks ms, Nat.lt_succ_self _, rfl, fun i hi => ?_, ?_⟩, ?_⟩
    · show u32 (start + (1 + i - 1)) < u32 (start + delayTicks ms)
      unfold u32
      omega
    · show u32 (start + delayTicks ms) ≤ u32 (start + (1 + delayTicks ms - 1))
      rw [Nat.add_sub_cancel_left]
    · show 1 + delayTicks ms - 1 < ms
      omega
  · -- the end tick lies before the start
    refine ⟨1, 1, waitTicks_eq_ok.2 ⟨0, Nat.one_pos, rfl, by simp, ?_⟩, ?_⟩
    · show u32 (start + delayTicks ms) ≤ u32 (start + (1 + 0 - 1))
      unfold u32
      omega
    · show 1 - 1 < ms
      omega

theorem delayTicks_of_fits {ms start : Nat} (h : DelayFits ms start) : delayTicks ms = ms := by
  rw [delayTicks, u32, Nat.mod_eq_of_lt h.1]
  exact Nat.mul_div_cancel ms (by decide)

/-- `cm_delay` lasts long enough when nothing wraps. -/
theorem cmDelay_lastsFor_iff {ms start : Nat} (hstart : start < 2 ^ 32) :
    LastsFor cmDelay ms start ↔ DelayFits ms start := by
  constructor
  · intro hlasts
    by_contra hfits
    obtain ⟨turns, n, hrun, hearly⟩ := waitTicks_early hstart hfits
    exact absurd (hlasts _ rfl turns n hrun)
      (Nat.not_le.2 (Nat.mul_lt_mul_of_pos_right hearly (by decide)))
  · rintro hfits clock rfl turns n hrun
    rw [cmDelay_eq, delayTicks_of_fits hfits] at hrun
    exact Nat.mul_le_mul_right _ (waitTicks_late hfits.2 hrun)

/-- So does `k_delay`, which also refuses what is less than a tick after it has wrapped. -/
theorem kDelay_lastsFor_iff {ms start : Nat} (hstart : start < 2 ^ 32) :
    LastsFor kDelay ms start ↔ DelayFits ms start ∨ u32 (ms * 1000) <
      configInterruptClockTpMicrosec := by
  by_cases hsmall : u32 (ms * 1000) < configInterruptClockTpMicrosec
  · have hpanic (clock : TickClock) (turns : Nat) :
        kDelay clock turns ms = halt (.panic "Assertion failed: Delay too small") := by
      rw [kDelay_eq, if_neg (Nat.not_le.2 hsmall)]
    refine iff_of_true (fun clock _ turns n hrun => ?_) (.inr hsmall)
    rw [hpanic] at hrun
    cases hrun
  · have hsame : LastsFor kDelay ms start ↔ LastsFor cmDelay ms start := by
      simp only [LastsFor, kDelay_eq, cmDelay_eq, if_pos (Nat.not_lt.1 hsmall)]
    rw [hsame, cmDelay_lastsFor_iff hstart]
    exact (or_iff_left hsmall).symm

/-- The two delays last long enough for the same arguments, but for those that `k_delay` refuses. -/
theorem delay_lastsFor_iff {ms start : Nat} (hstart : start < 2 ^ 32) :
    (LastsFor kDelay ms start ↔ DelayFits ms start ∨ u32 (ms * 1000) <
      configInterruptClockTpMicrosec) ∧
    (LastsFor cmDelay ms start ↔ DelayFits ms start) :=
  ⟨kDelay_lastsFor_iff hstart, cmDelay_lastsFor_iff hstart⟩

/-- A second from the start on. -/
theorem delay_lastsFor_second : LastsFor kDelay 1000 0 ∧ LastsFor cmDelay 1000 0 := by
  obtain ⟨hk, hcm⟩ := @delay_lastsFor_iff 1000 0 (by decide)
  exact ⟨hk.2 (.inl ⟨by decide, by decide⟩), hcm.2 ⟨by decide, by decide⟩⟩

/-- A second that begins 256 ticks before the counter wraps is over at once: its end tick is 744. -/
theorem delay_over_at_once :
    kDelay (.everyTick 0xFFFFFF00 (by decide)) 1 1000 0 = .ok ((), 2) ∧
    cmDelay (.everyTick 0xFFFFFF00 (by decide)) 1 1000 0 = .ok ((), 2) ∧
    (TickClock.everyTick 0xFFFFFF00 (by decide)).elapsed 1 = 0 ∧
    ¬ LastsFor kDelay 1000 0xFFFFFF00 ∧ ¬ LastsFor cmDelay 1000 0xFFFFFF00 := by
  have hwait : waitTicks (delayTicks 1000) (.everyTick 0xFFFFFF00 (by decide)) 1 0 = .ok ((), 2) :=
    waitTicks_eq_ok.2 ⟨0, by decide, rfl, by simp, by decide⟩
  have hk : kDelay (.everyTick 0xFFFFFF00 (by decide)) 1 1000 0 = .ok ((), 2) := by
    rw [kDelay_eq, if_pos (by decide)]
    exact hwait
  have hcm : cmDelay (.everyTick 0xFFFFFF00 (by decide)) 1 1000 0 = .ok ((), 2) := hwait
  refine ⟨hk, hcm, rfl, fun hlasts => ?_, fun hlasts => ?_⟩
  · exact absurd (hlasts _ rfl 1 1 hk) (by decide)
  · exact absurd (hlasts _ rfl 1 1 hcm) (by decide)

end MeghaOS
