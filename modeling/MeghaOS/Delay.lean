import MeghaOS.Lib.Exec
import MeghaOS.Types

/-!
# Waiting for the tick counter (`x86/kernel.c`, `cm/cm.c`)

The timer interrupt adds one to the 32-bit tick counter each millisecond, also while the program
that waits is interrupted, so that the program sees only some of its values. A `TickClock` is how
many ticks have passed since the call when the counter is read for the first time, the second time,
and so on.
-/

namespace MeghaOS

open Exec

/-- `CONFIG_INTERRUPT_CLOCK_TP_MICROSEC`, for the timer frequency of 1000 Hz. -/
abbrev configInterruptClockTpMicrosec : Nat := 1000000 / 1000

/-- `CONFIG_TICK_PERIOD_MICROSEC`. -/
abbrev configTickPeriodMicrosec : Nat := configInterruptClockTpMicrosec

/-- The value of the tick counter at the call, and the ticks that have passed at each reading of
it. -/
structure TickClock where
  start : Nat
  elapsed : Nat → Nat
  start_lt : start < 2 ^ 32
  elapsed_zero : elapsed 0 = 0
  monotone : ∀ ⦃i j⦄, i ≤ j → elapsed i ≤ elapsed j

variable (clock : TickClock)

/-- Read `g_kstate.tick_count`, or have `cm_get_tickcount` read it. The state is the number of
readings made before. -/
def readTickCount : Exec Nat Nat := do
  let n ← get
  set (n + 1)
  return u32 (clock.start + clock.elapsed n)

/-- The loop that reads the tick counter until it is no longer below `endTick`, for at most so many
turns. The events that `cm_delay` handles in the body take time only. -/
def waitForTick (endTick : Nat) : Nat → Exec Nat Unit
  | 0 => halt .hang
  | turns + 1 => do
    if (← readTickCount clock) < endTick then waitForTick endTick turns else pure ()

/-- `KERNEL_MICRODEC_TO_TICK_COUNT`. -/
def kernelMicrodecToTickCount (us : Nat) : Nat := us / configTickPeriodMicrosec

/-- `k_delay`. -/
def kDelay (turns ms : Nat) : Exec Nat Unit := do
  let us := u32 (ms * 1000)
  if us ≥ configInterruptClockTpMicrosec then
    let startTick ← readTickCount clock
    let endTick := u32 (startTick + kernelMicrodecToTickCount us)
    waitForTick clock endTick turns
  else
    halt (.panic "Assertion failed: Delay too small")

/-- `cm_get_tick_period_us`. -/
def cmGetTickPeriodUs : Nat := configTickPeriodMicrosec

/-- `cm_MICRODEC_TO_TICK_COUNT`. -/
def cmMicrodecToTickCount (us : Nat) : Nat := us / cmGetTickPeriodUs

/-- `cm_delay`. -/
def cmDelay (turns ms : Nat) : Exec Nat Unit := do
  let us := u32 (ms * 1000)
  let startTick ← readTickCount clock
  let endTick := u32 (startTick + cmMicrodecToTickCount us)
  waitForTick clock endTick turns

end MeghaOS
