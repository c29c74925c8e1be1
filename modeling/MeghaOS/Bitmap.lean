import MeghaOS.Lib.Exec
import MeghaOS.Types

/-!
# The packed bitmap (`bitmap.c`)

A bitmap keeps one small state for each index, `8 / bitsPerState` of them in a byte. `allow` is the
callback of the C structure, which may refuse a change or stop the kernel; here it is an argument of
`bitmapSetContinous`.
-/

namespace MeghaOS

/-- `Bitmap`, with the array as a function from byte index to byte. -/
structure Bitmap where
  bitmap : Nat → Nat
  size : Nat
  bitsPerState : Nat

/-- `k_assert` of a `DEBUG` build, in code that has no state. -/
def kAssertE (t : Prop) [Decidable t] (e : String) : Except Halt Unit :=
  if t then .ok () else .error (.panic ("Assertion failed: " ++ e))

namespace Bitmap

/-- `BITMAP_MAX_STATE`. -/
def maxState (b : Bitmap) : Nat := 2 ^ b.bitsPerState

/-- `BITMAP_STATE_MASK`. -/
def stateMask (b : Bitmap) : Nat := 2 ^ b.bitsPerState - 1

/-- `BITMAP_STATES_PER_BYTE`. -/
def statesPerByte (b : Bitmap) : Nat := 8 / b.bitsPerState

/-- `BITMAP_CAPACITY`, a product of 32-bit words. -/
def capacity (b : Bitmap) : Nat := u32 (b.size * b.statesPerByte)

/-- The byte that holds the state of `index`, and the position of its lowest bit there. -/
def byteIndex (b : Bitmap) (index : Nat) : Nat := index / b.statesPerByte
def bitIndex (b : Bitmap) (index : Nat) : Nat := index % b.statesPerByte * b.bitsPerState

/-- The bits that the array holds for `index`. -/
def stateAt (b : Bitmap) (index : Nat) : Nat :=
  b.bitmap (b.byteIndex index) >>> b.bitIndex index &&& b.stateMask

/-- The two assignments of the loop body of `bitmap_setContinous`, on `U8`. -/
def write (b : Bitmap) (index state : Nat) : Bitmap :=
  let byte := b.bitmap (b.byteIndex index) &&& (0xFF ^^^ b.stateMask <<< b.bitIndex index % 256)
  let byte := byte ||| state <<< b.bitIndex index % 256
  { b with bitmap := fun i => if i = b.byteIndex index then byte else b.bitmap i }

end Bitmap

/-- `bitmap_get`. -/
def bitmapGet (b : Bitmap) (index : Nat) : Except Halt Nat := do
  kAssertE (8 % b.bitsPerState = 0) "Must be a factor of 8."
  kAssertE (index < b.capacity) "Index out of bounds."
  return b.stateAt index

/-- The scan of `bitmap_findContinousAt`: `len` states from `index` on, stopping at the first that
differs. -/
def bitmapScan (b : Bitmap) (state : Nat) : Nat → Nat → Except Halt Bool
  | 0, _ => return true
  | len + 1, index => do
    if (← bitmapGet b (u32 index)) = state then bitmapScan b state len (index + 1) else return false

/-- `bitmap_findContinousAt`. -/
def bitmapFindContinousAt (b : Bitmap) (state len indexAt : Nat) : Except Halt Bool := do
  kAssertE (8 % b.bitsPerState = 0) "Must be a factor of 8."
  kAssertE (state < b.maxState) "Invalid state"
  kAssertE (len > 0) "Must be > zero"
  if u32 (indexAt + len) > b.capacity then return false
  else bitmapScan b state len indexAt

/-- The loop of `bitmap_findContinous` over the last `n` indices. -/
def bitmapFindFrom (b : Bitmap) (state len : Nat) : Nat → Nat → Except Halt (Option Nat)
  | 0, _ => return none
  | n + 1, index => do
    if ← bitmapFindContinousAt b state len index then return some index
    else bitmapFindFrom b state len n (index + 1)

/-- `bitmap_findContinous`; `none` is `KERNEL_EXIT_FAILURE`. -/
def bitmapFindContinous (b : Bitmap) (state len : Nat) : Except Halt (Option Nat) := do
  kAssertE (8 % b.bitsPerState = 0) "Must be a factor of 8."
  kAssertE (state < b.maxState) "Invalid state"
  kAssertE (len > 0) "Must be > zero"
  bitmapFindFrom b state len b.capacity 0

/-- What `bitmap_findContinous` returns: `KERNEL_EXIT_FAILURE`, or the index as an `INT`. -/
def findResult (found : Option Nat) : Int := found.elim (-1) fun index => Int.bmod index (2 ^ 32)

/-- The loop of `bitmap_setContinous`, with `len` states left to set. -/
def bitmapSetFrom (allow : Nat → Nat → Nat → Except Halt Bool) (state : Nat) :
    Nat → Nat → Bitmap → Except Halt (Bool × Bitmap)
  | 0, _, b => return (true, b)
  | len + 1, index, b => do
    if ← allow index (← bitmapGet b index) state then
      bitmapSetFrom allow state len (u32 (index + 1)) (b.write index state)
    else return (false, b)

/-- `bitmap_setContinous`. -/
def bitmapSetContinous (allow : Nat → Nat → Nat → Except Halt Bool) (b : Bitmap)
    (index len state : Nat) : Except Halt (Bool × Bitmap) := do
  kAssertE (8 % b.bitsPerState = 0) "Must be a factor of 8."
  kAssertE (state < b.maxState) "Invalid state"
  kAssertE (len > 0) "Must be > zero"
  kAssertE (u32Sub (index + len) 1 < b.capacity) "Index out of bounds."
  bitmapSetFrom allow state len index b

end MeghaOS
