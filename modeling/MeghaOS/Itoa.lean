import MeghaOS.Printk

/-!
# The digits of the formatters (`printk.c`, `cm/printf.c`)

`s_itoa` with its array: one loop stores the digits of a number in it, the least significant first,
and a second one takes them out again from the end. An index outside of the array leads nowhere.
`sItoa` is the same function without the array. The two files have the same code.
-/

namespace MeghaOS

open Exec

/-- The array `output`. -/
abbrev Output : Type := Vector Char 65

/-- `CHAR output[65] = {0}`. -/
def emptyOutput : Output := .replicate 65 nul

/-- `output[i] = c`. -/
def storeOutput (output : Output) (i : Nat) (c : Char) : Except Halt Output :=
  if h : i < 65 then .ok (output.set i c) else .error .fault

/-- `output[i]`. -/
def loadOutput (output : Output) (i : Nat) : Except Halt Char :=
  if h : i < 65 then .ok output[i] else .error .fault

/-- The first loop of `s_itoa`, with the next index, for at most so many turns; the result has the
index after the last digit. -/
def itoaDivide (base : Nat) : Nat → Nat → Nat → Output → Except Halt (Nat × Output)
  | 0, _, _, _ => .error .hang
  | turns + 1, num, i, output => do
    let output ← storeOutput output i (itoaChars.getD (num % base) nul)
    let num := num / base
    if num > 0 then itoaDivide base turns num (i + 1) output else return (i + 1, output)

/-- The second loop of `s_itoa`, which takes the characters below the index `i`. -/
def itoaReverse (output : Output) : Nat → F Unit
  | 0 => return
  | i + 1 => do
    when ((← get).sizeLeft > 1) (do putChar (← lift (loadOutput output i)))
    modify fun s => { s with sizeLeft := s.sizeLeft - 1 }
    itoaReverse output i

/-- `s_itoa`, with its array. In its 66th turn the first loop would leave the array. -/
def sItoaOutput (num base : Nat) : F Unit := do
  let (i, output) ← lift (itoaDivide base 66 num 0 emptyOutput)
  itoaReverse output i

end MeghaOS
