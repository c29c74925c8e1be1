import MeghaOS.Lib.Exec
import MeghaOS.Types
import Mathlib.Data.Int.DivMod

/-!
# The formatters (`printk.c`, `cm/printf.c`) and the messages built with them

A pointer into a format string is the list of the characters from it on, the terminating `NUL`
included, so that the empty list is the pointer behind the `NUL`, and an access through it is one
outside of the string. The memory around the destination is read and written at offsets from the
start of the buffer that is filled; every offset that is written is recorded. The arguments are
those that `va_arg` takes one after another; to take one of another type is an access that leads
nowhere. The two files have the same code.
-/

namespace MeghaOS

open Exec

/-- The character that ends a string. -/
def nul : Char := Char.ofNat 0

/-- A string of C: its characters before the `NUL`. No object has more than `PTRDIFF_MAX` bytes. -/
structure CString where
  chars : List Char
  noNul : nul ∉ chars := by decide
  fits : chars.length + 1 < 2 ^ 31 := by decide

/-- A pointer to the first character. -/
def CString.start (s : CString) : List Char := s.chars ++ [nul]

/-- `IntTypes`. -/
inductive IntTypes
  | integer | longint | longlongint | address
  deriving DecidableEq

/-- An argument of a conversion. -/
inductive Arg
  | u32 (v : UInt32)
  | u64 (v : UInt64)
  | str (s : CString)

/-- The variables of `kearly_vsnprintf`, the memory around the buffer and the offsets written so
far, the last one first. -/
structure Printf where
  memory : Int → Char
  written : List Int
  dest : Int
  sizeLeft : Int
  args : List Arg

/-- Programs of the formatters. -/
abbrev F : Type → Type := Exec Printf

/-- The value an `INT` keeps of a number. -/
def int32 (n : Int) : Int := n.bmod (2 ^ 32)

/-- An access through a pointer into a string. -/
def derefChar (p : List Char) : Except Halt Char :=
  match p with
  | [] => .error .fault
  | c :: _ => .ok c

/-- `*dest = c`. -/
def storeChar (c : Char) : F Unit :=
  modify fun s =>
    { s with memory := Function.update s.memory s.dest c, written := s.dest :: s.written }

/-- `*dest++ = c`. -/
def putChar (c : Char) : F Unit := do
  storeChar c
  modify fun s => { s with dest := s.dest + 1 }

/-- `if (size_left > 1) *dest++ = c` and the `size_left--` that follows it. -/
def emitChar (c : Char) : F Unit := do
  when ((← get).sizeLeft > 1) (putChar c)
  modify fun s => { s with sizeLeft := s.sizeLeft - 1 }

/-- Emit characters one after another. -/
def emitChars : List Char → F Unit
  | [] => return
  | c :: rest => do
    emitChar c
    emitChars rest

/-- The digits of `s_itoa`. -/
def itoaChars : List Char := "0123456789ABCDEF".toList

/-- The first loop of `s_itoa`, with room for `room` characters left in `output`, which is kept with
the last character first. -/
def itoaFrom (base : Nat) : Nat → Nat → List Char → Except Halt (List Char)
  | 0, _, _ => .error .fault
  | room + 1, num, output =>
    let output := itoaChars.getD (num % base) nul :: output
    if num / base > 0 then itoaFrom base room (num / base) output else .ok output

/-- `s_itoa`. -/
def sItoa (num base : Nat) : F Unit := do
  let output ← lift (itoaFrom base 65 num [])
  emitChars output

/-- `s_readtype`, at the character before the one it reads first; the result has the type and the
character, and the pointer to it. -/
def readtypeFrom (inttype : IntTypes) : List Char → Except Halt (IntTypes × Char × List Char)
  | [] => .error .fault
  | c :: rest =>
    if c = nul then .ok (inttype, c, c :: rest)
    else if c = 'l' then
      readtypeFrom (if inttype = .integer then .longint else .longlongint) rest
    else if c = 'p' then readtypeFrom .address rest
    else .ok (inttype, c, c :: rest)

/-- `s_readtype`. -/
def sReadtype (fmt : List Char) : Except Halt (IntTypes × Char × List Char) :=
  readtypeFrom .integer fmt.tail

/-- `s_readint`. -/
def sReadint (inttype : IntTypes) : F Nat := do
  let s ← get
  match inttype, s.args with
  | .longlongint, .u64 v :: rest =>
    set { s with args := rest }
    return v.toNat
  | .integer, .u32 v :: rest | .longint, .u32 v :: rest | .address, .u32 v :: rest =>
    set { s with args := rest }
    return v.toNat
  | _, _ => halt .fault

/-- `va_arg (*l, CHAR *)`. -/
def readString : F CString := do
  let s ← get
  match s.args with
  | .str v :: rest =>
    set { s with args := rest }
    return v
  | _ => halt .fault

/-- `s_addBaseIdentifier`. -/
def sAddBaseIdentifier (iden : List Char) (idenSize : Nat) : F Unit :=
  emitChars ((iden.takeWhile (· ≠ nul)).take idenSize)

/-- `s_convert`. -/
def sConvert (inttype : IntTypes) (c : Char) : F Bool := do
  if c = 'u' then
    sItoa (← sReadint inttype) 10
    return false
  else if c = 'h' then
    sItoa (← sReadint inttype) 16
    return false
  else if c = 'x' then
    sItoa (← sReadint inttype) 16
    sAddBaseIdentifier ['h'] 1
    return false
  else if c = 'b' then
    sItoa (← sReadint inttype) 2
    sAddBaseIdentifier ['b'] 1
    return false
  else if c = 'o' then
    sItoa (← sReadint inttype) 8
    sAddBaseIdentifier ['o'] 1
    return false
  else if c = 's' then
    emitChars (← readString).chars
    return false
  else if c = '%' then
    putChar '%'
    modify fun s => { s with sizeLeft := s.sizeLeft - 1 }
    return false
  else return true

/-- The loop that copies the characters from `prevfmt` to the one at `fmt`. -/
def copyLiteral : List Char → List Char → F Unit
  | [], fmt => if fmt.length ≤ 0 then halt .fault else return
  | c :: prevfmt, fmt =>
    if fmt.length ≤ prevfmt.length + 1 then do
      emitChar c
      copyLiteral prevfmt fmt
    else return

/-- The loop of `kearly_vsnprintf`. -/
def vsnprintfLoop : Nat → List Char → F Unit
  | 0, _ => halt .hang
  | fuel + 1, fmt => do
    let c ← lift (derefChar fmt)
    if c = nul then return
    else
      let prevfmt := fmt
      if c = '%' then
        let (inttype, c, fmt) ← lift (sReadtype fmt)
        let isliteral ← sConvert inttype c
        when isliteral (copyLiteral prevfmt fmt)
        vsnprintfLoop fuel fmt.tail
      else
        copyLiteral prevfmt fmt
        vsnprintfLoop fuel fmt.tail

/-- `kearly_vsnprintf`; `dest` is an offset in the buffer. -/
def kearlyVsnprintf (dest : Int) (size : Nat) (fmt : CString) (l : List Arg) : F Int := do
  modify fun s => { s with dest, sizeLeft := size, args := l }
  vsnprintfLoop fmt.start.length fmt.start
  storeChar nul
  return int32 (size - (← get).sizeLeft)

/-- `kearly_snprintf`. -/
def kearlySnprintf (dest : Int) (size : Nat) (fmt : CString) (l : List Arg) : F Int :=
  kearlyVsnprintf dest size fmt l

/-- `cm_vsnprintf`, which has the code of `kearly_vsnprintf`. -/
def cmVsnprintf (dest : Int) (size : Nat) (fmt : CString) (l : List Arg) : F Int :=
  kearlyVsnprintf dest size fmt l

/-- `cm_snprintf`. -/
def cmSnprintf (dest : Int) (size : Nat) (fmt : CString) (l : List Arg) : F Int :=
  cmVsnprintf dest size fmt l

end MeghaOS
