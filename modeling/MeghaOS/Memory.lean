import MeghaOS.State

/-!
# Copying and filling memory (`kstdlib.c`, `cm/string.c`)

A memory is what the byte at each address holds, and a pointer is a 32-bit address that wraps. The
loop of `k_memcpy` is stated over any way to load and to store a byte, since the kernel also copies
through pages that are not mapped one to one.
-/

namespace MeghaOS

open Exec

/-- The contents of a memory, by address. -/
abbrev Memory : Type := Nat → UInt8

/-- `*p`. -/
def loadByte (p : Nat) : Exec Memory UInt8 := do
  return (← get) p

/-- `*p = b`. -/
def storeByte (p : Nat) (b : UInt8) : Exec Memory Unit :=
  modify fun m => Function.update m p b

/-! ## Copying -/

section Copy

variable {m : Type → Type} [Monad m] (load : Nat → m UInt8) (store : Nat → UInt8 → m Unit)

/-- The loop of `k_memcpy`, with `n` bytes left. -/
def memcpyDown : Nat → Nat → Nat → m Unit
  | 0, _, _ => pure ()
  | n + 1, cdest, csrc => do
    store cdest (← load csrc)
    memcpyDown n (u32Sub cdest 1) (u32Sub csrc 1)

/-- The body of `k_memcpy`, and of `cm_memcpy`. -/
def memcpyBody (dest src n : Nat) : m Nat := do
  memcpyDown load store n (u32 (dest + u32Sub n 1)) (u32 (src + u32Sub n 1))
  return dest

end Copy

/-- `k_memcpy`. -/
def kMemcpy (dest src n : Nat) : Exec Memory Nat := memcpyBody loadByte storeByte dest src n

/-- `cm_memcpy`. -/
def cmMemcpy (dest src n : Nat) : Exec Memory Nat := memcpyBody loadByte storeByte dest src n

/-! ## Filling -/

/-- `k_memset`, which is the compiler's `memset`. -/
def kMemset (s : Nat) (c : UInt8) (n : Nat) : Exec Memory Nat := do
  modify fun m a => if s ≤ a ∧ a < s + n then c else m a
  return s

/-- `pbytes[i]` of `k_memset_pat4`: the lowest byte of the pattern comes first. -/
def patternByte (p i : Nat) : UInt8 := .ofNat (p / 256 ^ i)

/-- The `switch` of `k_memset_pat4`, whose cases fall through. -/
def storePattern (dest p : Nat) : Nat → Exec Memory Unit
  | 4 => do
    storeByte (u32 (dest + 3)) (patternByte p 3)
    storePattern dest p 3
  | 3 => do
    storeByte (u32 (dest + 2)) (patternByte p 2)
    storePattern dest p 2
  | 2 => do
    storeByte (u32 (dest + 1)) (patternByte p 1)
    storeByte (u32 dest) (patternByte p 0)
  | _ => halt (.panic "Assertion failed: Unreachable code")

/-- The loop of `k_memset_pat4`, for at most so many turns. -/
def memsetPat4Loop (p szp : Nat) : Nat → Nat → Nat → Exec Memory Unit
  | 0, _, _ => halt .hang
  | turns + 1, dest, n =>
    if n > 0 then do
      storePattern dest p szp
      memsetPat4Loop p szp turns (u32 (dest + szp)) (u32Sub n szp)
    else pure ()

/-- `k_memset_pat4`. The counter `n` has 32 bits, so a loop that takes more turns never ends. -/
def kMemsetPat4 (s p szp n : Nat) : Exec Memory Nat :=
  if isAligned n szp = false then
    halt (.panic "Assertion failed: Desination end not aligned to pattern size")
  else if szp = 1 then kMemset s (.ofNat p) n
  else do
    memsetPat4Loop p szp (2 ^ 32 + 1) s n
    return s

end MeghaOS
