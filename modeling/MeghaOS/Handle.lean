import MeghaOS.GState

/-!
# Object handles (`handle.c`)

A handle is the index of a slot of the table `handles`, and a slot is free when it holds `NULL`. A
`Handle` is a signed word, and the address of its slot is computed as `handles[h]` is on 32 bits,
whether or not the slot lies in the table.
-/

namespace MeghaOS

open Exec

/-- `CONFIG_HANDLES_ARRAY_ITEM_COUNT`. -/
abbrev handlesArrayItemCount : Nat := 1000

/-- `INVALID_HANDLE`. -/
abbrev invalidHandle : Int := -1

/-- `&handles[h]`. -/
def slotAddr (handles : Nat) (h : Int) : Nat := ((handles + 4 * h) % 2 ^ 32).toNat

/-- `getObjectPtr`; `none` is the `NULL` of a failure. -/
def getObjectPtr (h : Int) : G (Option Nat) := do
  let handles := (← get).handles
  kernel (kAssert (handles ≠ 0) "Handles not initialized")
  if h ≥ handlesArrayItemCount then kernel (returnError .errInvalidHandle none)
  else if (← readWord (slotAddr handles h)) = 0 then kernel (returnError .errInvalidHandle none)
  else return some (slotAddr handles h)

/-- `khandle_init`. -/
def khandleInitTable : G Unit := do
  kernel (kernelPhaseValidate .sallocReady)
  let handles ← kernel (kscalloc (handlesArrayItemCount * 4))
  if handles = 0 then kernel (kPanic "BUG")
  else
    modify fun s =>
      { s with handles
               word := fun a => if handles ≤ a ∧ a < handles + handlesArrayItemCount * 4 then 0
                                else s.word a }

/-- The loop of `khandle_createHandle` over the next `n` slots from `i` on. -/
def createHandleFrom (obj : Nat) : Nat → Nat → G Int
  | 0, _ => kernel (returnError .errOutOfMem invalidHandle)
  | n + 1, i => do
    let slot := slotAddr (← get).handles i
    if (← readWord slot) = 0 then
      writeWord slot obj
      return i
    else createHandleFrom obj n (i + 1)

/-- `khandle_createHandle`. -/
def khandleCreateHandle (obj : Nat) : G Int := do
  kernel (kAssert ((← get).handles ≠ 0) "Handles not initialized")
  if obj = 0 then kernel (returnError .errInvalidArgument invalidHandle)
  else createHandleFrom obj handlesArrayItemCount 0

/-- `khandle_freeHandle`. -/
def khandleFreeHandle (h : Int) : G Bool := do
  match ← getObjectPtr h with
  | none => return false
  | some objptr =>
    writeWord objptr 0
    return true

/-- `khandle_getObject`; the result is the object, or `NULL`. -/
def khandleGetObject (h : Int) : G Nat := do
  match ← getObjectPtr h with
  | none => return 0
  | some objptr => readWord objptr

end MeghaOS
