import MeghaOS.Boot
import MeghaOS.Memory

/-!
# Static memory (`salloc.c`)

`ksalloc` only reads and moves `s_next`, so it runs on the kernel alone. `kscalloc` also writes
zeroes to what it got: here it runs on the kernel with the bytes behind its addresses. Only
`ksalloc_init` assigns `s_start`, which is `memStartSalloc` from then on.
-/

namespace MeghaOS

open Exec

/-- `ksalloc_getUsedMemory`. -/
def ksallocGetUsedMemory : K Nat := do
  kernelPhaseValidate .sallocReady
  return u32Sub (← get).sallocNext memStartSalloc

/-- The kernel, and the bytes behind its addresses. -/
structure SallocState where
  kernel : KState
  memory : Memory

namespace SallocState

/-- Run a program of the kernel. -/
def onKernel {α : Type} (x : K α) : Exec SallocState α :=
  zoom (·.kernel) (fun kernel s => { s with kernel }) x

/-- Run a program on the bytes. -/
def onMemory {α : Type} (x : Exec Memory α) : Exec SallocState α :=
  zoom (·.memory) (fun memory s => { s with memory }) x

/-- `kscalloc`, with its zeroes. -/
def kscalloc (bytes : Nat) : Exec SallocState Nat := do
  onKernel (kernelPhaseValidate .sallocReady)
  if bytes = 0 ∨ bytes > memLenBytesSalloc then onKernel (returnError .errInvalidRange 0)
  else
    let allocSize := alignUp bytes sallocGranuality
    let mem ← onKernel (ksalloc allocSize)
    when (mem ≠ 0) (do let _ ← onMemory (kMemset mem 0 allocSize))
    return mem

end SallocState

/-- A call of the allocator, with the size it asks for. -/
inductive SallocCall
  | ksalloc (bytes : UInt32)
  | kscalloc (bytes : UInt32)

namespace SallocCall

/-- The size a call asks for. -/
def bytes : SallocCall → Nat
  | ksalloc bytes | kscalloc bytes => bytes.toNat

/-- The call. -/
def exec : SallocCall → Exec SallocState Nat
  | ksalloc bytes => SallocState.onKernel (MeghaOS.ksalloc bytes.toNat)
  | kscalloc bytes => SallocState.kscalloc bytes.toNat

end SallocCall

end MeghaOS
