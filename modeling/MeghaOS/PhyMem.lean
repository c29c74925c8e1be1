import MeghaOS.Commit
import MeghaOS.Memory
import MeghaOS.PageWalk

/-!
# Copying into physical memory (`kstdlib.c`)

`k_memcpyToPhyMem` with the bytes that it copies. A `Machine` is the kernel with the bytes of the
physical memory; what the page tables hold is in the state of the kernel. An access goes to the byte
behind its address, after the page faults it causes.
-/

namespace MeghaOS

open Exec

/-- The kernel, and the bytes of the physical memory by address. -/
structure Machine where
  kernel : KState
  bytes : Memory

namespace Machine

/-- Run a program of the kernel. -/
def onKernel {α : Type} (x : K α) : Exec Machine α :=
  zoom (·.kernel) (fun k m => { m with kernel := k }) x

/-- The physical address of an access. -/
def access (va : Nat) : Exec Machine Nat := do
  onKernel (touch va)
  match (← get).kernel.walk va with
  | some pa => return pa
  | none => halt .fault

/-- `*p`, through the page tables. -/
def load (p : Nat) : Exec Machine UInt8 := do
  let pa ← access p
  return (← get).bytes pa

/-- `*p = b`, through the page tables. -/
def store (p : Nat) (b : UInt8) : Exec Machine Unit := do
  let pa ← access p
  modify fun m => { m with bytes := Function.update m.bytes pa b }

/-- A pointer to a page directory as a `PTR`. -/
def pointer : PageDirectory → Nat
  | .null => 0
  | .temp => memStartPagingExtTempMap
  | .current => linearAddr recursivePdeIndex recursivePdeIndex 0

/-- `k_memcpy` to a page of physical memory, at an offset, through the external temporary
mapping. -/
def memcpyToPage (dest destOffset src n : Nat) : Exec Machine Unit := do
  let dest_va := u32 (pointer (← onKernel (kpgTemporaryMap dest)) + destOffset)
  let _ ← memcpyBody load store dest_va src n
  onKernel kpgTemporaryUnmap

/-- The loop of `k_memcpyToPhyMem` over `n` whole pages; the result is the rest of the work. -/
def memcpyPages : Nat → Nat → Nat → Nat → Exec Machine (Nat × Nat × Nat)
  | 0, dest, src, destOffset => return (dest, src, destOffset)
  | n + 1, dest, src, destOffset => do
    memcpyToPage dest destOffset src pageFrameSizeBytes
    memcpyPages n (u32 (dest + pageFrameSizeBytes)) (u32 (src + pageFrameSizeBytes)) 0

/-- `k_memcpyToPhyMem`. -/
def kMemcpyToPhyMem (dest src destOffset srcOffset n : Nat) : Exec Machine Unit := do
  onKernel (kernelPhaseValidate .vmmReady)
  let (dest, src, destOffset) ←
    memcpyPages (n / pageFrameSizeBytes) dest (u32 (src + srcOffset)) destOffset
  memcpyToPage dest destOffset src (n % pageFrameSizeBytes)

end Machine

end MeghaOS
