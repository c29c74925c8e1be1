import MeghaOS.Paging
import MeghaOS.Kmalloc

/-!
# Page faults and the kernel heap (`vmm.c`, `interrupts.c`, `kmalloc.c`)

The kernel heap is an address space without physical backing, so the kernel faults on its own heap:
`touch` is an access to an address, which runs the page fault handler until the page is there. The
handler commits a page of the kernel or of the current process, and copies the kernel part of the
page directory to the processes in the scheduler queue. `kmalloc` touches the header it writes; all
other accesses to the heap are to pages that hold a header already.
-/

namespace MeghaOS

open Exec

/-! ## Committing pages -/

/-- The loop of `find_vas`. -/
def findVasFrom (startVA : Nat) : List Nat → K (Option Nat)
  | [] => return none
  | a :: rest => do
    let vas ← getVas a
    let endVm := u32 (vas.startVm + vas.allocationSzBytes)
    if startVA ≥ vas.startVm ∧ startVA < endVm then return some a
    else findVasFrom startVA rest

/-- `find_vas`. -/
def findVas (vmm startVA : Nat) : K (Option Nat) := do
  findVasFrom startVA (← getVmm vmm).head

/-- The paging flags of a mapping in an address space with these flags. -/
def pgFlagsOf (vasFlags : Nat) : Nat :=
  pgMapFlagDefault ||| (if bitIsSet vasFlags vmmMemmapFlagKernelPage then pgMapFlagKernel else 0)
    ||| (if bitIsSet vasFlags vmmMemmapFlagReadonly then 0 else pgMapFlagWritable)

/-- The pages that `commitVirtualPages` maps: those it is given, or newly allocated ones. -/
def pagesToCommit (vmm : Nat) (paStart : Option Nat) (numPages : Nat) : K (Option Nat) := do
  match paStart with
  | none => kpmmAlloc numPages (← getVmm vmm).physicalRegion
  | some pa => return some pa

/-- `commitVirtualPages`; the second result is what `outPA` points to. -/
def commitVirtualPages (vmm vaStart : Nat) (paStart : Option Nat) (numPages vasFlags : Nat) :
    K (Bool × Option Nat) := do
  match ← pagesToCommit vmm paStart numPages with
  | none => return (false, none)
  | some lPaStart =>
    let pd ← kpgTemporaryMap (← getVmm vmm).parentProcessPD
    if ← kpgMapContinous pd vaStart lPaStart numPages (pgFlagsOf vasFlags) then
      kpgTemporaryUnmap
      modifyVmm vmm fun v => { v with isPageDirectoryDirty := true }
      return (true, some lPaStart)
    else
      kpgTemporaryUnmap
      return (false, some lPaStart)

/-- `kvmm_commitPage`. -/
def kvmmCommitPage (vmm va : Nat) : K Bool := do
  match ← findVas vmm va with
  | none => returnError .errVmmNotAllocated false
  | some a =>
    let vas ← getVas a
    if bitIsSet vas.flags vmmMemmapFlagImmcommit ∨ bitIsSet vas.flags vmmMemmapFlagCommitted then
      returnError .errDoubleAlloc false
    else if bitIsSet vas.flags vmmMemmapFlagNullpage then
      returnError .errVmmNullPageAccess false
    else
      let pageStart := alignDown va pageFrameSizeBytes
      let (done, _) ← commitVirtualPages vmm pageStart none 1 vas.flags
      return done

/-- `kvmm_checkbounds`. -/
def kvmmCheckbounds (vmm addr : Nat) : K Bool := do
  let v ← getVmm vmm
  return addr ≥ v.start ∧ addr < v.end_

/-- `kvmm_getPageDirectory`. -/
def kvmmGetPageDirectory (vmm : Nat) : K Nat := do
  return (← getVmm vmm).parentProcessPD

/-- `kvmm_isPageDirectoryDirty`. -/
def kvmmIsPageDirectoryDirty (vmm : Nat) : K Bool := do
  let v ← getVmm vmm
  modifyVmm vmm fun v => { v with isPageDirectoryDirty := false }
  return v.isPageDirectoryDirty

/-! ## The page fault handler -/

/-- The loop of `kprocess_syncPD`. -/
def syncQueue (kernelPD : Nat) : List Nat → K Unit
  | [] => return
  | p :: rest => do
    let pd ← kvmmGetPageDirectory (← (← getProc p).context.follow)
    match ← kpgSetupPageDirectory pd (pgNewpdFlagCopyKernelPages ||| pgNewpdFlagRecursiveMap)
        (some kernelPD) with
    | none => kPanic "BUG"
    | some _ => syncQueue kernelPD rest

/-- `kprocess_syncPD`. -/
def kprocessSyncPD : K Unit := do
  if (← get).phase.check .kernelReady then
    let kernelPD ← kvmmGetPageDirectory (← get).context
    syncQueue kernelPD (← get).schedulerQueue

/-- `kprocess_getCurrentContext`. The record of the current process may have been released, and is
read all the same; once its memory is in use again, the word read is one of another record or of a
heap header, and leads to no manager. -/
def kprocessGetCurrentContext : K Ptr := do
  let s ← get
  if s.currentProcess = 0 then return .addr s.context
  else
    match s.objs s.currentProcess with
    | some (.proc p) => return p.context
    | _ => return (s.freedContext s.currentProcess).getD (.raw 0)

/-- The second attempt of `page_fault_handler`: commit the page, else panic. -/
def commitFault (context faultAddr : Nat) (errPresent : Bool) : K Unit := do
  if errPresent = false then
    if ← kvmmCommitPage context faultAddr then
      if context = (← get).context then kprocessSyncPD
    else kPanic "Page fault when accessing address"
  else kPanic "Page fault when accessing address"

/-- `page_fault_handler`. -/
def pageFaultHandler (faultAddr : Nat) (errPresent : Bool) : K Unit := do
  let context ← kprocessGetCurrentContext
  let kernelContext := (← get).context
  if ← kvmmCheckbounds kernelContext faultAddr then
    if ← kvmmIsPageDirectoryDirty kernelContext then kprocessSyncPD
    else commitFault kernelContext faultAddr errPresent
  else commitFault (← context.follow) faultAddr errPresent

/-- Whether the page of an address is present in the current page directory. -/
def isMapped (s : KState) (va : Nat) : Bool :=
  let pde := s.entry s.cr3 (pdeIndex va)
  pde.present && (s.entry pde.pageFrame (pteIndex va)).present

/-- Access an address, with at most `n - 1` page faults. -/
def touchFrom (va : Nat) : Nat → K Unit
  | 0 => halt .hang
  | n + 1 => do
    if isMapped (← get) va then return
    else
      pageFaultHandler va false
      touchFrom va n

/-- Access an address. A fault may find the kernel page directory out of sync, then the page
missing, then again the directory out of sync; a fourth one can only end in a panic. -/
def touch (va : Nat) : K Unit := touchFrom va 5

/-- Access the next `n` pages from page `page` on. -/
def touchPages : Nat → Nat → K Unit
  | 0, _ => return
  | n + 1, page => do
    touch (u32 (page * pageFrameSizeBytes))
    touchPages n (page + 1)

/-- Access the bytes of a range. -/
def touchRange (addr len : Nat) : K Unit :=
  let first := addr / pageFrameSizeBytes
  touchPages (if len = 0 then 0 else (addr + len - 1) / pageFrameSizeBytes + 1 - first) first

/-- The loop of `k_memcpyToPhyMem` over `n` whole pages; the result is the rest of the work. -/
def memcpyPages : Nat → Nat → Nat → Nat → K (Nat × Nat × Nat)
  | 0, dest, src, destOffset => return (dest, src, destOffset)
  | n + 1, dest, src, destOffset => do
    let _ ← kpgTemporaryMap dest
    touchRange (memStartPagingExtTempMap + pageFrameSizeBytes) destOffset
    touchRange src pageFrameSizeBytes
    kpgTemporaryUnmap
    memcpyPages n (u32 (dest + pageFrameSizeBytes)) (u32 (src + pageFrameSizeBytes)) 0

/-- `k_memcpyToPhyMem`: the page behind the external mapping is there, so the accesses that may
fault are those to the source, and those past the end of that page. -/
def kMemcpyToPhyMem (dest src destOffset srcOffset n : Nat) : K Unit := do
  kernelPhaseValidate .vmmReady
  let (dest, src, destOffset) ←
    memcpyPages (n / pageFrameSizeBytes) dest (u32 (src + srcOffset)) destOffset
  let remBytes := n % pageFrameSizeBytes
  let _ ← kpgTemporaryMap dest
  touchRange (memStartPagingExtTempMap + pageFrameSizeBytes)
    (destOffset + remBytes - pageFrameSizeBytes)
  touchRange src remBytes
  kpgTemporaryUnmap

/-! ## The allocator in the kernel -/

/-- Run a program of the heap. -/
def onHeap {α : Type} (x : Exec KHeap α) : K α :=
  zoom (·.heap) (fun h s => { s with heap := h }) x

/-- The offset of the field `context` in a `KProcessInfo`. -/
abbrev offsetofContext : Nat := 24

/-- Forget the released contexts whose word lies in a range that is written. -/
def KState.reuse (s : KState) (start end_ : Nat) : KState :=
  { s with
    freedContext := fun a =>
      if a + offsetofContext < end_ ∧ start < a + offsetofContext + 4 then none
      else s.freedContext a }

/-- Take the record at an address away. -/
def KState.release (s : KState) (addr : Nat) : KState :=
  { s with
    objs := fun a => if a = addr then none else s.objs a
    freedContext := fun a =>
      if a = addr then
        match s.objs addr with
        | some (.proc p) => some p.context
        | _ => none
      else s.freedContext a }

/-- `kmalloc`. -/
def kmalloc (bytes : Nat) : K Nat := do
  kernelPhaseValidate .kmallocReady
  match ← onHeap (findFreeNode bytes) with
  | none => returnError .errOutOfMem 0
  | some node =>
    touchRange (splitAt bytes node) sizeofKMallocHeader
    onHeap (sSplitFreeNode bytes node)
    modify (·.reuse node (splitAt bytes node + sizeofKMallocHeader))
    return u32 (node + sizeofKMallocHeader)

/-- `kmallocz`; of the bytes it clears, only those past the headers can lie in a page without
one. -/
def kmallocz (bytes : Nat) : K Nat := do
  let addr ← kmalloc bytes
  if addr ≠ 0 then touchRange addr bytes
  return addr

/-- `kmalloc` for a record, and the record as its memory is left by the assignments that follow;
`kmallocz` clears memory that these assignments overwrite. -/
def kmallocObj (o : Obj) : K Nat := do
  let a ← kmalloc o.size
  if a ≠ 0 then modify (·.setObj a o)
  return a

/-- `kfree`. -/
def kfree (addr : Nat) : K Bool := do
  kernelPhaseValidate .kmallocReady
  if ← onHeap (heapFree addr) then
    modify (·.release addr)
    return true
  else returnError .errDoubleFree false

/-- `kmalloc_getUsedMemory`. -/
def kmallocGetUsedMemory : K Nat := do
  kernelPhaseValidate .kmallocReady
  onHeap heapUsedMemory

end MeghaOS
