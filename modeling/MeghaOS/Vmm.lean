import MeghaOS.Commit

/-!
# Virtual memory (`vmm.c`, `salloc.c`)

A `VMemoryManager` keeps the list of the address spaces reserved in its range, sorted by their
start. `kvmmMemmap` reserves one, and commits its pages at once when the flags ask for it;
`kvmmFree` unmaps and releases one, and `kvmmDelete` all of them.
-/

namespace MeghaOS

open Exec

/-! ## Static allocation -/

/-- `ksalloc`. -/
def ksalloc (bytes : Nat) : K Nat := do
  kernelPhaseValidate .sallocReady
  if bytes = 0 ∨ bytes > memLenBytesSalloc then returnError .errInvalidRange 0
  else
    let allocSize := alignUp bytes sallocGranuality
    let spaceUsed := u32Sub (← get).sallocNext memStartSalloc
    if ¬ u32Sub (spaceUsed + allocSize) 1 < memLenBytesSalloc then returnError .errOutOfMem 0
    else
      let next := u32 ((← get).sallocNext + allocSize)
      modify fun s => { s with sallocNext := next }
      return u32Sub next allocSize

/-- `kscalloc`; the zeroes are overwritten by the caller. -/
def kscalloc (bytes : Nat) : K Nat := do
  kernelPhaseValidate .sallocReady
  if bytes = 0 ∨ bytes > memLenBytesSalloc then returnError .errInvalidRange 0
  else ksalloc (alignUp bytes sallocGranuality)

/-- `ksalloc` or `kscalloc` for a record. -/
def sallocObj (alloc : Nat → K Nat) (o : Obj) : K Nat := do
  let a ← alloc o.size
  if a ≠ 0 then modify (·.setObj a o)
  return a

/-! ## Address spaces -/

/-- `createNewVirtAddrSpace`. -/
def createNewVirtAddrSpace (startVm allocatedBytes flags : Nat) : K Nat := do
  let vas := fun isStaticAllocated : Bool =>
    Obj.vas ⟨isStaticAllocated, flags, startVm, allocatedBytes, 0⟩
  let new ←
    if (← get).phase.check .kmallocReady then kmallocObj (vas false)
    else sallocObj kscalloc (vas true)
  if new = 0 then return 0
  else
    kAssert (isAligned allocatedBytes pageFrameSizeBytes) "Size is not multiple of page size"
    return new

/-- Whether a new address space from `newStart` to `newEnd` is refused because of the one from
`vasStart` to `vasEnd`: only the two ends of the new one are compared. -/
def endPointsOverlap (newStart newEnd vasStart vasEnd : Nat) : Bool :=
  (newStart ≥ vasStart ∧ newStart ≤ vasEnd) ∨ (newEnd ≥ vasStart ∧ newEnd ≤ vasEnd)

/-- The loop of `addNewVirtualAddressSpace`; the result is the list with `newVas` in its place. -/
def insertVas (newVas newStart newEnd : Nat) : List Nat → K (Option (List Nat))
  | [] => return some [newVas]
  | a :: rest => do
    let vas ← getVas a
    let vasEnd := u32Sub (vas.startVm + vas.allocationSzBytes) 1
    if endPointsOverlap newStart newEnd vas.startVm vasEnd then
      returnError .errVmmOverlapingVas none
    else if vas.startVm > newStart then return some (newVas :: a :: rest)
    else
      match ← insertVas newVas newStart newEnd rest with
      | none => return none
      | some l => return some (a :: l)

/-- The part of `addNewVirtualAddressSpace` that puts the new record in the list. -/
def enterVas (vmm newVas newStart newEnd : Nat) : K Nat := do
  match ← insertVas newVas newStart newEnd (← getVmm vmm).head with
  | none => return 0
  | some head =>
    modifyVmm vmm fun v => { v with head }
    return newVas

/-- `addNewVirtualAddressSpace`; the result is the address of the new record or `NULL`. -/
def addNewVirtualAddressSpace (vmm startVa szPages flags : Nat) : K Nat := do
  let szBytes := pageframesToBytes szPages
  let v ← getVmm vmm
  if isAligned startVa pageFrameSizeBytes = false then returnError .errWrongAlignment 0
  else if startVa < v.start ∨ u32 (startVa + szBytes) > v.end_ then
    returnError .errInvalidRange 0
  else
    let newVas ← createNewVirtAddrSpace startVa szBytes flags
    if newVas = 0 then return 0
    else enterVas vmm newVas startVa (u32Sub (startVa + szBytes) 1)

/-- The loop of `find_next_va`, after the address space `vasPrev`. -/
def findNextVaFrom (v : VMemoryManager) (szBytes : Nat) :
    Option VMemoryAddressSpace → List Nat → K Nat
  | none, [] => kPanic "Assertion failed: There must have been a single VAS"
  | some vasPrev, [] =>
    let newVa := u32 (vasPrev.startVm + vasPrev.allocationSzBytes)
    let addrSpaceGap := u32Sub v.end_ newVa
    return if addrSpaceGap ≥ szBytes then newVa else 0
  | vasPrev, a :: rest => do
    let vas ← getVas a
    let newVa ←
      match vasPrev with
      | some vasPrev =>
        kAssert (vas.startVm > vasPrev.startVm) "Address space list must be in sorted order"
        pure (u32 (vasPrev.startVm + vasPrev.allocationSzBytes))
      | none => pure v.start
    let addrSpaceGap := u32Sub vas.startVm newVa
    if addrSpaceGap ≥ szBytes then return newVa
    else findNextVaFrom v szBytes (some vas) rest

/-- `find_next_va`. -/
def findNextVa (vmm szPages : Nat) : K Nat := do
  let szBytes := pageframesToBytes szPages
  let v ← getVmm vmm
  if v.head = [] then return v.start
  else findNextVaFrom v szBytes none v.head

/-- `kvmm_findFree`. -/
def kvmmFindFree (vmm szPages : Nat) : K Nat := do
  kAssert (szPages ≠ 0) "Number pages is zero."
  findNextVa vmm szPages

/-- The address of a reservation: the given one, or where `find_next_va` finds room. -/
def memmapVa (vmm va szPages : Nat) : K Nat := do
  if va = 0 then findNextVa vmm szPages else return va

/-- `kvmm_memmap`; the results are the address, or 0, and what `outPA` points to. -/
def kvmmMemmap (vmm va : Nat) (pa : Option Nat) (szPages flags : Nat) :
    K (Nat × Option Nat) := do
  let va ← memmapVa vmm va szPages
  let newVas ← addNewVirtualAddressSpace vmm va szPages flags
  if newVas = 0 then return (0, none)
  else if bitIsUnset flags vmmMemmapFlagImmcommit then return (va, none)
  else
    let (done, outPA) ← commitVirtualPages vmm va pa szPages flags
    return (if done then va else 0, outPA)

/-- `kvmm_setAddressSpaceMetadata`, of which only the access through the result of `find_vas`
matters. -/
def kvmmSetAddressSpaceMetadata (vmm addr : Nat) : K Unit := do
  match ← findVas vmm addr with
  | none => halt .fault
  | some _ => return

/-- Whether the frames of an address space may be released with it. -/
def ownsFrames (share : Nat) : K Bool := do
  if share = 0 then return true
  else return (← getShare share).refcount = 1

/-- One turn of the loop of `kvmm_free`. -/
def freePage (pd : PageDirectory) (share va : Nat) : K Unit := do
  match ← kpgDoesMappingExists pd va with
  | none => return
  | some pa =>
    let unmapped ← kpgUnmap pd va
    when (unmapped = false) kPanicOnError
    if ← ownsFrames share then
      let freed ← kpmmFree pa 1
      when (freed = false) kPanicOnError

/-- The loop of `kvmm_free`, with `n` pages left. -/
def freePagesFrom (pd : PageDirectory) (share : Nat) : Nat → Nat → K Unit
  | 0, _ => return
  | n + 1, va => do
    freePage pd share va
    freePagesFrom pd share n (u32 (va + pageFrameSizeBytes))

/-- The part of `kvmm_free` for an address space that is shared. -/
def dropShare (share : Nat) : K Unit := do
  let r ← getShare share
  modify (·.setObj share (.share ⟨u32Sub r.refcount 1⟩))

/-- `kvmm_free`. -/
def kvmmFree (vmm startVa : Nat) : K Bool := do
  kAssert (startVa ≠ 0) "Start address of zero is invalid."
  match ← findVas vmm startVa with
  | none => returnError .errVmmNotAllocated false
  | some a =>
    let vas ← getVas a
    if vas.isStaticAllocated then returnError .errInvalidArgument false
    else
      when (vas.share ≠ 0) (dropShare vas.share)
      let szPages := bytesToPageframesCeiling vas.allocationSzBytes
      let pd ← kpgTemporaryMap (← getVmm vmm).parentProcessPD
      freePagesFrom pd vas.share szPages startVa
      kpgTemporaryUnmap
      modifyVmm vmm fun v => { v with head := v.head.erase a }
      let _ ← kfree a
      return true

/-! ## Managers -/

/-- The loop of `kvmm_delete`. A call of `kvmm_free` that fails changes nothing, so the loop then
makes it again forever. -/
def freeAll (vmm : Nat) : Nat → K Unit
  | 0 => do
    if (← getVmm vmm).head = [] then return
    else halt .hang
  | n + 1 => do
    match (← getVmm vmm).head with
    | [] => return
    | a :: _ =>
      if ← kvmmFree vmm (← getVas a).startVm then freeAll vmm n
      else halt .hang

/-- `kvmm_delete`. -/
def kvmmDelete (vmm : Nat) : K Bool := do
  let v ← getVmm vmm
  if v.isStaticAllocated then returnError .errInvalidArgument false
  else
    freeAll vmm v.head.length
    let _ ← kfree vmm
    return true

/-- `kvmm_new`; the memory of the new record holds `freshDirty` in the field it does not assign. -/
def kvmmNew (start end_ pd : Nat) (physicalRegion : KernelPhysicalMemoryRegions)
    (freshDirty : Bool) : K Nat := do
  if start ≥ end_ then returnError .errInvalidArgument 0
  else
    kAssert (pd ≠ 0) "PageDirectory address is NULL"
    let vmm := fun isStaticAllocated : Bool =>
      Obj.vmm ⟨start, end_, isStaticAllocated, pd, freshDirty, physicalRegion, []⟩
    if (← get).phase.check .kmallocReady then kmallocObj (vmm false)
    else sallocObj ksalloc (vmm true)

/-- `kmalloc_init`. -/
def kmallocInit : K Unit := do
  kernelPhaseValidate .vmmReady
  let (buffer, _) ← kvmmMemmap (← get).context 0 none
    (bytesToPageframesCeiling memLenBytesKmalloc) vmmMemmapFlagKernelPage
  if buffer = 0 then kPanic "BUG"
  touchRange buffer sizeofKMallocHeader
  onHeap (heapInit buffer)
  kernelPhaseSet .kmallocReady

end MeghaOS
