import MeghaOS.State

/-!
# Physical memory (`pmm.c`, `x86/pmm.c`)

The PAB is a bitmap with two bits for each page frame. `kpmmAlloc`, `kpmmAllocAt` and `kpmmFree`
change it through `bitmapSetContinous`, whose callback `sVerifyChange` panics on every change that
is not allowed. `PMM_REGION_ANY` is the only memory region, and the result of
`kpmm_getUsableMemorySize`, which the source caches, depends on the boot memory map alone.
-/

namespace MeghaOS

open Exec

/-- `kboot_calculateInstalledMemory`. -/
def kbootCalculateInstalledMemory (items : List BootMemoryMapItem) : Nat :=
  items.foldl (fun lengthBytes item => u64 (lengthBytes + item.length)) 0

/-- `kpmm_getUsableMemorySize`. -/
def kpmmGetUsableMemorySize (s : KState) : Nat :=
  min (kbootCalculateInstalledMemory s.bootMemoryMap) maxPabAddressableByteCount

/-- `kpmm_getUsableMemoryPagesCount`. -/
def kpmmGetUsableMemoryPagesCount (s : KState) : Nat :=
  bytesToPageframesFloor (kpmmGetUsableMemorySize s)

/-- `s_verifyChange`. -/
def sVerifyChange (s : KState) (pageFrame old new : Nat) : Except Halt Bool :=
  if pageFrame > kpmmGetUsableMemoryPagesCount s then .error (.panic "Access outside range.")
  else if old = pmmStateUsed ∧ new = pmmStateUsed then .error (.panic "Double allocation")
  else if old = pmmStateFree ∧ new = pmmStateFree then .error (.panic "Double free")
  else if s.phase.check .pmmReady ∧ old = pmmStateReserved then
    .error (.panic "Use of Reserved page")
  else if old = pmmStateInvalid then .error (.panic "Use of Invalid page")
  else .ok true

/-- `bitmap_setContinous` on the PAB. -/
def pabSetContinous (startPageFrame pageCount state : Nat) : K Bool := do
  let s ← get
  let (success, pab) ← lift
    (bitmapSetContinous (sVerifyChange s) s.pab startPageFrame pageCount state)
  set { s with pab }
  return success

/-! ## Initialisation -/

/-- `MMTYPE_FREE`. -/
abbrev mmTypeFree : Nat := 1

/-- The loop of `s_markFreeMemory`. -/
def markFreeMemoryFrom (actualAddressableMemorySize : Nat) : List BootMemoryMapItem → K Unit
  | [] => return
  | memmap :: rest => do
    if memmap.type ≠ mmTypeFree ∨ memmap.length = 0 ∨
        memmap.baseAddr ≥ actualAddressableMemorySize then
      markFreeMemoryFrom actualAddressableMemorySize rest
    else
      let startAddress := memmap.baseAddr
      let endAddress := min (u32Sub actualAddressableMemorySize 1)
        ((startAddress + memmap.length + (2 ^ 64 - 1)) % 2 ^ 64)
      let lengthBytes := (endAddress + (2 ^ 64 - startAddress) + 1) % 2 ^ 64
      let lengthBytes := max pageFrameSizeBytes lengthBytes
      let pageFrameCount := bytesToPageframesFloor (u32 lengthBytes)
      let startPageFrame := bytesToPageframesFloor (u32 startAddress)
      if ← pabSetContinous startPageFrame pageFrameCount pmmStateFree then
        markFreeMemoryFrom actualAddressableMemorySize rest
      else kPanic "PAB cannot be initialized."

/-- `s_markFreeMemory`. -/
def sMarkFreeMemory : K Unit := do
  let s ← get
  markFreeMemoryFrom (kpmmGetUsableMemorySize s) s.bootMemoryMap

/-- `kpmm_arch_init`. -/
def kpmmArchInit : K Unit := do
  modify fun s => { s with pab.bitmap := fun _ => 0xAA }
  sMarkFreeMemory

/-- `kpmm_init`. -/
def kpmmInit : K Unit := do
  modify fun s =>
    { s with pab.bitsPerState := pabBitsPerState, pab.size := pabSizeBytes }
  kpmmArchInit
  kernelPhaseSet .pmmReady

/-! ## Allocation -/

/-- `kpmm_free`. -/
def kpmmFree (startAddress pageCount : Nat) : K Bool := do
  kernelPhaseValidate .pmmReady
  if pageCount = 0 then returnError .errInvalidArgument false
  else
    let allocationEndByte := u32Sub (startAddress + u32 (pageCount * pageFrameSizeBytes)) 1
    if allocationEndByte ≥ kpmmGetUsableMemorySize (← get) then
      returnError .errOutsideAddressableRange false
    else if isAligned startAddress pageFrameSizeBytes = false then
      returnError .errWrongAlignment false
    else
      let startPageFrame := bytesToPageframesFloor startAddress
      pabSetContinous startPageFrame pageCount pmmStateFree

/-- `kpmm_allocAt`. -/
def kpmmAllocAt (start pageCount : Nat) (_reg : KernelPhysicalMemoryRegions) : K Bool := do
  kernelPhaseValidate .pmmReady
  if pageCount = 0 then returnError .errInvalidArgument false
  else
    let allocationEndByte := u32Sub (start + u32 (pageCount * pageFrameSizeBytes)) 1
    if allocationEndByte ≥ kpmmGetUsableMemorySize (← get) then
      returnError .errOutsideAddressableRange false
    else if isAligned start pageFrameSizeBytes = false then
      returnError .errWrongAlignment false
    else
      let startPageFrame := bytesToPageframesFloor start
      let found ← lift
        (bitmapFindContinousAt (← get).pab pmmStateFree pageCount startPageFrame)
      if found = false then returnError .errDoubleAlloc false
      else pabSetContinous startPageFrame pageCount pmmStateUsed

/-- `kpmm_alloc`; the result is the address, or `none` for `false`. -/
def kpmmAlloc (pageCount : Nat) (_reg : KernelPhysicalMemoryRegions) : K (Option Nat) := do
  kernelPhaseValidate .pmmReady
  if pageCount = 0 then returnError .errInvalidArgument none
  else
    match ← lift (bitmapFindContinous (← get).pab pmmStateFree pageCount) with
    | none => returnError .errOutOfMem none
    | some pageFrame =>
      kAssert (pageFrame < kpmmGetUsableMemoryPagesCount (← get)) "Out of range"
      if ← pabSetContinous pageFrame pageCount pmmStateUsed then
        let address := pageframesToBytes pageFrame
        kAssert (isAligned address pageFrameSizeBytes) "Wrong alignment"
        return some address
      else kPanic "Assertion failed: Unreachable code"

/-- The loop of `kpmm_getFreeMemorySize` over the next `n` frames. -/
def countFreeFrom (b : Bitmap) : Nat → Nat → Nat → Except Halt Nat
  | 0, _, freePages => return freePages
  | n + 1, frame, freePages => do
    if (← bitmapGet b frame) = pmmStateFree then countFreeFrom b n (frame + 1) (freePages + 1)
    else countFreeFrom b n (frame + 1) freePages

/-- `kpmm_getFreeMemorySize`. -/
def kpmmGetFreeMemorySize : K Nat := do
  kernelPhaseValidate .pmmReady
  let usablePageCount := kpmmGetUsableMemoryPagesCount (← get)
  let freePages ← lift (countFreeFrom (← get).pab (usablePageCount - 1) 1 0)
  kAssert (freePages ≤ kpmmGetUsableMemoryPagesCount (← get)) "Invalid frames"
  return pageframesToBytes freePages

/-- `kpmm_getPageStatus`. -/
def kpmmGetPageStatus (phy : Nat) : K Nat := do
  kernelPhaseValidate .pmmReady
  if isAligned phy pageFrameSizeBytes = false then returnError .errWrongAlignment pmmStateInvalid
  else lift (bitmapGet (← get).pab (bytesToPageframesFloor phy))

end MeghaOS
