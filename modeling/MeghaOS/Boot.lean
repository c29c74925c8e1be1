import MeghaOS.Process

/-!
# The start of the kernel (`x86/entry.s`, `x86/kernel.c`)

`gKernelEntry` is the page directory and the page table that the entry code fills. `kernelMain` is
`kernel_main` up to `run_root_process`, of which the set-up of the display, of the descriptor tables
and of the devices is left out. A state is `Booted` when `kernelMain` ends in it, on any machine and
with any files loaded.
-/

namespace MeghaOS

open Exec

/-- `BootFileItem`, without the name. -/
structure BootFileItem where
  startLocation : Nat
  length : Nat
  deriving DecidableEq

/-- What the boot loader hands over that the modelled code reads. -/
structure BootLoaderInfo where
  files : List BootFileItem
  items : List BootMemoryMapItem
  deriving DecidableEq

/-! ## The entry code -/

/-- `HIGHER_HALF_KERNEL_TO_PA (MEM_START_KERNEL_PAGE_DIR)`. -/
abbrev kernelPageDir : Nat := 0x23000

/-- An entry with the flags 3: present and writable. -/
def entryOf (pageFrame : Nat) : Entry := ⟨true, true, false, false, false, pageFrame⟩

/-- The page directory that `s_fill_pd` writes, after the identity mapping was taken out. -/
def sFillPd (i : Nat) : Entry :=
  if i = 768 then entryOf kernelPageTableFrame
  else if i = 1023 then entryOf (physicalToPageframe kernelPageDir)
  else Entry.zero

/-- The page table that `s_fill_pt` writes: the first 2 MB. -/
def sFillPt (i : Nat) : Entry := if i < 512 then entryOf i else Entry.zero

/-- The contents of memory after the entry code. -/
def gKernelEntry (mem : Nat → Nat → Entry) : Nat → Nat → Entry := fun frame i =>
  if frame = physicalToPageframe kernelPageDir then sFillPd i
  else if frame = kernelPageTableFrame then sFillPt i
  else mem frame i

/-! ## `kernel_main` -/

/-- `HIGHER_HALF_KERNEL_TO_PA (MEM_END_HIGHER_HALF_MAP)`. -/
abbrev endHigherHalfMap : Nat := 0x200000

/-- `MEM_LEN_BYTES_KERNEL_LOW_REGION`. -/
abbrev memLenBytesKernelLowRegion : Nat := 0x46000

/-- `MEM_START_PAGING_INT_TEMP_MAP`. -/
abbrev memStartPagingIntTempMap : Nat := 0xC03FF000

/-- `CONFIG_HANDLES_ARRAY_ITEM_COUNT * sizeof (handles)`. -/
abbrev handlesArrayBytes : Nat := 4000

/-- `sizeof (struct tss)`. -/
abbrev sizeofTss : Nat := 364

/-- `ksalloc_init`. -/
def ksallocInit : K Unit := do
  modify fun s => { s with sallocNext := memStartSalloc }
  kernelPhaseSet .sallocReady

/-- `khandle_init`. -/
def khandleInit : K Unit := do
  kernelPhaseValidate .sallocReady
  let handles ← kscalloc handlesArrayBytes
  if handles = 0 then kPanic "BUG"

/-- `ktss_init`, of which only the allocation matters. -/
def ktssInit : K Unit := do
  let tss ← ksalloc sizeofTss
  if tss = 0 then kPanic "Memory allocation failed for TSS"

/-- The loop of `s_getPhysicalBlockPageCount`, after `szPages` pages, with at most `n` turns. -/
def blockPageCountFrom (initialState end_ : Nat) : Nat → Nat → Nat → Nat → K Nat
  | 0, _, _, _ => halt .hang
  | n + 1, state, pa, szPages => do
    if initialState = state ∧ pa < end_ then
      let pa := u32 (pa + pageFrameSizeBytes)
      let state ← kpmmGetPageStatus pa
      if state = pmmStateInvalid then kPanicOnError
      blockPageCountFrom initialState end_ n state pa (szPages + 1)
    else return szPages

/-- `s_getPhysicalBlockPageCount`; the region has at most 512 pages. -/
def sGetPhysicalBlockPageCount (pa end_ : Nat) : K Nat := do
  let initialState ← kpmmGetPageStatus pa
  blockPageCountFrom initialState end_ 513 initialState pa 0

/-- The flags of the address spaces that `s_initializeMemoryManagers` reserves. -/
abbrev committedKernelPage : Nat := vmmMemmapFlagKernelPage ||| vmmMemmapFlagCommitted

/-- The loop of `s_initializeMemoryManagers`, with at most `n` turns. -/
def mapHigherHalfFrom (paRegionEnd : Nat) : Nat → Nat → K Unit
  | 0, _ => halt .hang
  | n + 1, pa => do
    if pa < paRegionEnd then
      let state ← kpmmGetPageStatus pa
      let va := u32 (pa + memStartKernelLowRegion)
      if state = pmmStateFree then
        if ← kpgUnmap kpgGetcurrentpd va then
          mapHigherHalfFrom paRegionEnd n (u32 (pa + pageFrameSizeBytes))
        else kPanic "BUG"
      else if state = pmmStateUsed ∨ state = pmmStateReserved then
        let szPages ← sGetPhysicalBlockPageCount pa paRegionEnd
        let (mapped, _) ← kvmmMemmap (← get).context va none szPages committedKernelPage
        if mapped = 0 then kPanic "BUG"
        else mapHigherHalfFrom paRegionEnd n (u32 (pa + pageframesToBytes szPages))
      else kPanic "Assertion failed: Unreachable code"

/-- A reservation that must not fail. -/
def reserveKernelPage (va : Nat) : K Unit := do
  let (mapped, _) ← kvmmMemmap (← get).context va none 1 committedKernelPage
  if mapped = 0 then kPanic "BUG"

/-- `s_initializeMemoryManagers`. -/
def sInitializeMemoryManagers (files : List BootFileItem) : K Unit := do
  if (← kpmmAllocAt 0 (bytesToPageframesCeiling memLenBytesKernelLowRegion) .pmmRegionAny)
      = false then
    kPanicOnError
  match files.head?, files.getLast? with
  | some firstFile, some lastFile =>
    let totalModulesLengthBytes :=
      u32 (u32Sub lastFile.startLocation firstFile.startLocation + lastFile.length)
    let pageFrameCount := bytesToPageframesCeiling totalModulesLengthBytes
    if (← kpmmAllocAt firstFile.startLocation pageFrameCount .pmmRegionAny) = false then
      kPanic "BUG"
  | _, _ => kPanic "Assertion failed: Index invalid"
  mapHigherHalfFrom (min (kpmmGetUsableMemorySize (← get)) endHigherHalfMap) 513 0
  reserveKernelPage memStartPagingExtTempMap
  reserveKernelPage memStartPagingIntTempMap

/-- `kernel_main` before the call of `kmalloc_init`; the memory of the first `VMemoryManager` holds
`freshDirty` in the field that `kvmm_new` does not assign. -/
def kernelMainMemory (files : List BootFileItem) (freshDirty : Bool) : K Unit := do
  kpmmInit
  ksallocInit
  khandleInit
  let context ← kvmmNew memStartKernelLowRegion memEndKernelHighRegion kernelPageDir .pmmRegionAny
    freshDirty
  modify fun s => { s with context }
  kernelPhaseSet .vmmReady
  sInitializeMemoryManagers files
  ktssInit

/-- `kernel_main` before the call of `run_root_process`. -/
def kernelMain (files : List BootFileItem) (freshDirty : Bool) : K Unit := do
  kernelMainMemory files freshDirty
  kmallocInit
  kernelPhaseSet .kernelReady

/-- The state in which the entry code calls `kernel_main`, on a machine with these contents of
memory. -/
def entryState (info : BootLoaderInfo) (mem : Nat → Nat → Entry) : KState :=
  KState.static info.items (physicalToPageframe kernelPageDir) (gKernelEntry mem)

/-- `kernel_main` is ready to run the root process. -/
def Booted (s : KState) : Prop :=
  ∃ info mem freshDirty, kernelMain info.files freshDirty (entryState info mem) = .ok ((), s)

end MeghaOS
