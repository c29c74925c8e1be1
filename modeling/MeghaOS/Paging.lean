import MeghaOS.Pmm

/-!
# Paging (`x86/paging.c`)

A page directory is changed through a `PageDirectory` pointer, a page table through the internal
temporary mapping. The entries of the two temporary mappings lie in the page table of the kernel's
first 4 MB, at `kernelPageTableFrame`; they are kept in `tempExt` and `tempInt`, and reading or
writing them as entries of that page table reaches them there (`KState.entry`, `KState.setEntry`).
-/

namespace MeghaOS

open Exec

/-! ## Entries of frames -/

/-- The entry of a temporary mapping, as `s_setupPTE` writes it. -/
def tempEntry : Option Nat → Entry
  | none => Entry.zero
  | some frame => ⟨true, true, false, false, false, frame⟩

/-- Entry `i` of the table in a page frame. -/
def KState.entry (s : KState) (frame i : Nat) : Entry :=
  if frame = kernelPageTableFrame ∧ i = temporaryPteIndexExtern then tempEntry s.tempExt
  else if frame = kernelPageTableFrame ∧ i = temporaryPteIndexInternal then tempEntry s.tempInt
  else s.mem frame i

/-- Write entry `i` of the table in a page frame. -/
def KState.setEntry (s : KState) (frame i : Nat) (e : Entry) : KState :=
  let slot := if e.present then some e.pageFrame else none
  if frame = kernelPageTableFrame ∧ i = temporaryPteIndexExtern then { s with tempExt := slot }
  else if frame = kernelPageTableFrame ∧ i = temporaryPteIndexInternal then
    { s with tempInt := slot }
  else { s with mem := fun f j => if f = frame ∧ j = i then e else s.mem f j }

/-- `info.pdeIndex`, `info.pteIndex` and `info.offset` of `s_getTableIndices`, on 32-bit words. -/
def pdeIndex (va : Nat) : Nat := va / 2 ^ 22
def pteIndex (va : Nat) : Nat := va / 2 ^ 12 % 2 ^ 10
def pageOffset (va : Nat) : Nat := va % 2 ^ 12

/-- The entry that `s_setupPTE` and `s_setupPDE` build. -/
def setupEntry (pa flags : Nat) : Entry where
  pageFrame := physicalToPageframe pa
  present := bitIsUnset flags pgMapFlagNotPresent
  cacheDisabled := bitIsUnset flags pgMapFlagCacheEnabled
  writeThroughCache := false
  writeAllowed := bitIsSet flags pgMapFlagWritable
  userAccessable := bitIsUnset flags pgMapFlagKernel

/-! ## Temporary mappings -/

/-- `s_internal_temporaryMap`; `false` is the `NULL` of a failure. -/
def sInternalTemporaryMap (pa : Nat) : K Bool := do
  if isAligned pa pageFrameSizeBytes = false then returnError .errWrongAlignment false
  else if (← get).tempInt.isSome then kPanic "Temporary mapping already present"
  else
    modify fun s => { s with tempInt := some (physicalToPageframe pa) }
    return true

/-- `s_internal_temporaryUnmap`. -/
def sInternalTemporaryUnmap : K Unit := do
  if (← get).tempInt = none then kPanic "Temporary mapping not present"
  else modify fun s => { s with tempInt := none }

/-- `kpg_temporaryMap`. -/
def kpgTemporaryMap (pa : Nat) : K PageDirectory := do
  if isAligned pa pageFrameSizeBytes = false then returnError .errWrongAlignment .null
  else if (← get).tempExt.isSome then kPanic "Temporary mapping already present"
  else
    modify fun s => { s with tempExt := some (physicalToPageframe pa) }
    return .temp

/-- `kpg_temporaryUnmap`. -/
def kpgTemporaryUnmap : K Unit := do
  if (← get).tempExt = none then kPanic "Temporary mapping not present"
  else modify fun s => { s with tempExt := none }

/-- The frame behind a mapping, or a fault when there is none. -/
def frameOf (slot : Option Nat) : K Nat :=
  match slot with
  | some frame => return frame
  | none => halt .fault

/-- The frame of the page directory behind a pointer. -/
def PageDirectory.frame : PageDirectory → K Nat
  | null => halt .fault
  | temp => do frameOf (← get).tempExt
  | current => return (← get).cr3

/-- `pd[i]`. -/
def readPde (pd : PageDirectory) (i : Nat) : K Entry := do
  return (← get).entry (← pd.frame) i

/-- `pt[i]`, through the internal temporary mapping. -/
def readPte (i : Nat) : K Entry := do
  return (← get).entry (← frameOf (← get).tempInt) i

/-- `s_setupPDE`. -/
def sSetupPde (pd : PageDirectory) (i pa flags : Nat) : K Unit := do
  kAssert (isAligned pa pageFrameSizeBytes) "Wrong alignment"
  let d ← pd.frame
  modify (·.setEntry d i (setupEntry pa flags))

/-- `s_setupPTE`. -/
def sSetupPte (i pa flags : Nat) : K Unit := do
  kAssert (isAligned pa pageFrameSizeBytes) "Wrong alignment"
  let t ← frameOf (← get).tempInt
  modify (·.setEntry t i (setupEntry pa flags))

/-- `k_memset` of the page behind the internal temporary mapping with zeroes. -/
def zeroPage : K Unit := do
  let t ← frameOf (← get).tempInt
  modify fun s => { s with mem := fun f j => if f = t then Entry.zero else s.mem f j }

/-! ## Mapping -/

/-- `kpg_getcurrentpd`. -/
def kpgGetcurrentpd : PageDirectory := .current

/-- `kpg_unmap`. -/
def kpgUnmap (pd : PageDirectory) (va : Nat) : K Bool := do
  kAssert (pd ≠ .null) "Page Directory is null."
  if isAligned va pageFrameSizeBytes = false then returnError .errWrongAlignment false
  else
    let pde ← readPde pd (pdeIndex va)
    if pde.present = false then returnError .errDoubleFree false
    else
      let _ ← sInternalTemporaryMap (pageframesToBytes pde.pageFrame)
      let pte ← readPte (pteIndex va)
      if pte.present = false then
        sInternalTemporaryUnmap
        returnError .errDoubleFree false
      else
        let t ← frameOf (← get).tempInt
        modify (·.setEntry t (pteIndex va) { pte with present := false })
        sInternalTemporaryUnmap
        return true

/-- The part of `kpg_map` for a directory entry that is not present: a new page table. -/
def createPageTable (pd : PageDirectory) (va flags : Nat) : K Unit := do
  match ← kpmmAlloc 1 .pmmRegionAny with
  | none => kPanic "Memory allocation failed"
  | some paNew =>
    let _ ← sInternalTemporaryMap paNew
    zeroPage
    sInternalTemporaryUnmap
    sSetupPde pd (pdeIndex va) paNew flags

/-- The part of `kpg_map` that writes the entry of the page table. -/
def mapInPageTable (pd : PageDirectory) (va pa flags : Nat) : K Bool := do
  let pde ← readPde pd (pdeIndex va)
  let _ ← sInternalTemporaryMap (pageframesToBytes pde.pageFrame)
  let pte ← readPte (pteIndex va)
  if pte.present then
    sInternalTemporaryUnmap
    returnError .errDoubleAlloc false
  else
    sSetupPte (pteIndex va) pa flags
    sInternalTemporaryUnmap
    return true

/-- `kpg_map`. -/
def kpgMap (pd : PageDirectory) (va pa flags : Nat) : K Bool := do
  kAssert (pd ≠ .null) "Page Directory is null."
  if isAligned va pageFrameSizeBytes = false ∨ isAligned pa pageFrameSizeBytes = false then
    returnError .errWrongAlignment false
  else
    let pde ← readPde pd (pdeIndex va)
    when (pde.present = false) (createPageTable pd va flags)
    mapInPageTable pd va pa flags

/-- The loop of `kpg_mapContinous`, with `numPages` pages left. -/
def mapContinousFrom (pd : PageDirectory) (flags : Nat) : Nat → Nat → Nat → K Bool
  | 0, _, _ => return true
  | numPages + 1, va, pa => do
    if ← kpgMap pd va pa flags then
      mapContinousFrom pd flags numPages (u32 (va + pageFrameSizeBytes))
        (u32 (pa + pageFrameSizeBytes))
    else return false

/-- `kpg_mapContinous`. -/
def kpgMapContinous (pd : PageDirectory) (vaStart paStart numPages flags : Nat) : K Bool := do
  if numPages = 0 then returnError .errInvalidArgument false
  else mapContinousFrom pd flags numPages vaStart paStart

/-- The loop of `kpg_unmapContinous`, with `numPages` pages left. -/
def unmapContinousFrom (pd : PageDirectory) : Nat → Nat → K Bool
  | 0, _ => return true
  | numPages + 1, va => do
    if ← kpgUnmap pd va then unmapContinousFrom pd numPages (u32 (va + pageFrameSizeBytes))
    else return false

/-- `kpg_unmapContinous`. -/
def kpgUnmapContinous (pd : PageDirectory) (vaStart numPages : Nat) : K Bool := do
  if numPages = 0 then returnError .errInvalidArgument false
  else unmapContinousFrom pd numPages vaStart

/-- `kpg_doesMappingExists`; `some` is `true` with the address of the output parameter. -/
def kpgDoesMappingExists (pd : PageDirectory) (va : Nat) : K (Option Nat) := do
  kAssert (pd ≠ .null) "PD cannot be null"
  let pde ← readPde pd (pdeIndex va)
  if pde.present then
    let _ ← sInternalTemporaryMap (pageframesToBytes pde.pageFrame)
    let pte ← readPte (pteIndex va)
    sInternalTemporaryUnmap
    return if pte.present then some (pageframesToBytes pte.pageFrame ||| pageOffset va) else none
  else return none

/-! ## Page directories -/

/-- The part of `kpg_setupPageDirectory` for `PG_NEWPD_FLAG_CREATE_NEW`: a new page directory, or
the given one, behind the internal temporary mapping. -/
def openPd (pd flags : Nat) : K (Option Nat) := do
  if bitIsSet flags pgNewpdFlagCreateNew then
    match ← kpmmAlloc 1 .pmmRegionAny with
    | none => return none
    | some pd =>
      let _ ← sInternalTemporaryMap pd
      zeroPage
      return some pd
  else
    let _ ← sInternalTemporaryMap pd
    return some pd

/-- The part for `PG_NEWPD_FLAG_COPY_KERNEL_PAGES`. -/
def copyKernelPages (kernelPD : Option Nat) : K Unit := do
  match kernelPD with
  | none => kPanic "Assertion failed: Invalid address."
  | some kernelPD =>
    let lKernelPD ← kpgTemporaryMap kernelPD
    let k ← lKernelPD.frame
    let d ← frameOf (← get).tempInt
    modify fun s =>
      { s with mem := fun f j => if f = d ∧ kernelPdeIndex ≤ j ∧ j < 1024 then s.mem k j
                                 else s.mem f j }
    kpgTemporaryUnmap

/-- The part for `PG_NEWPD_FLAG_RECURSIVE_MAP`. -/
def recursiveMap (pd : Nat) : K Unit := do
  let d ← frameOf (← get).tempInt
  modify fun s => s.setEntry d recursivePdeIndex
    { s.entry d recursivePdeIndex with pageFrame := physicalToPageframe pd }

/-- `kpg_setupPageDirectory`; `pd` is the address on entry, and the result the address of the
page directory that was set up, or `none` for `false`. -/
def kpgSetupPageDirectory (pd flags : Nat) (kernelPD : Option Nat) : K (Option Nat) := do
  match ← openPd pd flags with
  | none => return none
  | some pd =>
    when (bitIsSet flags pgNewpdFlagCopyKernelPages) (copyKernelPages kernelPD)
    when (bitIsSet flags pgNewpdFlagRecursiveMap) (recursiveMap pd)
    sInternalTemporaryUnmap
    return some pd

/-- The loop of `kpg_deletePageDirectory` over the next `n` entries from `i` on. -/
def freePageTables : Nat → Nat → K Bool
  | 0, _ => return true
  | n + 1, i => do
    let pde ← readPte i
    if pde.present then
      if ← kpmmFree (pageframesToBytes pde.pageFrame) 1 then freePageTables n (i + 1)
      else return false
    else freePageTables n (i + 1)

/-- `kpg_deletePageDirectory`. -/
def kpgDeletePageDirectory (pd flags : Nat) : K Bool := do
  kAssert (pd ≠ pageframesToBytes (← get).cr3) "Cannot delete the current PD"
  let _ ← sInternalTemporaryMap pd
  let endIndex := if bitIsSet flags pgDelpdFlagKeepKernelPages then kernelPdeIndex else 1024
  if ← freePageTables endIndex 0 then
    sInternalTemporaryUnmap
    kpmmFree pd 1
  else return false

end MeghaOS
