import Mathlib.Data.Nat.Bits
import Mathlib.Tactic.Ring

/-!
# Machine words, constants and codes

The 32-bit arithmetic of the kernel is arithmetic on `Nat` reduced by `u32` where the source's type
wraps. The constants are those of the x86 build (`x86/config.h`, `x86/memloc.h`,
`x86/moslimits.h`), and the enumerations those of the kernel headers.
-/

namespace MeghaOS

/-! ## Words -/

/-- The value a `UINT`, `PTR`, `SIZE` or `USYSINT` keeps of `n`. -/
def u32 (n : Nat) : Nat := n % 2 ^ 32

/-- `a - b` on 32-bit words. -/
def u32Sub (a b : Nat) : Nat := (a + (2 ^ 32 - b % 2 ^ 32)) % 2 ^ 32

/-- The value a `U64` keeps of `n`. -/
def u64 (n : Nat) : Nat := n % 2 ^ 64

/-- `IS_ALIGNED`. -/
def isAligned (a n : Nat) : Bool := a &&& (n - 1) == 0

/-- `BIT_ISSET`: every bit of `s` is set in `w`. -/
def bitIsSet (w s : Nat) : Bool := w &&& s == s

/-- `BIT_ISUNSET`. -/
def bitIsUnset (w s : Nat) : Bool := !bitIsSet w s

/-! ## Configuration -/

/-- `CONFIG_PAGE_FRAME_SIZE_BYTES`. -/
abbrev pageFrameSizeBytes : Nat := 4096

/-- `IS_ALIGNED` for page addresses. -/
theorem isAligned_page_iff {n : Nat} : isAligned n pageFrameSizeBytes = true ↔ n % 4096 = 0 := by
  have h : n &&& (2 ^ 12 - 1) = n % 2 ^ 12 := Nat.and_two_pow_sub_one_eq_mod n 12
  simp only [isAligned, pageFrameSizeBytes, beq_iff_eq]
  exact ⟨fun hn => h ▸ hn, fun hn => h.trans hn⟩

/-- `BYTES_TO_PAGEFRAMES_FLOOR`; the mask has `CONFIG_PAGE_FRAME_SIZE_BITS + 1` bits. -/
def bytesToPageframesFloor (b : Nat) : Nat := b / pageFrameSizeBytes &&& 0xFFFFF

/-- `ALIGN_UP` on 32-bit words. -/
def alignUp (a n : Nat) : Nat := if isAligned a n then a else u32 ((a / n + 1) * n)

/-- `ALIGN_DOWN`. -/
def alignDown (a n : Nat) : Nat := if isAligned a n then a else a / n * n

/-- `BYTES_TO_PAGEFRAMES_CEILING`. -/
def bytesToPageframesCeiling (b : Nat) : Nat :=
  bytesToPageframesFloor (alignUp b pageFrameSizeBytes)

/-- `PAGEFRAMES_TO_BYTES`, which is also `PAGEFRAME_TO_PHYSICAL`. -/
def pageframesToBytes (pf : Nat) : Nat := u32 (pf <<< 12)

/-- `PHYSICAL_TO_PAGEFRAME`. -/
def physicalToPageframe (addr : Nat) : Nat := bytesToPageframesFloor addr

/-- `PAB_SIZE_BYTES`. -/
abbrev pabSizeBytes : Nat := 4096

/-- `PAB_BITS_PER_STATE`. -/
abbrev pabBitsPerState : Nat := 2

/-- `MAX_PAB_ADDRESSABLE_BYTE_COUNT`: 16384 page frames. -/
abbrev maxPabAddressableByteCount : Nat := 0x4000000

/-- `MEM_START_KERNEL_LOW_REGION`. -/
abbrev memStartKernelLowRegion : Nat := 0xC0000000

/-- `MEM_END_KERNEL_HIGH_REGION`. -/
abbrev memEndKernelHighRegion : Nat := 0xFFBFFFFF

/-- `KERNEL_PDE_INDEX`. -/
abbrev kernelPdeIndex : Nat := 768

/-- `RECURSIVE_PDE_INDEX`. -/
abbrev recursivePdeIndex : Nat := 1023

/-- `TEMPORARY_PTE_INDEX_EXTERN`, of `MEM_START_PAGING_EXT_TEMP_MAP`. -/
abbrev temporaryPteIndexExtern : Nat := 1022

/-- `TEMPORARY_PTE_INDEX_INTERNAL`, of `MEM_START_PAGING_INT_TEMP_MAP`. -/
abbrev temporaryPteIndexInternal : Nat := 1023

/-- `MEM_START_PAGING_EXT_TEMP_MAP`. -/
abbrev memStartPagingExtTempMap : Nat := 0xC03FE000

/-- The page frame of `MEM_START_KERNEL_PAGE_TABLE`. -/
abbrev kernelPageTableFrame : Nat := 0x24

/-- `X86_MEM_START_SALLOC` and `X86_MEM_LEN_BYTES_SALLOC`. -/
abbrev memStartSalloc : Nat := 0xC0026000
abbrev memLenBytesSalloc : Nat := 0x20000

/-- `SALLOC_GRANUALITY`. -/
abbrev sallocGranuality : Nat := 8

/-- `ARCH_MEM_LEN_BYTES_KMALLOC`. -/
abbrev memLenBytesKmalloc : Nat := 0x20000

/-- `ARCH_MEM_START_PROCESS_MEMORY`. -/
abbrev memStartProcessMemory : Nat := 0x1000

/-- `ARCH_MEM_END_PROCESS_MEMORY`. -/
abbrev memEndProcessMemory : Nat := 0xBFFFFFFF

/-- `ARCH_MEM_START_PROCESS_TEXT`. -/
abbrev memStartProcessText : Nat := 0x10000

/-- `ARCH_MEM_LEN_BYTES_PROCESS_STACK`. -/
abbrev memLenBytesProcessStack : Nat := 0x40000

/-- `ARCH_MEM_LEN_BYTES_PROCESS_DATA`. -/
abbrev memLenBytesProcessData : Nat := 0x40000

/-- `MAX_PROCESS_COUNT`. -/
abbrev maxProcessCount : Nat := 20

/-! ## Sizes of the structures that live in the kernel heap -/

/-- `sizeof (KMallocHeader)` on i386. -/
abbrev sizeofKMallocHeader : Nat := 32
/-- `sizeof (KProcessInfo)` on i386. -/
abbrev sizeofKProcessInfo : Nat := 80
/-- `sizeof (ProcessRegisterState)` on i386. -/
abbrev sizeofProcessRegisterState : Nat := 36
/-- `sizeof (KProcessEvent)` on i386. -/
abbrev sizeofKProcessEvent : Nat := 20
/-- `sizeof (VMemoryManager)` on i386; `Physical` is packed. -/
abbrev sizeofVMemoryManager : Nat := 28
/-- `sizeof (VMemoryAddressSpace)` on i386 in a `DEBUG` build. -/
abbrev sizeofVMemoryAddressSpace : Nat := 44
/-- `sizeof (VMemoryShare)` on i386. -/
abbrev sizeofVMemoryShare : Nat := 12
/-- `sizeof (Window)` on i386. -/
abbrev sizeofWindow : Nat := 68

/-! ## Enumerations -/

/-- `KernelErrorCodes`. -/
inductive KernelErrorCodes
  | errNone | errUnknown | errInvalidRange | errOverflow | errOutOfMem | errDoubleFree
  | errDoubleAlloc | errWrongAlignment | errOutsideAddressableRange | errInvalidArgument
  | errPageWrongState | errSchedulerQueueFull | errQueueEmpty | errVmmNotAllocated
  | errVmmOverlapingVas | errVmmNullPageAccess | errProcExitNotAllowed | errDeviceInitFailed
  | errDeviceNotReady | errTimeout | errInvalidHandle | errInvalidSyscall
  | errProcCreateNotAllowed
  deriving DecidableEq, Repr

/-- The phases of `KernelStateInfo`, of the `DEBUG` build without graphics. -/
inductive KernelPhase
  | bootComplete | textdispReady | pmmReady | sallocReady | vmmReady | kmallocReady | kernelReady
  deriving DecidableEq, Repr

/-- The position of a phase in the start-up order. -/
def KernelPhase.rank : KernelPhase → Nat
  | .bootComplete => 0
  | .textdispReady => 1
  | .pmmReady => 2
  | .sallocReady => 3
  | .vmmReady => 4
  | .kmallocReady => 5
  | .kernelReady => 6

/-- `KERNEL_PHASE_CHECK`. -/
def KernelPhase.check (phase p : KernelPhase) : Bool := p.rank ≤ phase.rank

/-- `KernelPhysicalMemoryStates`: the states a page frame has in the PAB. -/
abbrev pmmStateFree : Nat := 0
abbrev pmmStateUsed : Nat := 1
abbrev pmmStateReserved : Nat := 2
abbrev pmmStateInvalid : Nat := 3

/-- `KProcessStates`. -/
inductive KProcessStates
  | invalid | running | idle
  deriving DecidableEq, Repr

/-- `KernelEvents`. -/
inductive KernelEvents
  | none | proccessYieldReq | proccessChildKilled
  deriving DecidableEq, Repr

/-- `PROCESS_FLAGS_KERNEL_PROCESS` and `PROCESS_FLAGS_THREAD`. -/
abbrev processFlagsKernelProcess : Nat := 1
abbrev processFlagsThread : Nat := 2

/-- `VMemoryMemMapFlags`. -/
abbrev vmmMemmapFlagNone : Nat := 0
abbrev vmmMemmapFlagKernelPage : Nat := 1
abbrev vmmMemmapFlagReadonly : Nat := 2
abbrev vmmMemmapFlagNullpage : Nat := 4
abbrev vmmMemmapFlagImmcommit : Nat := 8
abbrev vmmMemmapFlagCommitted : Nat := 16

/-- `PagingMapFlags`. -/
abbrev pgMapFlagKernel : Nat := 1
abbrev pgMapFlagCacheEnabled : Nat := 2
abbrev pgMapFlagWritable : Nat := 4
abbrev pgMapFlagNotPresent : Nat := 8
abbrev pgMapFlagDefault : Nat := pgMapFlagCacheEnabled

/-- `PagingOperationFlags`. -/
abbrev pgNewpdFlagCopyKernelPages : Nat := 1
abbrev pgNewpdFlagRecursiveMap : Nat := 2
abbrev pgDelpdFlagKeepKernelPages : Nat := 4
abbrev pgNewpdFlagCreateNew : Nat := 8

/-- `KPROCESS_EXIT_CODE_FORCE_KILLED`. -/
abbrev kprocessExitCodeForceKilled : Nat := 255

/-- The selectors of the kernel's and the user's code and data segments. -/
abbrev gdtSelectorKcode : Nat := 0x08
abbrev gdtSelectorKdata : Nat := 0x10
abbrev gdtSelectorUcode : Nat := 0x23
abbrev gdtSelectorUdata : Nat := 0x2B

/-- `PROCESS_ID_KERNEL`. -/
abbrev processIdKernel : Nat := 0

end MeghaOS
