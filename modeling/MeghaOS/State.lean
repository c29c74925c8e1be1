import MeghaOS.Bitmap
import MeghaOS.Lib.Ring

/-!
# The kernel state

One record holds everything the modelled part of the kernel keeps: the PAB, the page tables and the
temporary mappings, the kernel heap, the records that live in it, and the globals of `process.c`.
A program of the kernel is a `K α`. Records are kept by their address in `objs`; a lookup that finds
no record of the expected kind is an access through a wild pointer and stops as a fault. A `DEBUG`
build is modelled, so a failed `k_assert` is a panic; `BUG()` only logs and is left out.

The contents of page frames are kept as tables of entries, because only the page tables are read
by the modelled code; the bytes that processes and `k_memcpy` write into their pages are not kept.
-/

namespace MeghaOS

/-! ## Page tables -/

/-- `ArchPageDirectoryEntry` and `ArchPageTableEntry`, which have the same layout; the bits that are
always written as zero and never read are left out. -/
structure Entry where
  present : Bool
  writeAllowed : Bool
  userAccessable : Bool
  writeThroughCache : Bool
  cacheDisabled : Bool
  pageFrame : Nat
  deriving DecidableEq, Repr

/-- An entry of zeroed memory. -/
def Entry.zero : Entry := ⟨false, false, false, false, false, 0⟩

/-- What a `PageDirectory` pointer points to: nothing, the page behind the external temporary
mapping, or the recursive mapping of the current page directory. -/
inductive PageDirectory
  | null | temp | current
  deriving DecidableEq

/-! ## The kernel heap -/

/-- The list nodes of `kmalloc.c`: the three list heads, and the three nodes of the header at an
address. -/
inductive KNode
  | freeHead | allocHead | adjHead
  | freenode (header : Nat) | allocnode (header : Nat) | adjnode (header : Nat)
  deriving DecidableEq

/-- The fields of a `KMallocHeader` other than its list nodes. -/
structure KMallocHeader where
  netNodeSize : Nat
  isAllocated : Bool
  deriving DecidableEq

/-- The static data of `kmalloc.c` and the headers in its buffer. -/
structure KHeap where
  buffer : Nat
  header : Nat → KMallocHeader
  links : Links KNode

/-! ## Records -/

/-- A pointer field: `raw` is a word that was never assigned since its memory came from `kmalloc`.
It is whatever the block held before, maybe the address of a record, and the code follows it as any
other. -/
inductive Ptr
  | raw (word : Nat) | addr (a : Nat)
  deriving DecidableEq

/-- The word a pointer field holds. -/
def Ptr.word : Ptr → Nat
  | raw w => w
  | addr a => a

/-- A list node of a record: as `list_init` left it, in the list of `head`, or with the two `NULL`
words that `list_remove` leaves. -/
inductive NodeState (ι : Type)
  | self | linked (head : ι) | null
  deriving DecidableEq

/-- `KernelPhysicalMemoryRegions`. -/
inductive KernelPhysicalMemoryRegions
  | pmmRegionAny
  deriving DecidableEq

/-- `VMemoryManager`; `head` is the list of address spaces, by address. -/
structure VMemoryManager where
  start : Nat
  end_ : Nat
  isStaticAllocated : Bool
  parentProcessPD : Nat
  isPageDirectoryDirty : Bool
  physicalRegion : KernelPhysicalMemoryRegions
  head : List Nat
  deriving DecidableEq

/-- `VMemoryAddressSpace`, without the fields that only debug printing reads. -/
structure VMemoryAddressSpace where
  isStaticAllocated : Bool
  flags : Nat
  startVm : Nat
  allocationSzBytes : Nat
  share : Nat
  deriving DecidableEq

/-- The field of `VMemoryShare` that the kernel uses. -/
structure VMemoryShare where
  refcount : Nat
  deriving DecidableEq

/-- `KProcessSections`. -/
structure KProcessSections where
  virtualMemoryStart : Nat
  sizePages : Nat
  deriving DecidableEq

/-- `ProcessRegisterState`. -/
structure ProcessRegisterState where
  ebx : Nat
  esi : Nat
  edi : Nat
  esp : Nat
  ebp : Nat
  eip : Nat
  eflags : Nat
  cs : Nat
  ds : Nat
  deriving DecidableEq

/-- `KProcessEvent`. -/
structure KProcessEvent where
  event : KernelEvents
  data : Nat
  deriving DecidableEq

/-- `KProcessInfo`; the two list heads are the lists of events and of children, by address. -/
structure KProcessInfo where
  binary : KProcessSections
  stack : KProcessSections
  data : KProcessSections
  context : Ptr
  schedulerQueueNode : NodeState Unit
  eventsQueueHead : List Nat
  childrenListHead : List Nat
  childrenListNode : NodeState Nat
  parent : Ptr
  processID : Nat
  flags : Nat
  state : KProcessStates
  registerStates : Nat
  deriving DecidableEq

/-- `KGraphicsArea`. -/
structure KGraphicsArea where
  widthPx : Nat
  heightPx : Nat
  bytesPerPixel : Nat
  bytesPerRow : Nat
  buffer : Nat
  bufferSizeBytes : Nat
  deriving DecidableEq

/-- `Window`. -/
structure Window where
  screenX : Nat
  screenY : Nat
  windowArea : KGraphicsArea
  workingArea : KGraphicsArea
  windowListNode : NodeState Unit
  processID : Nat
  deriving DecidableEq

/-- The records the kernel allocates. -/
inductive Obj
  | proc (p : KProcessInfo)
  | regs (r : ProcessRegisterState)
  | vmm (v : VMemoryManager)
  | vas (v : VMemoryAddressSpace)
  | share (s : VMemoryShare)
  | event (e : KProcessEvent)
  | window (w : Window)
  deriving DecidableEq

/-- The size of the block a record occupies. -/
def Obj.size : Obj → Nat
  | proc _ => sizeofKProcessInfo
  | regs _ => sizeofProcessRegisterState
  | vmm _ => sizeofVMemoryManager
  | vas _ => sizeofVMemoryAddressSpace
  | share _ => sizeofVMemoryShare
  | event _ => sizeofKProcessEvent
  | window _ => sizeofWindow

/-! ## The state -/

/-- `BootMemoryMapItem`. -/
structure BootMemoryMapItem where
  baseAddr : Nat
  length : Nat
  type : Nat
  deriving DecidableEq

/-- Everything the modelled part of the kernel keeps. `freedContext` holds the `context` word of
each released `KProcessInfo` whose memory has not been used again; `tempExt` and `tempInt` are the
frames behind the two temporary mappings. -/
structure KState where
  bootMemoryMap : List BootMemoryMapItem
  pab : Bitmap
  mem : Nat → Nat → Entry
  tempExt : Option Nat
  tempInt : Option Nat
  cr3 : Nat
  heap : KHeap
  sallocNext : Nat
  objs : Nat → Option Obj
  freedContext : Nat → Option Ptr
  phase : KernelPhase
  errorNumber : KernelErrorCodes
  context : Nat
  tickCount : Nat
  processCount : Nat
  currentProcess : Nat
  rootProcess : Nat
  schedulerQueue : List Nat

/-- The static data of the kernel before `kernel_main`, on a machine with this boot memory map, its
page directory at frame `cr3`, and these contents of memory. -/
def KState.static (bootMemoryMap : List BootMemoryMapItem) (cr3 : Nat) (mem : Nat → Nat → Entry) :
    KState where
  bootMemoryMap := bootMemoryMap
  pab := ⟨fun _ => 0, 0, 0⟩
  mem := mem
  tempExt := none
  tempInt := none
  cr3 := cr3
  heap := ⟨0, fun _ => ⟨0, false⟩, ⟨fun _ => none, fun _ => none⟩⟩
  sallocNext := 0
  objs := fun _ => none
  freedContext := fun _ => none
  phase := .textdispReady
  errorNumber := .errNone
  context := 0
  tickCount := 0
  processCount := 0
  currentProcess := 0
  rootProcess := 0
  schedulerQueue := []

/-- Programs of the kernel. -/
abbrev K : Type → Type := Exec KState

open Exec

/-- `k_panic`, and with the fixed message of the macro `FATAL_BUG`. -/
def kPanic {α : Type} (message : String) : K α := halt (.panic message)

/-- `k_assert` of a `DEBUG` build. -/
def kAssert (t : Prop) [Decidable t] (e : String) : K Unit :=
  if t then pure () else kPanic ("Assertion failed: " ++ e)

/-- `KERNEL_PHASE_VALIDATE`. -/
def kernelPhaseValidate (p : KernelPhase) : K Unit := do
  kAssert ((← get).phase.check p) "Current state is not suitable"

/-- `KERNEL_PHASE_SET`. -/
def kernelPhaseSet (p : KernelPhase) : K Unit := do
  kAssert (p.rank = 0 ∨ (← get).phase.rank + 1 = p.rank) "Current state is unsuitable"
  modify fun s => { s with phase := p }

/-- `RETURN_ERROR`, and for `ERROR_PASSTHROUGH` a plain `return`. -/
def returnError {α : Type} (errno : KernelErrorCodes) (rval : α) : K α := do
  modify fun s => { s with errorNumber := errno }
  return rval

/-- `k_panicOnError`. -/
def kPanicOnError : K Unit := do
  if (← get).errorNumber ≠ .errNone then kPanic "Panic on error."

section

variable {α : Type} {s s' : KState}

/-- A panic ends the run. -/
@[simp] theorem kPanic_apply (m : String) : (kPanic m : K α) s = .error (.panic m) := rfl

/-- What follows an assertion runs when it holds. -/
@[simp] theorem kAssert_bind_eq_ok {t : Prop} [Decidable t] {e : String} {f : Unit → K α}
    {r : α × KState} : (kAssert t e >>= f) s = .ok r ↔ t ∧ f () s = .ok r := by
  unfold kAssert
  split <;> simp_all [kPanic]

/-- An assertion that passes leaves the state. -/
@[simp] theorem kAssert_eq_ok {t : Prop} [Decidable t] {e : String} {u : Unit} :
    kAssert t e s = .ok (u, s') ↔ t ∧ s = s' := by
  unfold kAssert
  split <;> simp_all

/-- What follows the check of the phase runs when it passes. -/
@[simp] theorem kernelPhaseValidate_bind_eq_ok {p : KernelPhase} {f : Unit → K α}
    {r : α × KState} :
    (kernelPhaseValidate p >>= f) s = .ok r ↔ s.phase.check p = true ∧ f () s = .ok r := by
  simp [kernelPhaseValidate]

/-- The check leaves the state. -/
@[simp] theorem kernelPhaseValidate_eq_ok {p : KernelPhase} {u : Unit} :
    kernelPhaseValidate p s = .ok (u, s') ↔ s.phase.check p = true ∧ s = s' := by
  simp [kernelPhaseValidate]

/-- The phase may be set to the next one, or set back to the first. -/
@[simp] theorem kernelPhaseSet_eq_ok {p : KernelPhase} {u : Unit} :
    kernelPhaseSet p s = .ok (u, s') ↔
      (p.rank = 0 ∨ s.phase.rank + 1 = p.rank) ∧ s' = { s with phase := p } := by
  rw [kernelPhaseSet, get_bind_apply, kAssert_bind_eq_ok, modify_apply]
  simp only [Except.ok.injEq, Prod.mk.injEq, true_and, @eq_comm _ s']

/-- What follows runs in the new phase. -/
@[simp] theorem kernelPhaseSet_bind_eq_ok {p : KernelPhase} {f : Unit → K α} {r : α × KState} :
    (kernelPhaseSet p >>= f) s = .ok r ↔
      (p.rank = 0 ∨ s.phase.rank + 1 = p.rank) ∧ f () { s with phase := p } = .ok r := by
  rw [kernelPhaseSet, bind_assoc, get_bind_apply, bind_assoc, kAssert_bind_eq_ok,
    modify_bind_apply]

/-- `RETURN_ERROR` sets the error number and returns. -/
@[simp] theorem returnError_eq_ok {errno : KernelErrorCodes} {v a : α} :
    returnError errno v s = .ok (a, s') ↔ a = v ∧ s' = { s with errorNumber := errno } := by
  simp [returnError, eq_comm]

end

/-! ## Access to records -/

/-- Put a record at an address. -/
def KState.setObj (s : KState) (a : Nat) (o : Obj) : KState :=
  { s with objs := fun b => if b = a then some o else s.objs b }

/-- The record `KProcessInfo` at an address. -/
def getProc (a : Nat) : K KProcessInfo := do
  match (← get).objs a with
  | some (.proc p) => return p
  | _ => halt .fault

/-- The record `VMemoryManager` at an address. -/
def getVmm (a : Nat) : K VMemoryManager := do
  match (← get).objs a with
  | some (.vmm v) => return v
  | _ => halt .fault

/-- The record `VMemoryAddressSpace` at an address. -/
def getVas (a : Nat) : K VMemoryAddressSpace := do
  match (← get).objs a with
  | some (.vas v) => return v
  | _ => halt .fault

/-- The record `KProcessEvent` at an address. -/
def getEvent (a : Nat) : K KProcessEvent := do
  match (← get).objs a with
  | some (.event e) => return e
  | _ => halt .fault

/-- The record `ProcessRegisterState` at an address. -/
def getRegs (a : Nat) : K ProcessRegisterState := do
  match (← get).objs a with
  | some (.regs r) => return r
  | _ => halt .fault

/-- The record `VMemoryShare` at an address. -/
def getShare (a : Nat) : K VMemoryShare := do
  match (← get).objs a with
  | some (.share r) => return r
  | _ => halt .fault

/-- The record `Window` at an address. -/
def getWindow (a : Nat) : K Window := do
  match (← get).objs a with
  | some (.window w) => return w
  | _ => halt .fault

/-- Change the record `KProcessInfo` at an address. -/
def modifyProc (a : Nat) (f : KProcessInfo → KProcessInfo) : K Unit := do
  let p ← getProc a
  modify (·.setObj a (.proc (f p)))

/-- Change the record `VMemoryManager` at an address. -/
def modifyVmm (a : Nat) (f : VMemoryManager → VMemoryManager) : K Unit := do
  let v ← getVmm a
  modify (·.setObj a (.vmm (f v)))

/-- Follow a pointer field, assigned or not: what is read at the address decides whether this is a
fault. -/
def Ptr.follow (p : Ptr) : K Nat := pure p.word

/-! A successful access found a record of its kind. -/

section

variable {α : Type} {s s' : KState} {a : Nat} {r : α × KState}

/-- Reading the record of a process finds one. -/
@[simp] theorem getProc_eq_ok {p : KProcessInfo} :
    getProc a s = .ok (p, s') ↔ s.objs a = some (.proc p) ∧ s' = s := by
  rw [getProc, get_bind_apply]
  cases s.objs a with
  | none => simp
  | some o => cases o <;> simp [eq_comm]

/-- What follows runs with that record. -/
@[simp] theorem getProc_bind_eq_ok {f : KProcessInfo → K α} :
    (getProc a >>= f) s = .ok r ↔ ∃ p, s.objs a = some (.proc p) ∧ f p s = .ok r := by
  simp [bind_eq_ok]

/-- The same for a `VMemoryManager`. -/
@[simp] theorem getVmm_eq_ok {v : VMemoryManager} :
    getVmm a s = .ok (v, s') ↔ s.objs a = some (.vmm v) ∧ s' = s := by
  rw [getVmm, get_bind_apply]
  cases s.objs a with
  | none => simp
  | some o => cases o <;> simp [eq_comm]

/-- What follows runs with it. -/
@[simp] theorem getVmm_bind_eq_ok {f : VMemoryManager → K α} :
    (getVmm a >>= f) s = .ok r ↔ ∃ v, s.objs a = some (.vmm v) ∧ f v s = .ok r := by
  simp [bind_eq_ok]

/-- The same for a `VirtualAddressSpace`. -/
@[simp] theorem getVas_eq_ok {v : VMemoryAddressSpace} :
    getVas a s = .ok (v, s') ↔ s.objs a = some (.vas v) ∧ s' = s := by
  rw [getVas, get_bind_apply]
  cases s.objs a with
  | none => simp
  | some o => cases o <;> simp [eq_comm]

/-- What follows runs with it. -/
@[simp] theorem getVas_bind_eq_ok {f : VMemoryAddressSpace → K α} :
    (getVas a >>= f) s = .ok r ↔ ∃ v, s.objs a = some (.vas v) ∧ f v s = .ok r := by
  simp [bind_eq_ok]

/-- The same for an event. -/
@[simp] theorem getEvent_eq_ok {e : KProcessEvent} :
    getEvent a s = .ok (e, s') ↔ s.objs a = some (.event e) ∧ s' = s := by
  rw [getEvent, get_bind_apply]
  cases s.objs a with
  | none => simp
  | some o => cases o <;> simp [eq_comm]

/-- What follows runs with it. -/
@[simp] theorem getEvent_bind_eq_ok {f : KProcessEvent → K α} :
    (getEvent a >>= f) s = .ok r ↔ ∃ e, s.objs a = some (.event e) ∧ f e s = .ok r := by
  simp [bind_eq_ok]

/-- The same for the registers of a process. -/
@[simp] theorem getRegs_eq_ok {g : ProcessRegisterState} :
    getRegs a s = .ok (g, s') ↔ s.objs a = some (.regs g) ∧ s' = s := by
  rw [getRegs, get_bind_apply]
  cases s.objs a with
  | none => simp
  | some o => cases o <;> simp [eq_comm]

/-- What follows runs with them. -/
@[simp] theorem getRegs_bind_eq_ok {f : ProcessRegisterState → K α} :
    (getRegs a >>= f) s = .ok r ↔ ∃ g, s.objs a = some (.regs g) ∧ f g s = .ok r := by
  simp [bind_eq_ok]

/-- The same for a `VMemoryShare`. -/
@[simp] theorem getShare_eq_ok {v : VMemoryShare} :
    getShare a s = .ok (v, s') ↔ s.objs a = some (.share v) ∧ s' = s := by
  rw [getShare, get_bind_apply]
  cases s.objs a with
  | none => simp
  | some o => cases o <;> simp [eq_comm]

/-- What follows runs with it. -/
@[simp] theorem getShare_bind_eq_ok {f : VMemoryShare → K α} :
    (getShare a >>= f) s = .ok r ↔ ∃ v, s.objs a = some (.share v) ∧ f v s = .ok r := by
  simp [bind_eq_ok]

/-- The same for a window. -/
@[simp] theorem getWindow_eq_ok {w : Window} :
    getWindow a s = .ok (w, s') ↔ s.objs a = some (.window w) ∧ s' = s := by
  rw [getWindow, get_bind_apply]
  cases s.objs a with
  | none => simp
  | some o => cases o <;> simp [eq_comm]

/-- What follows runs with it. -/
@[simp] theorem getWindow_bind_eq_ok {f : Window → K α} :
    (getWindow a >>= f) s = .ok r ↔ ∃ w, s.objs a = some (.window w) ∧ f w s = .ok r := by
  simp [bind_eq_ok]

/-- Writing the record of a process finds one, and writes it. -/
@[simp] theorem modifyProc_eq_ok {g : KProcessInfo → KProcessInfo} {u : Unit} :
    modifyProc a g s = .ok (u, s') ↔
      ∃ p, s.objs a = some (.proc p) ∧ s' = s.setObj a (.proc (g p)) := by
  rw [modifyProc, getProc_bind_eq_ok]
  simp only [modify_apply, Except.ok.injEq, Prod.mk.injEq, true_and, eq_comm]

/-- The same for a `VMemoryManager`. -/
@[simp] theorem modifyVmm_eq_ok {g : VMemoryManager → VMemoryManager} {u : Unit} :
    modifyVmm a g s = .ok (u, s') ↔
      ∃ v, s.objs a = some (.vmm v) ∧ s' = s.setObj a (.vmm (g v)) := by
  rw [modifyVmm, getVmm_bind_eq_ok]
  simp only [modify_apply, Except.ok.injEq, Prod.mk.injEq, true_and, eq_comm]

/-- What follows runs with the record written. -/
@[simp] theorem modifyVmm_bind_eq_ok {g : VMemoryManager → VMemoryManager} {f : Unit → K α} :
    (modifyVmm a g >>= f) s = .ok r ↔
      ∃ v, s.objs a = some (.vmm v) ∧ f () (s.setObj a (.vmm (g v))) = .ok r := by
  rw [modifyVmm, bind_assoc, getVmm_bind_eq_ok]
  simp only [modify_bind_apply]

/-- Following a pointer gives its word. -/
@[simp] theorem follow_bind_eq_ok {p : Ptr} {f : Nat → K α} :
    (p.follow >>= f) s = .ok r ↔ f p.word s = .ok r := by
  rw [Ptr.follow, pure_bind]

end

end MeghaOS
