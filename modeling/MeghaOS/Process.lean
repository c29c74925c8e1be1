import MeghaOS.Vmm

/-!
# Processes (`x86/process.c`)

A process is a `KProcessInfo` record, queued in the scheduler queue and linked into the children
list of its parent. `kprocessCreate` builds one in steps, each of which may fail and then hands the
half built record to `kprocessKillProcess`; `kprocessYield` rotates the queue and switches to the
next process; `kprocessExit` kills the current process and yields.

The arguments of `INFO` are not evaluated, as in the default build, where `PORT_E9_ENABLED` is off.
-/

namespace MeghaOS

open Exec

/-- What the memory that `kprocess_create` gets from `kmalloc` holds in the fields that may be read
before they are assigned: any words. Where the block was that of a released process, they are those
of its record, as `kfree` clears nothing. -/
structure FreshMemory where
  binary : KProcessSections
  stack : KProcessSections
  data : KProcessSections
  context : Nat
  parent : Nat
  registers : ProcessRegisterState
  isPageDirectoryDirty : Bool
  deriving DecidableEq

/-- A `KProcessInfo` in fresh memory, whose `context` and `parent` are the words it finds there; the
fields that `s_processInfo_malloc` assigns before anything
else runs are given the values it assigns to a node and to a state. -/
def FreshMemory.record (fresh : FreshMemory) : KProcessInfo where
  binary := fresh.binary
  stack := fresh.stack
  data := fresh.data
  context := .raw fresh.context
  schedulerQueueNode := .self
  eventsQueueHead := []
  childrenListHead := []
  childrenListNode := .self
  parent := .raw fresh.parent
  processID := 0
  flags := 0
  state := .invalid
  registerStates := 0

/-! ## The scheduler queue and the children lists -/

/-- `s_processInfo_malloc`. -/
def sProcessInfoMalloc (flags : Nat) (fresh : FreshMemory) : K Nat := do
  let pInfo ← kmallocObj (.proc fresh.record)
  if pInfo = 0 then return 0
  else
    let registerStates ← kmallocObj (.regs fresh.registers)
    modifyProc pInfo fun p => { p with registerStates }
    if registerStates = 0 then return 0
    else
      modify fun s => { s with processCount := u32 (s.processCount + 1) }
      let processID := (← get).processCount
      modifyProc pInfo fun p => { p with state := .invalid, processID, flags }
      return pInfo

/-- `s_dequeue`; the result is `NULL` when the queue is empty. -/
def sDequeue : K Nat := do
  match (← get).schedulerQueue with
  | [] => returnError .errQueueEmpty 0
  | p :: rest =>
    modify fun s => { s with schedulerQueue := rest }
    modifyProc p fun i => { i with schedulerQueueNode := .null }
    return p

/-- `s_enqueue`. -/
def sEnqueue (p : Nat) : K Bool := do
  if (← get).processCount ≥ maxProcessCount then returnError .errSchedulerQueueFull false
  else
    modify fun s => { s with schedulerQueue := s.schedulerQueue ++ [p] }
    modifyProc p fun i => { i with schedulerQueueNode := .linked () }
    return true

/-- `queue_remove` of the node of a process in the scheduler queue. -/
def queueRemove (p : Nat) : K Unit := do
  match (← getProc p).schedulerQueueNode with
  | .null => halt .fault
  | .self => modifyProc p fun i => { i with schedulerQueueNode := .null }
  | .linked _ =>
    modify fun s => { s with schedulerQueue := s.schedulerQueue.erase p }
    modifyProc p fun i => { i with schedulerQueueNode := .null }

/-- `list_remove` of the node of a process in a children list. -/
def childrenListRemove (p : Nat) : K Unit := do
  match (← getProc p).childrenListNode with
  | .null => halt .fault
  | .self => modifyProc p fun i => { i with childrenListNode := .null }
  | .linked parent =>
    modifyProc parent fun i => { i with childrenListHead := i.childrenListHead.erase p }
    modifyProc p fun i => { i with childrenListNode := .null }

/-- `list_add_before` of the node of a process at the end of the children list of another. -/
def childrenListAdd (parent p : Nat) : K Unit := do
  modifyProc parent fun i => { i with childrenListHead := i.childrenListHead ++ [p] }
  modifyProc p fun i => { i with childrenListNode := .linked parent }

/-- `change_parent_process`. -/
def changeParentProcess (p parent : Nat) : K Unit := do
  kAssert (p ≠ (← get).rootProcess) "Child process cannot be child of another process"
  childrenListRemove p
  let i ← getProc parent
  let newParent := if bitIsSet i.flags processFlagsThread then i.parent else .addr parent
  modifyProc p fun i => { i with parent := newParent }
  childrenListAdd (← newParent.follow) p

/-- The loop of `s_getProcessInfoFromID`. -/
def findPid (pid : Nat) : List Nat → K Nat
  | [] => returnError .errInvalidRange 0
  | p :: rest => do
    if (← getProc p).processID = pid then return p
    else findPid pid rest

/-- `s_getProcessInfoFromID`. -/
def sGetProcessInfoFromID (pid : Nat) : K Nat := do
  findPid pid (← get).schedulerQueue

/-! ## Events of processes -/

/-- `kprocess_pushEvent`. -/
def kprocessPushEvent (pid : Nat) (eventID : KernelEvents) (eventData : Nat) : K Bool := do
  let pinfo ← sGetProcessInfoFromID pid
  kAssert (pinfo ≠ 0) "Invalid PID"
  let e ← kmallocObj (.event ⟨eventID, eventData⟩)
  if e = 0 then return false
  else
    modifyProc pinfo fun i => { i with eventsQueueHead := i.eventsQueueHead ++ [e] }
    return true

/-- `kprocess_popEvent`; the result is the event that `ev` receives. -/
def kprocessPopEvent (pid : Nat) : K KProcessEvent := do
  let pinfo ← sGetProcessInfoFromID pid
  kAssert (pinfo ≠ 0) "Invalid PID"
  match (← getProc pinfo).eventsQueueHead with
  | [] => return ⟨.none, 0⟩
  | e :: rest =>
    modifyProc pinfo fun i => { i with eventsQueueHead := rest }
    let ev ← getEvent e
    let _ ← kfree e
    return ev

/-! ## Set-up of a process -/

/-- `s_createProcessPageDirectory`. -/
def sCreateProcessPageDirectory (pinfo : Nat) (fresh : FreshMemory) : K Bool := do
  if bitIsUnset (← getProc pinfo).flags processFlagsThread then
    let kernelPD ← kvmmGetPageDirectory (← get).context
    match ← kpgSetupPageDirectory 0
        (pgNewpdFlagCreateNew ||| pgNewpdFlagCopyKernelPages ||| pgNewpdFlagRecursiveMap)
        (some kernelPD) with
    | none => return false
    | some newPD =>
      let context ← kvmmNew memStartProcessMemory memEndProcessMemory newPD .pmmRegionAny
        fresh.isPageDirectoryDirty
      modifyProc pinfo fun i => { i with context := .addr context }
      if context = 0 then
        let _ ← kpgDeletePageDirectory newPD pgDelpdFlagKeepKernelPages
        return false
      else return true
  else
    let context ← kprocessGetCurrentContext
    modifyProc pinfo fun i => { i with context }
    return true

/-- `s_setupProcessBinaryMemory`. -/
def sSetupProcessBinaryMemory (processStartAddress binLengthBytes pinfo : Nat) : K Bool := do
  if bitIsSet (← getProc pinfo).flags processFlagsThread then
    modifyProc pinfo fun i => { i with binary.virtualMemoryStart := processStartAddress }
    return true
  else
    kAssert (binLengthBytes > 0) "Invalid program size"
    let sizePages := bytesToPageframesCeiling binLengthBytes
    modifyProc pinfo fun i => { i with binary := ⟨memStartProcessText, sizePages⟩ }
    let context ← (← getProc pinfo).context.follow
    let (va, pa) ← kvmmMemmap context memStartProcessText none sizePages vmmMemmapFlagImmcommit
    if va = 0 then return false
    else
      kvmmSetAddressSpaceMetadata context memStartProcessText
      kMemcpyToPhyMem (pa.getD 0) processStartAddress 0 0 binLengthBytes
      return true

/-- One mapping of `s_setupProcessStackMemory`. -/
def mapStackPart (context va szPages flags : Nat) : K Bool := do
  let (mapped, _) ← kvmmMemmap context va none szPages flags
  if mapped = 0 then return false
  else
    kvmmSetAddressSpaceMetadata context va
    return true

/-- `s_setupProcessStackMemory`. -/
def sSetupProcessStackMemory (pinfo : Nat) : K Bool := do
  let sizePages := bytesToPageframesCeiling memLenBytesProcessStack
  modifyProc pinfo fun i => { i with stack.sizePages := sizePages }
  let i ← getProc pinfo
  let flags :=
    if bitIsSet i.flags processFlagsKernelProcess then
      vmmMemmapFlagKernelPage ||| vmmMemmapFlagImmcommit
    else vmmMemmapFlagNone
  let context ← i.context.follow
  let stackVA ← kvmmFindFree context (sizePages + 2)
  if stackVA = 0 then returnError .errOutOfMem false
  -- NULL page at the bottom of the stack
  else if (← mapStackPart context stackVA 1 vmmMemmapFlagNullpage) = false then return false
  else
    let stackStart := u32 (stackVA + pageFrameSizeBytes)
    modifyProc pinfo fun i => { i with stack.virtualMemoryStart := stackStart }
    if (← mapStackPart context stackStart sizePages flags) = false then return false
    -- NULL page at the top of the stack
    else
      let topVA := u32 (stackStart + sizePages * pageFrameSizeBytes)
      mapStackPart context topVA 1 vmmMemmapFlagNullpage

/-- `s_setupProcessDataMemory`. -/
def sSetupProcessDataMemory (pinfo : Nat) : K Bool := do
  let i ← getProc pinfo
  if bitIsUnset i.flags processFlagsThread then
    let sizePages := bytesToPageframesCeiling memLenBytesProcessData
    modifyProc pinfo fun i => { i with data.sizePages := sizePages }
    let context ← i.context.follow
    let (va, _) ← kvmmMemmap context 0 none sizePages vmmMemmapFlagNone
    modifyProc pinfo fun i => { i with data.virtualMemoryStart := va }
    if va = 0 then return false
    else
      kvmmSetAddressSpaceMetadata context va
      return true
  else if (← get).currentProcess ≠ 0 then
    let current ← getProc (← get).currentProcess
    modifyProc pinfo fun i => { i with data := current.data }
    return true
  else
    modifyProc pinfo fun i => { i with data := ⟨0, 0⟩ }
    return true

/-- The register state `kprocess_create` gives to a new process. -/
def initialRegisters (i : KProcessInfo) : ProcessRegisterState where
  ebx := 0
  esi := 0
  edi := 0
  eflags := 0x202
  cs := if bitIsSet i.flags processFlagsKernelProcess then gdtSelectorKcode else gdtSelectorUcode
  ds := if bitIsSet i.flags processFlagsKernelProcess then gdtSelectorKdata else gdtSelectorUdata
  ebp := 0
  esp := u32Sub (i.stack.virtualMemoryStart + u32 (i.stack.sizePages * pageFrameSizeBytes)) 1
  eip := i.binary.virtualMemoryStart

/-! ## Switching -/

/-- How a call that may switch processes ends: it returns to its caller, or `jump_to_process` loads
the registers of the next process. -/
inductive Switch
  | returned (result : Bool)
  | jumped (flags cr3 : Nat) (regs : ProcessRegisterState)
  deriving DecidableEq

/-- `s_switchProcess`; `none` is a `NULL` register state. -/
def sSwitchProcess (nextProcess : Nat) (currentProcessState : Option ProcessRegisterState) :
    K Switch := do
  let next ← getProc nextProcess
  let currentProcess := (← get).currentProcess
  let sameProcess ←
    if currentProcess = 0 then pure false
    else
      kAssert (currentProcessState ≠ none)
        "Current process state is invalid for current process"
      let current ← getProc currentProcess
      if current.processID = next.processID then pure true
      else
        modifyProc currentProcess fun i => { i with state := .idle }
        if let some regs := currentProcessState then
          let _ ← getRegs current.registerStates
          modify (·.setObj current.registerStates (.regs regs))
        pure false
  if sameProcess then return .returned true
  else
    let pd ← kvmmGetPageDirectory (← next.context.follow)
    let cr3 := physicalToPageframe pd
    let status ← kpmmGetPageStatus pd
    kAssert (status = pmmStateUsed) "Process context invalid"
    modifyProc nextProcess fun i => { i with state := .running }
    modify fun s => { s with currentProcess := nextProcess }
    if next.parent.word = 0 then
      modify fun s => { s with rootProcess := nextProcess }
    let regs ← getRegs next.registerStates
    modify fun s => { s with cr3 }
    return .jumped next.flags cr3 regs

/-- The `do` loop of `kprocess_yield`; the result is `none` when `s_enqueue` fails. The loop leaves
the queue as it was after as many turns as there are processes, so it never ends if it has not
ended by then. -/
def yieldLoop : Nat → K (Option Nat)
  | 0 => halt .hang
  | n + 1 => do
    let pinfo ← sDequeue
    if pinfo = 0 then kPanic "BUG"
    else if (← sEnqueue pinfo) = false then return none
    else
      let s ← get
      let samePid ←
        if s.processCount > 1 ∧ s.currentProcess ≠ 0 then
          pure (decide ((← getProc pinfo).processID = (← getProc s.currentProcess).processID))
        else pure false
      if samePid then yieldLoop n else return some pinfo

/-- `kprocess_yield`. -/
def kprocessYield (currentState : Option ProcessRegisterState) : K Switch := do
  match ← yieldLoop ((← get).schedulerQueue.length + 1) with
  | none => return .returned false
  | some pinfo =>
    kAssert ((← getProc pinfo).state ≠ .invalid) "Invalid process state"
    sSwitchProcess pinfo currentState

/-! ## Killing and creating -/

/-- Whether the current process uses the context of the process being killed. When the record of
the current process was released and its memory is in use again, `stale` is the word read. -/
def currentUsesContext (context : Ptr) (stale : Nat) : K Bool := do
  let s ← get
  if s.currentProcess = 0 then return false
  else
    let current := match s.objs s.currentProcess with
      | some (.proc p) => p.context.word
      | _ => ((s.freedContext s.currentProcess).map Ptr.word).getD stale
    return current = context.word

/-- Free the events of a killed process. -/
def freeEvents : List Nat → K Unit
  | [] => return
  | e :: rest => do
    let _ ← kfree e
    freeEvents rest

/-- The loop over the children of a killed process, with at most `n` turns. A turn takes the first
child out of the list. -/
def killChildren (killThread : Nat → K Bool) (process : Nat) : Nat → K Unit
  | 0 => do
    if (← getProc process).childrenListHead = [] then return
    else halt .hang
  | n + 1 => do
    match (← getProc process).childrenListHead with
    | [] => return
    | child :: _ =>
      if bitIsUnset (← getProc child).flags processFlagsThread then
        changeParentProcess child (← get).rootProcess
        kAssert ((← getProc child).parent = .addr (← get).rootProcess)
          "Wrong parent set for process"
      else
        if (← killThread child) = false then kPanic "BUG"
      killChildren killThread process n

/-- The store `*process = NULL` of `kprocess_kill_process`. The variable lies at the address `slot`;
one on the stack of the kernel (`none`) is always mapped. -/
def clearSlot : Option Nat → K Unit
  | none => return
  | some slot => touch slot

/-- The body of `kprocess_kill_process`, with `killThread` for the call on child threads. -/
def killWith (killThread : Nat → K Bool) (slot : Option Nat) (stale process exitCode : Nat) :
    K Bool := do
  if (← get).processCount = 0 then returnError .errProcExitNotAllowed false
  else
    let i ← getProc process
    if i.parent.word = 0 then returnError .errProcExitNotAllowed false
    else
      if bitIsUnset i.flags processFlagsThread then
        killChildren killThread process i.childrenListHead.length
        if ← currentUsesContext i.context stale then
          let pd ← kvmmGetPageDirectory (← get).context
          modify fun s => { s with cr3 := physicalToPageframe pd }
        let context ← i.context.follow
        let pd ← kvmmGetPageDirectory context
        if ← kvmmDelete context then modifyProc process fun i => { i with context := .addr 0 }
        let _ ← kpgDeletePageDirectory pd pgDelpdFlagKeepKernelPages
      else
        kAssert (i.childrenListHead = []) "Threads cannot have children"
        let _ ← kvmmFree (← i.context.follow) i.stack.virtualMemoryStart
      let _ ← kfree i.registerStates
      freeEvents (← getProc process).eventsQueueHead
      childrenListRemove process
      queueRemove process
      let parent ← (← getProc process).parent.follow
      kAssert (parent ≠ 0) "Must not be a root process"
      let _ ← kprocessPushEvent (← getProc parent).processID .proccessChildKilled exitCode
      let _ ← kfree process
      clearSlot slot
      modify fun s => { s with processCount := u32Sub s.processCount 1 }
      return true

/-- `kprocess_kill_process`. A thread has no children, so the call on a child thread makes no
further call; the variable of that call is on the stack of the kernel. -/
def kprocessKillProcess (slot : Option Nat) (stale process exitCode : Nat) : K Bool :=
  killWith (fun child =>
    killWith (fun _ => halt .hang) none stale child kprocessExitCodeForceKilled) slot stale process
      exitCode

/-- The part of `kprocess_create` after the set-up of the memory of the process: the parent, the
registers and the scheduler queue. -/
def linkProcess (pinfo : Nat) : K Bool := do
  modifyProc pinfo fun i => { i with parent := .addr 0 }
  let currentProcess := (← get).currentProcess
  if currentProcess = 0 then
    kAssert (bitIsUnset (← getProc pinfo).flags processFlagsThread) "Threads cannot be Root"
  else
    changeParentProcess pinfo currentProcess
    kAssert ((← getProc pinfo).parent ≠ .addr 0) "Non-Root processes & Threads must have a parent"
  let i ← getProc pinfo
  let _ ← getRegs i.registerStates
  modify (·.setObj i.registerStates (.regs (initialRegisters i)))
  modifyProc pinfo fun i => { i with state := .idle }
  sEnqueue pinfo

/-- The steps of `kprocess_create` that may reach its label `failure`; the results are the record,
or `NULL`, and whether all of them succeeded. -/
def setupProcess (processStartAddress binLengthBytes flags : Nat) (fresh : FreshMemory) :
    K (Nat × Bool) := do
  let pinfo ← sProcessInfoMalloc flags fresh
  if pinfo = 0 then return (pinfo, false)
  else if (← sCreateProcessPageDirectory pinfo fresh) = false then return (pinfo, false)
  else if (← sSetupProcessBinaryMemory processStartAddress binLengthBytes pinfo) = false then
    return (pinfo, false)
  else if (← sSetupProcessStackMemory pinfo) = false then return (pinfo, false)
  else if (← sSetupProcessDataMemory pinfo) = false then return (pinfo, false)
  else return (pinfo, ← linkProcess pinfo)

/-- `kprocess_create`; `none` is `KERNEL_EXIT_FAILURE`. -/
def kprocessCreate (processStartAddress binLengthBytes flags : Nat) (fresh : FreshMemory) :
    K (Option Nat) := do
  let s ← get
  if s.processCount = maxProcessCount then returnError .errProcCreateNotAllowed none
  else if s.currentProcess = 0 ∧ bitIsSet flags processFlagsThread then
    returnError .errProcCreateNotAllowed none
  else if s.currentProcess = 0 ∧ s.processCount > 0 then
    returnError .errProcCreateNotAllowed none
  else
    let (pinfo, created) ← setupProcess processStartAddress binLengthBytes flags fresh
    if created then return some (← getProc pinfo).processID
    else
      let _ ← kprocessKillProcess none fresh.context pinfo kprocessExitCodeForceKilled
      return none

/-- `kprocess_exit`; the calls of the assembly block, and the register that is returned when the
kill fails. No stack is switched when a kernel process makes a system call, so its variable
`process` lies on its own stack, at the address `slot`. -/
def kprocessExit (exitCode : Nat) (destroyContext : Bool) (stale slot : Nat) : K Switch := do
  let s ← get
  kAssert (s.currentProcess ≠ 0) "Nothing to exit"
  let current ← getProc s.currentProcess
  let process ←
    if destroyContext ∧ current.parent.word ≠ 0 ∧ bitIsSet current.flags processFlagsThread then
      current.parent.follow
    else pure s.currentProcess
  let slot := if bitIsSet current.flags processFlagsKernelProcess then some slot else none
  if ← kprocessKillProcess slot stale process (exitCode % 256) then
    modify fun s => { s with currentProcess := 0 }
    kprocessYield none
  else return .returned (stale = 1)

/-! ## Kernel events -/

/-- `CONFIG_TICK_PERIOD_MICROSEC`. -/
abbrev tickPeriodMicrosec : Nat := 1000

/-- `CONFIG_PROCESS_PERIOD_US`. -/
abbrev processPeriodUs : Nat := 20000

/-- `kprocess_getCurrentPID`. -/
def kprocessGetCurrentPID : K Nat := do
  let s ← get
  if s.currentProcess = 0 then return processIdKernel
  else return (← getProc s.currentProcess).processID

/-- `keventmanager_invoke`. -/
def keventmanagerInvoke : K Unit := do
  let tickCount := (← get).tickCount
  if u64 (tickCount * tickPeriodMicrosec) % processPeriodUs = 0 then
    let pid ← kprocessGetCurrentPID
    if pid ≠ processIdKernel then
      let _ ← kprocessPushEvent pid .proccessYieldReq tickCount

/-- `timer_interrupt_handler`. -/
def timerInterruptHandler : K Unit := do
  modify fun s => { s with tickCount := u32 (s.tickCount + 1) }
  keventmanagerInvoke

/-- The events that enter the kernel once it is ready. -/
inductive KernelEvent
  /-- The system call that creates a process, or the creation of the root process. -/
  | create (processStartAddress binLengthBytes flags : Nat) (fresh : FreshMemory)
  /-- The system call that yields, or the yield that starts the root process. -/
  | yield (currentState : Option ProcessRegisterState)
  /-- The system calls that kill the current process or abort its context. -/
  | exit (exitCode : Nat) (destroyContext : Bool) (stale slot : Nat)
  /-- An access of the current process, or of the kernel on its behalf, that faults. -/
  | pageFault (faultAddr : Nat)
  /-- The system call that pops an event of the current process. -/
  | popEvent
  /-- The timer interrupt. -/
  | timer
  /-- A reservation in the kernel's address space by another part of the kernel. -/
  | memmapKernel (va szPages flags : Nat)

/-- What the kernel does on an event. -/
def kernelEvent : KernelEvent → K Unit
  | .create addr len flags fresh => do let _ ← kprocessCreate addr len flags fresh
  | .yield state => do let _ ← kprocessYield state
  | .exit code destroy stale slot => do let _ ← kprocessExit code destroy stale slot
  | .pageFault addr => do pageFaultHandler addr (isMapped (← get) addr)
  | .popEvent => do let _ ← kprocessPopEvent (← kprocessGetCurrentPID)
  | .timer => timerInterruptHandler
  | .memmapKernel va szPages flags => do
    let _ ← kvmmMemmap (← get).context va none szPages flags

end MeghaOS
