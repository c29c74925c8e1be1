import MeghaOS.Lib.Watch
import MeghaOS.Proof.Pids

/-!
# Killing a process under watch

`kprocess_exit` up to the end of `kprocess_kill_process`, with a check before each access to the
record of a process, also by the page fault handler on behalf of `kmalloc` and of the last store,
and one before a context is deleted. The watched programs are those of the kernel with these checks,
and nothing else.

A thread that aborts is killed before its record is read (`thread_abort_reads_released`), and a
kernel process that exits stores to its own stack, which is gone by then, so that the page fault
handler reads its record (`kernel_process_exit_reads_released`). No other call accesses a record
that was released, or deletes the context in use (`kprocessExit_watched`).
-/

namespace MeghaOS

open Exec KState

variable {s s' s₁ : KState} {L L' : List Nat} {p q c pid : Nat} {i : KProcessInfo}

/-! ## The checks -/

/-- What must not happen while a process is killed. -/
inductive Violation
  /-- The record of a process is accessed, and there is none any more. -/
  | released (process : Nat)
  /-- The context that `CR3` points to is deleted. -/
  | contextInUse (context : Nat)
  deriving DecidableEq

/-- Whether there is the record of a process at an address. -/
def KState.hasProc (s : KState) (p : Nat) : Bool :=
  match s.objs p with
  | some (.proc _) => true
  | _ => false

/-- The frame of the page directory of the kernel. -/
def KState.kernelCr3 (s : KState) : Option Nat :=
  match s.objs s.context with
  | some (.vmm v) => some (physicalToPageframe v.parentProcessPD)
  | _ => none

/-- Whether a call of `kmalloc` finds a section and faults on the header it writes. -/
def KState.requestFaults (s : KState) (bytes : Nat) : Bool :=
  match findFreeNode bytes s.heap with
  | .ok (some node, _) =>
    let first := splitAt bytes node / pageFrameSizeBytes
    let last := (splitAt bytes node + sizeofKMallocHeader - 1) / pageFrameSizeBytes
    (List.range' first (last + 1 - first)).any fun page =>
      !isMapped s (u32 (page * pageFrameSizeBytes))
  | _ => false

/-- Watched programs of the kernel. -/
abbrev W : Type → Type := Watched Violation KState

/-- The record of a process is accessed. -/
def access (p : Nat) : W Unit := check (fun s => s.hasProc p) (.released p)

/-- The records of some processes are accessed. -/
def accessAll : List Nat → W Unit
  | [] => return
  | p :: rest => do
    access p
    accessAll rest

/-- The nodes of a children list are accessed. -/
def accessChildren (p : Nat) : W Unit := do
  access p
  accessAll ((← get).info p).childrenListHead

/-- The record of the current process is accessed, if there is one. -/
def accessCurrent : W Unit := do
  let s ← get
  if s.currentProcess = 0 then return else access s.currentProcess

/-- The page fault handler accesses the record of the current process, and to copy the page
directory of the kernel those in the scheduler queue. -/
def accessOnFault (faults : KState → Bool) : W Unit := do
  let s ← get
  if faults s then
    accessCurrent
    accessAll s.schedulerQueue
  else return

/-- `CR3` no longer points to the page directory of a context, unless that is the one of the
kernel. -/
def checkCr3 (context pd : Nat) : W Unit :=
  check (fun s => s.cr3 ≠ physicalToPageframe pd ∨ s.kernelCr3 = some s.cr3) (.contextInUse context)

/-- Read the record of a process. -/
def readProc (p : Nat) : W KProcessInfo := do
  access p
  getProc p

/-- Change the record of a process. -/
def writeProc (p : Nat) (f : KProcessInfo → KProcessInfo) : W Unit := do
  access p
  modifyProc p f

/-! ## The watched programs -/

/-- `list_remove` of the node of a process in a children list; the nodes next to it change too. -/
def watchedChildrenListRemove (p : Nat) : W Unit := do
  match (← readProc p).childrenListNode with
  | .null => (halt .fault : K Unit)
  | .self => writeProc p fun i => { i with childrenListNode := .null }
  | .linked parent =>
    accessChildren parent
    writeProc parent fun i => { i with childrenListHead := i.childrenListHead.erase p }
    writeProc p fun i => { i with childrenListNode := .null }

/-- `list_add_before` of the node of a process at the end of the children list of another; the last
node there changes too. -/
def watchedChildrenListAdd (parent p : Nat) : W Unit := do
  accessChildren parent
  writeProc parent fun i => { i with childrenListHead := i.childrenListHead ++ [p] }
  writeProc p fun i => { i with childrenListNode := .linked parent }

/-- `queue_remove` of the node of a process in the scheduler queue; the nodes next to it change
too. -/
def watchedQueueRemove (p : Nat) : W Unit := do
  match (← readProc p).schedulerQueueNode with
  | .null => (halt .fault : K Unit)
  | .self => writeProc p fun i => { i with schedulerQueueNode := .null }
  | .linked _ =>
    accessAll (← get).schedulerQueue
    modify fun s => { s with schedulerQueue := s.schedulerQueue.erase p }
    writeProc p fun i => { i with schedulerQueueNode := .null }

/-- `change_parent_process`. -/
def watchedChangeParentProcess (p parent : Nat) : W Unit := do
  kAssert (p ≠ (← get).rootProcess) "Child process cannot be child of another process"
  watchedChildrenListRemove p
  let i ← readProc parent
  let newParent := if bitIsSet i.flags processFlagsThread then i.parent else .addr parent
  writeProc p fun i => { i with parent := newParent }
  watchedChildrenListAdd (← newParent.follow) p

/-- The loop of `s_getProcessInfoFromID`. -/
def watchedFindPid (pid : Nat) : List Nat → W Nat
  | [] => (returnError .errInvalidRange 0 : K Nat)
  | p :: rest => do
    if (← readProc p).processID = pid then return p
    else watchedFindPid pid rest

/-- `s_getProcessInfoFromID`. -/
def watchedGetProcessInfoFromID (pid : Nat) : W Nat := do
  watchedFindPid pid (← get).schedulerQueue

/-- `kprocess_pushEvent`. -/
def watchedPushEvent (pid : Nat) (eventID : KernelEvents) (eventData : Nat) : W Bool := do
  let pinfo ← watchedGetProcessInfoFromID pid
  kAssert (pinfo ≠ 0) "Invalid PID"
  accessOnFault (·.requestFaults sizeofKProcessEvent)
  let e ← kmallocObj (.event ⟨eventID, eventData⟩)
  if e = 0 then return false
  else
    writeProc pinfo fun i => { i with eventsQueueHead := i.eventsQueueHead ++ [e] }
    return true

/-- The store `*process = NULL` of `kprocess_kill_process`. -/
def watchedClearSlot : Option Nat → W Unit
  | none => return
  | some slot => do
    accessOnFault fun s => !isMapped s slot
    touch slot

/-- The end of `kprocess_kill_process`, from the release of the register state on. -/
def watchedBury (slot : Option Nat) (i : KProcessInfo) (process exitCode : Nat) : W Bool := do
  access process
  let _ ← kfree i.registerStates
  freeEvents (← readProc process).eventsQueueHead
  watchedChildrenListRemove process
  watchedQueueRemove process
  let parent ← (← readProc process).parent.follow
  kAssert (parent ≠ 0) "Must not be a root process"
  let _ ← watchedPushEvent (← readProc parent).processID .proccessChildKilled exitCode
  let _ ← kfree process
  watchedClearSlot slot
  modify fun s => { s with processCount := u32Sub s.processCount 1 }
  return true

/-- The loop over the children of a killed process. -/
def watchedKillChildren (killThread : Nat → W Bool) (process : Nat) : Nat → W Unit
  | 0 => do
    if (← readProc process).childrenListHead = [] then return
    else (halt .hang : K Unit)
  | n + 1 => do
    match (← readProc process).childrenListHead with
    | [] => return
    | child :: _ =>
      if bitIsUnset (← readProc child).flags processFlagsThread then
        watchedChangeParentProcess child (← get).rootProcess
        kAssert ((← readProc child).parent = .addr (← get).rootProcess)
          "Wrong parent set for process"
      else
        if (← killThread child) = false then (kPanic "BUG" : K Unit)
      watchedKillChildren killThread process n

/-- The deletion of the context of a killed process, once `CR3` points to another one. -/
def watchedDelete (process : Nat) (i : KProcessInfo) : W Unit := do
  let context ← i.context.follow
  let pd ← kvmmGetPageDirectory context
  checkCr3 context pd
  if ← kvmmDelete context then writeProc process fun i => { i with context := .addr 0 }
  let _ ← kpgDeletePageDirectory pd pgDelpdFlagKeepKernelPages

/-- The part of `kprocess_kill_process` after the children of the process are gone. -/
def watchedReleaseContext (stale process : Nat) (i : KProcessInfo) : W Unit := do
  access process
  accessCurrent
  if ← currentUsesContext i.context stale then
    let pd ← kvmmGetPageDirectory (← get).context
    modify fun s => { s with cr3 := physicalToPageframe pd }
  watchedDelete process i

/-- `kprocess_kill_process`, with `killThread` for the call on child threads. -/
def watchedKillWith (killThread : Nat → W Bool) (slot : Option Nat) (stale process exitCode : Nat) :
    W Bool := do
  if (← get).processCount = 0 then (returnError .errProcExitNotAllowed false : K Bool)
  else
    let i ← readProc process
    if i.parent.word = 0 then (returnError .errProcExitNotAllowed false : K Bool)
    else
      if bitIsUnset i.flags processFlagsThread then
        watchedKillChildren killThread process i.childrenListHead.length
        watchedReleaseContext stale process i
        watchedBury slot i process exitCode
      else
        access process
        killStack i
        watchedBury slot i process exitCode

/-- `kprocess_kill_process`. -/
def watchedKillProcess (slot : Option Nat) (stale process exitCode : Nat) : W Bool :=
  watchedKillWith (fun child =>
    watchedKillWith (fun _ => (halt .hang : K Bool)) none stale child kprocessExitCodeForceKilled)
    slot stale process exitCode

/-- The process that `kprocess_exit` kills, and where the variable is that holds it. -/
def exitVictim (destroyContext : Bool) (slot : Nat) : K (Nat × Option Nat) := do
  let s ← get
  kAssert (s.currentProcess ≠ 0) "Nothing to exit"
  let current ← getProc s.currentProcess
  let process ←
    if destroyContext ∧ current.parent.word ≠ 0 ∧ bitIsSet current.flags processFlagsThread then
      current.parent.follow
    else pure s.currentProcess
  return (process, if bitIsSet current.flags processFlagsKernelProcess then some slot else none)

/-- `kprocess_exit` up to the end of `kprocess_kill_process`. -/
def watchedExit (exitCode : Nat) (destroyContext : Bool) (stale slot : Nat) : W Bool := do
  let (process, slot) ← exitVictim destroyContext slot
  watchedKillProcess slot stale process (exitCode % 256)

/-! ## What is watched -/

/-- A check does nothing else. -/
theorem access_watches (p : Nat) : Watches (access p) (pure ()) := .check _ _

/-- Neither do the checks of a list of records. -/
theorem accessAll_watches (l : List Nat) : Watches (accessAll l) (pure ()) := by
  induction l with
  | nil => exact .pure ()
  | cons p l ih => exact (access_watches p).after ih

/-- Nor the check of the current process. -/
theorem accessCurrent_watches : Watches accessCurrent (pure ()) :=
  .get_after fun s => by
    have h : Watches (if s.currentProcess = 0 then pure () else access s.currentProcess)
        (if s.currentProcess = 0 then pure () else pure ()) := .ite (.pure ()) (access_watches _)
    rwa [ite_self] at h

/-- Nor those of the page fault handler. -/
theorem accessOnFault_watches (faults : KState → Bool) :
    Watches (accessOnFault faults) (pure ()) :=
  .get_after fun s => by
    have h : Watches (if faults s then do accessCurrent; accessAll s.schedulerQueue else pure ())
        (if faults s then pure () else pure ()) :=
      .ite (accessCurrent_watches.after (accessAll_watches _)) (.pure ())
    rwa [ite_self] at h

/-- A checked read is the read. -/
theorem readProc_watches (p : Nat) : Watches (readProc p) (getProc p) :=
    (access_watches p).after (.lift _)

/-- A checked write is the write. -/
theorem writeProc_watches (p : Nat) (f : KProcessInfo → KProcessInfo) :
    Watches (writeProc p f) (modifyProc p f) := (access_watches p).after (.lift _)

/-- The checks of the child list do nothing else. -/
theorem accessChildren_watches (p : Nat) : Watches (accessChildren p) (pure ()) :=
  (access_watches p).after (.get_after fun _ => accessAll_watches _)

/-- `list_remove` on the child list, under watch. -/
theorem watchedChildrenListRemove_watches (p : Nat) :
    Watches (watchedChildrenListRemove p) (childrenListRemove p) := by
  refine (readProc_watches p).bind fun i => ?_
  cases i.childrenListNode with
  | null => exact .lift _
  | self => exact writeProc_watches _ _
  | linked parent =>
    exact (accessChildren_watches parent).after
      ((writeProc_watches _ _).bind fun _ => writeProc_watches _ _)

/-- `list_add_before` on the child list, under watch. -/
theorem watchedChildrenListAdd_watches (parent p : Nat) :
    Watches (watchedChildrenListAdd parent p) (childrenListAdd parent p) :=
  (accessChildren_watches parent).after ((writeProc_watches _ _).bind fun _ =>
    writeProc_watches _ _)

/-- `queue_remove` on the scheduler queue, under watch. -/
theorem watchedQueueRemove_watches (p : Nat) : Watches (watchedQueueRemove p) (queueRemove p) := by
  refine (readProc_watches p).bind fun i => ?_
  cases i.schedulerQueueNode with
  | null => exact .lift _
  | self => exact writeProc_watches _ _
  | linked _ =>
    have hqueue : Watches (do accessAll (← get).schedulerQueue) (pure ()) :=
      .get_after fun _ => accessAll_watches _
    exact hqueue.after ((Watches.lift _).bind fun _ => writeProc_watches _ _)

/-- `s_changeParentProcess`, under watch. -/
theorem watchedChangeParentProcess_watches (p parent : Nat) :
    Watches (watchedChangeParentProcess p parent) (changeParentProcess p parent) :=
  .get_bind fun _ => (Watches.lift _).bind fun _ =>
    (watchedChildrenListRemove_watches p).bind fun _ => (readProc_watches parent).bind fun _ =>
      (writeProc_watches _ _).bind fun _ => (Watches.lift _).bind fun _ =>
        watchedChildrenListAdd_watches _ _

/-- The search for a PID, under watch. -/
theorem watchedFindPid_watches (pid : Nat) (l : List Nat) :
    Watches (watchedFindPid pid l) (findPid pid l) := by
  induction l with
  | nil => exact .lift _
  | cons p l ih => exact (readProc_watches p).bind fun i => .ite (.pure p) ih

/-- `kprocess_pushEvent`, under watch. -/
theorem watchedPushEvent_watches (pid : Nat) (eventID : KernelEvents) (data : Nat) :
    Watches (watchedPushEvent pid eventID data) (kprocessPushEvent pid eventID data) := by
  have hfind : Watches (watchedGetProcessInfoFromID pid) (sGetProcessInfoFromID pid) :=
    .get_bind fun _ => watchedFindPid_watches pid _
  refine hfind.bind fun pinfo => (Watches.lift _).bind fun _ =>
    (accessOnFault_watches _).after ((Watches.lift _).bind fun e => ?_)
  exact Watches.ite (c := e = 0) (.pure false) ((writeProc_watches _ _).bind fun _ => .pure true)

/-- The store to the variable that holds the process, under watch. -/
theorem watchedClearSlot_watches (slot : Option Nat) :
    Watches (watchedClearSlot slot) (clearSlot slot) := by
  cases slot with
  | none => exact .pure ()
  | some slot => exact (accessOnFault_watches _).after (.lift _)

/-- The end of `kprocess_kill_process`, under watch. -/
theorem watchedBury_watches (slot : Option Nat) (i : KProcessInfo) (process exitCode : Nat) :
    Watches (watchedBury slot i process exitCode) (bury slot i process exitCode) :=
  (access_watches process).after <| (Watches.lift _).bind fun _ =>
    (readProc_watches process).bind fun _ => (Watches.lift _).bind fun _ =>
      (watchedChildrenListRemove_watches process).bind fun _ =>
        (watchedQueueRemove_watches process).bind fun _ => (readProc_watches process).bind fun _ =>
          (Watches.lift _).bind fun parent => (Watches.lift _).bind fun _ =>
            (readProc_watches parent).bind fun _ => (watchedPushEvent_watches _ _ _).bind fun _ =>
              (Watches.lift _).bind fun _ => (watchedClearSlot_watches slot).bind fun _ =>
                (Watches.lift _).bind fun _ => .pure true

/-- The loop over the children, when the calls in it are watched. -/
theorem watchedKillChildren_watches {watchedThread : Nat → W Bool} {killThread : Nat → K Bool}
    (hthread : ∀ p, Watches (watchedThread p) (killThread p)) (process n : Nat) :
    Watches (watchedKillChildren watchedThread process n) (killChildren killThread process n) := by
  induction n with
  | zero => exact (readProc_watches process).bind fun i => .ite (.pure ()) (.lift _)
  | succ n ih =>
    refine (readProc_watches process).bind fun i => ?_
    cases i.childrenListHead with
    | nil => exact .pure ()
    | cons child l =>
      refine (readProc_watches child).bind fun j => ?_
      dsimp only
      split
      · refine .get_bind fun s => (watchedChangeParentProcess_watches child _).bind fun _ => ?_
        exact (readProc_watches child).bind fun k => .get_bind fun s =>
          (Watches.lift _).bind fun _ => ih
      · refine (hthread child).bind fun killed => ?_
        exact .ite ((Watches.lift _).bind fun _ => ih) ih

/-- The release of the context, under watch. -/
theorem watchedReleaseContext_watches (stale process : Nat) (i : KProcessInfo) :
    Watches (watchedReleaseContext stale process i) (releaseContext stale process i) := by
  refine (access_watches process).after (accessCurrent_watches.after ?_)
  refine (Watches.lift _).bind fun uses => ?_
  have hdelete : Watches (watchedDelete process i) (do
      let context ← i.context.follow
      let pd ← kvmmGetPageDirectory context
      if ← kvmmDelete context then modifyProc process fun i => { i with context := .addr 0 }
      let _ ← kpgDeletePageDirectory pd pgDelpdFlagKeepKernelPages) := by
    refine (Watches.lift _).bind fun context => (Watches.lift _).bind fun pd => ?_
    refine (Watches.check _ _).after ((Watches.lift _).bind fun deleted => ?_)
    exact .ite ((writeProc_watches _ _).bind fun _ => (Watches.lift _).bind fun _ => .pure ())
      ((Watches.lift _).bind fun _ => .pure ())
  refine Watches.ite (c := uses = true) ?_ hdelete
  exact .get_bind fun s => (Watches.lift _).bind fun pd => (Watches.lift _).bind fun _ => hdelete

/-- `kprocess_kill_process`, when the calls for its threads are watched. -/
theorem watchedKillWith_watches {watchedThread : Nat → W Bool} {killThread : Nat → K Bool}
    (hthread : ∀ p, Watches (watchedThread p) (killThread p)) (slot : Option Nat)
    (stale process exitCode : Nat) :
    Watches (watchedKillWith watchedThread slot stale process exitCode)
      (killWith killThread slot stale process exitCode) := by
  rw [killWith_eq]
  refine .get_bind fun s => .ite (.lift _)
    ((readProc_watches process).bind fun i => .ite (.lift _) ?_)
  refine .ite ?_ ?_
  · have hcontext : killContext killThread stale process i = (do
        killChildren killThread process i.childrenListHead.length
        releaseContext stale process i) := rfl
    rw [hcontext, bind_assoc]
    exact (watchedKillChildren_watches hthread process _).bind fun _ =>
      (watchedReleaseContext_watches stale process i).bind fun _ => watchedBury_watches slot i
        process exitCode
  · exact (access_watches process).after ((Watches.lift _).bind fun _ =>
      watchedBury_watches slot i process exitCode)

/-- The watched kill is the kill with checks. -/
theorem watchedKillProcess_watches (slot : Option Nat) (stale process exitCode : Nat) :
    Watches (watchedKillProcess slot stale process exitCode)
    (kprocessKillProcess slot stale process exitCode) :=
  watchedKillWith_watches
    (fun child => watchedKillWith_watches (fun _ => .lift _) none stale child _) slot stale
    process exitCode

/-- `kprocess_exit` kills a process and yields. -/
theorem kprocessExit_eq (exitCode : Nat) (destroyContext : Bool) (stale slot : Nat) :
    kprocessExit exitCode destroyContext stale slot = (do
      let (process, slot) ← exitVictim destroyContext slot
      exitProcess slot exitCode stale process) := by
  unfold kprocessExit exitVictim exitProcess
  simp only [bind_assoc, pure_bind, Exec.ite_bind]

/-! ## Accesses to records that are there -/

section

variable {α : Type} {P : Violation → Prop} {g : KProcessInfo → KProcessInfo} {l : List Nat}

/-- `hasProc` says that there is the record of a process. -/
theorem hasProc_iff : s.hasProc p = true ↔ ∃ i, s.objs p = some (.proc i) := by
  unfold KState.hasProc
  split <;> simp_all

/-- A live process has a record. -/
theorem ProcsOk.hasProc (h : ProcsOk s L) (hp : p ∈ L) : s.hasProc p = true :=
  hasProc_iff.2 ⟨_, h.proc p hp⟩

/-- A check passes, or reports the record that was released. -/
theorem access_confined (h : s.hasProc p = true ∨ P (.released p)) :
    Confined P (access p) s := .check h

/-- When it passes, the program goes on. -/
theorem access_bind {f : Unit → W α} (h : s.hasProc p = true) (hf : Confined P (f ()) s) :
    Confined P (access p >>= f) s := (access_confined (.inl h)).after (access_watches p) hf

/-- The checks of records that are there pass. -/
theorem accessAll_confined (h : ∀ p ∈ l, s.hasProc p = true) : Confined P (accessAll l) s := by
  induction l with
  | nil => exact .pure ()
  | cons p l ih => exact access_bind (h p (.head l)) (ih fun q hq => h q (.tail p hq))

/-- So do those of the child list. -/
theorem accessChildren_bind {f : Unit → W α} (h : s.hasProc p = true)
    (hl : ∀ c ∈ (s.info p).childrenListHead, s.hasProc c = true) (hf : Confined P (f ()) s) :
    Confined P (accessChildren p >>= f) s :=
  .after (access_bind h (.get_bind (accessAll_confined hl))) (accessChildren_watches p) hf

/-- A record that is there can be read. -/
theorem readProc_confined (h : s.hasProc p = true) : Confined P (readProc p) s :=
  access_bind h (.lift _)

/-- What follows a read knows the record. -/
theorem readProc_bind {f : KProcessInfo → W α} (h : s.hasProc p = true)
    (hf : ∀ i, s.objs p = some (.proc i) → Confined P (f i) s) : Confined P (readProc p >>= f) s :=
  (readProc_confined h).bind (readProc_watches p) fun i t hread => by
    obtain ⟨hi, rfl⟩ := getProc_eq_ok.1 hread
    exact hf i hi

/-- A record that is there can be written. -/
theorem writeProc_confined (h : s.hasProc p = true) : Confined P (writeProc p g) s :=
  access_bind h (.lift _)

/-- What follows a write knows the state after it. -/
theorem writeProc_bind {f : Unit → W α} (h : s.hasProc p = true)
    (hf : ∀ t, modifyProc p g s = .ok ((), t) → Confined P (f ()) t) :
    Confined P (writeProc p g >>= f) s :=
  (writeProc_confined h).bind (writeProc_watches p g) fun _ t hwrite => hf t hwrite

/-- The record of the current process is there, or it may be missed. -/
def CurrentReadable (P : Violation → Prop) (s : KState) : Prop :=
  s.currentProcess = 0 ∨ s.hasProc s.currentProcess = true ∨ P (.released s.currentProcess)

/-- The check of the current process passes when its record is readable. -/
theorem accessCurrent_confined (h : CurrentReadable P s) : Confined P accessCurrent s :=
  .get_bind (.ite (fun _ => .pure ()) fun hne => access_confined (h.resolve_left hne))

/-- So does the page fault handler, when the scheduler queue holds live processes only. -/
theorem accessOnFault_confined {faults : KState → Bool} (h : CurrentReadable P s)
    (hl : ∀ p ∈ s.schedulerQueue, s.hasProc p = true) : Confined P (accessOnFault faults) s :=
  .get_bind (.ite (fun _ => (accessCurrent_confined h).after accessCurrent_watches
    (accessAll_confined hl)) fun _ => .pure ())

/-! ## Records that stay -/

/-- No record of a process is released. -/
def KeepsProcs (s s' : KState) : Prop := ∀ a, s.hasProc a = true → s'.hasProc a = true

/-- The record of the current process stays readable while no record goes. -/
theorem CurrentReadable.keep (h : CurrentReadable P s) (hk : KeepsProcs s s')
    (hcur : s'.currentProcess = s.currentProcess) : CurrentReadable P s' := by
  rw [CurrentReadable, hcur]
  exact h.imp_right fun hor => hor.imp_left (hk _)

namespace KeepsProcs

/-- Nothing goes in two parts of a run. -/
theorem trans (h₁ : KeepsProcs s s₁) (h₂ : KeepsProcs s₁ s') : KeepsProcs s s' :=
  fun a ha => h₂ a (h₁ a ha)

/-- A run that keeps the records of processes. -/
theorem of_records (h : ∀ b i, s.objs b = some (.proc i) → s'.records b = s.records b) :
    KeepsProcs s s' := by
  intro a ha
  obtain ⟨i, hi⟩ := hasProc_iff.1 ha
  exact hasProc_iff.2 ⟨i, proc_of_records (h a i hi) hi⟩

/-- A run of the memory manager. -/
theorem of_vmStep {gone : Nat → Prop} (h : VmStep gone s s') : KeepsProcs s s' :=
  of_records fun b _ _ => congrFun h.records b

/-- A write to a record. -/
theorem modifyProc (h : modifyProc p g s = .ok ((), s')) : KeepsProcs s s' := by
  obtain ⟨i, -, rfl⟩ := modifyProc_eq_ok.1 h
  intro a ha
  by_cases hap : a = p
  · rw [hap]
    exact hasProc_iff.2 ⟨_, objs_setObj_self _⟩
  · obtain ⟨j, hj⟩ := hasProc_iff.1 ha
    exact hasProc_iff.2 ⟨j, (objs_setObj_of_ne _ hap).trans hj⟩

/-- `list_remove` on the child list. -/
theorem childrenListRemove (h : childrenListRemove p s = .ok ((), s')) : KeepsProcs s s' := by
  obtain ⟨i, -, hrest⟩ := getProc_bind_eq_ok.1 h
  cases hnode : i.childrenListNode with
  | null =>
    rw [hnode] at hrest
    cases hrest
  | self =>
    rw [hnode] at hrest
    exact modifyProc hrest
  | linked parent =>
    rw [hnode] at hrest
    obtain ⟨_, s₁, hparent, hrest⟩ := bind_eq_ok.1 hrest
    exact (modifyProc hparent).trans (modifyProc hrest)

/-- `queue_remove` on the scheduler queue. -/
theorem queueRemove (h : queueRemove p s = .ok ((), s')) : KeepsProcs s s' := by
  obtain ⟨i, -, hrest⟩ := getProc_bind_eq_ok.1 h
  cases hnode : i.schedulerQueueNode with
  | null =>
    rw [hnode] at hrest
    cases hrest
  | self =>
    rw [hnode] at hrest
    exact modifyProc hrest
  | linked _ =>
    rw [hnode] at hrest
    obtain ⟨_, s₁, herase, hrest⟩ := bind_eq_ok.1 hrest
    cases herase
    have hqueue : KeepsProcs s { s with schedulerQueue := s.schedulerQueue.erase p } :=
      fun _ ha => ha
    exact hqueue.trans (modifyProc hrest)

end KeepsProcs

/-! ## Lists and events -/

/-- The child list leads to live processes only. -/
theorem watchedChildrenListRemove_confined (h : ProcsOk s L) (hp : p ∈ L) (hq : q ∈ L)
    (hchild : IsChild s.kin p q) : Confined P (watchedChildrenListRemove p) s := by
  refine readProc_bind (h.hasProc hp) fun i hi => ?_
  obtain rfl := (info_eq hi).symm
  rw [NodeState.eq_linked hchild.listedBy]
  refine accessChildren_bind (h.hasProc hq)
    (fun c hc => h.hasProc (h.family.children q hq c hc).1) ?_
  exact writeProc_bind (h.hasProc hq) fun t ht =>
    writeProc_confined (KeepsProcs.modifyProc ht p (h.hasProc hp))

/-- So does the scheduler queue. -/
theorem watchedQueueRemove_confined (hp : s.hasProc p = true)
    (hqueue : ∀ q ∈ s.schedulerQueue, s.hasProc q = true) :
      Confined P (watchedQueueRemove p) s := by
  refine readProc_bind hp fun i _ => ?_
  cases i.schedulerQueueNode with
  | null => exact .lift _
  | self => exact writeProc_confined hp
  | linked _ =>
    refine .get_bind (.after (accessAll_confined hqueue) (accessAll_watches _) ?_)
    refine .lift_bind fun _ t ht => ?_
    cases ht
    exact writeProc_confined hp

/-- The search for a PID reads live records only. -/
theorem watchedFindPid_confined (hl : ∀ p ∈ l, s.hasProc p = true) :
    Confined P (watchedFindPid pid l) s := by
  induction l with
  | nil => exact .lift _
  | cons p l ih =>
    exact readProc_bind (hl p (.head l)) fun i _ =>
      .ite (fun _ => .pure p) fun _ => ih fun q hq => hl q (.tail p hq)

/-- An event is pushed to a live process. -/
theorem watchedPushEvent_confined {eventID : KernelEvents} {data : Nat} (h : ProcsOk s L)
    (hcur : CurrentReadable P s) : Confined P (watchedPushEvent pid eventID data) s := by
  have hqueue : ∀ p ∈ s.schedulerQueue, s.hasProc p = true :=
    fun p hp => h.hasProc (h.queueSubset p hp)
  have hfind : Watches (watchedGetProcessInfoFromID pid) (sGetProcessInfoFromID pid) :=
    .get_bind fun _ => watchedFindPid_watches pid _
  refine Confined.bind (.get_bind (watchedFindPid_confined hqueue)) hfind fun pinfo t hrun => ?_
  refine .lift_bind fun _ t' hassert => ?_
  obtain ⟨hne, rfl⟩ := kAssert_eq_ok.1 hassert
  -- the process was found in the queue
  obtain ⟨p, hfound, hp⟩ := lookup_bind_eq_ok (f := fun p => (pure p : K Nat)) (e := "") h
    (bind_eq_ok.2 ⟨pinfo, t, hrun, kAssert_bind_eq_ok.2 ⟨hne, rfl⟩⟩)
  cases hp
  refine .after (accessOnFault_confined hcur hqueue) (accessOnFault_watches _) ?_
  refine .lift_bind fun e t' hrequest => .ite (fun _ => .pure false) fun he => ?_
  obtain ⟨-, hfresh, -, hstep⟩ := (kmallocObj_recordsStep rfl h.ready hrequest).resolve_left
    fun hnull => he hnull.1
  refine writeProc_bind ?_ fun _ _ => .pure true
  refine KeepsProcs.of_records (fun b i hi => hstep.records b fun hbe => ?_) pinfo
    (hqueue pinfo (findProcess_mem hfound).1)
  rw [hbe, hfresh] at hi
  cases hi

/-! ## The end of the killing -/

/-- A process without children is buried without another access to its record. -/
theorem watchedBury_confined (h : ProcsOk s L) (ho : OwnedOk s L) (hp : p ∈ L) (hq : q ∈ L)
    (hchild : IsChild s.kin p q) (hleaf : (s.info p).childrenListHead = [])
    (hregs : i.registerStates = (s.info p).registerStates) {exitCode : Nat}
    (hcur : CurrentReadable P s) : Confined P (watchedBury none i p exitCode) s := by
  refine access_bind (h.hasProc hp) (.lift_bind fun _ s₁ hfree => ?_)
  obtain ⟨regs, hregsObj⟩ := ho.regs p hp
  rw [hregs] at hfree
  have h₁ := kfree_recordsStep h.ready hregsObj rfl hfree
  obtain ⟨hprocs₁, -, hproc₁⟩ := h.released ho hp h₁ fun b hb => .inl hb
  refine readProc_bind (hprocs₁.hasProc hp) fun j hj => .lift_bind fun _ s₂ hevents => ?_
  obtain rfl : j = s.info p := Obj.proc.inj (Option.some.inj (hj.symm.trans (hproc₁ p hp)))
  obtain ⟨h₂, -⟩ := h.freeOwned ho hp hfree hevents
  obtain ⟨hprocs₂, -, hproc₂⟩ := h.released ho hp h₂ fun b hb => hb
  have hinfo₂ : ∀ x ∈ L, s₂.info x = s.info x := fun x hx => info_eq (hproc₂ x hx)
  have hchild₂ := hchild.of_info (hinfo₂ p hp) (hinfo₂ q hq)
  have hkeep₂ : KeepsProcs s s₂ := .of_records fun b j hj => h₂.records b fun hor => ?_
  · refine Confined.bind (watchedChildrenListRemove_confined hprocs₂ hp hq hchild₂)
      (watchedChildrenListRemove_watches p) fun _ s₃ hchildren => ?_
    have hkeep₃ := KeepsProcs.childrenListRemove hchildren
    obtain ⟨-, -, h₃⟩ := childrenListRemove_spec hprocs₂.ready hchild.ne
      (NodeState.eq_linked hchild₂.listedBy) hchildren
    have hqueue₃ : s₃.schedulerQueue = s₂.schedulerQueue :=
      congrArg Globals.schedulerQueue h₃.globals
    refine Confined.bind (watchedQueueRemove_confined (hkeep₃ p (hprocs₂.hasProc hp)) fun r hr =>
      hkeep₃ r (hprocs₂.hasProc (hprocs₂.queueSubset r (hqueue₃ ▸ hr))))
      (watchedQueueRemove_watches p) fun _ s₄ hqueue => ?_
    have hleft := leave_spec hprocs₂ hp hchild₂ (by rw [hinfo₂ p hp, hleaf]) hchildren hqueue
    have hcur₄ : s₄.currentProcess = s.currentProcess := by
      rw [show s₄.currentProcess = s₂.currentProcess from congrArg Globals.currentProcess
        hleft.globals]
      exact congrArg Globals.currentProcess h₂.globals
    refine readProc_bind (hasProc_iff.2 ⟨_, hleft.proc⟩) fun j hj => .lift_bind fun q'
      t hparent => ?_
    obtain ⟨rfl, rfl⟩ : q' = q ∧ t = s₄ := by
      obtain rfl := Obj.proc.inj (Option.some.inj (hj.symm.trans hleft.proc))
      cases hparent
      exact ⟨Ptr.word_of_target hchild₂.parent, rfl⟩
    refine .lift_bind fun _ t hassert => ?_
    obtain ⟨-, rfl⟩ := kAssert_eq_ok.1 hassert
    have hq₄ : q' ∈ L.erase p := (List.mem_erase_of_ne hchild.ne.symm).2 hq
    refine readProc_bind (hleft.procs.hasProc hq₄) fun j _ => ?_
    refine Confined.bind (watchedPushEvent_confined hleft.procs (hcur.keep
      (hkeep₂.trans (hkeep₃.trans (.queueRemove hqueue))) hcur₄)) (watchedPushEvent_watches _ _ _)
      fun _ t _ => ?_
    exact .lift_bind fun _ _ _ => .after (.pure ()) (.pure ()) (.lift_bind fun _ _ _ => .pure true)
  · -- neither registers nor an event is the record of a process
    rcases hor with rfl | hmem
    · rw [hregsObj] at hj
      cases hj
    · obtain ⟨ev, hev⟩ := ho.events p hp b hmem
      rw [hev] at hj
      cases hj

/-! ## The children of a killed process -/

/-- A child is handed to the root process through live records. -/
theorem watchedChangeParentProcess_confined (h : ProcsOk s L) (hc : c ∈ L) (hp : p ∈ L)
    (hchild : IsChild s.kin c p) (hr : s.rootProcess ∈ L) (hroot : IsRoot s.kin s.rootProcess) :
    Confined P (watchedChangeParentProcess c s.rootProcess) s := by
  refine .get_bind (.lift_bind fun _ t hassert => ?_)
  obtain ⟨hne, rfl⟩ := kAssert_eq_ok.1 hassert
  refine Confined.bind (watchedChildrenListRemove_confined h hc hp hchild)
    (watchedChildrenListRemove_watches c) fun _ s₁ hremove => ?_
  obtain ⟨-, hobjs₁⟩ := h.unlisted hchild hremove
  have hhas₁ : ∀ x ∈ L, s₁.hasProc x = true := fun x hx => hasProc_iff.2 ⟨_, hobjs₁ x hx⟩
  refine readProc_bind (hhas₁ _ hr) fun i hi => writeProc_bind (hhas₁ c hc) fun s₂ hwrite => ?_
  obtain rfl := Obj.proc.inj (Option.some.inj (hi.symm.trans (hobjs₁ _ hr)))
  have hunset : ¬ bitIsSet (s.info s.rootProcess).flags processFlagsThread = true := fun hset =>
    Bool.noConfusion ((h.root_isThread hr hroot).symm.trans hset)
  rw [if_neg hunset] at hwrite ⊢
  refine .lift_bind fun r t hfollow => ?_
  obtain ⟨rfl, rfl⟩ : r = s.rootProcess ∧ t = s₂ := by
    cases hfollow
    exact ⟨rfl, rfl⟩
  have hhas₂ : ∀ x ∈ L, t.hasProc x = true := fun x hx => KeepsProcs.modifyProc hwrite
    x (hhas₁ x hx)
  have hinfo₂ : t.info s.rootProcess = s₁.info s.rootProcess := by
    obtain ⟨j, -, rfl⟩ := modifyProc_eq_ok.1 hwrite
    rw [info_setObj, if_neg (Ne.symm hne)]
  refine accessChildren_bind (hhas₂ _ hr) (fun x hx => ?_) ?_
  · rw [hinfo₂, info_eq (hobjs₁ _ hr)] at hx
    exact hhas₂ x (h.family.children _ hr x (List.mem_of_mem_erase hx)).1
  · exact writeProc_bind (hhas₂ _ hr) fun s₃ hadd =>
      writeProc_confined (KeepsProcs.modifyProc hadd c (hhas₂ c hc))

/-- A thread has no children, and shares its context: only its own record is accessed. -/
theorem watchedKillThread_confined (h : ProcsOk s L) (ho : OwnedOk s L) (hp : p ∈ L)
    (hthread : (s.info p).isThread = true) {watchedThread : Nat → W Bool} {stale exitCode : Nat}
    (hcur : CurrentReadable P s) :
      Confined P (watchedKillWith watchedThread none stale p exitCode) s := by
  obtain ⟨q, hq, hchild⟩ := h.thread_isChild hp hthread
  refine .get_bind (.ite (fun _ => .lift _) fun _ => readProc_bind (h.hasProc hp) fun i hi => ?_)
  obtain rfl := (info_eq hi).symm
  refine .ite (fun _ => .lift _) fun _ => .ite (fun hunset => ?_) fun _ => ?_
  · rw [← isThread_eq_false, hthread] at hunset
    cases hunset
  refine access_bind (h.hasProc hp) (.lift_bind fun _ t hstack => ?_)
  obtain ⟨-, hstack⟩ := kAssert_bind_eq_ok.1 hstack
  replace hstack := follow_bind_eq_ok.1 hstack
  obtain ⟨freed, t', hfree, hstack⟩ := bind_eq_ok.1 hstack
  cases hstack
  have hstep : VmStep (fun _ => False) _ _ := kvmmFree_vmFrame _ _ _ _ _ hfree h.ready
  have hinfo : ∀ x, t.info x = s.info x := fun x => info_congr (congrFun hstep.records x)
  exact watchedBury_confined (h.of_vmStep hstep) (ho.of_vmStep hstep) hp hq
    (hchild.of_info (hinfo p) (hinfo q)) (by rw [hinfo]; exact h.family.leaf p hp hthread)
    (by rw [hinfo])
    (hcur.keep (.of_vmStep hstep) (congrArg Globals.currentProcess hstep.globals))

/-- The current process is the one that is killed, or its record may be missed. -/
def CurrentDies (P : Violation → Prop) (s : KState) (q : Nat) : Prop :=
  s.currentProcess = q ∨ P (.released s.currentProcess)

/-- Until the process that dies is released, the current process is readable. -/
theorem CurrentDies.readable (h : CurrentDies P s q) (hq : s.hasProc q = true) :
    CurrentReadable P s :=
  .inr (Or.imp_left (fun heq => by rw [heq]; exact hq) h)

/-- The children of a process are killed or handed over through live records. -/
theorem watchedKillChildren_confined {watchedThread : Nat → W Bool} {killThread : Nat → K Bool}
    (hwatches : ∀ p, Watches (watchedThread p) (killThread p)) {stale n : Nat} (h : ProcsOk s L)
    (ho : OwnedOk s L) (hq : q ∈ L) (hroot : s.rootProcess ≠ 0) (hcur : CurrentDies P s q) :
    Confined P (watchedKillChildren (fun child =>
      watchedKillWith watchedThread none stale child kprocessExitCodeForceKilled) q n) s := by
  induction n generalizing s L with
  | zero =>
    exact readProc_bind (h.hasProc hq) fun i _ => .ite (fun _ => .pure ()) fun _ => .lift _
  | succ n ih =>
    refine readProc_bind (h.hasProc hq) fun i hi => ?_
    obtain rfl := (info_eq hi).symm
    cases hlist : (s.info q).childrenListHead with
    | nil => exact .pure ()
    | cons c l =>
      have hchild : IsChild s.kin c q :=
        h.family.isChild_of_mem hq (by rw [KState.kin, KProcessInfo.kin, hlist]; exact .head l)
      have hc : c ∈ L := (h.family.children q hq c hchild.mem).1
      refine readProc_bind (h.hasProc hc) fun i hi => ?_
      obtain rfl := (info_eq hi).symm
      refine .ite (fun hunset => .get_bind ?_) fun hset => ?_
      · obtain ⟨hr, hrootOk⟩ := h.rootProcess.resolve_left hroot
        refine Confined.bind (watchedChangeParentProcess_confined h hc hq hchild hr hrootOk)
          (watchedChangeParentProcess_watches _ _) fun _ s₁ hchange => ?_
        have hadopted := changeParentProcess_spec h ho hc hq hchild hchange
        have hglobals := hadopted.step.globals
        refine readProc_bind (hadopted.procs.hasProc hc) fun i _ =>
          .get_bind (.lift_bind fun _ t ht => ?_)
        obtain ⟨-, rfl⟩ := kAssert_eq_ok.1 ht
        refine ih hadopted.procs hadopted.owned hq ?_ ?_
        · rw [show s₁.rootProcess = s.rootProcess from congrArg Globals.rootProcess hglobals]
          exact hroot
        · rw [CurrentDies, show s₁.currentProcess = s.currentProcess from
            congrArg Globals.currentProcess hglobals]
          exact hcur
      · have hthread : (s.info c).isThread = true := by
          rw [← isThread_eq_false] at hset
          exact Bool.eq_true_of_not_eq_false hset
        refine Confined.bind (watchedKillThread_confined h ho hc hthread
          (hcur.readable (h.hasProc hq))) (watchedKillWith_watches hwatches _ _ _ _) fun killed
            s₁ hkill => ?_
        obtain ⟨rfl, q', hkilled⟩ := killThread_spec h ho hc hthread hkill
        obtain rfl : q' = q := Option.some.inj (hkilled.child.parent.symm.trans hchild.parent)
        obtain ⟨hprocs₁, howned₁⟩ := hkilled.procs
        refine .ite (fun habsurd => by cases habsurd) fun _ => ?_
        have hs : Survive (fun _ => True) s s₁ L (L.erase c) :=
          hkilled.survive h ho hc fun _ _ => trivial
        refine ih hprocs₁ howned₁ ((List.mem_erase_of_ne hchild.ne.symm).2 hq) ?_ ?_
        · rw [(hkilled.children h).1]
          exact hroot
        · rw [CurrentDies, show s₁.currentProcess = s.currentProcess from
            congrArg Globals.currentProcess hs.globals]
          exact hcur

/-! ## The context of a killed process -/

/-- The context that is deleted is not in use, as the kernel's is loaded before. -/
theorem watchedDelete_confined (hready : HeapReady s) (hq : s.hasProc q = true)
    (hcr3 : s.kernelCr3 = some s.cr3) : Confined P (watchedDelete q i) s := by
  refine .lift_bind fun context t hfollow => ?_
  cases hfollow
  refine .lift_bind fun pd t' hpd => ?_
  obtain ⟨v, -, hpd⟩ := getVmm_bind_eq_ok.1 hpd
  cases hpd
  refine Confined.after (.check (.inl (decide_eq_true (.inr hcr3)))) (.check _ _) ?_
  refine .lift_bind fun deleted s₁ hdelete => .ite (fun _ => ?_) fun _ => .lift_bind fun _
    _ _ => .pure ()
  have hstep : VmStep (· = i.context.word) s s₁ := kvmmDelete_vmFrame _ _ _ _ hdelete hready
  exact writeProc_bind (KeepsProcs.of_vmStep hstep q hq) fun _ _ => .lift_bind fun _ _ _ => .pure ()

/-- When the current process is the one that is killed, it uses the context that is deleted. -/
theorem currentUsesContext_self {stale : Nat} (hcur : s.currentProcess = q) (hne : q ≠ 0)
    (hq : s.objs q = some (.proc (s.info q))) :
    currentUsesContext (s.info q).context stale s = .ok (true, s) := by
  rw [currentUsesContext, get_bind_apply, if_neg (by rwa [hcur]), hcur, hq]
  simp

/-- The release of the context reads the record of the current process, if that is still there. -/
theorem watchedReleaseContext_confined {stale : Nat} (h : ProcsOk s L) (hq : q ∈ L)
    (hi : i.context = (s.info q).context)
    (hcur : s.currentProcess = q ∨
      s.currentProcess ≠ 0 ∧ s.hasProc s.currentProcess = false ∧ P (.released s.currentProcess)) :
    Confined P (watchedReleaseContext stale q i) s := by
  refine access_bind (h.hasProc hq) ?_
  rcases hcur with hcur | ⟨hne, hgone, hP⟩
  · refine (accessCurrent_confined (.inr (.inl (by rw [hcur]; exact h.hasProc hq)))).after
      accessCurrent_watches (.lift_bind fun uses t huses => ?_)
    rw [hi, currentUsesContext_self hcur (h.ne_zero hq) (h.proc q hq)] at huses
    cases huses
    refine .ite (fun _ => .get_bind ?_) fun habsurd => absurd rfl habsurd
    refine .lift_bind fun pd t hpd => ?_
    obtain ⟨v, hv, hpd⟩ := getVmm_bind_eq_ok.1 hpd
    cases hpd
    refine .lift_bind fun _ t ht => ?_
    cases ht
    refine watchedDelete_confined (h.reload _).ready (h.hasProc hq) ?_
    show s.kernelCr3 = _
    rw [KState.kernelCr3, hv]
  · -- the run ends at the access to the record of the current process
    intro v t hrun
    have hcheck : accessCurrent.run s = .ok (.error (.released s.currentProcess), s) := by
      show (if s.currentProcess = 0 then pure () else access s.currentProcess : W Unit).run s = _
      rw [if_neg hne, access, run_check, hgone]
      rfl
    rcases watched_bind_eq_violation.1 hrun with hrun | ⟨_, t', hrun, -⟩
    · rw [hcheck] at hrun
      cases hrun
      exact hP
    · rw [hcheck] at hrun
      cases hrun

/-! ## Killing a process -/

/-- A thread whose parent has lost its children is dead, and its record is released. -/
theorem ChildrenGone.released {x : Nat} (hgone : ChildrenGone q s L s₁ L') (h : ProcsOk s L)
    (ho : OwnedOk s L) (hq : q ∈ L) (hheap : ∀ x ∈ L, ¬ IsStatic x) (hx : x ∈ L)
    (hthread : (s.info x).isThread = true) (hchild : IsChild s.kin x q)
    (hnil : (s₁.info q).childrenListHead = []) : s₁.hasProc x = false := by
  obtain ⟨hs, -⟩ := hgone.survive (R := fun _ => True) h ho hq (.inl fun _ => trivial)
  have hx' : x ∉ L' := fun hx' => by
    have hflags := (KProcessInfo.of_self (hs.self x hx')).2.1
    obtain ⟨q', hq', hchild'⟩ :=
      hs.procs.thread_isChild hx' (by rwa [KProcessInfo.isThread, hflags])
    have hparent := (hs.procs.word_ne_zero hx' hchild' hq').1
    rw [hs.thread x hx' hthread, (h.word_ne_zero hx hchild hq).1] at hparent
    obtain rfl := Ptr.addr.inj hparent
    have hmem : x ∈ (s₁.info q).childrenListHead := hchild'.mem
    rw [hnil] at hmem
    cases hmem
  by_contra hne
  obtain ⟨j, hj⟩ := hasProc_iff.1 (Bool.eq_true_of_not_eq_false hne)
  exact (hs.dead hheap x j hx' hj).1 hx

/-- The current process is killed itself, or it is a thread of the process that is killed and its
record may be missed. -/
def KillsCurrent (P : Violation → Prop) (s : KState) (p : Nat) : Prop :=
  s.currentProcess = p ∨ (s.info s.currentProcess).isThread = true ∧
    IsChild s.kin s.currentProcess p ∧ P (.released s.currentProcess)

/-- `kprocess_kill_process` accesses a released record only on behalf of the current process it
killed. -/
theorem watchedKillProcess_confined {slot : Option Nat} {stale exitCode : Nat} (h : ProcsOk s L)
    (ho : OwnedOk s L)
    (hp : p ∈ L) (hheap : ∀ x ∈ L, ¬ IsStatic x) (hroot : s.rootProcess ≠ 0)
    (hc : s.currentProcess ∈ L) (hslot : (s.info p).parent.word ≠ 0 → slot = none)
    (hkills : (s.info p).parent.word ≠ 0 → KillsCurrent P s p) :
    Confined P (watchedKillProcess slot stale p exitCode) s := by
  by_cases hthread : (s.info p).isThread = true
  · obtain ⟨q, hq, hchild⟩ := h.thread_isChild hp hthread
    obtain rfl := hslot (h.word_ne_zero hp hchild hq).2
    exact watchedKillThread_confined h ho hp hthread (.inr (.inl (h.hasProc hc)))
  refine .get_bind (.ite (fun _ => .lift _) fun _ => readProc_bind (h.hasProc hp) fun i hi => ?_)
  obtain rfl := (info_eq hi).symm
  refine .ite (fun _ => .lift _) fun hword => .ite (fun _ => ?_) fun hset => ?_
  · rcases h.family.parent p hp with ⟨hisRoot, -⟩ | ⟨q, hq, hchild⟩
    · exact absurd ((h.word_eq_zero hp).2 hisRoot) hword
    obtain rfl := hslot hword
    have hcur : CurrentDies P s p := (hkills hword).imp_right fun hor => hor.2.2
    have hhang : ∀ x : Nat, Watches (liftM (halt .hang : K Bool) : W Bool) (halt .hang) :=
      fun _ => .lift _
    refine Confined.bind (watchedKillChildren_confined hhang h ho hp hroot hcur)
      (watchedKillChildren_watches (fun x => watchedKillWith_watches hhang none stale x _) p _)
      fun _ s₁ hchildren => ?_
    obtain ⟨L₁, hgone, hp₁, hnil⟩ := killChildren_spec h ho hp hchildren
    obtain ⟨hs₁, -⟩ := hgone.survive (R := fun _ => True) h ho hp (.inl fun _ => trivial)
    have hself := KProcessInfo.of_self (hs₁.self p hp₁)
    have hcur₁ : s₁.currentProcess = s.currentProcess := congrArg Globals.currentProcess hs₁.globals
    refine Confined.bind (watchedReleaseContext_confined hs₁.procs hp₁ hself.2.2.1.symm ?_)
      (watchedReleaseContext_watches stale p _) fun _ s₂ hrelease => ?_
    · rw [hcur₁]
      refine (hkills hword).imp_right fun hor => ⟨h.ne_zero hc, ?_, hor.2.2⟩
      exact hgone.released h ho hp hheap hc hor.1 hor.2.1 hnil
    have hcgone := releaseContext_spec hs₁.procs.ready hrelease
    have hprep := hcgone.prepared hs₁.procs hs₁.owned hp₁
    obtain ⟨hq₁, hchild₁⟩ := hgone.isChild h ho hp hp₁ hprep hchild
    obtain ⟨context, hinfo⟩ := hprep.info
    have hcur₂ : s₂.currentProcess = s₁.currentProcess :=
      congrArg Globals.currentProcess hprep.globals
    refine watchedBury_confined hprep.procs hprep.owned hp₁ hq₁ hchild₁ (by rw [hinfo]; exact hnil)
      (by rw [hinfo]; exact hself.2.2.2.2.1.symm) ?_
    have hcurrent : CurrentDies P s₂ p := by
      rw [CurrentDies, hcur₂, hcur₁]
      exact hcur
    exact hcurrent.readable (hprep.procs.hasProc hp₁)
  · rw [← isThread_eq_false] at hset
    exact absurd (Bool.eq_true_of_not_eq_false hset) hthread

end

/-! ## Exits -/

/-- The current process is a thread that aborts, and its context is not that of the root. -/
def KState.AbortsThread (s : KState) (destroyContext : Bool) : Prop :=
  destroyContext = true ∧ (s.info s.currentProcess).isThread = true ∧
    ∃ q, (s.info s.currentProcess).parent = .addr q ∧ q ≠ s.rootProcess

/-- The current process is a kernel process, and not refused: the process that is killed, itself or
its parent, has a parent. -/
def KState.ClearsOwnStack (s : KState) (destroyContext : Bool) : Prop :=
  bitIsSet (s.info s.currentProcess).flags processFlagsKernelProcess = true ∧
    (s.info s.currentProcess).parent.word ≠ 0 ∧
    ¬ (destroyContext = true ∧ (s.info s.currentProcess).isThread = true ∧
      (s.info s.currentProcess).parent.word = s.rootProcess)

/-- As long as no process ran there is one at most. -/
def RootFirst (s : KState) (L : List Nat) : Prop :=
  s.rootProcess = 0 → s.currentProcess = 0 ∧ ∀ p ∈ L, ∀ q ∈ L, p = q

namespace RootFirst

/-- Nothing but the root and the current process decides. -/
theorem of_globals (h : RootFirst s L) (hroot : s'.rootProcess = s.rootProcess)
    (hcur : s'.currentProcess = s.currentProcess ∨ s'.currentProcess = 0) (hsub : ∀ x ∈ L', x ∈ L) :
    RootFirst s' L' := fun hzero => by
  rw [hroot] at hzero
  obtain ⟨hc, hone⟩ := h hzero
  exact ⟨hcur.elim (fun heq => heq.trans hc) id, fun p hp q hq => hone p (hsub p hp) q (hsub q hq)⟩

/-- There is no process at the start. -/
theorem booted (h : Booted s) : RootFirst s [] := fun _ => ⟨(booted_noProcess h).currentProcess,
  fun p hp => by cases hp⟩

/-- The only process has no parent. -/
theorem word_eq_zero (hprocs : ProcsOk s L) (hone : ∀ p ∈ L, ∀ q ∈ L, p = q) (hp : p ∈ L) :
    (s.info p).parent.word = 0 := by
  rcases hprocs.family.parent p hp with ⟨hroot, -⟩ | ⟨q, hq, hchild⟩
  · exact (hprocs.word_eq_zero hp).2 hroot
  · exact absurd (hone p hp q hq) hchild.ne

/-- A step that creates no process. -/
theorem step (hlive : LiveInv s L) (h : RootFirst s L) (hstep : LiveStep s L s' L') :
    RootFirst s' L' := by
  cases hstep with
  | quiet hq =>
    exact h.of_globals (congrArg Globals.rootProcess hq.globals)
      (.inl (congrArg Globals.currentProcess hq.globals)) fun _ hx => hx
  | lost _ _ => exact h.of_globals rfl (.inl rfl) fun _ hx => hx
  | requeued _ => exact h.of_globals rfl (.inl rfl) fun _ hx => hx
  | @switched _ _ _ q _ _ hs =>
    intro hzero
    rw [show s'.rootProcess = if (s.info q).parent.word = 0 then q else s.rootProcess from
      congrArg Globals.rootProcess hs.globals] at hzero
    split_ifs at hzero with hword
    · exact absurd hzero (hlive.procs.ne_zero hs.mem)
    · -- a process with a parent does not come first
      exact absurd (word_eq_zero hlive.procs (h hzero).2 hs.mem) hword
  | died hs _ =>
    exact h.of_globals (congrArg Globals.rootProcess hs.globals) (.inr rfl) fun _ => hs.mem

/-- A step that creates one. -/
theorem create {addr len flags : Nat} {fresh : FreshMemory} {result : Option Nat}
    (hlive : LiveInv s L)
    (h : RootFirst s L) (hstep : CreateStep addr len flags fresh s L result s' L') :
      RootFirst s' L' := by
  cases hstep with
  | failed hout _ =>
    exact h.of_globals (congrArg Globals.rootProcess hout.globals)
      (.inl (congrArg Globals.currentProcess hout.globals)) fun _ hx => hx
  | @created s₁ _ p hg _ =>
    intro hzero
    obtain ⟨hc, hone⟩ := h ((congrArg Globals.rootProcess hg.globals).symm.trans hzero)
    refine ⟨(congrArg Globals.currentProcess hg.globals).trans hc, ?_⟩
    -- neither the new process nor an older one has a parent
    have hroot : ∀ x ∈ p :: L, IsRoot s₁.kin x := fun x hx => by
      refine (hg.procs.word_eq_zero hx).1 ?_
      rcases List.mem_cons.1 hx with rfl | hx
      · rw [(hg.parent.resolve_right fun hne => hne.1 hc).2]
        rfl
      · rw [hg.info x hx]
        exact word_eq_zero hlive.procs hone hx
    exact fun x hx y hy => hg.procs.family.root x hx y hy (hroot x hx) (hroot y hy)
  | @revoked s₁ _ _ _ p hg _ hs hperm =>
    have hroot : s'.rootProcess = s₁.rootProcess := congrArg Globals.rootProcess hs.globals
    have hcur : s'.currentProcess = s₁.currentProcess := congrArg Globals.currentProcess hs.globals
    exact h.of_globals (hroot.trans (congrArg Globals.rootProcess hg.globals))
      (.inl (hcur.trans (congrArg Globals.currentProcess hg.globals))) fun _ hx =>
        hperm.mem_iff.1 hx

end RootFirst

/-- The processes and the root process in a run in which no half made process is killed. -/
theorem KernelRun.rootFirst (h : KernelRun (fun s e => e.Whole s) s) :
    ∃ L, LiveInv s L ∧ RootFirst s L :=
  h.preserve id RootFirst.booted RootFirst.step fun hlive hs _ hstep => hs.create hlive hstep

/-- `kprocess_exit` kills the current process, or the parent of the current thread. -/
theorem exitVictim_spec {destroy : Bool} {slot : Nat} {victim : Nat × Option Nat}
    (hlive : LiveInv s L) (hrun : exitVictim destroy slot s = .ok (victim, s')) :
    s' = s ∧ s.currentProcess ∈ L ∧ victim.1 ∈ L ∧
      victim.2 = (if bitIsSet (s.info s.currentProcess).flags processFlagsKernelProcess then
        some slot else none) ∧
      (victim.1 = s.currentProcess ∧
          ¬ (destroy = true ∧ (s.info s.currentProcess).isThread = true) ∨
        destroy = true ∧ (s.info s.currentProcess).isThread = true ∧
          (s.info s.currentProcess).parent = .addr victim.1) := by
  rw [exitVictim, get_bind_apply] at hrun
  obtain ⟨hne, hrun⟩ := kAssert_bind_eq_ok.1 hrun
  have hc := hlive.current.resolve_left hne
  obtain ⟨i, hi, hrun⟩ := getProc_bind_eq_ok.1 hrun
  obtain rfl := (info_eq hi).symm
  rcases ite_eq_ok.1 hrun with ⟨⟨hdestroy, -, hset⟩, hrun⟩ | ⟨hno, hrun⟩
  · cases hrun
    obtain ⟨q, hq, hchild⟩ := hlive.procs.thread_isChild hc hset
    have hparent := (hlive.procs.word_ne_zero hc hchild hq).1
    refine ⟨rfl, hc, ?_, rfl, .inr ⟨hdestroy, hset, ?_⟩⟩
    · rwa [hparent]
    · rw [hparent]
      rfl
  · cases hrun
    refine ⟨rfl, hc, hc, rfl, .inl ⟨rfl, fun hthread => hno ⟨hthread.1, ?_, hthread.2⟩⟩⟩
    obtain ⟨q, hq, hchild⟩ := hlive.procs.thread_isChild hc hthread.2
    exact (hlive.procs.word_ne_zero hc hchild hq).2

/-- The violation of a `kprocess_exit` that does not clear its own stack is that the record of a
current thread is missed which aborts. -/
theorem watchedExit_confined {exitCode stale slot : Nat} {destroy : Bool}
    (h : KernelRun (fun s e => e.Whole s) s) (hclears : ¬ s.ClearsOwnStack destroy) :
    Confined (fun v => s.AbortsThread destroy ∧ v = .released s.currentProcess)
      (watchedExit exitCode destroy stale slot) s := by
  obtain ⟨L, hlive, hfirst⟩ := h.rootFirst
  refine .lift_bind fun ⟨p, slot'⟩ t hvictim => ?_
  obtain ⟨rfl, hc, hp, hslot, hor⟩ := exitVictim_spec hlive hvictim
  have hroot : t.rootProcess ≠ 0 := fun hzero => hlive.procs.ne_zero hc (hfirst hzero).1
  have hisRoot := (hlive.procs.rootProcess.resolve_left hroot).2
  refine watchedKillProcess_confined hlive.procs hlive.owned hp hlive.heap hroot hc
    (fun hword => ?_) fun hword => ?_
  · -- a kernel process that is not refused would clear its own stack
    refine hslot.trans (if_neg fun hkernel => hclears ⟨hkernel, ?_, fun habort => ?_⟩)
    · rcases hor with ⟨heq, -⟩ | ⟨-, -, hparent⟩
      · rw [← heq]
        exact hword
      · rw [hparent]
        exact hlive.procs.ne_zero hp
    · obtain ⟨-, -, hparent⟩ := hor.resolve_left fun hself => hself.2 ⟨habort.1, habort.2.1⟩
      refine hword ((hlive.procs.word_eq_zero hp).2 ?_)
      have heq : p = t.rootProcess := by
        rw [← habort.2.2, hparent]
        rfl
      rwa [heq]
  · rcases hor with ⟨heq, -⟩ | ⟨hdestroy, hthread, hparent⟩
    · exact .inl heq.symm
    · obtain ⟨q, hq, hchild⟩ := hlive.procs.thread_isChild hc hthread
      obtain rfl : p = q := Ptr.addr.inj
        (hparent.symm.trans (hlive.procs.word_ne_zero hc hchild hq).1)
      refine .inr ⟨hthread, hchild, ⟨hdestroy, hthread, p, hparent, fun heq => hword ?_⟩, rfl⟩
      exact (hlive.procs.word_eq_zero hp).2 (heq ▸ hisRoot)

/-- When the parent of the current thread is killed, the watched run does not end without a
violation. -/
theorem watchedKillProcess_ne_ok {slot : Option Nat} {stale exitCode : Nat} {killed : Bool}
    (hlive : LiveInv s L)
    (hp : p ∈ L) (hc : s.currentProcess ∈ L) (hthread : (s.info s.currentProcess).isThread = true)
    (hparent : (s.info s.currentProcess).parent = .addr p) (hword : (s.info p).parent.word ≠ 0) :
    (watchedKillProcess slot stale p exitCode).run s ≠ .ok (.ok killed, s') := by
  intro hrun
  obtain ⟨q, hq, hchild⟩ := hlive.procs.thread_isChild hc hthread
  obtain rfl : p = q := Ptr.addr.inj (hparent.symm.trans (hlive.procs.word_ne_zero hc hchild hq).1)
  have hprocess : (s.info p).isThread = false := hlive.procs.family.parent_not_leaf hp hchild.mem
  have hcount : s.processCount ≠ 0 := fun hzero => by
    have hle := hlive.procs.count
    have hpos := List.length_pos_of_mem hp
    omega
  obtain ⟨s₀, t, hget, hrun⟩ := watched_bind_eq_ok.1 hrun
  cases hget
  rw [if_neg hcount] at hrun
  obtain ⟨i, t, hread, hrun⟩ := watched_bind_eq_ok.1 hrun
  obtain ⟨hi, rfl⟩ := getProc_eq_ok.1 ((readProc_watches p).eq_ok hread)
  obtain rfl := (info_eq hi).symm
  rw [if_neg hword, if_pos (isThread_eq_false.1 hprocess)] at hrun
  obtain ⟨_, s₁, hchildren, hrun⟩ := watched_bind_eq_ok.1 hrun
  have hhang : ∀ x : Nat, Watches (liftM (halt .hang : K Bool) : W Bool) (halt .hang) :=
    fun _ => .lift _
  obtain ⟨L₁, hgone, hp₁, hnil⟩ := killChildren_spec hlive.procs hlive.owned hp
    ((watchedKillChildren_watches (fun x => watchedKillWith_watches hhang none stale x _) p _).eq_ok
      hchildren)
  obtain ⟨hs₁, -⟩ := hgone.survive (R := fun _ => True) hlive.procs hlive.owned hp
    (.inl fun _ => trivial)
  have hcur₁ : s₁.currentProcess = t.currentProcess := congrArg Globals.currentProcess hs₁.globals
  obtain ⟨_, s₂, hrelease, -⟩ := watched_bind_eq_ok.1 hrun
  obtain ⟨_, t₁, haccess, hrelease⟩ := watched_bind_eq_ok.1 hrelease
  cases (access_watches p).eq_ok haccess
  -- the thread is dead by now
  obtain ⟨_, t₂, hcurrent, -⟩ := watched_bind_eq_ok.1 hrelease
  obtain ⟨s₀, t₃, hget, hcurrent⟩ := watched_bind_eq_ok.1 hcurrent
  cases hget
  rw [hcur₁, if_neg (hlive.procs.ne_zero hc), access, run_check,
    hgone.released hlive.procs hlive.owned hp hlive.heap hc hthread hchild hnil] at hcurrent
  cases hcurrent

/-- What `kprocess_exit` must not do does not happen if the current process is neither a thread that
aborts nor a kernel process that is not refused. A thread that aborts is killed before
`kprocess_kill_process` reads its record. -/
theorem kprocessExit_watched {exitCode stale slot : Nat} {destroy : Bool}
    (h : KernelRun (fun s e => e.Whole s) s) (hclears : ¬ s.ClearsOwnStack destroy) :
    (¬ s.AbortsThread destroy → ∀ v t, (watchedExit exitCode destroy stale slot).run s ≠
      .ok (.error v, t)) ∧
      ∀ r s', kprocessExit exitCode destroy stale slot s = .ok (r, s') →
        ((∀ v t, (watchedExit exitCode destroy stale slot).run s ≠ .ok (.error v, t)) ↔
          ¬ s.AbortsThread destroy) := by
  have hsafe : ¬ s.AbortsThread destroy →
      ∀ v t, (watchedExit exitCode destroy stale slot).run s ≠ .ok (.error v, t) :=
    fun hno v t hv => hno (watchedExit_confined h hclears v t hv).1
  refine ⟨hsafe, fun r s' hexit => ⟨fun hnone haborts => ?_, hsafe⟩⟩
  obtain ⟨L, hlive, hfirst⟩ := h.rootFirst
  rw [kprocessExit_eq] at hexit
  obtain ⟨⟨p, slot'⟩, t, hvictim, hexit⟩ := bind_eq_ok.1 hexit
  obtain ⟨killed, s₁, hkill, -⟩ := bind_eq_ok.1 hexit
  obtain ⟨hdestroy, hthread, q, hparent, hne⟩ := haborts
  obtain ⟨rfl, hc, hp, -, hor⟩ := exitVictim_spec hlive hvictim
  obtain ⟨-, -, hparent'⟩ := hor.resolve_left fun hself => hself.2 ⟨hdestroy, hthread⟩
  obtain rfl : p = q := Ptr.addr.inj (hparent'.symm.trans hparent)
  rcases (watchedKillProcess_watches slot' stale p (exitCode % 256)).of_ok hkill with
    ⟨v, t', hv⟩ | hok
  · exact hnone v t' (watched_bind_eq_violation.2
      (.inr ⟨(p, slot'), t, liftM_eq_ok.2 hvictim, hv⟩))
  · have hroot : t.rootProcess ≠ 0 := fun hzero => hlive.procs.ne_zero hc (hfirst hzero).1
    obtain ⟨hr, hrootOk⟩ := hlive.procs.rootProcess.resolve_left hroot
    refine watchedKillProcess_ne_ok hlive hp hc hthread hparent (fun hword => hne ?_) hok
    exact hlive.procs.family.root p hp _ hr ((hlive.procs.word_eq_zero hp).1 hword) hrootOk

/-- The root process creates another one, which runs. -/
def otherProcessEvents : List KernelEvent :=
  [createProcess, .yield none, createProcess, .yield (some savedByRoot)]

set_option maxRecDepth 100000 in
/-- A process that is neither a thread nor a kernel process exits without an access to a released
record. -/
theorem kprocessExit_watched_process : ¬ ∃ v t,
    (watchedExit 7 true 0 0).run (smallMachineAfter otherProcessEvents) = .ok (.error v, t) := by
  have hrun : KernelRun (fun s e => e.Whole s) (smallMachineAfter otherProcessEvents) :=
    smallMachine_wholeRun (by decide +kernel)
  obtain ⟨hprocess, huser⟩ :
      ((smallMachineAfter otherProcessEvents).info
        (smallMachineAfter otherProcessEvents).currentProcess).isThread = false ∧
      bitIsSet ((smallMachineAfter otherProcessEvents).info
        (smallMachineAfter otherProcessEvents).currentProcess).flags processFlagsKernelProcess =
          false := by
    decide +kernel
  rintro ⟨v, t, hviolation⟩
  exact (kprocessExit_watched hrun fun hclears => Bool.noConfusion (huser.symm.trans hclears.1)).1
    (fun haborts => Bool.noConfusion (hprocess.symm.trans haborts.2.1)) v t hviolation

/-! ## A thread that aborts -/

/-- The other process creates a thread, and the kernel yields until the thread runs. -/
def threadEvents : List KernelEvent :=
  otherProcessEvents ++ [createThread, .yield (some savedByOther), .yield (some savedByRoot),
    .yield (some savedByOther)]

set_option maxRecDepth 100000 in
/-- The thread aborts. Its record is released before it is read to find out whether to switch
`CR3`. -/
theorem thread_abort_reads_released : ∃ s, KernelRun (fun _ _ => True) s ∧
    (∃ r s', kprocessExit 7 true 0 0 s = .ok (r, s')) ∧
      ∃ t, (watchedExit 7 true 0 0).run s = .ok (.error (.released s.currentProcess), t) := by
  obtain ⟨hexit, hreleased⟩ :
      (kprocessExit 7 true 0 0 (smallMachineAfter threadEvents)).isOk = true ∧
      ((watchedExit 7 true 0 0).run (smallMachineAfter threadEvents)).map Prod.fst =
        .ok (.error (.released (smallMachineAfter threadEvents).currentProcess)) := by
    decide +kernel
  refine ⟨_, smallMachine_anyRun (by decide +kernel), ?_, _, eq_ok_of_value hreleased⟩
  cases hrun : kprocessExit 7 true 0 0 (smallMachineAfter threadEvents) with
  | error e =>
    rw [hrun] at hexit
    cases hexit
  | ok r => exact ⟨r.1, r.2, rfl⟩

/-! ## A kernel process that exits -/

/-- A machine with frames for the stack of a kernel process, which is committed at once. -/
def largeMachine : BootLoaderInfo where
  files := smallMachine.files
  items := [⟨0, 0xA0000, mmTypeFree⟩]

/-- The machine when it is ready to run the root process. -/
def largeMachineReady : KState :=
  (kernelMain largeMachine.files false).finalState (entryState largeMachine fun _ _ => Entry.zero)

/-- The root process creates a kernel process, which runs. -/
def kernelProcessEvents : List KernelEvent :=
  [createProcess, .yield none, .create 0xC0000000 100 processFlagsKernelProcess zeroedMemory,
    .yield (some savedByRoot)]

/-- The machine then. -/
def kernelProcessMachine : KState :=
  kernelProcessEvents.foldl (fun s e => (kernelEvent e).finalState s) largeMachineReady

set_option maxRecDepth 100000 in
/-- A kernel process is created, and runs. -/
theorem kernelProcessMachine_run : KernelRun (fun _ _ => True) kernelProcessMachine :=
  have hboot : KernelRun (fun _ _ => True) largeMachineReady :=
    .booted ⟨largeMachine, fun _ _ => Entry.zero, false, eq_ok_finalState (by decide +kernel)⟩
  have hevents : largeMachineReady.completes (fun _ _ => true) kernelProcessEvents = true := by
    decide +kernel
  hboot.completes (fun _ _ _ _ => trivial) hevents

set_option maxRecDepth 100000 in
/-- The kernel process exits. The variable that holds it lies in the last page of its stack, which
is no longer mapped when the variable is cleared, and the page fault handler reads the record that
was released. -/
theorem kernel_process_exit_reads_released : ∃ s, KernelRun (fun _ _ => True) s ∧
    (s.info s.currentProcess).isThread = false ∧ isMapped s 0x51F00 = true ∧
      ∃ t, (watchedExit 7 false 0 0x51F00).run s =
        .ok (.error (.released s.currentProcess), t) := by
  obtain ⟨hprocess, hmapped, hreleased⟩ :
      (kernelProcessMachine.info kernelProcessMachine.currentProcess).isThread = false ∧
      isMapped kernelProcessMachine 0x51F00 = true ∧
      ((watchedExit 7 false 0 0x51F00).run kernelProcessMachine).map Prod.fst =
        .ok (.error (.released kernelProcessMachine.currentProcess)) := by
    decide +kernel
  exact ⟨_, kernelProcessMachine_run, hprocess, hmapped, _, eq_ok_of_value hreleased⟩

end MeghaOS
