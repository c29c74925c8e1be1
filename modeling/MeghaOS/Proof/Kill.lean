import Mathlib.Data.List.Find
import MeghaOS.Proof.Processes

/-!
# Killing a process

`kprocess_kill_process` first releases what belongs to the address space of the process, with its
child threads, and hands its child processes to the root; then it releases the record, which is the
same for processes and threads (`bury`).
-/

namespace MeghaOS

open Exec KState

variable {α : Type} {s s' s₁ : KState} {L M : List Nat} {p q r a pid : Nat} {i : KProcessInfo}

/-! ## The record of the process -/

/-- The part of `kprocess_kill_process` from the release of the register state on. -/
def bury (slot : Option Nat) (i : KProcessInfo) (process exitCode : Nat) : K Bool := do
  let _ ← kfree i.registerStates
  freeEvents (← getProc process).eventsQueueHead
  childrenListRemove process
  queueRemove process
  let parent ← (← getProc process).parent.follow
  kAssert (parent ≠ 0) "Must not be a root process"
  let _ ← kprocessPushEvent (← getProc parent).processID .proccessChildKilled exitCode
  let _ ← kfree process
  clearSlot slot
  modify fun s => { s with processCount := u32Sub s.processCount 1 }
  return true

/-- The part of `kprocess_kill_process` that is for processes alone. -/
def killContext (killThread : Nat → K Bool) (stale process : Nat) (i : KProcessInfo) : K Unit := do
  killChildren killThread process i.childrenListHead.length
  if ← currentUsesContext i.context stale then
    let pd ← kvmmGetPageDirectory (← get).context
    modify fun s => { s with cr3 := physicalToPageframe pd }
  let context ← i.context.follow
  let pd ← kvmmGetPageDirectory context
  if ← kvmmDelete context then modifyProc process fun i => { i with context := .addr 0 }
  let _ ← kpgDeletePageDirectory pd pgDelpdFlagKeepKernelPages

/-- The part of `kprocess_kill_process` that is for threads alone. -/
def killStack (i : KProcessInfo) : K Unit := do
  kAssert (i.childrenListHead = []) "Threads cannot have children"
  let _ ← kvmmFree (← i.context.follow) i.stack.virtualMemoryStart

/-- `kprocess_kill_process`, with the two kinds of processes set apart. -/
theorem killWith_eq (killThread : Nat → K Bool) (slot : Option Nat)
    (stale process exitCode : Nat) :
    killWith killThread slot stale process exitCode = (do
      if (← get).processCount = 0 then returnError .errProcExitNotAllowed false
      else
        let i ← getProc process
        if i.parent.word = 0 then returnError .errProcExitNotAllowed false
        else
          if bitIsUnset i.flags processFlagsThread then
            killContext killThread stale process i
            bury slot i process exitCode
          else
            killStack i
            bury slot i process exitCode) := by
  unfold killWith killContext killStack bury
  simp only [bind_assoc, pure_bind, Exec.ite_bind]

/-- The register state and events of a process are released. -/
theorem ProcsOk.released {X : Nat → Prop} (h : ProcsOk s L) (ho : OwnedOk s L) (hp : p ∈ L)
    (hstep : RecordsStep X s s')
    (hX : ∀ b, X b → b = (s.info p).registerStates ∨ b ∈ (s.info p).eventsQueueHead) :
    ProcsOk s' L ∧ OwnedOk s' (L.erase p) ∧ ∀ q ∈ L, s'.objs q = some (.proc (s.info q)) := by
  have hproc : ∀ q ∈ L, ¬ X q := fun q hq hXq => by
    rcases hX q hXq with heq | hmem
    · obtain ⟨r, hr⟩ := ho.regs p hp
      rw [← heq, h.proc q hq] at hr
      cases hr
    · obtain ⟨ev, hev⟩ := ho.events p hp q hmem
      rw [h.proc q hq] at hev
      cases hev
  have hkeep : ∀ q ∈ L, s'.objs q = some (.proc (s.info q)) := fun q hq =>
    proc_of_records (hstep.records q (hproc q hq)) (h.proc q hq)
  have hsub : ∀ {q}, q ∈ L.erase p → q ∈ L ∧ q ≠ p := fun hq =>
    ⟨List.mem_of_mem_erase hq, (h.family.nodup.mem_erase_iff.1 hq).1⟩
  refine ⟨h.of_place hstep.ready hstep.globals fun q hq => ⟨_, hkeep q hq, rfl⟩, ?_, hkeep⟩
  refine (ho.subset fun q hq => (hsub hq).1).of_info (fun q hq => ?_) (fun q hq => ?_)
    fun q hq e he => ?_
  · rw [info_eq (hkeep q (hsub hq).1)]
    exact ⟨rfl, rfl⟩
  · obtain ⟨hqL, hqp⟩ := hsub hq
    obtain ⟨r, hr⟩ := ho.regs q hqL
    refine ⟨r, objs_of_records (hstep.records _ fun hXb => ?_) rfl hr⟩
    rcases hX _ hXb with heq | hmem
    · exact hqp (ho.regsInj q hqL p hp heq)
    · obtain ⟨ev, hev⟩ := ho.events p hp _ hmem
      rw [hr] at hev
      cases hev
  · obtain ⟨hqL, hqp⟩ := hsub hq
    obtain ⟨ev, hev⟩ := ho.events q hqL e he
    refine ⟨ev, objs_of_records (hstep.records _ fun hXb => ?_) rfl hev⟩
    rcases hX _ hXb with rfl | hmem
    · obtain ⟨r, hr⟩ := ho.regs p hp
      rw [hev] at hr
      cases hr
    · exact hqp (ho.eventsInj q hqL p hp e he hmem)

/-- The process that the notification about a killed child of `q` reaches. -/
def KState.notified (s : KState) (p q : Nat) : Option Nat :=
  (s.schedulerQueue.erase p).find? fun r => (s.info r).processID = (s.info q).processID

/-- What the end of `kprocess_kill_process` does to the others: the process leaves them, and one of
them may get an event. -/
structure Buried (s s' : KState) (L : List Nat) (p q exitCode : Nat) : Prop where
  procs : ProcsOk s' (L.erase p)
  owned : OwnedOk s' (L.erase p)
  globals : s'.globals = { s.globals with
    schedulerQueue := s.schedulerQueue.erase p, processCount := s.processCount - 1 }
  info : ∃ r, s.notified p q = some r ∧ ∃ new : List Nat,
    (new = [] ∨ ∃ e, new = [e] ∧ s'.objs e = some (.event ⟨.proccessChildKilled, exitCode⟩)) ∧
    ∀ x ∈ L.erase p, s'.info x = { s.info x with
      childrenListHead := (s.info x).childrenListHead.erase p
      eventsQueueHead := if x = r then (s.info x).eventsQueueHead ++ new
        else (s.info x).eventsQueueHead }
  vms : s'.vms = s.vms
  windows : SameWindows s s'
  kept : ∀ b o, s.objs b = some o → o.isVm = false → (∀ i, o ≠ .proc i) →
    b ∉ (s.info p).eventsQueueHead → b ≠ (s.info p).registerStates → s'.objs b = some o
  noNew : NoNewProcess L s s'
  gone : ¬ IsStatic p → s'.objs p = none

/-- Another number of processes is counted. -/
theorem ProcsOk.recount (h : ProcsOk s L) {n : Nat} (hle : L.length ≤ n)
    (hmax : n ≤ maxProcessCount) :
    ProcsOk { s with processCount := n } L :=
  h.withGlobals (.refl _) h.rootProcess hle hmax

/-- The count of the processes is in no record. -/
theorem records_recount (n : Nat) : KState.records { s with processCount := n } = s.records := rfl

/-- Nor in that of a process. -/
theorem info_recount (n : Nat) : KState.info { s with processCount := n } p = s.info p := rfl

/-- One process less, without wrapping. -/
theorem u32Sub_one {n : Nat} (hpos : 0 < n) (hmax : n ≤ maxProcessCount) : u32Sub n 1 = n - 1 := by
  have hmax' : n ≤ 20 := hmax
  simp only [u32Sub]
  omega

/-- The others keep what they own. -/
theorem Left.owned (hleft : Left s s' L p q) (h : ProcsOk s L) (hp : p ∈ L) (hq : q ∈ L)
    (ho : OwnedOk s (L.erase p)) : OwnedOk s' (L.erase p) := by
  have hsub : ∀ {r}, r ∈ L.erase p → r ∈ L ∧ r ≠ p := fun hr =>
    ⟨List.mem_of_mem_erase hr, (h.family.nodup.mem_erase_iff.1 hr).1⟩
  have hkeep : ∀ {b o}, s.objs b = some o → (∀ i, o ≠ .proc i) → o.isVm = false →
      s'.objs b = some o := fun {b o} hb hproc hvm => by
    refine objs_of_records (hleft.records b ?_ ?_) hvm hb
    · rintro rfl
      exact hproc _ (Option.some.inj (hb.symm.trans (h.proc b hp)))
    · rintro rfl
      exact hproc _ (Option.some.inj (hb.symm.trans (h.proc b hq)))
  refine ho.of_info (fun x hx => ?_) (fun x hx => ?_) fun x hx e he => ?_
  · rw [hleft.info x (hsub hx).1 (hsub hx).2]
    exact ⟨rfl, rfl⟩
  · obtain ⟨r, hr⟩ := ho.regs x hx
    exact ⟨r, hkeep hr (fun i => by simp) rfl⟩
  · obtain ⟨ev, hev⟩ := ho.events x hx e he
    exact ⟨ev, hkeep hev (fun i => by simp) rfl⟩

/-- What the notification of `r` with the events `new` does. -/
structure Notice (s s' : KState) (L : List Nat) (p r : Nat) (new : List Nat) : Prop where
  procs : ProcsOk s' L
  owned : OwnedOk s' L
  proc : ∃ i, s'.objs p = some (.proc i)
  globals : s'.globals = s.globals
  info : ∀ x ∈ L, s'.info x = { s.info x with
    eventsQueueHead := if x = r then (s.info x).eventsQueueHead ++ new
      else (s.info x).eventsQueueHead }
  vms : s'.vms = s.vms
  windows : SameWindows s s'
  kept : ∀ b o, s.objs b = some o → o.isVm = false → (∀ i, o ≠ .proc i) → s'.objs b = some o
  noNew : ∀ M, (∀ x ∈ L, x ∈ M) → NoNewProcess M s s'

/-- There is no process to be told. -/
theorem Notice.error (h : ProcsOk s L) (ho : OwnedOk s L) (hp : s.objs p = some (.proc i))
    (e : KernelErrorCodes) : Notice s { s with errorNumber := e } L p r [] where
  procs := h.of_records (h.ready.of_nonCommit rfl) rfl fun _ _ => rfl
  owned := ho.of_records rfl
  proc := ⟨i, hp⟩
  globals := rfl
  info x _ := by
    rw [List.append_nil, ite_self]
    rfl
  vms := rfl
  windows _ _ := Iff.rfl
  kept _ _ hb _ _ := hb
  noNew _ _ := .refl

/-- The parent is told. -/
theorem Notice.pushed {e : Nat} {ev : KProcessEvent} (h : ProcsOk s L) (ho : OwnedOk s L)
    (hp : s.objs p = some (.proc i)) (hpL : p ∉ L) (hr : r ∈ L) (hpush : Pushed s s' r e ev) :
    Notice s s' L p r [e] where
  procs := hpush.procsOk h
  owned := ho.pushed h (fun _ hq => hq) hr hpush
  proc := by
    refine ⟨i, proc_of_records (hpush.step.records p fun hor => ?_) hp⟩
    rcases hor with rfl | rfl
    · exact hpL hr
    · rw [hpush.fresh] at hp
      cases hp
  globals := hpush.step.globals
  info x hx := by
    by_cases hxr : x = r
    · rw [if_pos hxr, hxr, hpush.info_self]
    · rw [if_neg hxr, hpush.info_of_ne h hx hxr]
  vms := hpush.step.vms
  windows := hpush.step.windows
  kept b o hb hvm hproc := by
    refine objs_of_records (hpush.step.records b fun hor => ?_) hvm hb
    rcases hor with rfl | rfl
    · exact hproc _ (Option.some.inj (hb.symm.trans (h.proc b hr)))
    · rw [hpush.fresh] at hb
      cases hb
  noNew M hM b j hb hj := by
    by_cases hbe : b = e
    · rw [hbe, hpush.event] at hj
      cases hj
    · exact proc_of_records (hpush.step.records b fun hor =>
        hor.elim (fun heq => hb (heq ▸ hM r hr)) hbe).symm hj

/-- The register state and the events of a process are released, one after the other. -/
theorem ProcsOk.freeOwned {s₁ : KState} {ok : Bool} (h : ProcsOk s L)
    (ho : OwnedOk s L) (hp : p ∈ L)
    (hfree : kfree (s.info p).registerStates s = .ok (ok, s₁))
    (hevents : freeEvents (s.info p).eventsQueueHead s₁ = .ok ((), s')) :
    RecordsStep (fun b => b = (s.info p).registerStates ∨ b ∈ (s.info p).eventsQueueHead) s s' ∧
      NoNewProcess L s s' := by
  obtain ⟨regs, hregs⟩ := ho.regs p hp
  have h₁ := kfree_recordsStep h.ready hregs rfl hfree
  have hne : ∀ e ∈ (s.info p).eventsQueueHead, e ≠ (s.info p).registerStates := fun e he heq => by
    obtain ⟨ev, hev⟩ := ho.events p hp e he
    rw [heq, hregs] at hev
    cases hev
  obtain ⟨hfreed, hnoNew⟩ := freeEvents_spec (L := L) h₁.ready (ho.eventsNodup p hp) (fun e he => by
    obtain ⟨ev, hev⟩ := ho.events p hp e he
    exact ⟨ev, objs_of_records (h₁.records e (hne e he)) rfl hev⟩) hevents
  have hnoNew₁ : NoNewProcess L s s₁ := .kfree h.ready (h.ready.lt (by rw [hregs]; simp)) hfree
  exact ⟨(h₁.mono fun b hb => .inl hb).trans (hfreed.mono fun b hb => .inr hb),
    hnoNew₁.trans hnoNew⟩

/-- Who is whose child does not change when the two records stay as they are. -/
theorem IsChild.of_info (h : IsChild s.kin p q) (hp : s'.info p = s.info p)
    (hq : s'.info q = s.info q) :
    IsChild s'.kin p q := by
  have hkinp : s'.kin p = s.kin p := by rw [KState.kin, hp, KState.kin]
  have hkinq : s'.kin q = s.kin q := by rw [KState.kin, hq, KState.kin]
  refine ⟨h.ne, ?_, ?_, ?_⟩
  · rw [hkinp, h.parent]
  · rw [hkinp, h.listedBy]
  · rw [hkinq]
    exact h.mem

/-- The part of `bury` before the parent is notified. -/
def leaveOthers (i : KProcessInfo) (process : Nat) : K Unit := do
  let _ ← kfree i.registerStates
  freeEvents (← getProc process).eventsQueueHead
  childrenListRemove process
  queueRemove process

/-- A notification that the kernel makes: the process it is meant for, the event, and whether there
was memory for it. -/
structure Notification where
  process : Nat
  event : KProcessEvent
  pushed : Bool
  deriving DecidableEq

/-- The notification of the parent of a killed process. -/
def notifyParent (process exitCode : Nat) : K Notification := do
  let parent ← (← getProc process).parent.follow
  kAssert (parent ≠ 0) "Must not be a root process"
  let pushed ← kprocessPushEvent (← getProc parent).processID .proccessChildKilled exitCode
  return ⟨parent, ⟨.proccessChildKilled, exitCode⟩, pushed⟩

/-- The part of `bury` that releases the record. -/
def releaseRecord (slot : Option Nat) (process : Nat) : K Unit := do
  let _ ← kfree process
  clearSlot slot

/-- `bury` that returns the notification it makes. -/
def notedBury (slot : Option Nat) (i : KProcessInfo) (process exitCode : Nat) : K Notification := do
  leaveOthers i process
  let note ← notifyParent process exitCode
  releaseRecord slot process
  modify fun s => { s with processCount := u32Sub s.processCount 1 }
  return note

/-- The note of who was told may be forgotten. -/
theorem bury_eq (slot : Option Nat) (i : KProcessInfo) (process exitCode : Nat) :
    bury slot i process exitCode = (fun _ => true) <$> notedBury slot i process exitCode := by
  simp only [bury, notedBury, leaveOthers, notifyParent, releaseRecord, bind_assoc, map_bind,
    pure_bind, map_pure]

/-- The variable of the caller belongs to no record, even if a page is committed for it. -/
theorem clearSlot_fixes (slot : Option Nat) : Fixes nonCommit (clearSlot slot) := by
  cases slot with
  | none => exact .pure _
  | some slot => exact touchFrom_fixes _ _

/-- The record of a process is released, and no other one changes. -/
theorem releaseRecord_spec {slot : Option Nat} (h : HeapReady s) (hp : s.objs p = some (.proc i))
    (hrun : releaseRecord slot p s = .ok ((), s')) :
    RecordsStep (· = p) s s' ∧ NoNewProcess L s s' ∧ (¬ IsStatic p → s'.objs p = none) := by
  obtain ⟨freed, s₁, hfree, hclear⟩ := bind_eq_ok.1 hrun
  have hlt := h.lt (a := p) (by rw [hp]; simp)
  have h₁ := kfree_recordsStep h hp rfl hfree
  have hnc := clearSlot_fixes _ _ _ _ hclear
  have h₂ : RecordsStep (· = p) s₁ s' := .of_nonCommit h₁.ready hnc
  have hnoNew : NoNewProcess L s₁ s' := .of_records fun b _ => congrFun (records_of_nonCommit hnc) b
  refine ⟨h₁.trans h₂, (NoNewProcess.kfree h hlt hfree).trans hnoNew, fun hheap => ?_⟩
  obtain ⟨-, hobjs⟩ := kfree_recordStep h hlt hfree
  refine (objs_none_of_nonCommit hnc).2 ?_
  rcases hobjs with ⟨-, hnone⟩ | ⟨-, -, hnone | hstatic⟩
  · exact hnone
  · rw [hp] at hnone
    cases hnone
  · exact absurd hstatic hheap

/-- The process `p`, whose parent is `q`, has left the others, and its record is still there. -/
structure Departed (s s' : KState) (L : List Nat) (p q : Nat) : Prop where
  procs : ProcsOk s' (L.erase p)
  owned : OwnedOk s' (L.erase p)
  proc : ∃ i, s'.objs p = some (.proc i) ∧ i.parent.target = some q
  mem : q ∈ L.erase p
  globals : s'.globals = { s.globals with schedulerQueue := s.schedulerQueue.erase p }
  info : ∀ x ∈ L.erase p, s'.info x = { s.info x with
    childrenListHead := (s.info x).childrenListHead.erase p }
  vms : s'.vms = s.vms
  windows : SameWindows s s'
  kept : ∀ b o, s.objs b = some o → o.isVm = false → (∀ i, o ≠ .proc i) →
    b ∉ (s.info p).eventsQueueHead → b ≠ (s.info p).registerStates → s'.objs b = some o
  noNew : NoNewProcess L s s'

/-- A process leaves its parent's list, the queue and its registers. -/
theorem leaveOthers_spec (h : ProcsOk s L) (ho : OwnedOk s L) (hp : p ∈ L) (hq : q ∈ L)
    (hchild : IsChild s.kin p q) (hleaf : (s.info p).childrenListHead = [])
    (hregs : i.registerStates = (s.info p).registerStates)
    (hrun : leaveOthers i p s = .ok ((), s')) : Departed s s' L p q := by
  obtain ⟨_, s₁, hfree, hrest⟩ := bind_eq_ok.1 hrun
  obtain ⟨regs, hregsObj⟩ := ho.regs p hp
  rw [hregs] at hfree
  have h₁ := kfree_recordsStep h.ready hregsObj rfl hfree
  obtain ⟨j, hj, hrest⟩ := getProc_bind_eq_ok.1 hrest
  obtain rfl : j = s.info p := Obj.proc.inj (Option.some.inj (hj.symm.trans
    ((h.released ho hp h₁ fun b hb => .inl hb).2.2 p hp)))
  obtain ⟨_, s₂, hevents, hrest⟩ := bind_eq_ok.1 hrest
  obtain ⟨h₂, hnoNew₂⟩ := h.freeOwned ho hp hfree hevents
  obtain ⟨hprocs₂, howned₂, hproc₂⟩ := h.released ho hp h₂ fun b hb => hb
  have hinfo₂ : ∀ x ∈ L, s₂.info x = s.info x := fun x hx => info_eq (hproc₂ x hx)
  have hchild₂ : IsChild s₂.kin p q := hchild.of_info (hinfo₂ p hp) (hinfo₂ q hq)
  obtain ⟨_, s₃, hchildren, hqueue⟩ := bind_eq_ok.1 hrest
  have hleft := leave_spec hprocs₂ hp hchild₂ (by rw [hinfo₂ p hp, hleaf]) hchildren hqueue
  refine
    { procs := hleft.procs
      owned := hleft.owned hprocs₂ hp hq howned₂
      proc := ⟨_, hleft.proc, hchild₂.parent⟩
      mem := (List.mem_erase_of_ne hchild.ne.symm).2 hq
      globals := ?_
      info := fun x hx => ?_
      vms := hleft.vms.trans h₂.vms
      windows := h₂.windows.trans hleft.windows
      kept := fun b o hb hvm hproc hbe hbr => ?_
      noNew := hnoNew₂.trans (.of_records fun b hb =>
        hleft.records b (fun heq => hb (heq ▸ hp)) fun heq => hb (heq ▸ hq)) }
  · rw [hleft.globals, h₂.globals, show s₂.schedulerQueue = s.schedulerQueue from
      congrArg Globals.schedulerQueue h₂.globals]
  · obtain ⟨hxp, hxL⟩ := h.family.nodup.mem_erase_iff.1 hx
    rw [hleft.info x hxL hxp, hinfo₂ x hxL]
  · have hb₂ : s₂.objs b = some o :=
      objs_of_records (h₂.records b fun hor => hor.elim hbr hbe) hvm hb
    refine objs_of_records (hleft.records b ?_ ?_) hvm hb₂
    · rintro rfl
      exact hproc _ (Option.some.inj (hb₂.symm.trans (hproc₂ b hp)))
    · rintro rfl
      exact hproc _ (Option.some.inj (hb₂.symm.trans (hproc₂ b hq)))

/-- A process that is killed is to notify its parent `q`. -/
structure Noted (s s' : KState) (p q exitCode : Nat) (note : Notification) : Prop where
  process : note.process = q
  event : note.event = ⟨.proccessChildKilled, exitCode⟩
  pushed : note.pushed = true → ∀ r, s.notified p q = some r →
    (s'.info r).eventsQueueHead ≠ (s.info r).eventsQueueHead

/-- The process that is notified gets the event, unless there is no memory for it. -/
theorem notifyParent_spec {exitCode : Nat} {note : Notification} (h : ProcsOk s L)
    (hdep : Departed s s₁ L p q) (hrun : notifyParent p exitCode s₁ = .ok (note, s')) :
    note.process = q ∧ note.event = ⟨.proccessChildKilled, exitCode⟩ ∧
      ∃ r, s.notified p q = some r ∧ r ∈ L.erase p ∧ ∃ new :
        List Nat, (note.pushed = true → new ≠ []) ∧
        (new = [] ∨ ∃ e, new = [e] ∧ s'.objs e = some (.event ⟨.proccessChildKilled, exitCode⟩)) ∧
          Notice s₁ s' (L.erase p) p r new := by
  obtain ⟨i, hi, htarget⟩ := hdep.proc
  obtain ⟨j, hj, hrest⟩ := getProc_bind_eq_ok.1 hrun
  obtain rfl := Obj.proc.inj (Option.some.inj (hj.symm.trans hi))
  replace hrest := follow_bind_eq_ok.1 hrest
  rw [Ptr.word_of_target htarget] at hrest
  obtain ⟨-, hrest⟩ := kAssert_bind_eq_ok.1 hrest
  obtain ⟨j, hj, hrest⟩ := getProc_bind_eq_ok.1 hrest
  obtain rfl := (info_eq hj).symm
  obtain ⟨pushed, s₂, hpush, hrest⟩ := bind_eq_ok.1 hrest
  cases hrest
  refine ⟨rfl, rfl, ?_⟩
  obtain ⟨r, hfind, hpushed⟩ := kprocessPushEvent_spec hdep.procs hpush
  have hqueue : s₁.schedulerQueue = s.schedulerQueue.erase p :=
    congrArg Globals.schedulerQueue hdep.globals
  have hr : r ∈ L.erase p := hdep.procs.queueSubset r (findProcess_mem hfind).1
  have hnotified : s.notified p q = some r := by
    rw [← hfind, KState.notified, KState.findProcess, hqueue, hdep.info q hdep.mem]
    refine List.find?_congr fun x hx => ?_
    rw [hdep.info x (hdep.procs.queueSubset x (hqueue ▸ hx))]
  refine ⟨r, hnotified, hr, ?_⟩
  rcases hpushed with ⟨rfl, e, rfl⟩ | ⟨-, e, hpushed⟩
  · exact ⟨[], fun habsurd => (by cases habsurd), .inl rfl, .error hdep.procs hdep.owned hi e⟩
  · refine ⟨[e], fun _ => List.cons_ne_nil _ _, .inr ⟨e, rfl, hpushed.event⟩,
      .pushed hdep.procs hdep.owned hi h.family.nodup.not_mem_erase hr hpushed⟩

/-- The record of a process that has left the others, and has notified its parent, is released. -/
theorem Departed.buried {exitCode : Nat} {new : List Nat} {slot : Option Nat}
    (h : ProcsOk s L) (hp : p ∈ L)
    (hdep : Departed s s₁ L p q) (hr : s.notified p q = some r) {s₂ : KState}
    (hnew : new = [] ∨ ∃ e, new = [e] ∧ s₂.objs e = some (.event ⟨.proccessChildKilled, exitCode⟩))
    (hnotice : Notice s₁ s₂ (L.erase p) p r new)
    (hrelease : releaseRecord slot p s₂ = .ok ((), s')) :
    Buried s { s' with processCount := u32Sub s'.processCount 1 } L p q exitCode ∧
      ∀ x ∈ L.erase p, s'.info x = { s.info x with
        childrenListHead := (s.info x).childrenListHead.erase p
        eventsQueueHead := if x = r then (s.info x).eventsQueueHead ++ new
          else (s.info x).eventsQueueHead } := by
  obtain ⟨i, hi⟩ := hnotice.proc
  obtain ⟨h₃, hnoNew₃, hgone⟩ := releaseRecord_spec (L := L) hnotice.procs.ready hi hrelease
  have hnotMem : p ∉ L.erase p := h.family.nodup.not_mem_erase
  have hinfo₃ : ∀ x ∈ L.erase p, s'.info x = s₂.info x := fun x hx =>
    info_congr (h₃.records x fun heq => hnotMem (heq ▸ hx))
  have hprocs₃ : ProcsOk s' (L.erase p) := hnotice.procs.of_records h₃.ready h₃.globals fun x hx =>
    h₃.records x fun heq => hnotMem (heq ▸ hx)
  have howned₃ : OwnedOk s' (L.erase p) := hnotice.owned.of_step h₃ (fun b hb => .inr ⟨i, hb ▸ hi⟩)
    fun x hx => by
      rw [hinfo₃ x hx]
      exact ⟨rfl, rfl⟩
  have hcount : s'.processCount = s.processCount := by
    rw [show s'.processCount = s₂.processCount from congrArg Globals.processCount h₃.globals,
      show s₂.processCount = s₁.processCount from congrArg Globals.processCount hnotice.globals]
    exact congrArg Globals.processCount hdep.globals
  have hlen := List.length_erase_of_mem hp
  have hpos := List.length_pos_of_mem hp
  have hle := h.count
  have hsub : u32Sub s'.processCount 1 = s.processCount - 1 := by
    rw [hcount]
    exact u32Sub_one (Nat.lt_of_lt_of_le hpos hle) h.countMax
  have hinfo : ∀ x ∈ L.erase p, s'.info x = { s.info x with
      childrenListHead := (s.info x).childrenListHead.erase p
      eventsQueueHead := if x = r then (s.info x).eventsQueueHead ++ new
        else (s.info x).eventsQueueHead } := fun x hx => by
    rw [hinfo₃ x hx, hnotice.info x hx, hdep.info x hx]
  refine ⟨?_, hinfo⟩
  rw [hsub]
  refine ⟨hprocs₃.recount (by omega) (Nat.le_trans (Nat.sub_le _ _) h.countMax),
    howned₃.of_records (records_recount _), ?_, ⟨r, hr, new, ?_, fun x hx => ?_⟩, ?_, ?_,
    fun b o hb hvm hproc hbe hbr => ?_, ?_, hgone⟩
  · show { s'.globals with processCount := s.processCount - 1 } = _
    rw [h₃.globals, hnotice.globals, hdep.globals]
  · rcases hnew with hnil | ⟨e, he, hevent⟩
    · exact .inl hnil
    · have hne : e ≠ p := by
        rintro rfl
        rw [hevent] at hi
        cases hi
      exact .inr ⟨e, he, objs_of_records (h₃.records e hne) rfl hevent⟩
  · rw [info_recount, hinfo x hx]
  · exact h₃.vms.trans (hnotice.vms.trans hdep.vms)
  · exact hdep.windows.trans (hnotice.windows.trans h₃.windows)
  · have hb₂ := hnotice.kept b o (hdep.kept b o hb hvm hproc hbe hbr) hvm hproc
    refine objs_of_records (h₃.records b ?_) hvm hb₂
    rintro rfl
    exact hproc _ (Option.some.inj (hb₂.symm.trans hi))
  · have hnoNew₂ := hnotice.noNew L fun x hx => List.mem_of_mem_erase hx
    exact hdep.noNew.trans (hnoNew₂.trans hnoNew₃)

/-- The end of `kprocess_kill_process`: the parent is told, and the record released. -/
theorem notedBury_spec (h : ProcsOk s L) (ho : OwnedOk s L) (hp : p ∈ L) (hq : q ∈ L)
    (hchild : IsChild s.kin p q) (hleaf : (s.info p).childrenListHead = [])
    (hregs : i.registerStates = (s.info p).registerStates) {exitCode : Nat} {note : Notification}
    {slot : Option Nat} (hrun : notedBury slot i p exitCode s = .ok (note, s')) :
    Buried s s' L p q exitCode ∧ Noted s s' p q exitCode note := by
  obtain ⟨_, s₁, hleave, hrest⟩ := bind_eq_ok.1 hrun
  obtain ⟨note, s₂, hnotify, hrest⟩ := bind_eq_ok.1 hrest
  obtain ⟨_, s₃, hrelease, hrest⟩ := bind_eq_ok.1 hrest
  cases hrest
  have hdep := leaveOthers_spec h ho hp hq hchild hleaf hregs hleave
  obtain ⟨hprocess, hevent, r, hr, hrL, new, hne, hnew, hnotice⟩ := notifyParent_spec h hdep hnotify
  obtain ⟨hburied, hinfo⟩ := hdep.buried h hp hr hnew hnotice hrelease
  refine ⟨hburied, hprocess, hevent, fun hpushed r' hr' heq => hne hpushed ?_⟩
  obtain rfl := Option.some.inj (hr.symm.trans hr')
  rw [info_recount, hinfo r hrL, if_pos rfl] at heq
  simpa using heq

/-! ## Threads -/

/-- A thread was killed, whose parent is `q`: its stack is given back, then its record. -/
structure ThreadKilled (s s' : KState) (L : List Nat) (p q exitCode : Nat) : Prop where
  thread : (s.info p).isThread = true
  child : IsChild s.kin p q
  mem : q ∈ L
  steps : ∃ freed t, kvmmFree (s.info p).context.word (s.info p).stack.virtualMemoryStart s =
    .ok (freed, t) ∧ Buried t s' L p q exitCode

/-- A live process that is refused to be killed is the root. -/
theorem ProcsOk.word_ne_zero (h : ProcsOk s L) (hp : p ∈ L) (hchild : IsChild s.kin p q)
    (hq : q ∈ L) :
    (s.info p).parent = .addr q ∧ (s.info p).parent.word ≠ 0 := by
  have htarget : (s.info p).parent.target = some q := hchild.parent
  obtain ⟨a, ha⟩ := h.parentAddr p hp
  rw [ha, Ptr.target] at htarget
  split_ifs at htarget
  obtain rfl := Option.some.inj htarget
  exact ⟨ha, by rw [ha]; exact h.ne_zero hq⟩

/-- A live thread has a parent. -/
theorem ProcsOk.thread_isChild (h : ProcsOk s L) (hp : p ∈ L)
    (hthread : (s.info p).isThread = true) :
    ∃ q ∈ L, IsChild s.kin p q := by
  rcases h.family.parent p hp with ⟨-, hleaf⟩ | hchild
  · rw [show (s.kin p).isLeaf = (s.info p).isThread from rfl, hthread] at hleaf
    cases hleaf
  · exact hchild

/-- The memory manager takes nothing that a process owns. -/
theorem OwnedOk.of_vmStep {gone : Nat → Prop} (ho : OwnedOk s M) (hstep : VmStep gone s s') :
    OwnedOk s' M := ho.of_records hstep.records

/-- The children of a killed process leave it; the notifications of the child threads are
returned. -/
def notedKillChildren (killThread : Nat → K (Bool × List Notification)) (process : Nat) :
    Nat → K (List Notification)
  | 0 => do
    if (← getProc process).childrenListHead = [] then return []
    else halt .hang
  | n + 1 => do
    match (← getProc process).childrenListHead with
    | [] => return []
    | child :: _ =>
      if bitIsUnset (← getProc child).flags processFlagsThread then
        changeParentProcess child (← get).rootProcess
        kAssert ((← getProc child).parent = .addr (← get).rootProcess)
          "Wrong parent set for process"
        notedKillChildren killThread process n
      else
        let (killed, notes) ← killThread child
        if killed = false then kPanic "BUG"
        else return notes ++ (← notedKillChildren killThread process n)

/-- The part of `killContext` after the children are gone. -/
def releaseContext (stale process : Nat) (i : KProcessInfo) : K Unit := do
  if ← currentUsesContext i.context stale then
    let pd ← kvmmGetPageDirectory (← get).context
    modify fun s => { s with cr3 := physicalToPageframe pd }
  let context ← i.context.follow
  let pd ← kvmmGetPageDirectory context
  if ← kvmmDelete context then modifyProc process fun i => { i with context := .addr 0 }
  let _ ← kpgDeletePageDirectory pd pgDelpdFlagKeepKernelPages

/-- `killWith` that returns the notifications it makes. -/
def notedKillWith (killThread : Nat → K (Bool × List Notification)) (slot : Option Nat)
    (stale process exitCode : Nat) : K (Bool × List Notification) := do
  if (← get).processCount = 0 then returnError .errProcExitNotAllowed (false, [])
  else
    let i ← getProc process
    if i.parent.word = 0 then returnError .errProcExitNotAllowed (false, [])
    else
      if bitIsUnset i.flags processFlagsThread then
        let notes ← notedKillChildren killThread process i.childrenListHead.length
        releaseContext stale process i
        let note ← notedBury slot i process exitCode
        return (true, notes ++ [note])
      else
        killStack i
        let note ← notedBury slot i process exitCode
        return (true, [note])

/-- The notes of the loop may be forgotten. -/
theorem killChildren_eq {killThread : Nat → K Bool}
    {notedKillThread : Nat → K (Bool × List Notification)}
    (hthread : ∀ p, killThread p = Prod.fst <$> notedKillThread p) (process n : Nat) :
    killChildren killThread process n = (fun _ => ()) <$> notedKillChildren notedKillThread
      process n := by
  induction n with
  | zero =>
    rw [killChildren, notedKillChildren, map_bind]
    refine bind_congr fun i => ?_
    split_ifs <;> rfl
  | succ n ih =>
    rw [killChildren, notedKillChildren, map_bind]
    refine bind_congr fun i => ?_
    cases i.childrenListHead with
    | nil => rfl
    | cons c l =>
      simp only [map_bind]
      refine bind_congr fun j => ?_
      split_ifs
      · simp only [map_bind, ih]
      · simp only [hthread, ih, map_eq_pure_bind, bind_assoc, pure_bind]
        refine bind_congr fun r => ?_
        split_ifs
        · rfl
        · simp only [bind_assoc, pure_bind]

/-- So may those of `kprocess_kill_process`. -/
theorem killWith_eq_noted {killThread : Nat → K Bool}
    {notedKillThread : Nat → K (Bool × List Notification)}
    (hthread : ∀ p, killThread p = Prod.fst <$> notedKillThread p) (slot : Option Nat)
    (stale process exitCode : Nat) :
    killWith killThread slot stale process exitCode =
      Prod.fst <$> notedKillWith notedKillThread slot stale process exitCode := by
  rw [killWith_eq, notedKillWith, map_bind]
  refine bind_congr fun s => ?_
  split_ifs
  · rfl
  rw [map_bind]
  refine bind_congr fun i => ?_
  split_ifs
  · rfl
  · simp only [killContext, killChildren_eq hthread, bury_eq, releaseContext,
      map_eq_pure_bind, bind_assoc,
      pure_bind]
  · simp only [bury_eq, map_eq_pure_bind, bind_assoc, pure_bind]

/-- A thread is only buried. -/
theorem notedKillThread_spec (h : ProcsOk s L) (ho : OwnedOk s L) (hp : p ∈ L)
    (hthread : (s.info p).isThread = true) {killThread : Nat → K (Bool × List Notification)}
    {slot : Option Nat} {stale exitCode : Nat} {ok : Bool} {notes : List Notification}
    (hrun : notedKillWith killThread slot stale p exitCode s = .ok ((ok, notes), s')) :
    ok = true ∧ ∃ q note, notes = [note] ∧ ThreadKilled s s' L p q exitCode ∧
      Noted s s' p q exitCode note := by
  obtain ⟨q, hq, hchild⟩ := h.thread_isChild hp hthread
  rw [notedKillWith, get_bind_apply] at hrun
  rcases ite_eq_ok.1 hrun with ⟨hzero, -⟩ | ⟨-, hrun⟩
  · have hle := h.count
    rw [hzero] at hle
    exact absurd (List.length_pos_of_mem hp) (by omega)
  obtain ⟨i, hi, hrun⟩ := getProc_bind_eq_ok.1 hrun
  obtain rfl := (info_eq hi).symm
  rcases ite_eq_ok.1 hrun with ⟨hword, -⟩ | ⟨-, hrun⟩
  · exact absurd hword (h.word_ne_zero hp hchild hq).2
  rcases ite_eq_ok.1 hrun with ⟨hunset, -⟩ | ⟨-, hrun⟩
  · rw [← isThread_eq_false, hthread] at hunset
    cases hunset
  obtain ⟨_, t, hstack, hrun⟩ := bind_eq_ok.1 hrun
  obtain ⟨note, t', hbury, hrun⟩ := bind_eq_ok.1 hrun
  cases hrun
  obtain ⟨-, hstack⟩ := kAssert_bind_eq_ok.1 hstack
  replace hstack := follow_bind_eq_ok.1 hstack
  obtain ⟨freed, t', hfree, hstack⟩ := bind_eq_ok.1 hstack
  cases hstack
  have hstep : VmStep (fun _ => False) _ _ :=
    kvmmFree_vmFrame _ _ _ _ _ hfree h.ready
  have hinfo : ∀ x, t.info x = s.info x := fun x => info_congr (congrFun hstep.records x)
  have hkin : t.kin = s.kin := funext fun x => by rw [KState.kin, hinfo, KState.kin]
  have hleaf : (s.info p).childrenListHead = [] := h.family.leaf p hp hthread
  obtain ⟨hburied, hnoted⟩ := notedBury_spec (h.of_vmStep hstep) (ho.of_vmStep hstep) hp hq
    (hkin ▸ hchild)
    (by rw [hinfo, hleaf]) (by rw [hinfo]) hbury
  refine ⟨rfl, q, note, rfl, ⟨hthread, hchild, hq, freed, t, hfree, hburied⟩, hnoted.process,
    hnoted.event, fun hpushed r hr => ?_⟩
  rw [← hinfo r]
  refine hnoted.pushed hpushed r ?_
  rw [← hr, KState.notified, KState.notified, hinfo,
    show t.schedulerQueue = s.schedulerQueue from congrArg Globals.schedulerQueue hstep.globals]
  exact List.find?_congr fun x _ => by rw [hinfo]

/-! ## Children of a killed process -/

/-- A child was moved to another parent. -/
structure Adopted (s s' : KState) (L : List Nat) (c r : Nat) : Prop where
  procs : ProcsOk s' L
  owned : OwnedOk s' L
  info : ∀ x ∈ L, s'.info x = { s.info x with
    parent := if x = c then .addr r else (s.info x).parent
    childrenListNode := if x = c then .linked r else (s.info x).childrenListNode
    childrenListHead := if x = r then (s.info x).childrenListHead.erase c ++ [c]
      else (s.info x).childrenListHead.erase c }
  step : RecordsStep (· ∈ L) s s'

/-- A child that leaves the list of its parent. -/
theorem ProcsOk.unlisted (h : ProcsOk s L) {c : Nat} (hchild : IsChild s.kin c p)
    (hrun : childrenListRemove c s = .ok ((), s')) :
    RecordsStep (fun b => b = c ∨ b = p) s s' ∧ ∀ x ∈ L, s'.objs x = some (.proc { s.info x with
      childrenListNode := if x = c then .null else (s.info x).childrenListNode
      childrenListHead := (s.info x).childrenListHead.erase c }) := by
  have hnode : (s.info c).childrenListNode = .linked p := NodeState.eq_linked hchild.listedBy
  obtain ⟨hc₁, hp₁, h₁⟩ := childrenListRemove_spec h.ready hchild.ne hnode hrun
  refine ⟨h₁, fun x hx => ?_⟩
  by_cases hxp : x = p
  · rw [hxp, hp₁, if_neg hchild.ne.symm]
  have herased : (s.info x).childrenListHead.erase c = (s.info x).childrenListHead :=
    List.erase_of_not_mem (h.family.notMem_children hchild hx hxp)
  rw [herased]
  by_cases hxc : x = c
  · rw [if_pos hxc, hxc, hc₁]
  · rw [if_neg hxc]
    exact proc_of_records (h₁.records x fun hor => hor.elim hxc hxp) (h.proc x hx)

/-- The root is no thread. -/
theorem ProcsOk.root_isThread (h : ProcsOk s L) (hp : p ∈ L) (hroot : IsRoot s.kin p) :
    (s.info p).isThread = false := by
  rcases h.family.parent p hp with ⟨-, hleaf⟩ | ⟨q, -, hq⟩
  · exact hleaf
  · have hnone := hroot.1
    rw [hq.parent] at hnone
    cases hnone

/-- `change_parent_process` hands a child to the root. -/
theorem changeParentProcess_spec (h : ProcsOk s L) (ho : OwnedOk s L) {c : Nat} (hc : c ∈ L)
    (hp : p ∈ L) (hchild : IsChild s.kin c p)
    (hrun : changeParentProcess c s.rootProcess s = .ok ((), s')) :
    Adopted s s' L c s.rootProcess := by
  obtain ⟨hne, hrest⟩ := kAssert_bind_eq_ok.1
    (by rw [changeParentProcess, get_bind_apply] at hrun; exact hrun)
  obtain ⟨_, s₁, hremove, hrest⟩ := bind_eq_ok.1 hrest
  obtain ⟨h₁, hobjs₁⟩ := h.unlisted hchild hremove
  obtain ⟨i, hi, hrest⟩ := getProc_bind_eq_ok.1 hrest
  -- the root is no thread, so it is the new parent
  obtain ⟨hr, hroot⟩ : s.rootProcess ∈ L ∧ IsRoot s.kin s.rootProcess := by
    rcases h.rootProcess with hzero | hroot
    · obtain ⟨alloc, hs⟩ := h₁.ready.heapOk
      rw [hzero, hs.objs_zero] at hi
      cases hi
    · exact hroot
  have hrleaf : (s.kin s.rootProcess).isLeaf = false := h.root_isThread hr hroot
  obtain rfl := Obj.proc.inj (Option.some.inj (hi.symm.trans (hobjs₁ _ hr)))
  have hunset : ¬ bitIsSet (s.info s.rootProcess).flags processFlagsThread = true := fun hset =>
    Bool.noConfusion (hrleaf.symm.trans hset)
  rw [if_neg hunset] at hrest
  obtain ⟨_, s₂, hmodify, hrest⟩ := bind_eq_ok.1 hrest
  obtain ⟨-, rfl, h₂⟩ := modifyProc_recordsStep h₁.ready hmodify
  have hadd := follow_bind_eq_ok.1 hrest
  obtain ⟨-, -, hc₃, hr₃, h₃⟩ := childrenListAdd_spec h₂.ready hne hadd
  have hobjs₃ : ∀ x ∈ L, s'.objs x = some (.proc { s.info x with
      parent := if x = c then .addr s.rootProcess else (s.info x).parent
      childrenListNode := if x = c then .linked s.rootProcess else (s.info x).childrenListNode
      childrenListHead := if x = s.rootProcess then (s.info x).childrenListHead.erase c ++ [c]
        else (s.info x).childrenListHead.erase c }) := fun x hx => by
    have hx₁ := info_eq (hobjs₁ x hx)
    by_cases hxc : x = c
    · subst hxc
      rw [hc₃, info_setObj, if_pos rfl, if_pos rfl, if_pos rfl, if_neg hne, hx₁]
    by_cases hxr : x = s.rootProcess
    · rw [if_neg hxc, if_neg hxc, if_pos hxr, hxr, hr₃, info_setObj, if_neg (hxr ▸ hxc), ← hxr, hx₁,
        if_neg hxc]
    · rw [if_neg hxc, if_neg hxc, if_neg hxr,
        objs_of_records (h₃.records x fun hor => hor.elim hxc hxr) rfl
          ((objs_setObj_of_ne _ hxc).trans (hobjs₁ x hx)), if_neg hxc]
  have hinfo : ∀ x ∈ L, s'.info x = _ := fun x hx => info_eq (hobjs₃ x hx)
  have hstep : RecordsStep (· ∈ L) s s' :=
    (h₁.mono fun b hb => hb.elim (· ▸ hc) (· ▸ hp)).trans
      ((h₂.mono fun b hb => hb ▸ hc).trans (h₃.mono fun b hb => hb.elim (· ▸ hc) (· ▸ hr)))
  have hkin : ∀ x ∈ L, s'.kin x = { s.kin x with
      parent := if x = c then some s.rootProcess else (s.kin x).parent
      listedBy := if x = c then some s.rootProcess else (s.kin x).listedBy
      children := if x = s.rootProcess then (s.kin x).children.erase c ++ [c]
        else (s.kin x).children.erase c } := fun x hx => by
    rw [KState.kin, hinfo x hx]
    simp only [KProcessInfo.kin, KState.kin, KProcessInfo.isThread, Kin.mk.injEq, and_true]
    split_ifs
    · exact ⟨if_neg (h.ne_zero hr), rfl⟩
    · exact ⟨rfl, rfl⟩
  refine
    { procs := ?_
      owned := ho.of_step hstep (fun b hb => .inr ⟨_, h.proc b hb⟩) fun x hx => ?_
      info := hinfo
      step := hstep }
  · refine h.of_family hstep.ready hstep.globals (fun x hx => ⟨?_, ?_, ?_⟩)
      (h.family.adopt hc hr hne hrleaf hkin) fun x hx hrootx => ?_
    · rw [hinfo x hx]
      exact hobjs₃ x hx
    · rw [hinfo x hx]
      dsimp only
      split_ifs
      · exact ⟨_, rfl⟩
      · exact h.parentAddr x hx
    · rw [hinfo x hx]
    · have hxc : x ≠ c := by
        rintro rfl
        rw [IsRoot, hchild.parent] at hrootx
        cases hrootx.1
      rw [IsRoot, hkin x hx, if_neg hxc, if_neg hxc]
      exact hrootx
  · rw [hinfo x hx]
    exact ⟨rfl, rfl⟩

end MeghaOS
