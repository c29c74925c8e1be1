import MeghaOS.Proof.Dispatch
import MeghaOS.Proof.LiveStep
import MeghaOS.Proof.Pids

/-!
# Delivery of process events

A process has a queue of events, which `kprocess_pushEvent` finds by the PID and which the process
empties with a system call. As long as no process gets the PID of a live one, every event goes to
the process that it was meant for, and each process receives its events in the order in which they
were sent (`mail_run_fifo`). An event is lost only when there is no memory for it as it is sent.
-/

namespace MeghaOS

open Exec KState

variable {s s' s₁ : KState} {L L' M : List Nat} {p q r x : Nat}

/-! ## Events that wait -/

/-- The event at an address. -/
def KState.eventAt (s : KState) (e : Nat) : Option KProcessEvent :=
  match s.objs e with
  | some (.event ev) => some ev
  | _ => none

/-- The events in the queue of a process. -/
def KState.waiting (s : KState) (p : Nat) : List KProcessEvent :=
  (s.info p).eventsQueueHead.filterMap s.eventAt

/-- The event of a record. -/
theorem eventAt_of_event {e : Nat} {ev : KProcessEvent} (h : s.objs e = some (.event ev)) :
    s.eventAt e = some ev := by
  rw [eventAt, h]

/-- The processes of `M` keep their PIDs and the events that wait for them. -/
def SameMail (s s' : KState) (M : List Nat) : Prop :=
  ∀ x ∈ M, (s'.info x).processID = (s.info x).processID ∧ s'.waiting x = s.waiting x

namespace SameMail

/-- Nothing happens. -/
theorem refl : SameMail s s M := fun _ _ => ⟨rfl, rfl⟩

/-- Two steps. -/
theorem trans (h₁ : SameMail s s₁ M) (h₂ : SameMail s₁ s' M) : SameMail s s' M := fun x hx =>
  ⟨(h₂ x hx).1.trans (h₁ x hx).1, (h₂ x hx).2.trans (h₁ x hx).2⟩

/-- Fewer processes have the same mail too. -/
theorem mono (h : SameMail s s' L) (hsub : ∀ x ∈ M, x ∈ L) : SameMail s s' M :=
  fun x hx => h x (hsub x hx)

/-- The queue of a process is a list of events. -/
theorem waiting_congr (ho : OwnedOk s L) (hx : x ∈ L)
    (hhead : (s'.info x).eventsQueueHead = (s.info x).eventsQueueHead)
    (hkept : ∀ e ∈ (s.info x).eventsQueueHead, ∀ ev, s.objs e = some (.event ev) →
      s'.objs e = some (.event ev)) : s'.waiting x = s.waiting x := by
  rw [KState.waiting, KState.waiting, hhead]
  refine List.filterMap_congr fun e he => ?_
  obtain ⟨ev, hev⟩ := ho.events x hx e he
  rw [eventAt_of_event hev, eventAt_of_event (hkept e he ev hev)]

/-- The records of processes and events are the same. -/
theorem of_records (hrecords : s'.records = s.records) (ho : OwnedOk s L) : SameMail s s' L :=
  fun x hx => by
    have hinfo : s'.info x = s.info x := info_congr (congrFun hrecords x)
    refine ⟨by rw [hinfo], waiting_congr ho hx (by rw [hinfo]) fun e _ ev hev => ?_⟩
    exact objs_of_records (congrFun hrecords e) rfl hev

end SameMail

/-- A step that leaves the processes and their events alone. -/
theorem VmStep.sameMail {gone : Nat → Prop} (hstep : VmStep gone s s') (ho : OwnedOk s L) :
    SameMail s s' L := .of_records hstep.records ho

/-! ## Yielding -/

/-- A switch of processes moves no mail. -/
theorem Switched.sameMail {state : Option ProcessRegisterState} {cr3 : Nat}
    {regs : ProcessRegisterState} (h : ProcsOk s L) (ho : OwnedOk s L)
    (hs : Switched s s' L state q cr3 regs) : SameMail s s' L := fun x hx => by
  refine ⟨by rw [hs.info x hx], SameMail.waiting_congr ho hx (by rw [hs.info x hx])
    fun e _ ev hev => objs_of_records (hs.records e ?_ ?_) rfl hev⟩
  · intro he
    rw [h.proc e he] at hev
    cases hev
  · intro y hy heq
    obtain ⟨regs', hregs⟩ := ho.regs y hy
    rw [heq, hregs] at hev
    cases hev

/-- Only the scheduler queue, and the node of one process in it, is another one. -/
theorem SameMail.setNode {node : NodeState Unit} (h : ProcsOk s L) (ho : OwnedOk s L) (hp : p ∈ L)
    (hobjs : s'.objs = (s.setObj p (.proc { s.info p with schedulerQueueNode := node })).objs) :
    SameMail s s' L := by
  intro x hx
  have hinfo : s'.info x = { s.info x with
      schedulerQueueNode := if x = p then node else (s.info x).schedulerQueueNode } := by
    rw [KState.info, hobjs]
    show KState.info _ x = _
    rw [info_setObj]
    split_ifs with hxp
    · rw [hxp]
    · rfl
  refine ⟨by rw [hinfo], SameMail.waiting_congr ho hx (by rw [hinfo]) fun e _ ev hev => ?_⟩
  rw [hobjs]
  refine (objs_setObj_of_ne _ ?_).trans hev
  rintro rfl
  rw [h.proc e hp] at hev
  cases hev

/-- Nor does `kprocess_yield`. -/
theorem kprocessYield_sameMail {state : Option ProcessRegisterState} {r : Switch}
    (h : ProcsOk s L) (ho : OwnedOk s L) (hcurrent : CurrentLive s L)
    (hrun : kprocessYield state s = .ok (r, s')) : SameMail s s' L := by
  rcases kprocessYield_spec h ho hcurrent hrun with
    ⟨-, -, p, rest, hqueue, rfl⟩ | ⟨pre, q, post, hy⟩
  · exact .setNode h ho (h.queueSubset p (hqueue ▸ .head _)) rfl
  · have h₁ := h.requeue hy.perm
    rcases hy.switch with ⟨-, rfl, -, -⟩ | ⟨flags, cr3, regs, -, hs⟩
    · exact .refl
    · exact Switched.sameMail (s := { s with schedulerQueue := post ++ pre ++ [q] }) h₁
        (ho.of_records rfl) hs

/-! ## Killing -/

/-- The live processes have different PIDs. -/
def PidsInj (s : KState) (L : List Nat) : Prop :=
  ∀ p ∈ L, ∀ q ∈ L, (s.info p).processID = (s.info q).processID → p = q

/-- The PIDs stay with their processes. -/
theorem PidsInj.of_sameMail (h : PidsInj s L) (hsame : SameMail s s' L) : PidsInj s' L :=
  fun p hp q hq heq => h p hp q hq (by rwa [(hsame p hp).1, (hsame q hq).1] at heq)

/-- At most the process `q` gets an event, and it is `ev`. -/
structure Delivers (s s' : KState) (M : List Nat) (q : Nat) (ev : KProcessEvent) : Prop where
  pid : ∀ x ∈ M, (s'.info x).processID = (s.info x).processID
  other : ∀ x ∈ M, x ≠ q → s'.waiting x = s.waiting x
  self : q ∈ M → s'.waiting q = s.waiting q ∨ s'.waiting q = s.waiting q ++ [ev]

namespace Delivers

variable {ev : KProcessEvent}

/-- An event may be lost, when there is no process to take it. -/
theorem of_sameMail (h : SameMail s s' M) : Delivers s s' M q ev :=
  ⟨fun x hx => (h x hx).1, fun x hx _ => (h x hx).2, fun hq => .inl (h q hq).2⟩

/-- Nothing happens before the event is sent. -/
theorem before (h₁ : SameMail s s₁ M) (h₂ : Delivers s₁ s' M q ev) : Delivers s s' M q ev where
  pid x hx := (h₂.pid x hx).trans (h₁ x hx).1
  other x hx hne := (h₂.other x hx hne).trans (h₁ x hx).2
  self hq := by
    rw [← (h₁ q hq).2]
    exact h₂.self hq

/-- Nothing happens after it. -/
theorem after (h₁ : Delivers s s₁ M q ev) (h₂ : SameMail s₁ s' M) : Delivers s s' M q ev where
  pid x hx := (h₂ x hx).1.trans (h₁.pid x hx)
  other x hx hne := (h₂ x hx).2.trans (h₁.other x hx hne)
  self hq := by
    rw [(h₂ q hq).2]
    exact h₁.self hq

/-- Fewer processes receive the same. -/
theorem mono (h : Delivers s s' L q ev) (hsub : ∀ x ∈ M, x ∈ L) : Delivers s s' M q ev :=
  ⟨fun x hx => h.pid x (hsub x hx), fun x hx => h.other x (hsub x hx), fun hq => h.self (hsub q hq)⟩

end Delivers

/-- The parent of a killed process may be told. -/
theorem Buried.delivers {exitCode : Nat} (h : ProcsOk s L) (ho : OwnedOk s L) (hp : p ∈ L)
    (hq : q ∈ L) (hinj : PidsInj s L) (hb : Buried s s' L p q exitCode) :
    Delivers s s' (L.erase p) q ⟨.proccessChildKilled, exitCode⟩ := by
  have hmem : ∀ {x}, x ∈ L.erase p → x ≠ p ∧ x ∈ L := fun hx => h.family.nodup.mem_erase_iff.1 hx
  obtain ⟨r, hr, new, hnew, hinfo⟩ := hb.info
  obtain rfl : r = q := by
    have hrmem := List.mem_of_find?_eq_some hr
    exact hinj r (h.queueSubset r (List.mem_of_mem_erase hrmem)) q hq
      (by simpa using List.find?_some hr)
  have hkept : ∀ x ∈ L.erase p, ∀ e ∈ (s.info x).eventsQueueHead, ∀ ev,
      s.objs e = some (.event ev) → s'.objs e = some (.event ev) := fun x hx e he ev hev => by
    obtain ⟨hxp, hxL⟩ := hmem hx
    refine hb.kept e _ hev rfl (fun i => by simp)
      (fun hmem => hxp (ho.eventsInj x hxL p hp e he hmem)) fun heq => ?_
    obtain ⟨regs, hregs⟩ := ho.regs p hp
    rw [heq, hregs] at hev
    cases hev
  refine ⟨fun x hx => by rw [hinfo x hx], fun x hx hxr => ?_, fun hrL => ?_⟩
  · exact SameMail.waiting_congr ho (hmem hx).2 (by rw [hinfo x hx]; exact if_neg hxr)
      (hkept x hx)
  · have hsame : (s.info r).eventsQueueHead.filterMap s'.eventAt = s.waiting r :=
      List.filterMap_congr fun e he => by
        obtain ⟨ev, hev⟩ := ho.events r hq e he
        rw [eventAt_of_event hev, eventAt_of_event (hkept r hrL e he ev hev)]
    have hhead : (s'.info r).eventsQueueHead = (s.info r).eventsQueueHead ++ new := by
      rw [hinfo r hrL]
      exact if_pos rfl
    rw [KState.waiting, hhead, List.filterMap_append, hsame]
    rcases hnew with rfl | ⟨e, rfl, he⟩
    · exact .inl (List.append_nil _)
    · rw [List.filterMap_cons_some (eventAt_of_event he)]
      exact .inr rfl

/-- The parent of a thread that is killed may be told. -/
theorem ThreadKilled.delivers {exitCode : Nat} (h : ProcsOk s L) (ho : OwnedOk s L) (hp : p ∈ L)
    (hinj : PidsInj s L) (hk : ThreadKilled s s' L p q exitCode) :
    Delivers s s' (L.erase p) q ⟨.proccessChildKilled, exitCode⟩ := by
  obtain ⟨c, freed, hfree, hb⟩ := hk.steps
  have hstep : VmStep (fun _ => False) _ _ := kvmmFree_vmFrame _ _ _ _ _ hfree h.ready
  have hsame := hstep.sameMail ho
  exact .before (hsame.mono fun x => List.mem_of_mem_erase)
    (hb.delivers (h.of_vmStep hstep) (ho.of_vmStep hstep) hp hk.mem (hinj.of_sameMail hsame))

/-- What the children of a killed process tell goes to that process. -/
theorem ChildrenGone.sameMail (hgone : ChildrenGone p s L s' L') (h : ProcsOk s L)
    (ho : OwnedOk s L) (hinj : PidsInj s L) :
    (∀ x ∈ L', (s'.info x).processID = (s.info x).processID ∧ x ∈ L) ∧
      ∀ x ∈ L', x ≠ p → s'.waiting x = s.waiting x := by
  induction hgone with
  | done => exact ⟨fun x hx => ⟨rfl, hx⟩, fun _ _ _ => rfl⟩
  | @adopted s t s' L L' c hc hchild hthread hadopted _ ih =>
    have hsame : SameMail s t L := fun x hx => by
      refine ⟨by rw [hadopted.info x hx], SameMail.waiting_congr ho hx
        (by rw [hadopted.info x hx]) fun e _ ev hev => ?_⟩
      refine objs_of_records (hadopted.step.records e fun heL => ?_) rfl hev
      rw [h.proc e heL] at hev
      cases hev
    obtain ⟨hpid, hwait⟩ := ih hadopted.procs hadopted.owned (hinj.of_sameMail hsame)
    exact ⟨fun x hx => ⟨(hpid x hx).1.trans (hsame x (hpid x hx).2).1, (hpid x hx).2⟩,
      fun x hx hxp => (hwait x hx hxp).trans (hsame x (hpid x hx).2).2⟩
  | @killed s t s' L L' c hc hkilled _ ih =>
    have hdel := hkilled.delivers h ho hc hinj
    have hinj' : PidsInj t (L.erase c) := fun x hx y hy heq =>
      hinj x (List.mem_of_mem_erase hx) y (List.mem_of_mem_erase hy)
        (by rwa [hdel.pid x hx, hdel.pid y hy] at heq)
    obtain ⟨hpid, hwait⟩ := ih hkilled.procs.1 hkilled.procs.2 hinj'
    exact ⟨fun x hx => ⟨(hpid x hx).1.trans (hdel.pid x (hpid x hx).2),
        List.mem_of_mem_erase (hpid x hx).2⟩,
      fun x hx hxp => (hwait x hx hxp).trans (hdel.other x (hpid x hx).2 hxp)⟩

/-- The release of the context leaves the events alone. -/
theorem Prepared.sameMail {c : Nat} (hprep : Prepared s s' L q c) (h : ProcsOk s L)
    (ho : OwnedOk s L) (hq : q ∈ L) : SameMail s s' L := fun x hx => by
  have hhead : (s'.info x).processID = (s.info x).processID ∧
      (s'.info x).eventsQueueHead = (s.info x).eventsQueueHead := by
    by_cases hxq : x = q
    · obtain ⟨context, hinfo⟩ := hprep.info
      rw [hxq, hinfo]
      exact ⟨rfl, rfl⟩
    · rw [info_congr (hprep.records x hxq)]
      exact ⟨rfl, rfl⟩
  refine ⟨hhead.1, SameMail.waiting_congr ho hx hhead.2 fun e _ ev hev => ?_⟩
  refine objs_of_records (hprep.records e ?_) rfl hev
  rintro rfl
  rw [h.proc e hq] at hev
  cases hev

/-- So may that of a process. -/
theorem ProcessKilled.delivers {exitCode : Nat} (h : ProcsOk s L) (ho : OwnedOk s L) (hp : p ∈ L)
    (hinj : PidsInj s L) (hk : ProcessKilled s s' L L' p q exitCode) :
    Delivers s s' L' q ⟨.proccessChildKilled, exitCode⟩ := by
  obtain ⟨s₁, s₂, L₁, hgone, hp₁, -, hcgone, hburied, rfl⟩ := hk.steps
  obtain ⟨hs₁, -⟩ := hgone.survive (R := fun _ => True) h ho hp (.inl fun _ => trivial)
  obtain ⟨hpid, hwait⟩ := hgone.sameMail h ho hinj
  have hinj₁ : PidsInj s₁ L₁ := fun x hx y hy heq =>
    hinj x (hpid x hx).2 y (hpid y hy).2 (by rwa [(hpid x hx).1, (hpid y hy).1] at heq)
  have hprep := hcgone.prepared hs₁.procs hs₁.owned hp₁
  have hsame₂ := hprep.sameMail hs₁.procs hs₁.owned hp₁
  have hq₁ := hgone.parent_mem h ho hp hk.child hk.mem
  have hsame₁ : SameMail s s₁ (L₁.erase p) := fun x hx => by
    obtain ⟨hxp, hx₁⟩ := hs₁.procs.family.nodup.mem_erase_iff.1 hx
    exact ⟨(hpid x hx₁).1, hwait x hx₁ hxp⟩
  exact .before (hsame₁.trans (hsame₂.mono fun x => List.mem_of_mem_erase))
    (hburied.delivers hprep.procs hprep.owned hp₁ hq₁ (hinj₁.of_sameMail hsame₂))

/-- A killed process is gone with its child threads, and its parent may be told. -/
theorem kprocessKillProcess_delivers {slot : Option Nat} {stale exitCode : Nat}
    (h : ProcsOk s L) (ho : OwnedOk s L) (hp : p ∈ L) (hinj : PidsInj s L)
    (hrun : kprocessKillProcess slot stale p exitCode s = .ok (true, s')) :
    ∃ L' q, Survive (fun _ => True) s s' L L' ∧ p ∉ L' ∧ (s.info p).parent = .addr q ∧
      Delivers s s' L' q ⟨.proccessChildKilled, exitCode⟩ := by
  rcases kprocessKillProcess_spec h ho hp hrun with ⟨hfalse, -⟩ | ⟨-, q, hthread | ⟨L', hprocess⟩⟩
  · cases hfalse
  · exact ⟨L.erase p, q, hthread.survive h ho hp fun _ _ => trivial,
      h.family.nodup.not_mem_erase, (h.word_ne_zero hp hthread.child hthread.mem).1,
      hthread.delivers h ho hp hinj⟩
  · obtain ⟨hs, hp'⟩ := hprocess.survive h ho hp (.inl fun _ => trivial) (.inl fun _ => trivial)
    exact ⟨L', q, hs, hp', (h.word_ne_zero hp hprocess.child hprocess.mem).1,
      hprocess.delivers h ho hp hinj⟩

/-- The process that an exit of the current process kills: a thread that takes its context along
kills its parent. -/
def KState.exiting (s : KState) (destroyContext : Bool) : Nat :=
  let i := s.info s.currentProcess
  if destroyContext ∧ i.parent.word ≠ 0 ∧ bitIsSet i.flags processFlagsThread then i.parent.word
  else s.currentProcess

/-- An exit is refused, or kills a process whose parent may be told, and the kernel yields. -/
theorem kprocessExit_delivers {exitCode stale slot : Nat} {destroy : Bool} {r : Switch}
    (h : ProcsOk s L) (ho : OwnedOk s L) (hcurrent : CurrentLive s L) (hinj : PidsInj s L)
    (hrun : kprocessExit exitCode destroy stale slot s = .ok (r, s')) :
    s' = { s with errorNumber := .errProcExitNotAllowed } ∨
      ∃ L' s₁ q, Survive (fun _ => True) s s₁ L L' ∧ s.currentProcess ∉ L' ∧
        (s.info (s.exiting destroy)).parent = .addr q ∧
        Delivers s s₁ L' q ⟨.proccessChildKilled, exitCode % 256⟩ ∧
        kprocessYield none { s₁ with currentProcess := 0 } = .ok (r, s') := by
  rw [kprocessExit, get_bind_apply] at hrun
  obtain ⟨hne, hrun⟩ := kAssert_bind_eq_ok.1 hrun
  have hc := hcurrent.resolve_left hne
  obtain ⟨i, hi, hrun⟩ := getProc_bind_eq_ok.1 hrun
  obtain rfl := (info_eq hi).symm
  obtain ⟨hp, hdies, slot, hrun⟩ : s.exiting destroy ∈ L ∧ (s.exiting destroy = s.currentProcess ∨
      (s.info s.currentProcess).isThread = true ∧
        (s.info s.currentProcess).parent = .addr (s.exiting destroy)) ∧
      ∃ slot, exitProcess slot exitCode stale (s.exiting destroy) s = .ok (r, s') := by
    rcases ite_eq_ok.1 hrun with ⟨hcond, hrun⟩ | ⟨hcond, hrun⟩
    · obtain ⟨q, hq, hchild⟩ := h.thread_isChild hc hcond.2.2
      replace hrun := follow_bind_eq_ok.1 hrun
      have hparent := (h.word_ne_zero hc hchild hq).1
      rw [hparent] at hrun
      have hexiting : s.exiting destroy = q := by
        rw [KState.exiting, if_pos hcond, hparent]
        rfl
      rw [hexiting]
      exact ⟨hq, .inr ⟨hcond.2.2, hparent⟩, _, hrun⟩
    · have hexiting : s.exiting destroy = s.currentProcess := if_neg hcond
      rw [hexiting]
      exact ⟨hc, .inl rfl, _, hrun⟩
  obtain ⟨killed, s₁, hkill, hrun⟩ := bind_eq_ok.1 hrun
  cases killed with
  | false =>
    rcases kprocessKillProcess_spec h ho hp hkill with ⟨-, -, rfl⟩ | ⟨habsurd, -⟩
    · cases hrun
      exact .inl rfl
    · cases habsurd
  | true =>
    obtain ⟨L', q, hs, hp', hparent, hdel⟩ := kprocessKillProcess_delivers h ho hp hinj hkill
    refine .inr ⟨L', s₁, q, hs, fun hc' => ?_, hparent, hdel, hrun⟩
    rcases hdies with heq | ⟨hthread, hparent'⟩
    · exact hp' (heq ▸ hc')
    · -- a thread does not outlive its parent
      have hflags := (KProcessInfo.of_self (hs.self _ hc')).2.1
      obtain ⟨q', hq', hchild⟩ := hs.procs.thread_isChild hc'
        (by rwa [KProcessInfo.isThread, hflags])
      have hparent'' := (hs.procs.word_ne_zero hc' hchild hq').1
      rw [hs.thread _ hc' hthread, hparent'] at hparent''
      exact hp' (Ptr.addr.inj hparent'' ▸ hq')

/-! ## What is sent and what is popped -/

/-- The events that the kernel sends to the process `x`. -/
def KState.sends (s : KState) (e : KernelEvent) (x : Nat) : List KProcessEvent :=
  match e with
  | .timer =>
    let tickCount := u32 (s.tickCount + 1)
    if u64 (tickCount * tickPeriodMicrosec) % processPeriodUs = 0 ∧ x = s.currentProcess then
      [⟨.proccessYieldReq, tickCount⟩]
    else []
  | .exit code destroyContext _ _ =>
    if (s.info (s.exiting destroyContext)).parent = .addr x then
      [⟨.proccessChildKilled, code % 256⟩]
    else []
  | .create addr len flags fresh =>
    -- a process that cannot be set up is killed, and the word that its record has for the parent
    -- is taken, whether it was assigned or not
    match setupProcess addr len flags fresh s with
    | .ok ((p, false), s') =>
      if s.Admits flags ∧ p ≠ 0 ∧ (s'.info p).parent.word = x then
        [⟨.proccessChildKilled, kprocessExitCodeForceKilled⟩]
      else []
    | _ => []
  | _ => []

/-- The events that the process `x` receives from the system call that pops one. -/
def KState.pops (s : KState) (e : KernelEvent) (x : Nat) : List KProcessEvent :=
  match e with
  | .popEvent =>
    match (do kprocessPopEvent (← kprocessGetCurrentPID) : K KProcessEvent) s with
    | .ok (ev, _) => if x = s.currentProcess ∧ ev.event ≠ .none then [ev] else []
    | .error _ => []
  | _ => []

/-- If the event creates a process, no process has the PID that the new one gets. -/
def KernelEvent.FreshPid (s : KState) : KernelEvent → Prop
  | .create _ _ _ _ => ∀ p, s.Live p → (s.info p).processID ≠ s.processCount + 1
  | _ => True

/-! ## One event of the kernel -/

/-- What a process receives, followed by what then waits for it, is what waited for it before,
followed by what arrived of the events that were sent to it. -/
def Mailed (s s' : KState) (e : KernelEvent) (x : Nat) : Prop :=
  ∃ arrived, arrived.Sublist (s.sends e x) ∧
    s.pops e x ++ s'.waiting x = s.waiting x ++ arrived

variable {e : KernelEvent}

/-- A step without mail. -/
theorem Mailed.of_same (hpops : s.pops e x = []) (h : s'.waiting x = s.waiting x) :
    Mailed s s' e x := ⟨[], List.nil_sublist _, by rw [hpops, h, List.append_nil, List.nil_append]⟩

/-- A step that sends an event. -/
theorem Mailed.of_sent {ev : KProcessEvent} (hpops : s.pops e x = []) (hsends : s.sends e x = [ev])
    (h : s'.waiting x = s.waiting x ∨ s'.waiting x = s.waiting x ++ [ev]) : Mailed s s' e x := by
  rcases h with h | h
  · exact .of_same hpops h
  · exact ⟨[ev], by rw [hsends], by rw [hpops, h, List.nil_append]⟩

/-- What the mail of the live processes needs: their PIDs are different ones and not that of the
kernel, and something happened in each event that waits. -/
structure MailOk (s : KState) (L : List Nat) : Prop where
  pidsInj : PidsInj s L
  pidNe : ∀ x ∈ L, (s.info x).processID ≠ processIdKernel
  events : ∀ x ∈ L, ∀ ev ∈ s.waiting x, ev.event ≠ .none

/-- No step sends the empty event. -/
theorem sends_ne_none {ev : KProcessEvent} (h : ev ∈ s.sends e x) : ev.event ≠ .none := by
  cases e with
  | timer =>
    simp only [KState.sends] at h
    split_ifs at h <;> simp_all
  | exit code destroyContext stale slot =>
    simp only [KState.sends] at h
    split_ifs at h <;> simp_all
  | create addr len flags fresh =>
    simp only [KState.sends] at h
    split at h
    · split_ifs at h <;> simp_all
    · cases h
  | _ => cases h

/-- The mail of the processes that stay. -/
theorem MailOk.mailed (h : MailOk s L) (hpid : ∀ x ∈ M, x ∈ L ∧
    (s'.info x).processID = (s.info x).processID) (hmail : ∀ x ∈ M, Mailed s s' e x) :
    MailOk s' M where
  pidsInj x hx y hy heq :=
    h.pidsInj x (hpid x hx).1 y (hpid y hy).1 (by rwa [(hpid x hx).2, (hpid y hy).2] at heq)
  pidNe x hx := by
    rw [(hpid x hx).2]
    exact h.pidNe x (hpid x hx).1
  events x hx ev hev := by
    obtain ⟨arrived, hsub, heq⟩ := hmail x hx
    have hmem : ev ∈ s.waiting x ++ arrived := heq ▸ List.mem_append_right _ hev
    rcases List.mem_append.1 hmem with hold | hnew
    · exact h.events x (hpid x hx).1 ev hold
    · exact sends_ne_none (hsub.subset hnew)

/-- The invariant is about the mail only. -/
theorem MailOk.of_sameMail (h : MailOk s L) (hsame : SameMail s s' L) : MailOk s' L :=
  h.mailed (e := .yield none) (fun x hx => ⟨hx, (hsame x hx).1⟩) fun x hx =>
    .of_same rfl (hsame x hx).2

/-- What an event does to the mail of the live processes. -/
structure MailStep (s s' : KState) (e : KernelEvent) (L L' : List Nat) : Prop where
  live : LiveInv s' L'
  mail : MailOk s' L'
  mailed : ∀ x ∈ L, x ∈ L' → Mailed s s' e x

/-- A step after which every process that is left has its mail. -/
theorem MailStep.of_mailed (h : MailOk s L) (hlive : LiveInv s' L') (hpid : ∀ x ∈ L', x ∈ L ∧
    (s'.info x).processID = (s.info x).processID) (hmail : ∀ x ∈ L', Mailed s s' e x) :
    MailStep s s' e L L' :=
  ⟨hlive, h.mailed hpid hmail, fun x _ hx => hmail x hx⟩

/-- A step without mail keeps the processes' mail as it was. -/
theorem MailStep.of_same (h : MailOk s L) (hlive : LiveInv s' L) (hpops : ∀ x, s.pops e x = [])
    (hsame : SameMail s s' L) : MailStep s s' e L L :=
  .of_mailed h hlive (fun x hx => ⟨hx, (hsame x hx).1⟩) fun x hx =>
    .of_same (hpops x) (hsame x hx).2

/-- `kprocess_yield` keeps the live processes. -/
theorem kprocessYield_live {state : Option ProcessRegisterState} {r : Switch} (hlive : LiveInv s L)
    (hrun : kprocessYield state s = .ok (r, s')) : LiveInv s' L :=
  ((kprocessYield_steps hlive hrun).preserve (P := fun _ _ => True) (fun _ _ _ => trivial) hlive
    trivial).1

/-- `kprocess_exit` sends its parent the end of the process. -/
theorem kprocessExit_mail {code stale slot : Nat} {destroy : Bool} {r : Switch}
    (hlive : LiveInv s L) (h : MailOk s L)
    (hrun : kprocessExit code destroy stale slot s = .ok (r, s')) :
    ∃ L', MailStep s s' (.exit code destroy stale slot) L L' := by
  rcases kprocessExit_delivers hlive.procs hlive.owned hlive.current h.pidsInj hrun with
    rfl | ⟨L', s₁, q, hs, hgone, hparent, hdel, hyield⟩
  · have hstep : VmStep (fun _ => False) s _ := .error hlive.procs.ready .errProcExitNotAllowed
    exact ⟨L, .of_same h (hlive.quiet (.of_vmStep hlive.procs hlive.owned hstep)).1 (fun _ => rfl)
      (hstep.sameMail hlive.owned)⟩
  · have hlive₁ := hlive.exited hs hgone
    have hsame := kprocessYield_sameMail hlive₁.procs hlive₁.owned hlive₁.current hyield
    have hdel' : Delivers s s' L' q _ := hdel.after hsame
    refine ⟨L', .of_mailed h (kprocessYield_live hlive₁ hyield)
      (fun x hx => ⟨hs.mem hx, hdel'.pid x hx⟩) fun x hx => ?_⟩
    by_cases hxq : x = q
    · subst hxq
      exact .of_sent rfl (if_pos hparent) (hdel'.self hx)
    · exact .of_same rfl (hdel'.other x hx hxq)

/-- The PID that a system call runs for is that of the current process. -/
theorem kprocessGetCurrentPID_live {pid : Nat} (hlive : LiveInv s L)
    (hrun : kprocessGetCurrentPID s = .ok (pid, s')) :
    pid = processIdKernel ∨ s.currentProcess ∈ L ∧ pid = (s.info s.currentProcess).processID := by
  rw [kprocessGetCurrentPID, get_bind_apply] at hrun
  rcases ite_eq_ok.1 hrun with ⟨-, hrun⟩ | ⟨hne, hrun⟩
  · cases hrun
    exact .inl rfl
  · obtain ⟨i, hi, hrun⟩ := getProc_bind_eq_ok.1 hrun
    cases hrun
    rw [info_eq hi]
    exact .inr ⟨hlive.current.resolve_left hne, rfl⟩

/-- The lookup by the PID of the current process finds this process. -/
theorem MailOk.find_current {pid : Nat} (h : MailOk s L) (hlive : LiveInv s L)
    (hrun : kprocessGetCurrentPID s = .ok (pid, s')) (hfind : s.findProcess pid = some p) :
    p ∈ L ∧ p = s.currentProcess := by
  obtain ⟨hqueue, hpid⟩ := findProcess_mem hfind
  have hp := hlive.procs.queueSubset p hqueue
  rcases kprocessGetCurrentPID_live hlive hrun with rfl | ⟨hc, rfl⟩
  · exact absurd hpid (h.pidNe p hp)
  · exact ⟨hp, h.pidsInj p hp _ hc hpid⟩

/-- An event that is pushed is delivered. -/
theorem Pushed.delivers {ev : KProcessEvent} {e : Nat} (h : ProcsOk s L) (ho : OwnedOk s L)
    (hp : p ∈ L) (hpush : Pushed s s' p e ev) : Delivers s s' L p ev := by
  have hinfop := info_eq hpush.proc
  have hother : ∀ x ∈ L, x ≠ p → s'.info x = s.info x := fun x hx hxp =>
    info_congr (hpush.step.records x fun hor => hor.elim hxp fun heq => by
      have hproc := h.proc x hx
      rw [heq, hpush.fresh] at hproc
      cases hproc)
  have hkept : ∀ b ev, s.objs b = some (.event ev) → s'.objs b = some (.event ev) := by
    intro b ev' hb
    refine objs_of_records (hpush.step.records b fun hor => ?_) rfl hb
    rcases hor with rfl | rfl
    · rw [h.proc b hp] at hb
      cases hb
    · rw [hpush.fresh] at hb
      cases hb
  refine ⟨fun x hx => ?_, fun x hx hxp => ?_, fun _ => .inr ?_⟩
  · by_cases hxp : x = p
    · rw [hxp, hinfop]
    · rw [hother x hx hxp]
  · exact SameMail.waiting_congr ho hx (by rw [hother x hx hxp]) fun b _ ev' hb => hkept b ev' hb
  · have hsame : (s.info p).eventsQueueHead.filterMap s'.eventAt = s.waiting p :=
      List.filterMap_congr fun b hb => by
        obtain ⟨ev', hev'⟩ := ho.events p hp b hb
        rw [eventAt_of_event hev', eventAt_of_event (hkept b ev' hev')]
    rw [KState.waiting, hinfop]
    show List.filterMap _ ((s.info p).eventsQueueHead ++ [e]) = _
    rw [List.filterMap_append, hsame, List.filterMap_cons_some (eventAt_of_event hpush.event)]
    rfl

/-- The timer's interrupt sends to the current process only. -/
theorem timerInterruptHandler_mail (hlive : LiveInv s L) (h : MailOk s L)
    (hrun : timerInterruptHandler s = .ok ((), s')) : MailStep s s' .timer L L := by
  have hlive' := (hlive.quiet (timerInterruptHandler_quiet hlive.procs hlive.owned hrun)).1
  rw [timerInterruptHandler, modify_bind_apply, keventmanagerInvoke, get_bind_apply] at hrun
  have h₁ := Quiet.tick hlive.procs hlive.owned (u32 (s.tickCount + 1))
  have htick : SameMail s { s with tickCount := u32 (s.tickCount + 1) } L :=
    .of_records rfl hlive.owned
  rcases ite_eq_ok.1 hrun with ⟨hdue, hrun⟩ | ⟨-, hrun⟩
  · obtain ⟨pid, s₁, hpid, hrun⟩ := bind_eq_ok.1 hrun
    obtain rfl := kprocessGetCurrentPID_state hpid
    rcases ite_eq_ok.1 hrun with ⟨-, hrun⟩ | ⟨-, hrun⟩
    · obtain ⟨ok, s₂, hpush, hrun⟩ := bind_eq_ok.1 hrun
      cases hrun
      obtain ⟨p, hfind, hpushed⟩ := kprocessPushEvent_spec h₁.procs hpush
      obtain ⟨hp, hcur⟩ := (h.of_sameMail htick).find_current (hlive.quiet h₁).1 hpid hfind
      have hdel : Delivers s s' L p ⟨.proccessYieldReq, u32 (s.tickCount + 1)⟩ := by
        rcases hpushed with ⟨-, e, rfl⟩ | ⟨-, e, hpushed⟩
        · exact .of_sameMail htick
        · exact .before htick (hpushed.delivers h₁.procs h₁.owned hp)
      refine .of_mailed h hlive' (fun x hx => ⟨hx, hdel.pid x hx⟩) fun x hx => ?_
      by_cases hxp : x = p
      · subst hxp
        exact .of_sent rfl (if_pos ⟨hdue, hcur⟩) (hdel.self hx)
      · exact .of_same rfl (hdel.other x hx hxp)
    · cases hrun
      exact .of_same h hlive' (fun _ => rfl) htick
  · cases hrun
    exact .of_same h hlive' (fun _ => rfl) htick

/-- The event that is popped was the oldest one. -/
theorem Popped.waiting {e : Nat} {ev : KProcessEvent} {rest : List Nat} (h : ProcsOk s L)
    (ho : OwnedOk s L) (hp : p ∈ L) (hev : s.objs e = some (.event ev))
    (hpop : Popped s s' p e rest) : s.waiting p = ev :: s'.waiting p ∧
      SameMail s s' (L.erase p) ∧ (s'.info p).processID = (s.info p).processID := by
  have hinfop : s'.info p = { s.info p with eventsQueueHead := rest } := info_eq hpop.proc
  have hnodup := ho.eventsNodup p hp
  rw [hpop.head] at hnodup
  have hne : ∀ x ∈ L, x ≠ e := by
    rintro x hx rfl
    rw [h.proc x hx] at hev
    cases hev
  have hkept : ∀ b ev, s.objs b = some (.event ev) → b ≠ e → s'.objs b = some (.event ev) := by
    intro b ev' hb hbe
    refine objs_of_records (hpop.step.records b fun hor => hor.elim (fun heq => ?_) hbe) rfl hb
    rw [heq, h.proc p hp] at hb
    cases hb
  refine ⟨?_, fun x hx => ?_, by rw [hinfop]⟩
  · rw [KState.waiting, KState.waiting, hpop.head, List.filterMap_cons_some (eventAt_of_event hev),
      hinfop]
    refine congrArg (ev :: ·) (List.filterMap_congr fun b hb => ?_)
    obtain ⟨ev', hev'⟩ := ho.events p hp b (hpop.head ▸ List.mem_cons_of_mem e hb)
    rw [eventAt_of_event hev', eventAt_of_event (hkept b ev' hev' fun heq =>
      (List.nodup_cons.1 hnodup).1 (heq ▸ hb))]
  · obtain ⟨hxp, hx⟩ := h.family.nodup.mem_erase_iff.1 hx
    have hinfo : s'.info x = s.info x :=
      info_congr (hpop.step.records x fun hor => hor.elim hxp (hne x hx))
    refine ⟨by rw [hinfo], SameMail.waiting_congr ho hx (by rw [hinfo]) fun b hb ev' hev' => ?_⟩
    refine hkept b ev' hev' fun heq => hxp (ho.eventsInj x hx p hp b hb ?_)
    rw [hpop.head, heq]
    exact .head _

/-- A process takes its oldest event. -/
theorem popEvent_mail (hlive : LiveInv s L) (h : MailOk s L)
    (hrun : kernelEvent .popEvent s = .ok ((), s')) : MailStep s s' .popEvent L L := by
  obtain ⟨pid, s₁, hpid, hrest⟩ := bind_eq_ok.1 hrun
  have hsame := kprocessGetCurrentPID_state hpid
  subst s₁
  obtain ⟨ev, s₂, hpop, hrest⟩ := bind_eq_ok.1 hrest
  cases hrest
  have hpops : ∀ x, s.pops .popEvent x =
      if x = s.currentProcess ∧ ev.event ≠ .none then [ev] else [] := fun x => by
    show (match (do kprocessPopEvent (← kprocessGetCurrentPID) : K KProcessEvent) s with
      | .ok (ev, _) => _
      | .error _ => _) = _
    rw [bind_of_ok hpid, hpop]
  obtain ⟨p, hfind, ⟨hempty, rfl, rfl⟩ | ⟨e, rest, hev, hpopped⟩⟩ :=
    kprocessPopEvent_spec hlive.procs hpop
  · exact .of_same h hlive (fun x => (hpops x).trans (if_neg fun hne => hne.2 rfl)) .refl
  · obtain ⟨hp, hcur⟩ := h.find_current hlive hpid hfind
    subst p
    obtain ⟨hwait, hsame, hpidp⟩ := hpopped.waiting hlive.procs hlive.owned hp hev
    have hmem : ∀ x ∈ L, x ≠ s.currentProcess → x ∈ L.erase s.currentProcess := fun x hx hxp =>
      (List.mem_erase_of_ne hxp).2 hx
    refine .of_mailed h (hlive.quiet (.popped hlive.procs hlive.owned hp hev hpopped)).1
      (fun x hx => ⟨hx, ?_⟩) fun x hx => ?_
    · by_cases hxp : x = s.currentProcess
      · rw [hxp, hpidp]
      · exact (hsame x (hmem x hx hxp)).1
    · by_cases hxp : x = s.currentProcess
      · subst hxp
        have hne := h.events _ hp ev (hwait ▸ .head _)
        refine ⟨[], List.nil_sublist _, ?_⟩
        rw [hpops, if_pos ⟨rfl, hne⟩, hwait, List.append_nil]
        rfl
      · exact .of_same ((hpops x).trans (if_neg fun hand => hxp hand.1))
          (hsame x (hmem x hx hxp)).2

/-- What no process knows of is no mail. -/
theorem Outside.sameMail (hout : Outside s s') (h : ProcsOk s L) (ho : OwnedOk s L) :
    SameMail s s' L := fun x hx => by
  have hinfo := (hout.info (h.proc x hx)).2
  refine ⟨by rw [hinfo], SameMail.waiting_congr ho hx (by rw [hinfo]) fun b _ ev hev => ?_⟩
  exact (records_eq_some.1 (hout.records b _ (records_eq_some.2 ⟨hev, rfl⟩))).1

/-- A new process has no mail, and the others have theirs. -/
theorem Grown.sameMail {flags : Nat} (hg : Grown s s' L p flags) (ho : OwnedOk s L) :
    SameMail s s' L := fun x hx => by
  have hinfo := hg.info x hx
  exact ⟨by rw [hinfo], SameMail.waiting_congr ho hx (by rw [hinfo]) fun b _ ev hev =>
    hg.kept b _ hev rfl fun i => by simp⟩

/-- A new process has no events and a PID of its own. -/
theorem Grown.mailOk {flags : Nat} (hg : Grown s s' L p flags) (ho : OwnedOk s L) (h : MailOk s L)
    (hnew : ∀ x ∈ L, (s.info x).processID ≠ s.processCount + 1) : MailOk s' (p :: L) := by
  have hsame := hg.sameMail ho
  have hL := h.of_sameMail hsame
  have hfresh : ∀ x ∈ L, (s'.info x).processID ≠ (s'.info p).processID := fun x hx => by
    rw [(hsame x hx).1, hg.processID]
    exact hnew x hx
  refine ⟨fun x hx y hy heq => ?_, fun x hx => ?_, fun x hx ev hev => ?_⟩
  · rcases List.mem_cons.1 hx with rfl | hx <;> rcases List.mem_cons.1 hy with hyp | hy
    · exact hyp.symm
    · exact absurd heq.symm (hfresh y hy)
    · exact absurd (hyp ▸ heq) (hfresh x hx)
    · exact hL.pidsInj x hx y hy heq
  · rcases List.mem_cons.1 hx with rfl | hx
    · rw [hg.processID]
      exact Nat.succ_ne_zero _
    · exact hL.pidNe x hx
  · rcases List.mem_cons.1 hx with rfl | hx
    · rw [KState.waiting, hg.events] at hev
      cases hev
    · exact hL.events x hx ev hev

/-- The parent of a process that is given up is told of its death. -/
theorem GivesUp.sends {addr len flags : Nat} {fresh : FreshMemory}
    (hup : GivesUp s addr len flags fresh p s') (hparent : (s'.info p).parent = .addr q) :
    s.sends (.create addr len flags fresh) q =
      [⟨.proccessChildKilled, kprocessExitCodeForceKilled⟩] := by
  obtain ⟨hadmits, hsetup, hp⟩ := hup
  simp only [KState.sends, hsetup, hparent]
  exact if_pos ⟨hadmits, hp, rfl⟩

/-- `kprocess_create` sends mail only when the new process is killed again. -/
theorem kprocessCreate_mail {addr len flags : Nat} {fresh : FreshMemory} {result : Option Nat}
    (hlive : LiveInv s L) (h : MailOk s L)
    (hnew : KernelEvent.FreshPid s (.create addr len flags fresh))
    (hwhole : ¬ FailsHalfMade s addr len flags fresh)
    (hrun : kprocessCreate addr len flags fresh s = .ok (result, s')) :
    ∃ L', MailStep s s' (.create addr len flags fresh) L L' := by
  rcases kprocessCreate_spec hlive.procs hlive.owned hlive.current hwhole hrun with
    ⟨-, hout, hcount⟩ | ⟨p, s₁, hg, hcase⟩
  · exact ⟨L, .of_same h (hlive.outside hout hcount.ge (hcount.le.trans hlive.procs.countMax)).1
      (fun _ => rfl)
      (hout.sameMail hlive.procs hlive.owned)⟩
  have hsame₁ := hg.sameMail hlive.owned
  have hlive₁ := hlive.grown hg
  have h₁ := hg.mailOk hlive.owned h fun x hx => hnew x ((hlive.live x).2 hx)
  rcases hcase with ⟨-, -, rfl⟩ | ⟨-, -, hup, hkill⟩
  · have hsame : SameMail s₁ (enqueued s₁ p) (p :: L) :=
      .setNode hg.procs hg.owned (.head _) rfl
    exact ⟨p :: L, (hlive₁.enqueued (.head _) hg.unqueued).1, h₁.of_sameMail hsame,
      fun x hx _ => .of_same rfl (((hsame.mono fun _ => .tail _) x hx).2.trans (hsame₁ x hx).2)⟩
  · obtain ⟨L', -, hlive', hperm⟩ := hg.revoked hlive hkill
    obtain ⟨L'', q, hs, -, hparent, hdel⟩ :=
      kprocessKillProcess_delivers hg.procs hg.owned (.head _) h₁.pidsInj hkill
    have hmem : ∀ x ∈ L', x ∈ L'' := fun x hx =>
      by_contra fun hx' => hlive₁.dead hs hx' ((hlive'.live x).2 hx)
    have hdel' : Delivers s s' L' q _ := .before (hsame₁.mono fun x => hperm.mem_iff.1)
      (hdel.mono hmem)
    refine ⟨L', .of_mailed h hlive' (fun x hx => ⟨hperm.mem_iff.1 hx, hdel'.pid x hx⟩)
      fun x hx => ?_⟩
    by_cases hxq : x = q
    · subst hxq
      exact .of_sent rfl (hup.sends hparent) (hdel'.self hx)
    · exact .of_same rfl (hdel'.other x hx hxq)

/-- Every event of the kernel keeps the mail of the processes. -/
theorem kernelEvent_mail (hlive : LiveInv s L) (h : MailOk s L) (hnew : e.FreshPid s)
    (hwhole : e.Whole s) (hrun : kernelEvent e s = .ok ((), s')) : ∃ L', MailStep s s' e L L' := by
  have hvm : VmStep (fun _ => False) s s' → (∀ x, s.pops e x = []) →
      ∃ L', MailStep s s' e L L' := fun hstep hpops =>
    ⟨L, .of_same h (hlive.quiet (.of_vmStep hlive.procs hlive.owned hstep)).1 hpops
      (hstep.sameMail hlive.owned)⟩
  cases e with
  | create addr len flags fresh =>
    obtain ⟨result, s₁, hcreate, hrun⟩ := bind_eq_ok.1 hrun
    cases hrun
    exact kprocessCreate_mail hlive h hnew hwhole hcreate
  | yield state =>
    obtain ⟨r, s₁, hyield, hrun⟩ := bind_eq_ok.1 hrun
    cases hrun
    exact ⟨L, .of_same h (kprocessYield_live hlive hyield) (fun _ => rfl)
      (kprocessYield_sameMail hlive.procs hlive.owned hlive.current hyield)⟩
  | exit code destroy stale slot =>
    obtain ⟨r, s₁, hexit, hrun⟩ := bind_eq_ok.1 hrun
    cases hrun
    exact kprocessExit_mail hlive h hexit
  | pageFault addr =>
    exact hvm ((pageFaultHandler_fixes _ _).vmFrame _ _ _ hrun hlive.procs.ready) fun _ => rfl
  | popEvent => exact ⟨L, popEvent_mail hlive h hrun⟩
  | timer => exact ⟨L, timerInterruptHandler_mail hlive h hrun⟩
  | memmapKernel va szPages flags =>
    rw [kernelEvent, get_bind_apply] at hrun
    obtain ⟨⟨mapped, out⟩, s₁, hmap, hrun⟩ := bind_eq_ok.1 hrun
    cases hrun
    exact hvm (kvmmMemmap_vmFrame _ _ _ _ _ _ _ _ hmap hlive.procs.ready) fun _ => rfl

/-! ## Runs -/

/-- In every run each process has got what was sent to it, in order. -/
theorem KernelRun.mailOk (h : KernelRun (fun s e => e.FreshPid s ∧ e.Whole s) s) :
    ∃ L, LiveInv s L ∧ MailOk s L := by
  induction h with
  | booted hb =>
    exact ⟨[], booted_live hb, fun _ hp => absurd hp List.not_mem_nil,
      fun _ hp => absurd hp List.not_mem_nil, fun _ hp => absurd hp List.not_mem_nil⟩
  | event _ hok hrun ih =>
    obtain ⟨L, hlive, hmail⟩ := ih
    obtain ⟨L', hstep⟩ := kernelEvent_mail hlive hmail hok.1 hok.2 hrun
    exact ⟨L', hstep.live, hstep.mail⟩

/-- The states that the kernel reaches from `s₀` while the process `x` lives, with the events that
were sent to the process and those that it received. -/
inductive MailRun (x : Nat) (s₀ : KState) :
    List KProcessEvent → List KProcessEvent → KState → Prop
  | start : MailRun x s₀ [] [] s₀
  | event {sent popped : List KProcessEvent} {s s' : KState} {e : KernelEvent} :
      MailRun x s₀ sent popped s → e.FreshPid s ∧ e.Whole s → kernelEvent e s = .ok ((), s') →
      s'.Live x → MailRun x s₀ (sent ++ s.sends e x) (popped ++ s.pops e x) s'

/-- The queue of a process is first in, first out: what the process has received, followed by what
waits for it, is what waited at first, followed by what has arrived of the events sent to it. -/
theorem mail_run_fifo {s₀ : KState} {sent popped : List KProcessEvent}
    (hrun : KernelRun (fun s e => e.FreshPid s ∧ e.Whole s) s₀) (hlive : s₀.Live x)
    (h : MailRun x s₀ sent popped s) :
    ∃ arrived, arrived.Sublist sent ∧ popped ++ s.waiting x = s₀.waiting x ++ arrived := by
  suffices hinv : (∃ L, LiveInv s L ∧ MailOk s L ∧ x ∈ L) ∧
      ∃ arrived, arrived.Sublist sent ∧ popped ++ s.waiting x = s₀.waiting x ++ arrived from hinv.2
  induction h with
  | start =>
    obtain ⟨L, hinv, hmail⟩ := hrun.mailOk
    exact ⟨⟨L, hinv, hmail, (hinv.live x).1 hlive⟩, [], List.Sublist.refl _, by simp⟩
  | @event sent popped s s' e _ hok hrun hlive' ih =>
    obtain ⟨⟨L, hinv, hmail, hx⟩, arrived, hsub, heq⟩ := ih
    obtain ⟨L', hstep⟩ := kernelEvent_mail hinv hmail hok.1 hok.2 hrun
    have hx' := (hstep.live.live x).1 hlive'
    obtain ⟨new, hnew, hnext⟩ := hstep.mailed x hx hx'
    refine ⟨⟨L', hstep.live, hstep.mail, hx'⟩, arrived ++ new, hsub.append hnew, ?_⟩
    calc popped ++ s.pops e x ++ s'.waiting x
        = popped ++ s.waiting x ++ new := by rw [List.append_assoc, hnext, List.append_assoc]
      _ = s₀.waiting x ++ (arrived ++ new) := by rw [heq, List.append_assoc]

/-! ### The small machine -/

/-- The record of the root process. -/
abbrev rootRecord : Nat := 0xC0047020

/-- The record of a live process is at an address. -/
def KState.liveAt (s : KState) (p : Nat) : Bool :=
  match s.objs p with
  | some (.proc i) => i.state != .invalid
  | _ => false

/-- Being live can be evaluated. -/
theorem KState.live_of_liveAt (h : s.liveAt p = true) : s.Live p := by
  rw [liveAt] at h
  split at h
  · exact ⟨_, ‹_›, by simpa using h⟩
  · cases h

/-- When all the processes that are counted are in the queue, none has the PID of a new one if none
in the queue has. -/
theorem LiveInv.freshPid (hlive : LiveInv s L) (hqueue : s.processCount ≤ s.schedulerQueue.length)
    (hnew : e.NewPid s) : e.FreshPid s := by
  cases e with
  | create addr len flags fresh =>
    intro p hp
    have hlength : L.length ≤ s.schedulerQueue.length := hlive.procs.count.trans hqueue
    have hsub : s.schedulerQueue ⊆ L := fun x hx => hlive.procs.queueSubset x hx
    have hperm : s.schedulerQueue.Perm L :=
      (List.subperm_of_subset hlive.procs.queueNodup hsub).perm_of_length_le hlength
    exact hnew p (hperm.mem_iff.2 ((hlive.live p).1 hp))
  | _ => trivial

/-- An event that creates a process succeeds, and the processes that are counted are in the queue,
where none has the PID of the new one. -/
def KernelEvent.createsFresh (s : KState) (e : KernelEvent) : Bool :=
  decide (s.processCount ≤ s.schedulerQueue.length) && decide (e.NewPid s) && e.returnsPid s

/-- So can the condition on the calls of `kprocess_create`. -/
theorem KernelEvent.fresh_of_createsFresh
    (h : KernelRun (fun s e => e.FreshPid s ∧ e.Whole s) s) (hcheck : e.createsFresh s = true) :
    e.FreshPid s ∧ e.Whole s := by
  rw [KernelEvent.createsFresh, Bool.and_eq_true, Bool.and_eq_true, decide_eq_true_iff,
    decide_eq_true_iff] at hcheck
  obtain ⟨L, hlive, -⟩ := h.mailOk
  exact ⟨hlive.freshPid hcheck.1.1 hcheck.1.2, KernelEvent.whole_of_returnsPid hcheck.2⟩

/-- The run of the root process goes on. -/
theorem MailRun.smallMachine {s₀ : KState} {sent popped : List KProcessEvent}
    (new out : List KProcessEvent)
    (hrun : KernelRun (fun s e => e.FreshPid s ∧ e.Whole s) s ∧ MailRun rootRecord s₀ sent popped s)
    (hvalue : e.createsFresh s = true ∧ (kernelEvent e s).isOk = true ∧
      ((kernelEvent e).finalState s).liveAt rootRecord = true ∧
      s.sends e rootRecord = new ∧ s.pops e rootRecord = out) :
    KernelRun (fun s e => e.FreshPid s ∧ e.Whole s) ((kernelEvent e).finalState s) ∧
      MailRun rootRecord s₀ (sent ++ new) (popped ++ out) ((kernelEvent e).finalState s) := by
  obtain ⟨hcheck, hok, hlive, rfl, rfl⟩ := hvalue
  have hfresh := KernelEvent.fresh_of_createsFresh hrun.1 hcheck
  have hevent := eq_ok_finalState hok
  exact ⟨hrun.1.event hfresh hevent, hrun.2.event hfresh hevent (live_of_liveAt hlive)⟩

/-- The small machine runs the root process. -/
def rootRuns : KState := smallMachineAfter [createProcess, .yield none]

set_option maxRecDepth 100000 in
/-- The root process creates another one and yields to it, and this one exits. The root process is
told, and receives the event. -/
theorem mail_run_fifo_root : ∃ s₀ s, KernelRun (fun s e => e.FreshPid s ∧ e.Whole s) s₀ ∧
    MailRun rootRecord s₀ [⟨.proccessChildKilled, 7⟩] [⟨.proccessChildKilled, 7⟩] s ∧
    ∃ arrived, arrived.Sublist [⟨.proccessChildKilled, 7⟩] ∧
      [⟨.proccessChildKilled, 7⟩] ++ s.waiting rootRecord =
        s₀.waiting rootRecord ++ arrived := by
  obtain ⟨hevents, hlive⟩ : smallMachineReady.completes (fun s e => e.createsFresh s)
      [createProcess, .yield none] = true ∧ rootRuns.liveAt rootRecord = true := by
    decide +kernel
  have hrun₀ : KernelRun (fun s e => e.FreshPid s ∧ e.Whole s) rootRuns :=
    smallMachine_run (fun _ _ => KernelEvent.fresh_of_createsFresh) hevents
  have h₁ := MailRun.smallMachine (e := createProcess) [] [] ⟨hrun₀, .start⟩ (by decide +kernel)
  have h₂ := MailRun.smallMachine (e := .yield (some savedByRoot)) [] [] h₁ (by decide +kernel)
  have h₃ := MailRun.smallMachine (e := .exit 7 false 0 0) [⟨.proccessChildKilled, 7⟩] [] h₂
    (by decide +kernel)
  have h₄ := MailRun.smallMachine (e := .popEvent) [] [⟨.proccessChildKilled, 7⟩] h₃
    (by decide +kernel)
  exact ⟨_, _, hrun₀, h₄.2, mail_run_fifo hrun₀ (live_of_liveAt hlive) h₄.2⟩

end MeghaOS
