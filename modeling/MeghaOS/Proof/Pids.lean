import MeghaOS.Proof.Hierarchy

/-!
# PIDs

The PID of a new process is the value of the process counter, which goes down again when a process
dies. As long as no process in the scheduler queue has the PID of a new one, and no failed
`kprocess_create` leaves a process half made, the PIDs in the queue are distinct and the lookup by
PID finds the process that `kprocess_create` returned the PID for.
-/

namespace MeghaOS

open Exec KState

variable {s s' : KState} {L L' : List Nat} {p : Nat} {pids : Nat → Nat}

/-! ## Distinct PIDs -/

/-- No two processes in the scheduler queue have the same PID. -/
def PidsDistinct (s : KState) : Prop :=
  ∀ p ∈ s.schedulerQueue, ∀ q ∈ s.schedulerQueue, (s.info p).processID =
    (s.info q).processID → p = q

/-- The processes in the queue were there before, with the PIDs that they have. -/
def SamePids (s s' : KState) : Prop :=
  ∀ x ∈ s'.schedulerQueue, x ∈ s.schedulerQueue ∧ (s'.info x).processID = (s.info x).processID

theorem SamePids.distinct (h : SamePids s s') (hs : PidsDistinct s) : PidsDistinct s' := by
  intro p hp q hq heq
  rw [(h p hp).2, (h q hq).2] at heq
  exact hs p (h p hp).1 q (h q hq).1 heq

/-- The steps of the live processes give nobody another PID. -/
theorem LiveStep.samePids (hlive : LiveInv s L) (hstep : LiveStep s L s' L') : SamePids s s' := by
  cases hstep with
  | quiet hq =>
    have hqueue : s'.schedulerQueue = s.schedulerQueue := congrArg Globals.schedulerQueue hq.globals
    intro x hx
    rw [hqueue] at hx
    rw [hq.info x (hlive.procs.queueSubset x hx)]
    exact ⟨hx, rfl⟩
  | @lost _ p rest hqueue _ =>
    intro x hx
    refine ⟨hqueue ▸ List.mem_cons_of_mem p hx, ?_⟩
    show ((unqueued s p rest).info x).processID = _
    rw [unqueued, info_setObj]
    split_ifs with hxp
    · rw [hxp]
    · rfl
  | requeued hperm => exact fun x hx => ⟨hperm.mem_iff.1 hx, rfl⟩
  | switched hs =>
    have hqueue : s'.schedulerQueue = s.schedulerQueue := congrArg Globals.schedulerQueue hs.globals
    intro x hx
    rw [hqueue] at hx
    rw [hs.info x (hlive.procs.queueSubset x hx)]
    exact ⟨hx, rfl⟩
  | @died s₁ _ _ hs _ =>
    intro x hx
    have hx₁ : x ∈ s₁.schedulerQueue := hx
    refine ⟨?_, (KProcessInfo.of_self (hs.self x (hs.procs.queueSubset x hx₁))).1⟩
    rw [hs.queue] at hx₁
    exact (List.mem_filter.1 hx₁).1

/-- What `kprocess_create` does to the PIDs in the queue. -/
inductive CreatesPid (s s' : KState) : Option Nat → Prop
  | none : SamePids s s' → CreatesPid s s' none
  | some {p : Nat} : p ∉ s.schedulerQueue → (s'.info p).processID = s.processCount + 1 →
      (∀ x ∈ s'.schedulerQueue, x = p ∨
        x ∈ s.schedulerQueue ∧ (s'.info x).processID = (s.info x).processID) →
      CreatesPid s s' (some (s.processCount + 1))

theorem CreateStep.createsPid {addr len flags : Nat} {fresh : FreshMemory} {result : Option Nat}
    (hlive : LiveInv s L) (hstep : CreateStep addr len flags fresh s L result s' L') :
    CreatesPid s s' result := by
  cases hstep with
  | failed hout _ =>
    have hqueue : s'.schedulerQueue = s.schedulerQueue :=
      congrArg Globals.schedulerQueue hout.globals
    refine .none fun x hx => ?_
    rw [hqueue] at hx
    rw [(hout.info (hlive.procs.proc x (hlive.procs.queueSubset x hx))).2]
    exact ⟨hx, rfl⟩
  | @created s₁ _ p hg _ =>
    have hqueue : s₁.schedulerQueue = s.schedulerQueue := congrArg Globals.schedulerQueue hg.globals
    have hinfo : ∀ x, ((enqueued s₁ p).info x).processID = (s₁.info x).processID := fun x => by
      rw [enqueued, info_setObj]
      split_ifs with hxp
      · rw [hxp]
      · rfl
    refine .some (p := p) (hqueue ▸ hg.unqueued) ((hinfo p).trans hg.processID) fun x hx => ?_
    have hx₁ : x ∈ s₁.schedulerQueue ++ [p] := hx
    rw [hqueue, List.mem_append, List.mem_singleton] at hx₁
    refine hx₁.symm.imp_right fun hxs => ⟨hxs, ?_⟩
    rw [hinfo x, hg.info x (hlive.procs.queueSubset x hxs)]
  | @revoked s₁ _ _ _ p hg _ hs hperm =>
    have hqueue : s₁.schedulerQueue = s.schedulerQueue := congrArg Globals.schedulerQueue hg.globals
    refine .none fun x hx => ?_
    have hxL : x ∈ L' := hs.procs.queueSubset x hx
    rw [hs.queue, hqueue] at hx
    rw [(KProcessInfo.of_self (hs.self x hxL)).1, hg.info x (hperm.mem_iff.1 hxL)]
    exact ⟨(List.mem_filter.1 hx).1, rfl⟩

theorem CreatesPid.distinct {result : Option Nat} (h : CreatesPid s s' result) (hs : PidsDistinct s)
    (hnew : ∀ p ∈ s.schedulerQueue, (s.info p).processID ≠ s.processCount + 1) :
      PidsDistinct s' := by
  cases h with
  | none hsame => exact hsame.distinct hs
  | some _ hpid hqueue =>
    intro x hx y hy heq
    rcases hqueue x hx with rfl | ⟨hxs, hxpid⟩ <;> rcases hqueue y hy with hyp | ⟨hys, hypid⟩
    · exact hyp.symm
    · rw [hpid, hypid] at heq
      exact absurd heq.symm (hnew y hys)
    · rw [hyp, hpid, hxpid] at heq
      exact absurd heq (hnew x hxs)
    · rw [hxpid, hypid] at heq
      exact hs x hxs y hys heq

/-! ## Runs -/

/-- If the event creates a process, no process in the queue has the PID that the new one gets. -/
def KernelEvent.NewPid (s : KState) : KernelEvent → Prop
  | .create _ _ _ _ => ∀ p ∈ s.schedulerQueue, (s.info p).processID ≠ s.processCount + 1
  | _ => True

instance (s : KState) (e : KernelEvent) : Decidable (e.NewPid s) :=
  match e with
  | .create _ _ _ _ => inferInstanceAs (Decidable (∀ p ∈ s.schedulerQueue, _))
  | .yield _ | .exit _ _ _ _ | .pageFault _ | .popEvent | .timer | .memmapKernel _ _ _ =>
    .isTrue trivial

/-- The PIDs that `kprocess_create` returned, for the record of each process, after an event. -/
def pidsAfter (s : KState) (pids : Nat → Nat) : KernelEvent → Nat → Nat
  | .create addr len flags fresh =>
    match kprocessCreate addr len flags fresh s with
    | .ok (some pid, _) => fun p => if p ∈ s.schedulerQueue then pids p else pid
    | _ => pids
  | _ => pids

/-- The states of the kernel between its events, when every event meets the condition `ok`, with the
PIDs that `kprocess_create` returned. -/
inductive PidRun (ok : KState → KernelEvent → Prop) : KState → (Nat → Nat) → Prop
  | booted {s : KState} (pids : Nat → Nat) : Booted s → PidRun ok s pids
  | event {s s' : KState} {pids : Nat → Nat} {e : KernelEvent} : PidRun ok s pids → ok s e →
      kernelEvent e s = .ok ((), s') → PidRun ok s' (pidsAfter s pids e)

/-- The PIDs in the queue are distinct, and those that were returned. -/
structure PidsOk (s : KState) (pids : Nat → Nat) : Prop where
  distinct : PidsDistinct s
  returned : ∀ p ∈ s.schedulerQueue, pids p = (s.info p).processID

theorem PidsOk.same (h : PidsOk s pids) (hs : SamePids s s') : PidsOk s' pids :=
  ⟨hs.distinct h.distinct, fun x hx => by rw [(hs x hx).2, h.returned x (hs x hx).1]⟩

/-- An event keeps the PIDs right, when it meets the two conditions. -/
theorem kernelEvent_pidsOk {e : KernelEvent} (hlive : LiveInv s L) (h : PidsOk s pids)
    (hnew : e.NewPid s) (hwhole : e.Whole s) (hrun : kernelEvent e s = .ok ((), s')) :
    (∃ L', LiveInv s' L') ∧ PidsOk s' (pidsAfter s pids e) := by
  by_cases hcase : ∃ addr len flags fresh, e = .create addr len flags fresh
  · obtain ⟨addr, len, flags, fresh, rfl⟩ := hcase
    obtain ⟨result, s₁, hrun, hpure⟩ := bind_eq_ok.1 hrun
    cases hpure
    obtain ⟨L', hc, hlive'⟩ := kprocessCreate_step hlive hwhole hrun
    have hpids := hc.createsPid hlive
    refine ⟨⟨L', hlive'⟩, hpids.distinct h.distinct hnew, ?_⟩
    rw [pidsAfter, hrun]
    cases hpids with
    | none hsame => exact (h.same hsame).returned
    | some hp hpid hqueue =>
      intro x hx
      rcases hqueue x hx with rfl | ⟨hxs, hxpid⟩
      · exact (if_neg hp).trans hpid.symm
      · rw [hxpid]
        exact (if_pos hxs).trans (h.returned x hxs)
  · have hother : ∀ addr len flags fresh, e ≠ .create addr len flags fresh :=
      fun addr len flags fresh heq => hcase ⟨addr, len, flags, fresh, heq⟩
    obtain ⟨L', hsteps⟩ := kernelEvent_steps hlive hother hrun
    have hpids : pidsAfter s pids e = pids := by
      cases e with
      | create addr len flags fresh => exact absurd rfl (hother addr len flags fresh)
      | _ => rfl
    rw [hpids]
    obtain ⟨hlive', h'⟩ := hsteps.preserve (P := fun s _ => PidsOk s pids)
      (fun hlive hs hstep => hs.same (hstep.samePids hlive)) hlive h
    exact ⟨⟨L', hlive'⟩, h'⟩

theorem PidRun.inv (h : PidRun (fun s e => e.NewPid s ∧ e.Whole s) s pids) :
    ∃ L, LiveInv s L ∧ PidsOk s pids := by
  induction h with
  | booted pids hb =>
    have hqueue := (booted_noProcess hb).schedulerQueue
    refine ⟨[], booted_live hb, fun p hp => ?_, fun p hp => ?_⟩
    · rw [hqueue] at hp
      cases hp
    · rw [hqueue] at hp
      cases hp
  | event _ hok hrun ih =>
    obtain ⟨L, hlive, hs⟩ := ih
    obtain ⟨⟨L', hlive'⟩, hs'⟩ := kernelEvent_pidsOk hlive hs hok.1 hok.2 hrun
    exact ⟨L', hlive', hs'⟩

/-- The lookup by PID finds the only process in the queue that has the PID. -/
theorem PidsDistinct.lookup (h : PidsDistinct s) (hprocs : ProcsOk s L)
    (hp : p ∈ s.schedulerQueue) :
    sGetProcessInfoFromID (s.info p).processID s = .ok (p, s) := by
  rw [sGetProcessInfoFromID, get_bind_apply,
    findPid_eq _ fun x hx => hprocs.proc x (hprocs.queueSubset x hx)]
  cases hfind : s.schedulerQueue.find? fun x => (s.info x).processID = (s.info p).processID with
  | none => exact absurd (List.find?_eq_none.1 hfind p hp) (by simp)
  | some x =>
    obtain ⟨hx, hpid⟩ := findProcess_mem hfind
    rw [h x hx p hp hpid]

/-- The PIDs in the scheduler queue are distinct and the lookup finds the process that a PID was
returned for, if no process was created while one in the queue had its PID, and no failed
`kprocess_create` left a process half made. -/
theorem pid_run_lookup (h : PidRun (fun s e => e.NewPid s ∧ e.Whole s) s pids) :
    (∀ p ∈ s.schedulerQueue, ∀ q ∈ s.schedulerQueue, p ≠ q →
      (s.info p).processID ≠ (s.info q).processID) ∧
    ∀ p ∈ s.schedulerQueue, sGetProcessInfoFromID (pids p) s = .ok (p, s) := by
  obtain ⟨L, hlive, hs⟩ := h.inv
  refine ⟨fun p hp q hq hne heq => hne (hs.distinct p hp q hq heq), fun p hp => ?_⟩
  rw [hs.returned p hp]
  exact hs.distinct.lookup hlive.procs hp

/-- Every run has the PIDs that were returned in it. -/
theorem KernelRun.pidRun {ok : KState → KernelEvent → Prop} (h : KernelRun ok s) :
    ∃ pids, PidRun ok s pids := by
  induction h with
  | booted hb => exact ⟨fun _ => 0, .booted _ hb⟩
  | event _ hok hrun ih =>
    obtain ⟨pids, hpids⟩ := ih
    exact ⟨_, hpids.event hok hrun⟩

/-- What the small machine runs, when every creation of a process succeeds and gives a new PID. -/
theorem smallMachine_newPidRun {events : List KernelEvent}
    (h : smallMachineReady.completes (fun s e => decide (e.NewPid s) && e.returnsPid s) events =
      true) :
    KernelRun (fun s e => e.NewPid s ∧ e.Whole s) (smallMachineAfter events) :=
  smallMachine_run (fun s e _ hcheck => by
    rw [Bool.and_eq_true, decide_eq_true_iff] at hcheck
    exact hcheck.imp_right KernelEvent.whole_of_returnsPid) h

set_option maxRecDepth 100000 in
/-- The lookups by the PIDs of the root process and of the one it created find their records. -/
theorem pid_run_lookup_two : ∃ s pids, PidRun (fun s e => e.NewPid s ∧ e.Whole s) s pids ∧
    ∃ p ∈ s.schedulerQueue, ∃ q ∈ s.schedulerQueue, p ≠ q ∧
      (s.info p).processID ≠ (s.info q).processID ∧
      sGetProcessInfoFromID (pids p) s = .ok (p, s) ∧
      sGetProcessInfoFromID (pids q) s = .ok (q, s) := by
  obtain ⟨hevents, hqueue⟩ :
      smallMachineReady.completes (fun s e => decide (e.NewPid s) && e.returnsPid s)
        [createProcess, .yield none, createProcess] = true ∧
      (smallMachineAfter [createProcess, .yield none, createProcess]).schedulerQueue =
        [0xC0047020, secondProcess] := by
    decide +kernel
  obtain ⟨pids, hpids⟩ := (smallMachine_newPidRun hevents).pidRun
  obtain ⟨hdistinct, hlookup⟩ := pid_run_lookup hpids
  have hp : 0xC0047020 ∈ (smallMachineAfter [createProcess, .yield none,
      createProcess]).schedulerQueue := hqueue ▸ .head _
  have hq : secondProcess ∈ (smallMachineAfter [createProcess, .yield none,
      createProcess]).schedulerQueue := hqueue ▸ .tail _ (.head _)
  exact ⟨_, pids, hpids, _, hp, _, hq, by decide, hdistinct _ hp _ hq (by decide), hlookup _ hp,
    hlookup _ hq⟩

/-- The root process creates two others, the first of which exits; then it creates another one. -/
def reusedPidEvents : List KernelEvent :=
  [createProcess, .yield none, createProcess, createProcess, .yield (some savedByRoot),
    exitCurrent, .yield (some savedByOther), createProcess]

set_option maxRecDepth 100000 in
/-- The new process has the PID of the second one, which is still in the queue. -/
theorem pid_run_reused : ∃ s pids, PidRun (fun _ _ => True) s pids ∧
    ¬ ((∀ p ∈ s.schedulerQueue, ∀ q ∈ s.schedulerQueue, p ≠ q →
      (s.info p).processID ≠ (s.info q).processID) ∧
    ∀ p ∈ s.schedulerQueue, sGetProcessInfoFromID (pids p) s = .ok (p, s)) := by
  have hrun : KernelRun (fun _ _ => True) (smallMachineAfter reusedPidEvents) :=
    smallMachine_anyRun (by decide +kernel)
  obtain ⟨pids, hpids⟩ := hrun.pidRun
  have hsame : ¬ ∀ p ∈ (smallMachineAfter reusedPidEvents).schedulerQueue,
      ∀ q ∈ (smallMachineAfter reusedPidEvents).schedulerQueue, p ≠ q →
        ((smallMachineAfter reusedPidEvents).info p).processID ≠
          ((smallMachineAfter reusedPidEvents).info q).processID := by decide +kernel
  exact ⟨_, pids, hpids, fun h => hsame h.1⟩

end MeghaOS
