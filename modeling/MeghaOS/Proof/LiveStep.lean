import MeghaOS.Proof.Live

/-!
# Steps of the live processes

An event of the kernel takes the live processes through a sequence of steps (`LiveStep`), unless it
creates a process, which `kprocessCreate_spec` describes. What each step preserves, every such event
does.
-/

namespace MeghaOS

open Exec KState

variable {s s' s₁ : KState} {L L' : List Nat} {p q : Nat}

/-- A step from the live processes `L` to the live processes `L'`. -/
inductive LiveStep : KState → List Nat → KState → List Nat → Prop
  /-- Nothing changes for the processes but their events. -/
  | quiet {s s' : KState} {L : List Nat} : Quiet s s' L → LiveStep s L s' L
  /-- There are too many processes to put the head of the queue back into it. -/
  | lost {s : KState} {L : List Nat} {p : Nat} {rest : List Nat} : s.schedulerQueue = p :: rest →
      maxProcessCount ≤ s.processCount →
      LiveStep s L { unqueued s p rest with errorNumber := .errSchedulerQueueFull } L
  /-- The queue turns. -/
  | requeued {s : KState} {L queue : List Nat} : queue.Perm s.schedulerQueue →
      LiveStep s L { s with schedulerQueue := queue } L
  /-- The kernel jumps to another process. -/
  | switched {s s' : KState} {L : List Nat} {state : Option ProcessRegisterState} {q cr3 : Nat}
      {regs : ProcessRegisterState} : Switched s s' L state q cr3 regs → LiveStep s L s' L
  /-- Processes die, and the current process is one of them. -/
  | died {s s' : KState} {L L' : List Nat} : Survive (fun _ => True) s s' L L' →
    s.currentProcess ∉ L' →
      LiveStep s L { s' with currentProcess := 0 } L'

/-- Several steps. -/
inductive LiveSteps : KState → List Nat → KState → List Nat → Prop
  | refl {s : KState} {L : List Nat} : LiveSteps s L s L
  | head {s s₁ s' : KState} {L L₁ L' : List Nat} : LiveStep s L s₁ L₁ → LiveSteps s₁ L₁ s' L' →
      LiveSteps s L s' L'

theorem LiveStep.single (h : LiveStep s L s' L') : LiveSteps s L s' L' := .head h .refl

theorem LiveInv.step (hlive : LiveInv s L) (h : LiveStep s L s' L') : LiveInv s' L' := by
  cases h with
  | quiet hq => exact (hlive.quiet hq).1
  | lost hqueue _ => exact (hlive.lostHead hqueue _).1
  | requeued hperm => exact hlive.requeue hperm
  | switched hs => exact (hlive.switched hs).1
  | died hs hgone => exact hlive.exited hs hgone

/-- What every step preserves holds after several. -/
theorem LiveSteps.preserve {P : KState → List Nat → Prop}
    (hP : ∀ {s L s' L'}, LiveInv s L → P s L → LiveStep s L s' L' → P s' L')
    (h : LiveSteps s L s' L') (hlive : LiveInv s L) (hs : P s L) : LiveInv s' L' ∧ P s' L' := by
  induction h with
  | refl => exact ⟨hlive, hs⟩
  | head hstep _ ih => exact ih (hlive.step hstep) (hP hlive hs hstep)

theorem kprocessYield_steps {state : Option ProcessRegisterState} {r : Switch} (hlive : LiveInv s L)
    (hrun : kprocessYield state s = .ok (r, s')) : LiveSteps s L s' L := by
  rcases kprocessYield_spec hlive.procs hlive.owned hlive.current hrun with
    ⟨hfull, -, p, rest, hqueue, rfl⟩ | ⟨pre, q, post, hy⟩
  · exact (LiveStep.lost hqueue hfull).single
  · rcases hy.switch with ⟨-, rfl, -, -⟩ | ⟨flags, cr3, regs, -, hs⟩
    · exact (LiveStep.requeued hy.perm).single
    · exact .head (.requeued hy.perm) (LiveStep.switched hs).single

theorem kprocessExit_steps {exitCode stale slot : Nat} {destroy : Bool} {r : Switch}
    (hlive : LiveInv s L)
    (hrun : kprocessExit exitCode destroy stale slot s = .ok (r, s')) :
    ∃ L', LiveSteps s L s' L' := by
  obtain ⟨-, ⟨-, rfl⟩ | ⟨L', s₁, hs, hgone, hyield⟩⟩ :=
    kprocessExit_spec hlive.procs hlive.owned hlive.current hrun
  · exact ⟨L, (LiveStep.quiet (.of_vmStep hlive.procs hlive.owned
      (.error hlive.procs.ready .errProcExitNotAllowed))).single⟩
  · exact ⟨L', .head (.died hs hgone) (kprocessYield_steps (hlive.exited hs hgone) hyield)⟩

/-- Events that create no process. -/
theorem kernelEvent_steps {e : KernelEvent} (hlive : LiveInv s L)
    (he : ∀ addr len flags fresh, e ≠ .create addr len flags fresh)
    (hrun : kernelEvent e s = .ok ((), s')) : ∃ L', LiveSteps s L s' L' := by
  have hquiet : Quiet s s' L → ∃ L', LiveSteps s L s' L' :=
    fun hq => ⟨L, (LiveStep.quiet hq).single⟩
  cases e with
  | create addr len flags fresh => exact absurd rfl (he addr len flags fresh)
  | yield state =>
    obtain ⟨r, s₁, hyield, hrun⟩ := bind_eq_ok.1 hrun
    cases hrun
    exact ⟨L, kprocessYield_steps hlive hyield⟩
  | exit code destroy stale slot =>
    obtain ⟨r, s₁, hexit, hrun⟩ := bind_eq_ok.1 hrun
    cases hrun
    exact kprocessExit_steps hlive hexit
  | pageFault addr =>
    have hstep : VmStep (fun _ => False) s s' :=
      (pageFaultHandler_fixes _ _).vmFrame _ _ _ hrun hlive.procs.ready
    exact hquiet (.of_vmStep hlive.procs hlive.owned hstep)
  | popEvent =>
    obtain ⟨pid, s₁, hpid, hrest⟩ := bind_eq_ok.1 hrun
    obtain rfl := kprocessGetCurrentPID_state hpid
    obtain ⟨ev, s₂, hpop, hrest⟩ := bind_eq_ok.1 hrest
    cases hrest
    obtain ⟨p, hfind, ⟨-, -, rfl⟩ | ⟨e, rest, hev, hpopped⟩⟩ :=
      kprocessPopEvent_spec hlive.procs hpop
    · exact ⟨L, .refl⟩
    · exact hquiet (.popped hlive.procs hlive.owned
        (hlive.procs.queueSubset p (findProcess_mem hfind).1) hev hpopped)
  | timer => exact hquiet (timerInterruptHandler_quiet hlive.procs hlive.owned hrun)
  | memmapKernel va szPages flags =>
    rw [kernelEvent, get_bind_apply] at hrun
    obtain ⟨⟨mapped, out⟩, s₁, hmap, hrun⟩ := bind_eq_ok.1 hrun
    cases hrun
    have hstep : VmStep (fun _ => False) s s' :=
      kvmmMemmap_vmFrame _ _ _ _ _ _ _ _ hmap hlive.procs.ready
    exact hquiet (.of_vmStep hlive.procs hlive.owned hstep)

/-- The processes that are left when a new process, for which there is no room in the queue, is
killed again. -/
theorem Grown.revoked {flags stale exitCode : Nat} {slot : Option Nat}
    (hg : Grown s s₁ L p flags) (hlive : LiveInv s L)
    (hkill : kprocessKillProcess slot stale p exitCode s₁ = .ok (true, s')) :
    ∃ L', Survive (fun _ => True) s₁ s' (p :: L) L' ∧ LiveInv s' L' ∧ L'.Perm L := by
  have hlive₁ := hlive.grown hg
  obtain ⟨L', hs, hp', hdead⟩ := kprocessKillProcess_survive hlive₁.procs hlive₁.owned
    (.head _) hkill
  -- the new process has no child that dies with it
  have hleft : ∀ x ∈ L, x ∈ L' := fun x hx => by
    by_contra hx'
    rcases hdead x (.tail _ hx) hx' with rfl | ⟨hchild, -⟩
    · exact hg.notMem hx
    · rw [hg.children] at hchild
      cases hchild
  have hsub : ∀ x ∈ L', x ∈ L := fun x hx =>
    (List.mem_cons.1 (hs.mem hx)).resolve_left fun heq => hp' (heq ▸ hx)
  have hcur : s₁.currentProcess = s.currentProcess := congrArg Globals.currentProcess hg.globals
  refine ⟨L', hs, hlive₁.survive hs ?_, ?_⟩
  · rw [hcur]
    exact hlive.current.imp_right (hleft _)
  · exact (List.perm_ext_iff_of_nodup hs.procs.family.nodup hlive.procs.family.nodup).2 fun x =>
      ⟨hsub x, hleft x⟩

/-! ## Creating a process -/

/-- A step from the live processes `L` to the live processes `L'` that `kprocess_create` takes; it
returns `result`. -/
inductive CreateStep (addr len flags : Nat) (fresh : FreshMemory) :
    KState → List Nat → Option Nat → KState → List Nat → Prop
  /-- No other process knows of the new one. -/
  | failed {s s' : KState} {L : List Nat} : Outside s s' → s'.processCount = s.processCount →
      CreateStep addr len flags fresh s L none s' L
  /-- There is a new process in the queue. -/
  | created {s s₁ : KState} {L : List Nat} {p : Nat} : Grown s s₁ L p flags →
      s₁.processCount < maxProcessCount →
      CreateStep addr len flags fresh s L (some (s.processCount + 1)) (enqueued s₁ p) (p :: L)
  /-- There is a new process, and no room for it in the queue. -/
  | revoked {s s₁ s' : KState} {L L' : List Nat} {p : Nat} : Grown s s₁ L p flags →
      maxProcessCount ≤ s₁.processCount → Survive (fun _ => True) s₁ s' (p :: L) L' → L'.Perm L →
      CreateStep addr len flags fresh s L none s' L'

theorem kprocessCreate_step {addr len flags : Nat} {fresh : FreshMemory} {result : Option Nat}
    (hlive : LiveInv s L) (hwhole : ¬ FailsHalfMade s addr len flags fresh)
    (hrun : kprocessCreate addr len flags fresh s = .ok (result, s')) :
    ∃ L', CreateStep addr len flags fresh s L result s' L' ∧ LiveInv s' L' := by
  rcases kprocessCreate_spec hlive.procs hlive.owned hlive.current hwhole hrun with
    ⟨rfl, hout, hcount⟩ | ⟨p, s₁, hg, ⟨rfl, hroom, rfl⟩ | ⟨rfl, hfull, -, hkill⟩⟩
  · exact ⟨L, .failed hout hcount,
      (hlive.outside hout hcount.ge (hcount.le.trans hlive.procs.countMax)).1⟩
  · exact ⟨p :: L, .created hg hroom, ((hlive.grown hg).enqueued (.head _) hg.unqueued).1⟩
  · obtain ⟨L', hs, hlive', hperm⟩ := hg.revoked hlive hkill
    exact ⟨L', .revoked hg hfull hs hperm, hlive'⟩

/-! ## Runs -/

/-- The states of the kernel between its events, when every event meets the condition `ok`. -/
inductive KernelRun (ok : KState → KernelEvent → Prop) : KState → Prop
  | booted {s : KState} : Booted s → KernelRun ok s
  | event {s s' : KState} {e : KernelEvent} : KernelRun ok s → ok s e → kernelEvent e s =
    .ok ((), s') →
      KernelRun ok s'

/-- What holds when there is no process, and is preserved by every step, holds in every run in which
no half made process is killed. -/
theorem KernelRun.preserve {ok : KState → KernelEvent → Prop} {P : KState → List Nat → Prop}
    (hwhole : ∀ {s e}, ok s e → e.Whole s)
    (hboot : ∀ {s}, Booted s → P s [])
    (hstep : ∀ {s L s' L'}, LiveInv s L → P s L → LiveStep s L s' L' → P s' L')
    (hcreate : ∀ {addr len flags fresh result s L s' L'}, LiveInv s L → P s L →
      ok s (.create addr len flags fresh) → CreateStep addr len flags fresh s L result
        s' L' → P s' L')
    (h : KernelRun ok s) : ∃ L, LiveInv s L ∧ P s L := by
  induction h with
  | booted hb => exact ⟨[], booted_live hb, hboot hb⟩
  | @event s s' e _ hok hrun ih =>
    obtain ⟨L, hlive, hs⟩ := ih
    by_cases hcase : ∃ addr len flags fresh, e = .create addr len flags fresh
    · obtain ⟨addr, len, flags, fresh, rfl⟩ := hcase
      obtain ⟨result, s₁, hrun, hpure⟩ := bind_eq_ok.1 hrun
      cases hpure
      obtain ⟨L', hc, hlive'⟩ := kprocessCreate_step hlive (hwhole hok) hrun
      exact ⟨L', hlive', hcreate hlive hs hok hc⟩
    · obtain ⟨L', hsteps⟩ := kernelEvent_steps hlive
        (fun addr len flags fresh heq => hcase ⟨addr, len, flags, fresh, heq⟩) hrun
      exact ⟨L', hsteps.preserve hstep hlive hs⟩

/-- The live processes of a run in which no half made process is killed. -/
theorem KernelRun.live (h : KernelRun (fun s e => e.Whole s) s) : ∃ L, LiveInv s L := by
  obtain ⟨L, hlive, -⟩ := h.preserve (P := fun _ _ => True) id (fun _ => trivial)
    (fun _ _ _ => trivial) fun _ _ _ _ => trivial
  exact ⟨L, hlive⟩

/-- A run that meets a condition meets a weaker one. -/
theorem KernelRun.mono {ok ok' : KState → KernelEvent → Prop} (hok : ∀ {s e}, ok s e → ok' s e)
    (h : KernelRun ok s) : KernelRun ok' s := by
  induction h with
  | booted hboot => exact .booted hboot
  | event _ he hrun ih => exact ih.event (hok he) hrun

/-! ## Runs on given events -/

/-- An event that creates a process returns its PID. -/
def KernelEvent.returnsPid (s : KState) : KernelEvent → Bool
  | .create addr len flags fresh =>
    match kprocessCreate addr len flags fresh s with
    | .ok (some _, _) => true
    | _ => false
  | _ => true

/-- Where every creation succeeds, none leaves a process half made. -/
theorem KernelEvent.whole_of_returnsPid {e : KernelEvent} (h : e.returnsPid s = true) :
    e.Whole s := by
  cases e with
  | create addr len flags fresh =>
    rw [KernelEvent.returnsPid] at h
    split at h
    · next hrun => exact not_failsHalfMade hrun
    · cases h
  | _ => trivial

/-- The kernel completes some events, each of which passes a check. -/
def KState.completes (check : KState → KernelEvent → Bool) (s : KState) : List KernelEvent → Bool
  | [] => true
  | e :: events =>
    check s e && (kernelEvent e s).isOk && ((kernelEvent e).finalState s).completes check events

/-- Events that the kernel completes are a run. -/
theorem KernelRun.completes {ok : KState → KernelEvent → Prop} {check : KState → KernelEvent → Bool}
    {events : List KernelEvent} (hcheck : ∀ s e, KernelRun ok s → check s e = true → ok s e)
    (h : KernelRun ok s) (hevents : s.completes check events = true) :
    KernelRun ok (events.foldl (fun s e => (kernelEvent e).finalState s) s) := by
  induction events generalizing s with
  | nil => exact h
  | cons e events ih =>
    rw [KState.completes, Bool.and_eq_true, Bool.and_eq_true] at hevents
    exact ih (h.event (hcheck s e h hevents.1.1) (eq_ok_finalState hevents.1.2)) hevents.2

end MeghaOS
