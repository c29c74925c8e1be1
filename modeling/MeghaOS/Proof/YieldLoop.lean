import MeghaOS.Proof.Pids

/-!
# The loop of `kprocess_yield`

The loop takes the head of the scheduler queue, puts it at the end, and goes on while the process
has the PID of the current one. When every process is counted and in the queue and no two have the
same PID, only the current process is passed over, so that the loop ends after two turns.
-/

namespace MeghaOS

open Exec KState

variable {s : KState} {L : List Nat} {p n : Nat}

/-- The loop ends, after two turns when there is another process than the current one in the queue,
and loses no process of the queue. -/
structure YieldLoopOk (s : KState) : Prop where
  ends : ∃ n, yieldLoop n s ≠ .error .hang
  two : (∃ p ∈ s.schedulerQueue, p ≠ s.currentProcess) → yieldLoop 2 s ≠ .error .hang
  kept : ∀ n r s', yieldLoop n s = .ok (r, s') → s'.schedulerQueue.Perm s.schedulerQueue

/-- When the queue is empty the kernel panics. -/
theorem yieldLoop_nil (hqueue : s.schedulerQueue = []) :
    yieldLoop (n + 1) s = kPanic "BUG" { s with errorNumber := .errQueueEmpty } := by
  rw [yieldLoop, sDequeue, bind_assoc, get_bind_apply, hqueue]
  rfl

/-- A process that is not passed over ends the loop. -/
theorem yieldLoop_ends (hlive : LiveInv s L) (hroom : s.processCount < maxProcessCount)
    {rest : List Nat}
    (hqueue : s.schedulerQueue = p :: rest) (hp : ¬ s.Skips p) :
    yieldLoop (n + 1) s = .ok (some p, rotated s p rest) := by
  rw [yieldLoop_turn hlive.procs hlive.current hqueue hroom, if_neg hp]

/-- Only the current process is passed over, and there is another one then. -/
theorem AllCounted.skips (h : AllCounted s L) (hlive : LiveInv s L) (hpids : PidsDistinct s)
    (hp : p ∈ s.schedulerQueue) (hskip : s.Skips p) :
      p = s.currentProcess ∧ 1 < s.schedulerQueue.length := by
  obtain ⟨⟨hmany, hne⟩, hpid⟩ := hskip
  refine ⟨hpids p hp _ (h.queued _ (hlive.current.resolve_left hne)) hpid, ?_⟩
  rw [(h.perm hlive).length_eq, ← h.count]
  exact hmany

theorem AllCounted.two_turns (h : AllCounted s L) (hlive : LiveInv s L) (hpids : PidsDistinct s) :
    yieldLoop 2 s ≠ .error .hang := by
  cases hqueue : s.schedulerQueue with
  | nil =>
    rw [yieldLoop_nil hqueue]
    exact fun habsurd => by cases habsurd
  | cons p rest =>
    by_cases hp : s.Skips p
    · obtain ⟨hpc, hlen⟩ := h.skips hlive hpids (hqueue ▸ .head _) hp
      rw [yieldLoop_turn hlive.procs hlive.current hqueue h.room, if_pos hp]
      -- the process behind the current one is another one
      rw [hqueue] at hlen
      obtain ⟨q, rest', rfl⟩ : ∃ q rest', rest = q :: rest' :=
        List.exists_cons_of_length_pos (Nat.lt_of_succ_lt_succ hlen)
      have hq : ¬ s.Skips q := fun hq => by
        have hqc := (h.skips hlive hpids (hqueue ▸ .tail _ (.head _)) hq).1
        have hnodup := hlive.procs.queueNodup
        rw [hqueue, List.nodup_cons, hpc, hqc] at hnodup
        exact hnodup.1 (.head _)
      have hperm : (q :: rest' ++ [p]).Perm s.schedulerQueue := by
        rw [hqueue]
        exact List.perm_append_singleton p (q :: rest')
      have hlive' : LiveInv (rotated s p (q :: rest')) L := hlive.requeue hperm
      have hqueue' : (rotated s p (q :: rest')).schedulerQueue = q :: (rest' ++ [p]) := rfl
      rw [yieldLoop_ends hlive' h.room hqueue' hq]
      exact fun habsurd => by cases habsurd
    · rw [yieldLoop_ends hlive h.room hqueue hp]
      exact fun habsurd => by cases habsurd

theorem AllCounted.yieldLoopOk (h : AllCounted s L) (hlive : LiveInv s L) (hpids : PidsDistinct s) :
    YieldLoopOk s where
  ends := ⟨2, h.two_turns hlive hpids⟩
  two _ := h.two_turns hlive hpids
  kept n r s' hrun := by
    obtain ⟨pre, q, post, -, hqueue, -, -, rfl⟩ := yieldLoop_some hlive.procs hlive.current h.room
      (l := s.schedulerQueue) (m := []) (List.append_nil _).symm (fun x hx => by cases hx) hrun
    show (post ++ [] ++ pre ++ [q]).Perm s.schedulerQueue
    rw [hqueue, List.append_nil, List.append_assoc]
    exact List.perm_append_comm.trans (List.append_assoc pre [q] post ▸ .refl _)

/-! ## Runs -/

/-- In every run in which no failed `kprocess_create` leaves a process half made, and none gives a
PID that is in the queue, the loop of `kprocess_yield` is right in every state. -/
theorem kernel_run_yieldLoopOk (h : KernelRun (fun s e => e.NewPid s ∧ e.Whole s) s) :
    YieldLoopOk s := by
  have hwhole : ∀ {s : KState} {e : KernelEvent}, e.NewPid s ∧ e.Whole s → e.Whole s := And.right
  obtain ⟨L, hlive, hcounted, hpids⟩ := h.preserve (P := fun s L => AllCounted s L ∧ PidsDistinct s)
    hwhole
    (fun hb => ⟨.booted hb, fun p hp => by
      rw [(booted_noProcess hb).schedulerQueue] at hp
      cases hp⟩)
    (fun hlive hs hstep => ⟨hs.1.step hstep, (hstep.samePids hlive).distinct hs.2⟩)
    (fun hlive hs hok hstep =>
      ⟨hs.1.create hstep, (hstep.createsPid hlive).distinct hs.2 hok.1⟩)
  exact hcounted.yieldLoopOk hlive hpids

set_option maxRecDepth 100000 in
/-- The root process creates another one and yields to it. -/
theorem kernel_run_yieldLoopOk_two : YieldLoopOk
    (smallMachineAfter [createProcess, .yield none, createProcess, .yield (some savedByRoot)]) :=
  kernel_run_yieldLoopOk (smallMachine_newPidRun (by decide +kernel))

/-! ## A loop without an end -/

/-- When the current process is alone in the queue, but others are counted, the loop never ends. -/
theorem yieldLoop_hang (hproc : s.objs p = some (.proc (s.info p))) (hp : p ≠ 0)
    (hnode : (s.info p).schedulerQueueNode = .linked ()) (hqueue : s.schedulerQueue = [p])
    (hcurrent : s.currentProcess = p) (hmany : 1 < s.processCount)
    (hroom : s.processCount < maxProcessCount) : yieldLoop n s = .error .hang := by
  induction n with
  | zero => rfl
  | succ n ih =>
    have hsame : rotated s p [] = s := by
      rw [rotated, List.nil_append, ← hqueue]
    rw [yieldLoop, bind_of_ok (sDequeue_of_cons hqueue hproc), if_neg hp,
      bind_of_ok (sEnqueue_unqueued hroom hproc hnode), if_neg (by simp), get_bind_apply, hsame,
      hcurrent, if_pos ⟨hmany, hp⟩, bind_of_ok (getProc_of_proc hproc),
      bind_of_ok (getProc_of_proc hproc), pure_bind]
    beta_reduce
    rw [decide_eq_true rfl, if_pos rfl]
    exact ih

/-- The root process was to create a process that is too large, and yields: it is alone in the
queue, but two processes are counted, and the loop does not end. -/
theorem kernel_run_yieldLoop_hang : ∃ s, KernelRun (fun _ _ => True) s ∧ ¬ YieldLoopOk s := by
  refine ⟨_, hugeProcess_run, fun h => ?_⟩
  obtain ⟨n, hn⟩ := h.ends
  obtain ⟨hcount, -, hcurrent, hqueue, hproc, hnode⟩ := hugeProcess_values
  exact hn (yieldLoop_hang hproc (by decide) hnode hqueue hcurrent (by rw [hcount]; decide)
    (by rw [hcount]; decide))

end MeghaOS
