import MeghaOS.Proof.Pids

/-!
# Rounds of yields

Each process that runs calls `kprocess_yield`. As many calls as there are processes dispatch each of
them once, exactly if all of them are in the scheduler queue with room for one more process,
neighbours in the queue have different PIDs, and the page directories of all of them are in use.
-/

namespace MeghaOS

open Exec KState

variable {s s' s₁ : KState} {L : List Nat} {p q n : Nat}

/-- `kprocess_yield` is called several times, each time by the process that runs then, which saves
the next ones of the registers `calls`. The results are the processes that the kernel jumps to. -/
def yields : List ProcessRegisterState → K (List Nat)
  | [] => return []
  | regs :: calls => do
    match ← kprocessYield (some regs) with
    | .returned _ => yields calls
    | .jumped _ _ _ =>
      let dispatched := (← get).currentProcess
      return dispatched :: (← yields calls)

/-! ## Page directories in use -/

/-- The frame of a page directory is in use, as `s_switchProcess` asserts. -/
def KState.InUse (s : KState) (pd : Nat) : Prop := kpmmGetPageStatus pd s = .ok (pmmStateUsed, s)

/-- A page frame is in use, in the words of the code. -/
theorem inUse_iff {pd : Nat} : s.InUse pd ↔ s.phase.check .pmmReady = true ∧
    isAligned pd pageFrameSizeBytes = true ∧
      bitmapGet s.pab (bytesToPageframesFloor pd) = .ok pmmStateUsed := by
  constructor
  · intro h
    obtain ⟨hphase, h⟩ := kernelPhaseValidate_bind_eq_ok.1 h
    rcases ite_eq_ok.1 h with ⟨-, h⟩ | ⟨haligned, h⟩
    · obtain ⟨habsurd, -⟩ := returnError_eq_ok.1 h
      cases habsurd
    · rw [get_bind_apply] at h
      exact ⟨hphase, Bool.eq_true_of_not_eq_false haligned, (lift_eq_ok.1 h).1⟩
  · rintro ⟨hphase, haligned, hget⟩
    refine kernelPhaseValidate_bind_eq_ok.2 ⟨hphase, ?_⟩
    rw [haligned, if_neg (by simp), get_bind_apply, hget]
    rfl

/-- Whether a frame is in use is read from the page allocation bitmap. -/
def KState.usage (s : KState) : KernelPhase × Bitmap := (s.phase, s.pab)

/-- The phase and the PAB decide. -/
theorem InUse.congr {pd : Nat} (h : s'.usage = s.usage) : s'.InUse pd ↔ s.InUse pd := by
  have hphase : s'.phase = s.phase := congrArg Prod.fst h
  have hpab : s'.pab = s.pab := congrArg Prod.snd h
  rw [inUse_iff, inUse_iff, hphase, hpab]

/-- `kpmm_getPageStatus` changes nothing. -/
theorem kpmmGetPageStatus_state {pd status : Nat} (hrun : kpmmGetPageStatus pd s = .ok (status, s'))
    (hused : status = pmmStateUsed) : s.InUse pd ∧ s' = s := by
  subst hused
  suffices hs : s' = s from ⟨hs ▸ hrun, hs⟩
  obtain ⟨-, hrun⟩ := kernelPhaseValidate_bind_eq_ok.1 hrun
  rcases ite_eq_ok.1 hrun with ⟨-, hrun⟩ | ⟨-, hrun⟩
  · obtain ⟨habsurd, -⟩ := returnError_eq_ok.1 hrun
    cases habsurd
  · rw [get_bind_apply] at hrun
    exact (lift_eq_ok.1 hrun).2.symm

/-- The page directory of the context of a process is in use. -/
def KState.ContextInUse (s : KState) (p : Nat) : Prop :=
  ∃ v, s.objs (s.info p).context.word = some (.vmm v) ∧ s.InUse v.parentProcessPD

/-- The order of the queue does not matter. -/
theorem contextInUse_requeue {queue : List Nat} :
    KState.ContextInUse { s with schedulerQueue := queue } p ↔ s.ContextInUse p := by
  have huse : ∀ pd, KState.InUse { s with schedulerQueue := queue } pd ↔ s.InUse pd := fun _ =>
    InUse.congr rfl
  exact exists_congr fun v => and_congr_right fun _ => huse _

/-- Whether the page directory of the context of a process is in use. -/
def KState.contextInUse (s : KState) (p : Nat) : Bool :=
  match s.objs (s.info p).context.word with
  | some (.vmm v) => s.phase.check .pmmReady && isAligned v.parentProcessPD pageFrameSizeBytes &&
    (bitmapGet s.pab (bytesToPageframesFloor v.parentProcessPD)).toOption == some pmmStateUsed
  | _ => false

/-- Whether a context is in use can be evaluated. -/
theorem contextInUse_iff : s.contextInUse p = true ↔ s.ContextInUse p := by
  constructor
  · intro h
    unfold KState.contextInUse at h
    split at h
    · rename_i v hv
      simp only [Bool.and_eq_true, beq_iff_eq] at h
      obtain ⟨⟨hphase, haligned⟩, hget⟩ := h
      refine ⟨v, hv, inUse_iff.2 ⟨hphase, haligned, ?_⟩⟩
      cases hstate : bitmapGet s.pab (bytesToPageframesFloor v.parentProcessPD) with
      | error e =>
        rw [hstate] at hget
        cases hget
      | ok state =>
        rw [hstate] at hget
        exact congrArg Except.ok (Option.some.inj hget)
    · cases h
  · rintro ⟨v, hv, huse⟩
    obtain ⟨hphase, haligned, hget⟩ := inUse_iff.1 huse
    rw [KState.contextInUse, hv]
    dsimp only
    rw [hphase, haligned, hget]
    rfl

instance : Decidable (s.ContextInUse p) := decidable_of_iff _ contextInUse_iff

/-- Steps that keep the contexts keep them in use. -/
theorem SameContexts.inUse (h : SameContexts s s' L) (hL : ContextsOk s L) (hp : p ∈ L)
    (husage : s'.usage = s.usage) (huse : s.ContextInUse p) : s'.ContextInUse p := by
  obtain ⟨v, hv, huse⟩ := huse
  obtain ⟨v', hv', hcore⟩ := h.managers p hp _ (hL.addr hp) v hv
  have hpd : v'.core.parentProcessPD = v.core.parentProcessPD := by rw [hcore]
  refine ⟨v', by rw [h.context p hp, hv'], (InUse.congr husage).2 ?_⟩
  rwa [show v'.parentProcessPD = v.parentProcessPD from hpd]

/-! ## One yield -/

section

variable {i : KProcessInfo}

/-- `s_switchProcess` loads a process whose context is in use. -/
theorem loadProcess_run {j : KProcessInfo} (hp : s.objs p = some (.proc j)) {v : VMemoryManager}
    (hv : s.objs i.context.word = some (.vmm v)) (huse : s.InUse v.parentProcessPD)
    {regs : ProcessRegisterState} (hregs : s.objs i.registerStates = some (.regs regs)) :
    ∃ s', loadProcess p i s =
      .ok (.jumped i.flags (physicalToPageframe v.parentProcessPD) regs, s') := by
  have hne : i.registerStates ≠ p := fun heq => by
    rw [heq, hp] at hregs
    cases hregs
  have hload : ∀ root, ∃ s', (do
      let regs ← getRegs i.registerStates
      modify fun t => { t with cr3 := physicalToPageframe v.parentProcessPD }
      return .jumped i.flags (physicalToPageframe v.parentProcessPD) regs : K Switch)
        { s.setObj p (.proc { j with state := .running }) with
          currentProcess := p, rootProcess := root } =
      .ok (.jumped i.flags (physicalToPageframe v.parentProcessPD) regs, s') := fun root =>
    ⟨_, getRegs_bind_eq_ok.2 ⟨regs, (objs_setObj_of_ne _ hne).trans hregs, rfl⟩⟩
  have hpd : kvmmGetPageDirectory i.context.word s = .ok (v.parentProcessPD, s) :=
    getVmm_bind_eq_ok.2 ⟨v, hv, rfl⟩
  have hfollow : i.context.follow s = .ok (i.context.word, s) := rfl
  rw [loadProcess, bind_of_ok hfollow, bind_of_ok hpd, bind_of_ok huse]
  by_cases hroot : i.parent.word = 0
  · obtain ⟨s', hs'⟩ := hload p
    refine ⟨s', kAssert_bind_eq_ok.2 ⟨rfl, ?_⟩⟩
    rw [bind_of_ok (modifyProc_of_proc hp), modify_bind_apply, if_pos hroot, modify_bind_apply]
    exact hs'
  · obtain ⟨s', hs'⟩ := hload s.rootProcess
    refine ⟨s', kAssert_bind_eq_ok.2 ⟨rfl, ?_⟩⟩
    rw [bind_of_ok (modifyProc_of_proc hp), modify_bind_apply, if_neg hroot]
    exact hs'

/-- `s_switchProcess` asserts that the context of the process is in use. -/
theorem loadProcess_inUse {r : Switch} (hrun : loadProcess p i s = .ok (r, s')) :
    ∃ v, s.objs i.context.word = some (.vmm v) ∧ s.InUse v.parentProcessPD := by
  replace hrun := follow_bind_eq_ok.1 hrun
  obtain ⟨pd, s₁, hpd, hrun⟩ := bind_eq_ok.1 hrun
  obtain ⟨v, hv, hpd⟩ := getVmm_bind_eq_ok.1 hpd
  cases hpd
  obtain ⟨status, s₂, hstatus, hrun⟩ := bind_eq_ok.1 hrun
  obtain ⟨hused, -⟩ := kAssert_bind_eq_ok.1 hrun
  exact ⟨v, hv, (kpmmGetPageStatus_state hstatus hused).1⟩

/-- Saving registers changes no context. -/
theorem Saved.contextInUse {state : Option ProcessRegisterState} (h : Saved s s' L state)
    (husage : s'.usage = s.usage) :
      (∃ v, s'.objs (s.info p).context.word = some (.vmm v) ∧ s'.InUse v.parentProcessPD) ↔
        s.ContextInUse p := by
  have hkept : ∀ c, ManagerKept c s s' ∧ ManagerKept c s' s := fun c =>
    ⟨.of_vms h.step.vms, .of_vms h.step.vms.symm⟩
  constructor
  · rintro ⟨v, hv, huse⟩
    obtain ⟨v', hv', hcore⟩ := (hkept _).2 v hv
    have hpd : v'.core.parentProcessPD = v.core.parentProcessPD := by rw [hcore]
    refine ⟨v', hv', (InUse.congr husage).1 ?_⟩
    rwa [show v'.parentProcessPD = v.parentProcessPD from hpd]
  · rintro ⟨v, hv, huse⟩
    obtain ⟨v', hv', hcore⟩ := (hkept _).1 v hv
    have hpd : v'.core.parentProcessPD = v.core.parentProcessPD := by rw [hcore]
    refine ⟨v', hv', (InUse.congr husage).2 ?_⟩
    rwa [show v'.parentProcessPD = v.parentProcessPD from hpd]

/-- The part of `s_switchProcess` behind the comparison of the PIDs. -/
theorem saveProcess_run {c : Nat} (regs : ProcessRegisterState) (hc : s.objs c = some (.proc i))
    {g : ProcessRegisterState}
    (hregs : s.objs i.registerStates = some (.regs g)) (f : Unit → K Switch) :
    (do
      modifyProc c fun i => { i with state := .idle }
      if let some regs := some regs then
        let _ ← getRegs i.registerStates
        modify fun t : KState => t.setObj i.registerStates (.regs regs)
      f ()) s = f () ((s.setObj c (.proc { i with state := .idle })).setObj i.registerStates
          (.regs regs)) := by
  have hne : i.registerStates ≠ c := fun heq => by
    rw [heq, hc] at hregs
    cases hregs
  have hget : getRegs i.registerStates (s.setObj c (.proc { i with state := .idle })) =
      .ok (g, s.setObj c (.proc { i with state := .idle })) :=
    getRegs_eq_ok.2 ⟨(objs_setObj_of_ne _ hne).trans hregs, rfl⟩
  rw [bind_of_ok (modifyProc_of_proc hc)]
  dsimp only
  rw [bind_of_ok hget, modify_bind_apply]

/-- `s_switchProcess` jumps to a process with another PID than the current one exactly if the
context of the process is in use. -/
theorem sSwitchProcess_jumps (regs : ProcessRegisterState) (hlive : LiveInv s L) (hq : q ∈ L)
    (hne : s.currentProcess ≠ 0)
    (hpid : (s.info q).processID ≠ (s.info s.currentProcess).processID) :
    (∃ flags cr3 g s', sSwitchProcess q (some regs) s = .ok (.jumped flags cr3 g, s')) ↔
      s.ContextInUse q := by
  have hc := hlive.current.resolve_left hne
  obtain ⟨g, hg⟩ := hlive.owned.regs _ hc
  have hsaved : Saved s _ L (some regs) := saved_spec hlive.procs hlive.owned hc
  have hrun : sSwitchProcess q (some regs) s = loadProcess q (s.info q)
      ((s.setObj s.currentProcess (.proc { s.info s.currentProcess with state := .idle })).setObj
        (s.info s.currentProcess).registerStates (.regs regs)) := by
    rw [sSwitchProcess_eq, bind_of_ok (getProc_of_proc (hlive.procs.proc q hq)), get_bind_apply,
      if_neg hne]
    have hassert :
        (kAssert (some regs ≠ none) "Current process state is invalid for current process" :
          K Unit) s = .ok ((), s) := kAssert_eq_ok.2 ⟨by simp, rfl⟩
    rw [bind_of_ok hassert, bind_of_ok (getProc_of_proc (hlive.procs.proc _ hc)), if_neg hpid.symm]
    exact saveProcess_run regs (hlive.procs.proc _ hc) hg fun _ => loadProcess q (s.info q)
  rw [hrun, ← hsaved.contextInUse rfl]
  constructor
  · rintro ⟨flags, cr3, g', s', hload⟩
    exact loadProcess_inUse hload
  · rintro ⟨v, hv, huse⟩
    obtain ⟨g', hg'⟩ := hsaved.owned.regs q hq
    rw [hsaved.info q hq] at hg'
    obtain ⟨s', hload⟩ := loadProcess_run (hsaved.procs.proc q hq) hv huse hg'
    exact ⟨_, _, _, s', hload⟩

end

/-- The loop of `kprocess_yield` moves the processes that are passed over, and the next one, to the
end of the queue. -/
theorem yieldLoop_run {pre post : List Nat} (h : ProcsOk s L) (hcurrent : CurrentLive s L)
    (hroom : s.processCount < maxProcessCount) (hqueue : s.schedulerQueue = pre ++ q :: post)
    (hpre : ∀ x ∈ pre, s.Skips x) (hq : ¬ s.Skips q) (hn : pre.length < n) :
    yieldLoop n s = .ok (some q, { s with schedulerQueue := post ++ pre ++ [q] }) := by
  induction pre generalizing s n post with
  | nil =>
    obtain ⟨n, rfl⟩ := Nat.exists_eq_succ_of_ne_zero (Nat.pos_iff_ne_zero.1 hn)
    rw [yieldLoop_turn h hcurrent hqueue hroom, if_neg hq, List.append_nil]
    rfl
  | cons x pre ih =>
    obtain ⟨n, rfl⟩ := Nat.exists_eq_succ_of_ne_zero (Nat.ne_zero_of_lt hn)
    have hperm : (pre ++ q :: post ++ [x]).Perm s.schedulerQueue := by
      rw [hqueue]
      exact List.perm_append_singleton x _
    rw [yieldLoop_turn h hcurrent hqueue hroom, if_pos (hpre x (.head _))]
    have hqueue' : (rotated s x (pre ++ q :: post)).schedulerQueue = pre ++ q :: (post ++ [x]) :=
      List.append_assoc _ _ _
    have hrest := ih (n := n) (h.requeue hperm) hcurrent hroom hqueue'
      (fun y hy => hpre y (.tail _ hy))
      hq (Nat.lt_of_succ_lt_succ hn)
    refine hrest.trans ?_
    simp only [List.append_assoc, List.cons_append, List.nil_append]

/-- Writing the record of a process. -/
theorem modifyProc_usage (p : Nat) (f : KProcessInfo → KProcessInfo) :
    Fixes KState.usage (modifyProc p f) :=
  .bind (.getProc _) fun _ => .modify fun _ => rfl

/-- The loop of `kprocess_yield`. -/
theorem yieldLoop_usage (n : Nat) : Fixes KState.usage (yieldLoop n) := by
  have hdequeue : Fixes KState.usage sDequeue := by
    refine .bind .get fun s => ?_
    cases s.schedulerQueue with
    | nil => exact .bind (.modify fun _ => rfl) fun _ => .pure _
    | cons p rest =>
      exact .bind (.modify fun _ => rfl) fun _ => .bind (modifyProc_usage _ _) fun _ => .pure _
  have henqueue : ∀ p, Fixes KState.usage (sEnqueue p) := fun p => by
    refine .bind .get fun s => .ite (.bind (.modify fun _ => rfl) fun _ => .pure _) ?_
    exact .bind (.modify fun _ => rfl) fun _ => .bind (modifyProc_usage _ _) fun _ => .pure _
  induction n with
  | zero => exact .halt _
  | succ n ih =>
    refine .bind hdequeue fun p => .ite (.kPanic _) (.bind (henqueue _) fun ok => .ite (.pure _) ?_)
    refine .bind .get fun s => .ite ?_ (.bind (.pure _) fun same => .ite ih (.pure _))
    exact .bind (.getProc _) fun _ => .bind (.getProc _) fun _ => .bind (.pure _) fun same =>
      .ite ih (.pure _)

/-- The load of the next process. -/
theorem loadProcess_usage (p : Nat) (i : KProcessInfo) : Fixes KState.usage (loadProcess p i) := by
  refine .bind (.follow _) fun c => .bind (.bind (.getVmm _) fun _ => .pure _) fun pd => ?_
  have hstatus : Fixes KState.usage (kpmmGetPageStatus pd) :=
    .bind (.kernelPhaseValidate _) fun _ =>
      .ite (.bind (.modify fun _ => rfl) fun _ => .pure _) (.bind .get fun _ => .lift _)
  refine .bind hstatus fun status => .bind (.kAssert _ _) fun _ =>
    .bind (modifyProc_usage _ _) fun _ => ?_
  have hregs : Fixes KState.usage (getRegs i.registerStates) := by
    refine .bind .get fun s => ?_
    split
    · exact .pure _
    · exact .halt _
  refine .bind (.modify fun _ => rfl) fun _ =>
    .ite (.bind (.modify fun _ => rfl) fun _ => ?_) ?_ <;>
    exact .bind hregs fun _ => .bind (.modify fun _ => rfl) fun _ => .pure _

/-- `s_switchProcess`. -/
theorem sSwitchProcess_usage (p : Nat) (state : Option ProcessRegisterState) :
    Fixes KState.usage (sSwitchProcess p state) := by
  rw [sSwitchProcess_eq]
  refine .bind (.getProc _) fun i => .bind .get fun s => .ite (loadProcess_usage _ _) ?_
  refine .bind (.kAssert _ _) fun _ => .bind (.getProc _) fun current => .ite (.pure _) ?_
  refine .bind (modifyProc_usage _ _) fun _ => ?_
  cases state with
  | none => exact loadProcess_usage _ _
  | some regs =>
    have hregs : Fixes KState.usage (getRegs current.registerStates) := by
      refine .bind .get fun s => ?_
      split
      · exact .pure _
      · exact .halt _
    exact .bind hregs fun _ => .bind (.modify fun _ => rfl) fun _ => loadProcess_usage _ _

/-- `kprocess_yield`. -/
theorem kprocessYield_usage (state : Option ProcessRegisterState) :
    Fixes KState.usage (kprocessYield state) := by
  refine .bind .get fun s => .bind (yieldLoop_usage _) fun next => ?_
  cases next with
  | none => exact .pure _
  | some q =>
    exact .bind (.getProc _) fun _ => .bind (.kAssert _ _) fun _ => sSwitchProcess_usage _ _

/-- What a call of `kprocess_yield` does that jumps to the process `q`. -/
structure YieldTurn (s s' : KState) (L pre post : List Nat) (q : Nat) : Prop where
  queue : s.schedulerQueue = pre ++ q :: post
  skipped : ∀ x ∈ pre, (s.info x).processID = (s.info s.currentProcess).processID
  next : (s.info q).processID ≠ (s.info s.currentProcess).processID
  inUse : s.ContextInUse q
  live : LiveInv s' L
  current : s'.currentProcess = q
  queue' : s'.schedulerQueue = post ++ pre ++ [q]
  count : s'.processCount = s.processCount
  pids : ∀ x ∈ L, (s'.info x).processID = (s.info x).processID
  contexts : ∀ x ∈ L, s'.ContextInUse x ↔ s.ContextInUse x

/-- There are several processes, one of them runs, and there is room for one more in the queue. -/
structure Rotates (s : KState) (L : List Nat) : Prop where
  live : LiveInv s L
  two : 2 ≤ L.length
  current : s.currentProcess ≠ 0
  room : s.processCount < maxProcessCount

namespace Rotates

variable {pre post : List Nat}

/-- A process is skipped when it has the PID of the current one. -/
theorem skips_iff (h : Rotates s L) :
    s.Skips p ↔ (s.info p).processID = (s.info s.currentProcess).processID := by
  have hle := h.live.procs.count
  have htwo := h.two
  exact and_iff_right ⟨by omega, h.current⟩

/-- One turn of `kprocess_yield`. -/
theorem turn (h : Rotates s L) (hy : YieldTurn s s' L pre post q) (hq : q ∈ L) : Rotates s' L where
  live := hy.live
  two := h.two
  current := hy.current ▸ h.live.procs.ne_zero hq
  room := hy.count ▸ h.room

/-- A call of `kprocess_yield` jumps to the first process that has another PID than the current
one. -/
theorem yield_spec (h : Rotates s L) {regs : ProcessRegisterState} {r : Switch}
    (hrun : kprocessYield (some regs) s = .ok (r, s')) :
    (∃ flags cr3 g, r = .jumped flags cr3 g) ∧ ∃ pre post q, YieldTurn s s' L pre post q := by
  have husage := kprocessYield_usage _ _ _ _ hrun
  have hlive := h.live
  rcases kprocessYield_spec hlive.procs hlive.owned hlive.current hrun with
    ⟨hfull, -, -⟩ | ⟨pre, q, post, hy⟩
  · exact absurd h.room (Nat.not_lt.2 hfull)
  have hnext := fun hpid => hy.next (h.skips_iff.2 hpid)
  have hlive₁ := hlive.requeue hy.perm
  rcases hy.switch with ⟨-, -, -, hpid⟩ | ⟨flags, cr3, g, rfl, hs⟩
  · exact absurd hpid hnext
  obtain ⟨hlive', hsame⟩ := hlive₁.switched hs
  refine ⟨⟨flags, cr3, g, rfl⟩, pre, post, q,
    { queue := hy.queue
      skipped := fun x hx => h.skips_iff.1 (hy.skipped x hx)
      next := hnext
      inUse := ?_
      live := hlive'
      current := congrArg Globals.currentProcess hs.globals
      queue' := congrArg Globals.schedulerQueue hs.globals
      count := congrArg Globals.processCount hs.globals
      pids := fun x hx => ?_
      contexts := fun x hx => ⟨fun huse => ?_, fun huse =>
        hsame.inUse hlive₁.contexts hx husage (contextInUse_requeue.2 huse)⟩ }⟩
  · -- the loop ended at this process, and the kernel switched to it
    have hloop := yieldLoop_run hlive.procs hlive.current h.room hy.queue hy.skipped hy.next
      (n := s.schedulerQueue.length + 1) (by rw [hy.queue, List.length_append]; omega)
    rw [kprocessYield, get_bind_apply, bind_of_ok hloop] at hrun
    obtain ⟨i, -, hrun⟩ := getProc_bind_eq_ok.1 hrun
    obtain ⟨-, hrun⟩ := kAssert_bind_eq_ok.1 hrun
    exact contextInUse_requeue.1
      ((sSwitchProcess_jumps regs hlive₁ hs.mem h.current hnext).1 ⟨_, _, _, _, hrun⟩)
  · rw [hs.info x hx]
    rfl
  · obtain ⟨v, hv, huse⟩ := huse
    obtain ⟨c, v₀, hc, hv₀⟩ := hlive.contexts.manager x hx
    obtain ⟨v', hv', hcore⟩ := hsame.managers x hx c hc v₀ hv₀
    have hcontext : (s'.info x).context = .addr c := (hsame.context x hx).trans hc
    rw [hcontext] at hv
    obtain rfl := Obj.vmm.inj (Option.some.inj (hv'.symm.trans hv))
    have hpd : v'.core.parentProcessPD = v₀.core.parentProcessPD := by rw [hcore]
    refine ⟨v₀, by rw [hc]; exact hv₀, (InUse.congr husage).1 ?_⟩
    rwa [show v₀.parentProcessPD = v'.parentProcessPD from hpd.symm]

/-- A call of `kprocess_yield` succeeds when the context of the next process is in use. -/
theorem yield_run (h : Rotates s L) (regs : ProcessRegisterState)
    (hqueue : s.schedulerQueue = pre ++ q :: post)
    (hpre : ∀ x ∈ pre, (s.info x).processID = (s.info s.currentProcess).processID)
    (hnext : (s.info q).processID ≠ (s.info s.currentProcess).processID) (huse : s.ContextInUse q) :
    ∃ flags cr3 g s', kprocessYield (some regs) s = .ok (.jumped flags cr3 g, s') := by
  have hlive := h.live
  have hperm : (post ++ pre ++ [q]).Perm s.schedulerQueue := hqueue ▸ turn_perm pre post q
  have hlive₁ := hlive.requeue hperm
  have hq : q ∈ L := hlive.procs.queueSubset q (hqueue ▸ List.mem_append_right _ (.head _))
  have hloop := yieldLoop_run hlive.procs hlive.current h.room hqueue
    (fun x hx => h.skips_iff.2 (hpre x hx)) (fun hskip => hnext (h.skips_iff.1 hskip))
    (n := s.schedulerQueue.length + 1) (by rw [hqueue, List.length_append]; omega)
  obtain ⟨flags, cr3, g, s', hswitch⟩ :=
    (sSwitchProcess_jumps regs hlive₁ hq h.current hnext).2 (contextInUse_requeue.2 huse)
  refine ⟨flags, cr3, g, s', ?_⟩
  rw [kprocessYield, get_bind_apply, bind_of_ok hloop]
  refine getProc_bind_eq_ok.2 ⟨s.info q, hlive.procs.proc q hq, ?_⟩
  exact kAssert_bind_eq_ok.2 ⟨hlive.valid hq, hswitch⟩

end Rotates

/-! ## A round -/

variable {calls : List ProcessRegisterState} {ys l l' : List Nat} {key : Nat → Nat} {k : Nat}

/-- The processes that the kernel jumps to have their turns one after the other. -/
theorem Rotates.turns (h : Rotates s L) (hkey : ∀ x ∈ L, (s.info x).processID = key x)
    (hrun : yields calls s = .ok (ys, s')) :
    Turns key (key s.currentProcess) s.schedulerQueue ys s'.schedulerQueue ∧
      ∀ y ∈ ys, s.ContextInUse y := by
  induction calls generalizing s ys with
  | nil =>
    cases hrun
    exact ⟨.done _ _, fun y hy => by cases hy⟩
  | cons regs calls ih =>
    obtain ⟨r, s₁, hyield, hrun⟩ := bind_eq_ok.1 hrun
    obtain ⟨⟨flags, cr3, g, rfl⟩, pre, post, q, hy⟩ := h.yield_spec hyield
    obtain ⟨current, s₂, hcurrent, hrun⟩ := bind_eq_ok.1 hrun
    cases hcurrent
    obtain ⟨ys, s₃, hyields, hrun⟩ := bind_eq_ok.1 hrun
    cases hrun
    have hmem : ∀ x ∈ pre ++ q :: post, x ∈ L := fun x hx =>
      h.live.procs.queueSubset x (hy.queue ▸ hx)
    have hq : q ∈ L := hmem q (List.mem_append_right _ (.head _))
    have hc : s.currentProcess ∈ L := h.live.current.resolve_left h.current
    obtain ⟨hturns, huse⟩ := ih (h.turn hy hq)
      (fun x hx => (hy.pids x hx).trans (hkey x hx)) hyields
    have hysL : ∀ y ∈ ys, y ∈ L := fun y hy' => hy.live.procs.queueSubset y (hturns.mem hy')
    rw [hy.current, hy.queue'] at hturns
    refine ⟨?_, fun y hyys => ?_⟩
    · rw [hy.queue, hy.current]
      refine .turn (fun x hx => ?_) ?_ hturns
      · rw [← hkey x (hmem x (List.mem_append_left _ hx)), hy.skipped x hx, hkey _ hc]
      · rw [← hkey q hq, ← hkey _ hc]
        exact hy.next
    · rcases List.mem_cons.1 hyys with rfl | hyys
      · rw [hy.current]
        exact hy.inUse
      · exact (hy.contexts y (hysL y hyys)).1 (huse y hyys)

/-- Processes that are in turn, and whose contexts are in use, have their turns. -/
theorem Rotates.run (h : Rotates s L) (hkey : ∀ x ∈ L, (s.info x).processID = key x)
    (hturns : Turns key k l ys l') (hk : k = key s.currentProcess) (hl : s.schedulerQueue = l)
    (huse : ∀ x ∈ L, s.ContextInUse x) (hlen : calls.length = ys.length) :
    ∃ s', yields calls s = .ok (ys, s') := by
  induction hturns generalizing s calls with
  | done k l =>
    obtain rfl := List.length_eq_zero_iff.1 hlen
    exact ⟨s, rfl⟩
  | @turn k pre post ys l' q hpre hq _ ih =>
    obtain ⟨regs, calls, rfl⟩ := List.exists_cons_of_length_eq_add_one hlen
    have hmem : ∀ x ∈ pre ++ q :: post, x ∈ L := fun x hx => h.live.procs.queueSubset x (hl ▸ hx)
    have hqL : q ∈ L := hmem q (List.mem_append_right _ (.head _))
    have hc : s.currentProcess ∈ L := h.live.current.resolve_left h.current
    have hpre' : ∀ x ∈ pre, (s.info x).processID = (s.info s.currentProcess).processID :=
        fun x hx => by
      rw [hkey x (hmem x (List.mem_append_left _ hx)), hpre x hx, hk, hkey _ hc]
    have hq' : (s.info q).processID ≠ (s.info s.currentProcess).processID := by
      rw [hkey q hqL, hkey _ hc, ← hk]
      exact hq
    obtain ⟨flags, cr3, g, s₁, hyield⟩ := h.yield_run regs hl hpre' hq' (huse q hqL)
    obtain ⟨-, pre₁, post₁, q₁, hy⟩ := h.yield_spec hyield
    obtain ⟨rfl, rfl, rfl⟩ := turn_unique (hl.symm.trans hy.queue) hpre' hq' hy.skipped hy.next
    have hlen' : calls.length = ys.length := Nat.succ.inj hlen
    obtain ⟨s', hyields⟩ := ih (h.turn hy hqL) (fun x hx => (hy.pids x hx).trans (hkey x hx))
      (congrArg key hy.current.symm) hy.queue' (fun x hx => (hy.contexts x hx).2 (huse x hx)) hlen'
    refine ⟨s', ?_⟩
    have hcurrent : (get : K KState) s₁ = .ok (s₁, s₁) := rfl
    rw [yields, bind_of_ok hyield]
    dsimp only
    rw [bind_of_ok hcurrent, bind_of_ok hyields, hy.current]
    rfl

/-- When there are too many processes, no call of `kprocess_yield` dispatches one. -/
theorem yields_full (hlive : LiveInv s L) (hfull : maxProcessCount ≤ s.processCount)
    (hrun : yields calls s = .ok (ys, s')) : ys = [] := by
  induction calls generalizing s with
  | nil =>
    cases hrun
    rfl
  | cons regs calls ih =>
    obtain ⟨r, s₁, hyield, hrun⟩ := bind_eq_ok.1 hrun
    rcases kprocessYield_spec hlive.procs hlive.owned hlive.current hyield with
      ⟨-, rfl, p, rest, hqueue, rfl⟩ | ⟨pre, q, post, hy⟩
    · exact ih (hlive.lostHead hqueue _).1 hfull hrun
    · exact absurd hy.room (Nat.not_lt.2 hfull)

/-- A round dispatches each of the processes `L` once, whatever registers they save. -/
def RoundRobin (s : KState) (L : List Nat) : Prop :=
  ∀ calls : List ProcessRegisterState, calls.length = L.length →
    ∃ ys s', yields calls s = .ok (ys, s') ∧ ys.Perm L

/-- All the processes `L` are in the queue with room for one more, neighbours there have different
PIDs, and the page directory of each of them is in use. -/
structure RoundReady (s : KState) (L : List Nat) : Prop where
  room : s.processCount < maxProcessCount
  queued : ∀ p ∈ L, p ∈ s.schedulerQueue
  inTurn : InTurn (fun p => (s.info p).processID) (s.info s.currentProcess).processID
    s.schedulerQueue
  inUse : ∀ p ∈ L, s.ContextInUse p

/-- As many yields as there are live processes, each by the process that runs then, dispatch each of
them exactly once, if and only if all of them are in the queue and its neighbours have different
PIDs, in every run in which no failed `kprocess_create` leaves a process half made. -/
theorem yields_roundRobin_iff (h : KernelRun (fun s e => e.Whole s) s) (hnodup : L.Nodup)
    (hall : ∀ p, p ∈ L ↔ s.Live p) (htwo : 2 ≤ L.length) (hcur : s.currentProcess ≠ 0) :
    RoundRobin s L ↔ RoundReady s L := by
  obtain ⟨M, hlive⟩ := h.live
  have hperm : L.Perm M := (List.perm_ext_iff_of_nodup hnodup hlive.procs.family.nodup).2 fun p =>
    (hall p).trans (hlive.live p)
  have htwoM : 2 ≤ M.length := hperm.length_eq ▸ htwo
  constructor
  · intro hround
    obtain ⟨ys, s', hrun, hys⟩ := hround (List.replicate L.length ⟨0, 0, 0, 0, 0, 0, 0, 0, 0⟩)
      List.length_replicate
    have hroom : s.processCount < maxProcessCount := by
      by_contra hfull
      rw [yields_full hlive (Nat.not_lt.1 hfull) hrun] at hys
      rw [hys.symm.eq_nil] at htwo
      simp at htwo
    have hrot : Rotates s M := ⟨hlive, htwoM, hcur, hroom⟩
    obtain ⟨hturns, huse⟩ := hrot.turns (fun _ _ => rfl) hrun
    have hqueued : ∀ p ∈ L, p ∈ s.schedulerQueue := fun p hp => hturns.mem (hys.mem_iff.2 hp)
    refine ⟨hroom, hqueued, ?_, fun p hp => huse p (hys.mem_iff.2 hp)⟩
    refine .of_turns hlive.procs.queueNodup ?_ hturns fun x hx =>
      hys.mem_iff.2 (hperm.mem_iff.2 (hlive.procs.queueSubset x hx))
    exact htwo.trans (hnodup.subperm hqueued).length_le
  · intro hready calls hlen
    have hrot : Rotates s M := ⟨hlive, htwoM, hcur, hready.room⟩
    have hqueue : s.schedulerQueue.Perm L :=
      (List.perm_ext_iff_of_nodup hlive.procs.queueNodup hnodup).2 fun p =>
        ⟨fun hp => hperm.mem_iff.2 (hlive.procs.queueSubset p hp), hready.queued p⟩
    obtain ⟨ys, hys, l', hturns⟩ := hready.inTurn.round (hqueue.length_eq ▸ htwo)
    have hysL := hys.trans hqueue
    obtain ⟨s', hrun⟩ := hrot.run (fun _ _ => rfl) hturns rfl rfl
      (fun p hp => hready.inUse p (hperm.mem_iff.2 hp)) (hlen.trans hysL.length_eq.symm)
    exact ⟨ys, s', hrun, hysL⟩

/-- When as many processes are in the queue as are counted, they are the live ones. -/
theorem KernelRun.queue_live (h : KernelRun (fun s e => e.Whole s) s)
    (hcount : s.processCount ≤ s.schedulerQueue.length) :
    s.schedulerQueue.Nodup ∧ ∀ p, p ∈ s.schedulerQueue ↔ s.Live p := by
  obtain ⟨L, hlive⟩ := h.live
  have hsub : s.schedulerQueue.Subperm L :=
    hlive.procs.queueNodup.subperm hlive.procs.queueSubset
  have hperm := hsub.perm_of_length_le (hlive.procs.count.trans hcount)
  exact ⟨hlive.procs.queueNodup, fun p => hperm.mem_iff.trans (hlive.live p).symm⟩

set_option maxRecDepth 100000 in
/-- The root process and another one take turns. -/
theorem yields_roundRobin_two :
    RoundRobin (smallMachineAfter [createProcess, .yield none, createProcess])
      (smallMachineAfter [createProcess, .yield none, createProcess]).schedulerQueue := by
  obtain ⟨s, hs⟩ : ∃ s, smallMachineAfter [createProcess, .yield none, createProcess] = s :=
    ⟨_, rfl⟩
  have hrun : KernelRun (fun s e => e.Whole s) s := hs ▸ smallMachine_wholeRun (by decide +kernel)
  obtain ⟨hcount, hqueue, hpids, hcur, hroom, huse⟩ :
      s.processCount ≤ s.schedulerQueue.length ∧
      s.schedulerQueue = [3221516320, 3221516940] ∧
      (s.info 3221516320).processID ≠ (s.info 3221516940).processID ∧ s.currentProcess ≠ 0 ∧
      s.processCount < maxProcessCount ∧ ∀ p ∈ s.schedulerQueue, s.ContextInUse p := by
    subst hs
    decide +kernel
  obtain ⟨hnodup, hlive⟩ := hrun.queue_live hcount
  rw [hs]
  refine (yields_roundRobin_iff hrun hnodup hlive (by rw [hqueue]; rfl) hcur).2
    ⟨hroom, fun _ hp => hp, ⟨?_, fun x hx _ y hy => ?_⟩, huse⟩
  · rw [hqueue]
    exact List.isChain_pair.2 hpids
  · rw [hqueue] at hx hy
    cases hx
    cases hy
    exact hpids.symm

/-- A process is created with the PID of another one, and runs. -/
def neighbourEvents : List KernelEvent := reusedPidEvents ++ [.yield (some savedByRoot)]

set_option maxRecDepth 100000 in
/-- The process with the PID of its neighbour is passed over, and another one has two turns. -/
theorem yields_not_roundRobin : ∃ s L, KernelRun (fun _ _ => True) s ∧ L.Nodup ∧
    (∀ p, p ∈ L ↔ s.Live p) ∧ 2 ≤ L.length ∧ s.currentProcess ≠ 0 ∧ ¬ RoundRobin s L := by
  obtain ⟨s, hs⟩ : ∃ s, smallMachineAfter neighbourEvents = s := ⟨_, rfl⟩
  have hrun : KernelRun (fun s e => e.Whole s) s := hs ▸ smallMachine_wholeRun (by decide +kernel)
  obtain ⟨hcount, hqueue, hcur, hvalue⟩ :
      s.processCount ≤ s.schedulerQueue.length ∧
      s.schedulerQueue = [3221516320, 3221517104, 3221517560] ∧ s.currentProcess ≠ 0 ∧
      (yields [savedByRoot, savedByOther, savedByRoot] s).map Prod.fst =
        .ok [3221516320, 3221517104, 3221516320] := by
    subst hs
    decide +kernel
  obtain ⟨hnodup, hlive⟩ := hrun.queue_live hcount
  refine ⟨_, _, hrun.mono fun _ => trivial, hnodup, hlive, by simp [hqueue], hcur,
    fun hround => ?_⟩
  obtain ⟨ys, s', hyields, hys⟩ := hround [savedByRoot, savedByOther, savedByRoot]
    (by rw [hqueue]; rfl)
  rw [hyields] at hvalue
  obtain rfl : ys = [3221516320, 3221517104, 3221516320] := Except.ok.inj hvalue
  rw [hqueue] at hys
  have hmissed : 3221517560 ∈ [3221516320, 3221517104, 3221516320] := hys.mem_iff.2 (by simp)
  simp at hmissed

end MeghaOS
