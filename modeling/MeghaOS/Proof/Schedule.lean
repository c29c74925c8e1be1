import MeghaOS.Lib.RoundRobin
import MeghaOS.Proof.Exit

/-!
# Yielding

A turn of the loop of `kprocess_yield` moves the head of the scheduler queue to its end. The loop
ends at the first process that does not have the PID of the current one, and `s_switchProcess` jumps
to it.
-/

namespace MeghaOS

open Exec KState

variable {s s' s₁ : KState} {L : List Nat} {p q a n : Nat} {i : KProcessInfo}

/-! ## One turn -/

/-- The last write to a record counts. -/
theorem setObj_setObj (o o' : Obj) : (s.setObj a o).setObj a o' = s.setObj a o' := by
  simp only [KState.setObj, KState.mk.injEq, true_and, and_true]
  funext b
  split_ifs <;> rfl

/-- Writing what is there changes nothing. -/
theorem setObj_eq_self {o : Obj} (h : s.objs a = some o) : s.setObj a o = s := by
  have hobjs : (fun b => if b = a then some o else s.objs b) = s.objs := by
    funext b
    split_ifs with hb
    · rw [hb, h]
    · rfl
  rw [KState.setObj, hobjs]

/-- A record that is there is written. -/
theorem modifyProc_of_proc {f : KProcessInfo → KProcessInfo} (h : s.objs p = some (.proc i)) :
    modifyProc p f s = .ok ((), s.setObj p (.proc (f i))) := modifyProc_eq_ok.2 ⟨i, h, rfl⟩

/-- A record that is there is read. -/
theorem getProc_of_proc (h : s.objs p = some (.proc i)) : getProc p s = .ok (i, s) :=
  getProc_eq_ok.2 ⟨h, rfl⟩

/-- The head of the scheduler queue is out of it. -/
def unqueued (s : KState) (p : Nat) (rest : List Nat) : KState :=
  { s with schedulerQueue := rest }.setObj p (.proc { s.info p with schedulerQueueNode := .null })

/-- The scheduler queue with its head moved to its end. -/
def rotated (s : KState) (p : Nat) (rest : List Nat) : KState :=
  { s with schedulerQueue := rest ++ [p] }

/-- `s_dequeue` takes the head of the queue. -/
theorem sDequeue_of_cons {rest : List Nat} (hqueue : s.schedulerQueue = p :: rest)
    (hp : s.objs p = some (.proc (s.info p))) : sDequeue s = .ok (p, unqueued s p rest) := by
  rw [sDequeue, get_bind_apply, hqueue]
  dsimp only
  rw [modify_bind_apply]
  exact bind_of_ok (s := { s with schedulerQueue := rest }) (modifyProc_of_proc hp)

/-- `s_enqueue` fails when the count says so. -/
theorem sEnqueue_full (h : maxProcessCount ≤ s.processCount) :
    sEnqueue p s = .ok (false, { s with errorNumber := .errSchedulerQueueFull }) := by
  rw [sEnqueue, get_bind_apply, if_pos h]
  rfl

/-- A process that was just taken out of the queue is put at its end, with the record that it
had. -/
theorem sEnqueue_unqueued {rest : List Nat} (hroom : s.processCount < maxProcessCount)
    (hp : s.objs p = some (.proc (s.info p))) (hnode : (s.info p).schedulerQueueNode = .linked ()) :
    sEnqueue p (unqueued s p rest) = .ok (true, rotated s p rest) := by
  have hroom' : ¬ (unqueued s p rest).processCount ≥ maxProcessCount := Nat.not_le.2 hroom
  rw [sEnqueue, get_bind_apply, if_neg hroom', modify_bind_apply]
  have hproc : { unqueued s p rest with
      schedulerQueue := (unqueued s p rest).schedulerQueue ++ [p] }.objs p =
        some (.proc { s.info p with schedulerQueueNode := .null }) := if_pos rfl
  rw [bind_of_ok (modifyProc_of_proc hproc)]
  -- the record of the process is what it was
  have hsame :
      { { s.info p with schedulerQueueNode := .null } with schedulerQueueNode := .linked () } =
        s.info p := by rw [← hnode]
  have hstate : (rotated s p rest).setObj p (.proc (s.info p)) = rotated s p rest :=
    setObj_eq_self hp
  rw [hsame]
  show Except.ok (true, ((rotated s p rest).setObj p _).setObj p _) = _
  rw [setObj_setObj, hstate]

/-- Whether `kprocess_yield` passes over a process. -/
def KState.Skips (s : KState) (p : Nat) : Prop :=
  (s.processCount > 1 ∧ s.currentProcess ≠ 0) ∧
    (s.info p).processID = (s.info s.currentProcess).processID

instance : DecidablePred s.Skips := fun _ => inferInstanceAs (Decidable (_ ∧ _))

/-- The current process is live. -/
def CurrentLive (s : KState) (L : List Nat) : Prop := s.currentProcess = 0 ∨ s.currentProcess ∈ L

/-- A turn of the loop when there are too many processes: the head of the queue is lost. -/
theorem yieldLoop_full {rest : List Nat} (h : ProcsOk s L) (hqueue : s.schedulerQueue = p :: rest)
    (hfull : maxProcessCount ≤ s.processCount) : yieldLoop (n + 1) s =
      .ok (none, { unqueued s p rest with errorNumber := .errSchedulerQueueFull }) := by
  have hp : p ∈ L := h.queueSubset p (hqueue ▸ .head _)
  rw [yieldLoop, bind_of_ok (sDequeue_of_cons hqueue (h.proc p hp)), if_neg (h.ne_zero hp),
    bind_of_ok (sEnqueue_full (s := unqueued s p rest) hfull)]
  rfl

/-- A turn of the loop: the head of the queue moves to its end, and it is the next process unless it
is passed over. -/
theorem yieldLoop_turn {rest : List Nat} (h : ProcsOk s L) (hcurrent : CurrentLive s L)
    (hqueue : s.schedulerQueue = p :: rest) (hroom : s.processCount < maxProcessCount) :
    yieldLoop (n + 1) s = if s.Skips p then yieldLoop n (rotated s p rest)
      else .ok (some p, rotated s p rest) := by
  have hp : p ∈ L := h.queueSubset p (hqueue ▸ .head _)
  have hnode := (h.queued p hp).2 (hqueue ▸ .head _)
  rw [yieldLoop, bind_of_ok (sDequeue_of_cons hqueue (h.proc p hp)), if_neg (h.ne_zero hp),
    bind_of_ok (sEnqueue_unqueued hroom (h.proc p hp) hnode), if_neg (by simp), get_bind_apply]
  have hproc : (rotated s p rest).objs p = some (.proc (s.info p)) := h.proc p hp
  by_cases hmany : (rotated s p rest).processCount > 1 ∧ (rotated s p rest).currentProcess ≠ 0
  · have hcur : (rotated s p rest).objs (rotated s p rest).currentProcess =
        some (.proc (s.info s.currentProcess)) := h.proc _ (hcurrent.resolve_left hmany.2)
    rw [if_pos hmany, bind_of_ok (getProc_of_proc hproc),
      bind_of_ok (getProc_of_proc hcur), pure_bind]
    have hskip : s.Skips p ↔ (s.info p).processID = (s.info s.currentProcess).processID :=
      and_iff_right hmany
    beta_reduce
    by_cases hpid : (s.info p).processID = (s.info s.currentProcess).processID
    · rw [decide_eq_true hpid, if_pos rfl, if_pos (hskip.2 hpid)]
    · rw [decide_eq_false hpid, if_neg Bool.false_ne_true, if_neg (mt hskip.1 hpid)]
      rfl
  · have hskip : ¬ s.Skips p := fun h => hmany h.1
    rw [if_neg hmany, pure_bind, if_neg hskip]
    rfl

/-- The queue may be put in another order. -/
theorem ProcsOk.requeue {queue : List Nat} (h : ProcsOk s L) (hperm : queue.Perm s.schedulerQueue) :
    ProcsOk { s with schedulerQueue := queue } L :=
  h.withGlobals hperm h.rootProcess h.count h.countMax

/-- The loop of `kprocess_yield` with the rest `l` of the queue to look at, behind which it put the
processes that it passed over. -/
theorem yieldLoop_some {l m : List Nat} (h : ProcsOk s L) (hcurrent : CurrentLive s L)
    (hroom : s.processCount < maxProcessCount) (hqueue : s.schedulerQueue = l ++ m)
    (hm : ∀ x ∈ m, s.Skips x) {r : Option Nat} (hrun : yieldLoop n s = .ok (r, s')) :
    ∃ pre q post, r = some q ∧ l = pre ++ q :: post ∧ (∀ x ∈ pre, s.Skips x) ∧ ¬ s.Skips q ∧
      s' = { s with schedulerQueue := post ++ m ++ pre ++ [q] } := by
  induction n generalizing s l m with
  | zero => cases hrun
  | succ n ih =>
    cases hlist : s.schedulerQueue with
    | nil =>
      rw [yieldLoop, sDequeue, bind_assoc, get_bind_apply, hlist] at hrun
      cases hrun
    | cons p rest =>
      rw [yieldLoop_turn h hcurrent hlist hroom] at hrun
      have hperm : (rest ++ [p]).Perm s.schedulerQueue := by
        rw [hlist]
        exact List.perm_append_singleton p rest
      have h₁ : ProcsOk (rotated s p rest) L := h.requeue hperm
      rw [hlist] at hqueue
      cases l with
      | nil =>
        -- everything in the queue is passed over
        have hskip : s.Skips p := hm p (by rw [← List.nil_append m, ← hqueue]; exact .head _)
        rw [if_pos hskip] at hrun
        obtain ⟨pre, q, post, -, habsurd, -⟩ := ih (s := rotated s p rest) (l := [])
          (m := rest ++ [p]) h₁ hcurrent hroom rfl (fun x hx => by
            have hmem : x ∈ p :: rest := (List.perm_append_singleton p rest).mem_iff.1 hx
            exact hm x (by rw [← List.nil_append m, ← hqueue]; exact hmem)) hrun
        cases pre <;> cases habsurd
      | cons p' l' =>
        obtain ⟨rfl, rfl⟩ := List.cons.inj hqueue
        by_cases hskip : s.Skips p
        · rw [if_pos hskip] at hrun
          obtain ⟨pre, q, post, hr, hl, hpre, hq, rfl⟩ := ih (s := rotated s p (l' ++ m))
            (l := l') (m := m ++ [p]) h₁ hcurrent hroom (List.append_assoc _ _ _)
            (fun x hx => by
              rcases List.mem_append.1 hx with hx | hx
              · exact hm x hx
              · rw [List.mem_singleton.1 hx]
                exact hskip) hrun
          refine ⟨p :: pre, q, post, hr, by rw [hl]; rfl, fun x hx => ?_, hq, ?_⟩
          · rcases List.mem_cons.1 hx with rfl | hx
            · exact hskip
            · exact hpre x hx
          · simp only [rotated, List.append_assoc, List.cons_append, List.nil_append]
        · rw [if_neg hskip] at hrun
          cases hrun
          refine ⟨[], p, l', rfl, rfl, fun x hx => (by cases hx), hskip, ?_⟩
          simp only [rotated, List.append_nil]
          rfl

/-! ## Switching -/

/-- The kernel has another current process, root process or page directory. -/
theorem ProcsOk.dispatch {cr3 current root : Nat} (h : ProcsOk s L)
    (hroot : root = 0 ∨ root ∈ L ∧ IsRoot s.kin root) :
    ProcsOk { s with cr3 := cr3, currentProcess := current, rootProcess := root } L :=
  h.withGlobals (.refl _) hroot h.count h.countMax

/-- What `s_switchProcess` does when it jumps to the process `q`: it saves the registers `state` of
the current process, if there is one, and loads the page directory `cr3` and the registers
`regs`. -/
structure Switched (s s' : KState) (L : List Nat)
    (state : Option ProcessRegisterState) (q cr3 : Nat)
    (regs : ProcessRegisterState) : Prop where
  mem : q ∈ L
  other : s.currentProcess ≠ 0 → (s.info q).processID ≠ (s.info s.currentProcess).processID
  procs : ProcsOk s' L
  owned : OwnedOk s' L
  globals : s'.globals = { s.globals with
    cr3 := cr3, currentProcess := q,
    rootProcess := if (s.info q).parent.word = 0 then q else s.rootProcess }
  info : ∀ x ∈ L, s'.info x = { s.info x with
    state := if x = q then .running else if x = s.currentProcess then .idle else (s.info x).state }
  regs : s.objs (s.info q).registerStates = some (.regs regs)
  saved : ∀ x ∈ L, s'.objs (s.info x).registerStates =
    if x = s.currentProcess then state.map Obj.regs else s.objs (s.info x).registerStates
  context : ∃ v, s.objs (s.info q).context.word = some (.vmm v) ∧
    cr3 = physicalToPageframe v.parentProcessPD
  vms : s'.vms = s.vms
  records : ∀ b, b ∉ L → (∀ x ∈ L, b ≠ (s.info x).registerStates) → s'.records b = s.records b

/-- The registers of the current process are saved in its record. -/
structure Saved (s s' : KState) (L : List Nat) (state : Option ProcessRegisterState) : Prop where
  procs : ProcsOk s' L
  owned : OwnedOk s' L
  globals : s'.globals = s.globals
  info : ∀ x ∈ L, s'.info x = { s.info x with
    state := if x = s.currentProcess then .idle else (s.info x).state }
  saved : ∀ x ∈ L, s'.objs (s.info x).registerStates =
    if x = s.currentProcess then state.map Obj.regs else s.objs (s.info x).registerStates
  step : RecordsStep (fun b => b = s.currentProcess ∨ b = (s.info s.currentProcess).registerStates)
    s s'

/-- The registers of the current process are saved. -/
theorem saved_spec {regs : ProcessRegisterState} (h : ProcsOk s L) (ho : OwnedOk s L)
    (hc : s.currentProcess ∈ L) :
    Saved s ((s.setObj s.currentProcess
      (.proc { s.info s.currentProcess with state := .idle })).setObj
      (s.info s.currentProcess).registerStates (.regs regs)) L (some regs) := by
  generalize hcur : s.currentProcess = c at *
  obtain ⟨r, hr⟩ := ho.regs c hc
  have hne : c ≠ (s.info c).registerStates := fun heq => by
    rw [← heq, h.proc c hc] at hr
    cases hr
  have h₁ : RecordsStep (· = c) s (s.setObj c (.proc { s.info c with state := .idle })) :=
    .setObj h.ready (h.proc c hc) rfl rfl
  have hr₁ : (s.setObj c (.proc { s.info c with state := .idle })).objs (s.info c).registerStates =
      some (.regs r) := (objs_setObj_of_ne _ hne.symm).trans hr
  have h₂ : RecordsStep (· = (s.info c).registerStates) _
      ((s.setObj c (.proc { s.info c with state := .idle })).setObj (s.info c).registerStates
        (.regs regs)) :=
    .setObj h₁.ready hr₁ rfl rfl
  have hinfo : ∀ x ∈ L, ((s.setObj c (.proc { s.info c with state := .idle })).setObj
      (s.info c).registerStates (.regs regs)).info x =
        { s.info x with state := if x = c then .idle else (s.info x).state } := by
    intro x hx
    have hxr : x ≠ (s.info c).registerStates := fun heq => by
      rw [← heq, h.proc x hx] at hr
      cases hr
    rw [info_congr_objs (objs_setObj_of_ne _ hxr), info_setObj]
    by_cases hxc : x = c
    · rw [if_pos hxc, if_pos hxc, hxc]
    · rw [if_neg hxc, if_neg hxc]
  have hobj : ∀ x ∈ L, ((s.setObj c (.proc { s.info c with state := .idle })).setObj
      (s.info c).registerStates (.regs regs)).objs x =
        some (.proc { s.info x with state := if x = c then .idle else (s.info x).state }) := by
    intro x hx
    have hxr : x ≠ (s.info c).registerStates := fun heq => by
      rw [← heq, h.proc x hx] at hr
      cases hr
    rw [objs_setObj_of_ne _ hxr]
    by_cases hxc : x = c
    · rw [if_pos hxc, hxc, objs_setObj_self]
    · rw [if_neg hxc, objs_setObj_of_ne _ hxc, h.proc x hx]
  have hsaved : ∀ x ∈ L, ((s.setObj c (.proc { s.info c with state := .idle })).setObj
      (s.info c).registerStates (.regs regs)).objs (s.info x).registerStates =
        if x = c then some (.regs regs) else s.objs (s.info x).registerStates := by
    intro x hx
    by_cases hxc : x = c
    · rw [if_pos hxc, hxc, objs_setObj_self]
    · have hrr : (s.info x).registerStates ≠ (s.info c).registerStates := fun heq =>
        hxc (ho.regsInj x hx c hc heq)
      have hrc : (s.info x).registerStates ≠ c := fun heq => by
        obtain ⟨r', hr'⟩ := ho.regs x hx
        rw [heq, h.proc c hc] at hr'
        cases hr'
      rw [if_neg hxc, objs_setObj_of_ne _ hrr, objs_setObj_of_ne _ hrc]
  have hstep := (h₁.mono (Y := fun b => b = c ∨ b = (s.info c).registerStates) fun b hb =>
    .inl hb).trans
    (h₂.mono fun b hb => .inr hb)
  refine
    { procs := h.of_place hstep.ready hstep.globals fun x hx => ⟨_, hobj x hx, rfl⟩
      owned := ?_
      globals := hstep.globals
      info := by rwa [hcur]
      saved := by rwa [hcur]
      step := by rwa [hcur] }
  refine ho.of_info (fun x hx => ?_) (fun x hx => ?_) fun x hx e he => ?_
  · rw [hinfo x hx]
    exact ⟨rfl, rfl⟩
  · rw [hsaved x hx]
    split_ifs
    · exact ⟨regs, rfl⟩
    · exact ho.regs x hx
  · obtain ⟨ev, hev⟩ := ho.events x hx e he
    refine ⟨ev, objs_of_records (hstep.records e fun hor => ?_) rfl hev⟩
    rcases hor with rfl | rfl
    · rw [h.proc e hc] at hev
      cases hev
    · rw [hr] at hev
      cases hev

/-- Without a current process there is nothing to save. -/
theorem Saved.refl {state : Option ProcessRegisterState} (h : ProcsOk s L) (ho : OwnedOk s L)
    (hc : s.currentProcess = 0) : Saved s s L state where
  procs := h
  owned := ho
  globals := rfl
  info x hx := by rw [if_neg fun heq => h.ne_zero hx (heq.trans hc)]
  saved x hx := by rw [if_neg fun heq => h.ne_zero hx (heq.trans hc)]
  step := .refl h.ready

/-- The part of `s_switchProcess` that loads the next process. -/
def loadProcess (nextProcess : Nat) (next : KProcessInfo) : K Switch := do
  let pd ← kvmmGetPageDirectory (← next.context.follow)
  let cr3 := physicalToPageframe pd
  let status ← kpmmGetPageStatus pd
  kAssert (status = pmmStateUsed) "Process context invalid"
  modifyProc nextProcess fun i => { i with state := .running }
  modify fun s => { s with currentProcess := nextProcess }
  if next.parent.word = 0 then
    modify fun s => { s with rootProcess := nextProcess }
  let regs ← getRegs next.registerStates
  modify fun s => { s with cr3 }
  return .jumped next.flags cr3 regs

/-- No record lies at `NULL`. -/
theorem records_zero (h : HeapReady s) : s.records 0 = none := by
  obtain ⟨alloc, hs⟩ := h.heapOk
  rw [KState.records, hs.objs_zero]
  rfl

/-- What the kernel goes through when it loads a process: the context of the process has a manager,
its record says that it runs, and its registers are there. -/
theorem loadProcess_steps {q : Nat} {next : KProcessInfo} {r : Switch} (h : HeapReady s)
    (hrun : loadProcess q next s = .ok (r, s')) :
    ∃ v s₁ regs, s.objs next.context.word = some (.vmm v) ∧ RecordsStep (· = q) s s₁ ∧
      s₁.objs q = some (.proc { s.info q with state := .running }) ∧
      s₁.objs next.registerStates = some (.regs regs) ∧
      r = .jumped next.flags (physicalToPageframe v.parentProcessPD) regs ∧
      s' = { s₁ with
        cr3 := physicalToPageframe v.parentProcessPD
        currentProcess := q
        rootProcess := if next.parent.word = 0 then q else s₁.rootProcess } := by
  replace hrun := follow_bind_eq_ok.1 hrun
  obtain ⟨pd, s₂, hpd, hrun⟩ := bind_eq_ok.1 hrun
  obtain ⟨v, hv, hpd⟩ := getVmm_bind_eq_ok.1 hpd
  cases hpd
  obtain ⟨status, s₃, hstatus, hrun⟩ := bind_eq_ok.1 hrun
  have hnc := (kpmmGetPageStatus_fixes _).commit _ _ _ hstatus
  have h₃ : RecordsStep (· = q) s s₃ := .of_nonCommit h hnc
  obtain ⟨-, hrun⟩ := kAssert_bind_eq_ok.1 hrun
  obtain ⟨_, s₄, hmodify, hrun⟩ := bind_eq_ok.1 hrun
  obtain ⟨-, rfl, h₄⟩ := modifyProc_recordsStep h₃.ready hmodify
  rw [modify_bind_apply] at hrun
  have hinfo : s₃.info q = s.info q := info_congr (congrFun (records_of_nonCommit hnc) q)
  have hobj : (s₃.setObj q (.proc { s₃.info q with state := .running })).objs q =
      some (.proc { s.info q with state := .running }) := by
    rw [objs_setObj_self, hinfo]
  have hstep := h₃.trans h₄
  generalize s₃.setObj q (.proc { s₃.info q with state := .running }) = s₄ at hrun hstep hobj
  rcases ite_eq_ok.1 hrun with ⟨hroot, hrun⟩ | ⟨hroot, hrun⟩
  · rw [modify_bind_apply] at hrun
    obtain ⟨regs, hregs, hrun⟩ := getRegs_bind_eq_ok.1 hrun
    cases hrun
    refine ⟨v, s₄, regs, hv, hstep, hobj, hregs, rfl, ?_⟩
    rw [if_pos hroot]
  · obtain ⟨regs, hregs, hrun⟩ := getRegs_bind_eq_ok.1 hrun
    cases hrun
    refine ⟨v, s₄, regs, hv, hstep, hobj, hregs, rfl, ?_⟩
    rw [if_neg hroot]

/-- The registers of a process stay where they are while the state of another record is set. -/
theorem Saved.regsKept {state : Option ProcessRegisterState} {q : Nat} {s₂ : KState}
    (hsaved : Saved s s₁ L state) (hq : q ∈ L) (hstep : RecordsStep (· = q) s₁ s₂) {x : Nat}
    (hx : x ∈ L) : s₂.objs (s.info x).registerStates = s₁.objs (s.info x).registerStates := by
  have hx₁ : (s₁.info x).registerStates = (s.info x).registerStates := by rw [hsaved.info x hx]
  obtain ⟨r, hr⟩ := hsaved.owned.regs x hx
  rw [hx₁] at hr
  rw [hr]
  refine objs_of_records (hstep.records _ fun heq => ?_) rfl hr
  rw [heq, hsaved.procs.proc q hq] at hr
  cases hr

/-- No records but those of live processes and their registers change when the registers of the
current process are saved. -/
theorem Saved.records {state : Option ProcessRegisterState} (hsaved : Saved s s₁ L state)
    (h : ProcsOk s L) (hcurrent : CurrentLive s L) {b : Nat} (hb : b ∉ L)
    (hbr : ∀ x ∈ L, b ≠ (s.info x).registerStates) : s₁.records b = s.records b := by
  by_cases hbz : b = 0
  · rw [hbz, records_zero hsaved.procs.ready, records_zero h.ready]
  refine hsaved.step.records b fun hor => ?_
  rcases hcurrent with hc | hc
  · rcases hor with hor | hor
    · exact hbz (hor.trans hc)
    · have hnone : s.info 0 = noProcess := by
        obtain ⟨alloc, hs⟩ := h.ready.heapOk
        rw [KState.info, hs.objs_zero]
      rw [hc, hnone] at hor
      exact hbz hor
  · exact hor.elim (fun heq => hb (heq ▸ hc)) (hbr _ hc)

/-- The next process, of which nothing was changed, is loaded. -/
theorem loadProcess_spec {state : Option ProcessRegisterState} {q : Nat} {r : Switch}
    (h : ProcsOk s L) (hq : q ∈ L) (hsaved : Saved s s₁ L state) (hcurrent : CurrentLive s L)
    (hne : s.currentProcess ≠ 0 → (s.info q).processID ≠ (s.info s.currentProcess).processID)
    (hrun : loadProcess q (s.info q) s₁ = .ok (r, s')) :
    ∃ flags cr3 regs, r = .jumped flags cr3 regs ∧ Switched s s' L state q cr3 regs := by
  have hqc : q ≠ s.currentProcess := by
    intro heq
    refine hne (heq ▸ h.ne_zero hq) ?_
    rw [← heq]
  obtain ⟨v, s₂, regs, hv, hstep, hobjq, hregs, rfl, rfl⟩ :=
    loadProcess_steps hsaved.procs.ready hrun
  have hobj : ∀ x ∈ L, s₂.objs x = some (.proc { s.info x with
      state := if x = q then .running else if x = s.currentProcess then .idle
        else (s.info x).state }) := by
    intro x hx
    by_cases hxq : x = q
    · subst hxq
      rw [if_pos rfl, hobjq, hsaved.info x hx, if_neg hqc]
    · rw [if_neg hxq, proc_of_records (hstep.records x hxq) (hsaved.procs.proc x hx),
        hsaved.info x hx]
  have hinfo : ∀ x ∈ L, s₂.info x = _ := fun x hx => info_eq (hobj x hx)
  have hprocs₂ : ProcsOk s₂ L := hsaved.procs.of_place hstep.ready hstep.globals fun x hx =>
    ⟨_, hobj x hx, by rw [hsaved.info x hx]; rfl⟩
  have howned₂ : OwnedOk s₂ L := by
    refine hsaved.owned.of_step hstep (fun b hb => .inr ⟨_, hb ▸ hsaved.procs.proc q hq⟩)
      fun x hx => ?_
    rw [hinfo x hx, hsaved.info x hx]
    exact ⟨rfl, rfl⟩
  have hkin : ∀ x ∈ L, s₂.kin x = s.kin x := fun x hx => by
    rw [KState.kin, hinfo x hx]
    rfl
  have hglobals : s₂.globals = s.globals := hstep.globals.trans hsaved.globals
  have hroot : s₂.rootProcess = s.rootProcess := congrArg Globals.rootProcess hglobals
  refine ⟨_, _, regs, rfl,
    { mem := hq
      other := hne
      procs := hprocs₂.dispatch ?_
      owned := howned₂.of_records rfl
      globals := ?_
      info := hinfo
      regs := ?_
      saved := fun x hx => (hsaved.regsKept hq hstep hx).trans (hsaved.saved x hx)
      context := ?_
      vms := hstep.vms.trans hsaved.step.vms
      records := fun b hb hbr => (hstep.records b fun heq => hb (heq ▸ hq)).trans
        (hsaved.records h hcurrent hb hbr) }⟩
  · split_ifs with hword
    · refine .inr ⟨hq, ?_⟩
      rw [IsRoot, hkin q hq]
      rcases h.family.parent q hq with ⟨hr, -⟩ | ⟨p', hp', hchild⟩
      · exact hr
      · exact absurd hword (h.word_ne_zero hq hchild hp').2
    · rw [hroot]
      refine h.rootProcess.imp_right fun hr => ⟨hr.1, ?_⟩
      rw [IsRoot, hkin _ hr.1]
      exact hr.2
  · rw [← hglobals, ← hroot]
    rfl
  · have hregs' := hregs
    rw [hsaved.regsKept hq hstep hq, hsaved.saved q hq, if_neg hqc] at hregs'
    exact hregs'
  · have hkept : ManagerKept (s.info q).context.word s₁ s := .of_vms hsaved.step.vms.symm
    obtain ⟨v', hv', hcore⟩ := hkept v hv
    have hpd : v'.core.parentProcessPD = v.core.parentProcessPD := by rw [hcore]
    exact ⟨v', hv', congrArg physicalToPageframe hpd.symm⟩

/-- `s_switchProcess` in its two parts. -/
theorem sSwitchProcess_eq (q : Nat) (state : Option ProcessRegisterState) :
    sSwitchProcess q state = (do
      let next ← getProc q
      let currentProcess := (← get).currentProcess
      if currentProcess = 0 then loadProcess q next
      else
        kAssert (state ≠ none) "Current process state is invalid for current process"
        let current ← getProc currentProcess
        if current.processID = next.processID then return .returned true
        else
          modifyProc currentProcess fun i => { i with state := .idle }
          if let some regs := state then
            let _ ← getRegs current.registerStates
            modify (·.setObj current.registerStates (.regs regs))
          loadProcess q next) := by
  unfold sSwitchProcess loadProcess
  cases state <;> simp only [pure_bind, Bool.false_eq_true, if_false, if_true]

/-- `s_switchProcess` returns to the current process when the next one has its PID, and otherwise
jumps to the next one. -/
theorem sSwitchProcess_spec {state : Option ProcessRegisterState} {q : Nat} {r : Switch}
    (h : ProcsOk s L) (ho : OwnedOk s L) (hcurrent : CurrentLive s L) (hq : q ∈ L)
    (hrun : sSwitchProcess q state s = .ok (r, s')) :
    (r = .returned true ∧ s' = s ∧ s.currentProcess ≠ 0 ∧
      (s.info q).processID = (s.info s.currentProcess).processID) ∨
    ∃ flags cr3 regs, r = .jumped flags cr3 regs ∧ Switched s s' L state q cr3 regs := by
  rw [sSwitchProcess_eq] at hrun
  obtain ⟨i, hi, hrun⟩ := getProc_bind_eq_ok.1 hrun
  obtain rfl := (info_eq hi).symm
  rw [get_bind_apply] at hrun
  rcases ite_eq_ok.1 hrun with ⟨hc, hrun⟩ | ⟨hc, hrun⟩
  · exact .inr (loadProcess_spec h hq (.refl h ho hc) hcurrent (fun hne => absurd hc hne) hrun)
  obtain ⟨hstate, hrun⟩ := kAssert_bind_eq_ok.1 hrun
  obtain ⟨c, hcur, hrun⟩ := getProc_bind_eq_ok.1 hrun
  obtain rfl := (info_eq hcur).symm
  rcases ite_eq_ok.1 hrun with ⟨hpid, hrun⟩ | ⟨hpid, hrun⟩
  · cases hrun
    exact .inl ⟨rfl, rfl, hc, hpid.symm⟩
  obtain ⟨regs, rfl⟩ := Option.ne_none_iff_exists'.1 hstate
  obtain ⟨_, s₁, hmodify, hrun⟩ := bind_eq_ok.1 hrun
  obtain ⟨-, rfl, -⟩ := modifyProc_recordsStep h.ready hmodify
  obtain ⟨_, -, hrun⟩ := getRegs_bind_eq_ok.1 hrun
  rw [modify_bind_apply] at hrun
  exact .inr (loadProcess_spec h hq (saved_spec h ho (hcurrent.resolve_left hc)) hcurrent
    (fun _ => Ne.symm hpid) hrun)

/-! ## `kprocess_yield` -/

/-- A process is lost from the queue. -/
theorem ProcsOk.lostHead {rest : List Nat} (h : ProcsOk s L) (hqueue : s.schedulerQueue = p :: rest)
    (e : KernelErrorCodes) : ProcsOk { unqueued s p rest with errorNumber := e } L := by
  have hp : p ∈ L := h.queueSubset p (hqueue ▸ .head _)
  have hnodup : p ∉ rest ∧ rest.Nodup := List.nodup_cons.1 (hqueue ▸ h.queueNodup)
  have hobj : ∀ x ∈ L, (unqueued s p rest).objs x = some (.proc { s.info x with
      schedulerQueueNode := if x = p then .null else (s.info x).schedulerQueueNode }) := by
    intro x hx
    by_cases hxp : x = p
    · rw [if_pos hxp, hxp]
      exact objs_setObj_self _
    · rw [if_neg hxp]
      exact (objs_setObj_of_ne _ hxp).trans (h.proc x hx)
  have hinfo : ∀ x ∈ L, (unqueued s p rest).info x = _ := fun x hx => info_eq (hobj x hx)
  have hkin : ∀ x ∈ L, KState.kin { unqueued s p rest with errorNumber := e } x = s.kin x :=
    fun x hx => by
      show (KState.info (unqueued s p rest) x).kin = _
      rw [hinfo x hx]
      rfl
  have hready : HeapReady (unqueued s p rest) := by
    have hready₀ : HeapReady { s with schedulerQueue := rest } :=
      ⟨h.ready.phase, h.ready.heapOk.imp fun _ hs => ⟨hs.inv, hs.buffer, hs.objs⟩⟩
    exact hready₀.setObj (by
      show s.objs p ≠ none
      rw [h.proc p hp]
      simp)
  refine
    { ready := hready.of_nonCommit rfl
      phase := h.phase
      proc := fun x hx => ?_
      parentAddr := fun x hx => ?_
      family := h.family.congr hkin
      queueNodup := hnodup.2
      queueSubset := fun x hx => h.queueSubset x (hqueue ▸ .tail _ hx)
      queued := fun x hx => ?_
      rootProcess := h.rootProcess.imp_right fun hroot => ⟨hroot.1, ?_⟩
      count := h.count
      countMax := h.countMax }
  · show (unqueued s p rest).objs x = some (.proc ((unqueued s p rest).info x))
    rw [hinfo x hx]
    exact hobj x hx
  · show ∃ a, ((unqueued s p rest).info x).parent = _
    rw [hinfo x hx]
    exact h.parentAddr x hx
  · show ((unqueued s p rest).info x).schedulerQueueNode = _ ↔ x ∈ rest
    rw [hinfo x hx]
    dsimp only
    by_cases hxp : x = p
    · rw [if_pos hxp, hxp]
      exact iff_of_false (by simp) hnodup.1
    · rw [if_neg hxp, h.queued x hx, hqueue, List.mem_cons, or_iff_right hxp]
  · have hroot' := hkin _ hroot.1
    exact ⟨(congrArg Kin.parent hroot').trans hroot.2.1,
      (congrArg Kin.listedBy hroot').trans hroot.2.2⟩

/-- What `kprocess_yield` does while a process may be put at the end of the queue: the processes
before the next one are passed over. -/
structure Yielded (s s' : KState) (L : List Nat) (state : Option ProcessRegisterState) (r : Switch)
    (pre : List Nat) (q : Nat) (post : List Nat) : Prop where
  room : s.processCount < maxProcessCount
  queue : s.schedulerQueue = pre ++ q :: post
  skipped : ∀ x ∈ pre, s.Skips x
  next : ¬ s.Skips q
  valid : (s.info q).state ≠ .invalid
  switch : (r = .returned true ∧ s' = { s with schedulerQueue := post ++ pre ++ [q] } ∧
      s.currentProcess ≠ 0 ∧ (s.info q).processID = (s.info s.currentProcess).processID) ∨
    ∃ flags cr3 regs, r = .jumped flags cr3 regs ∧
      Switched { s with schedulerQueue := post ++ pre ++ [q] } s' L state q cr3 regs

/-- The queue is turned, and none is lost. -/
theorem Yielded.perm {state : Option ProcessRegisterState} {r : Switch} {pre post : List Nat}
    (h : Yielded s s' L state r pre q post) : (post ++ pre ++ [q]).Perm s.schedulerQueue :=
  h.queue ▸ turn_perm pre post q

/-- `kprocess_yield` fails with the queue's head lost, or switches to the next process. -/
theorem kprocessYield_spec {state : Option ProcessRegisterState} {r : Switch} (h : ProcsOk s L)
    (ho : OwnedOk s L) (hcurrent : CurrentLive s L) (hrun : kprocessYield state s = .ok (r, s')) :
    (maxProcessCount ≤ s.processCount ∧ r = .returned false ∧
      ∃ p rest, s.schedulerQueue = p :: rest ∧
        s' = { unqueued s p rest with errorNumber := .errSchedulerQueueFull }) ∨
    ∃ pre q post, Yielded s s' L state r pre q post := by
  rw [kprocessYield, get_bind_apply] at hrun
  obtain ⟨next, s₁, hloop, hrun⟩ := bind_eq_ok.1 hrun
  by_cases hroom : s.processCount < maxProcessCount
  · right
    obtain ⟨pre, q, post, rfl, hqueue, hpre, hq, rfl⟩ := yieldLoop_some h hcurrent hroom
      (List.append_nil _).symm (fun x hx => by cases hx) hloop
    have hmem : q ∈ L := h.queueSubset q (hqueue ▸ List.mem_append_right _ (.head _))
    have hperm : (post ++ [] ++ pre ++ [q]).Perm s.schedulerQueue := by
      rw [hqueue, List.append_nil]
      exact turn_perm pre post q
    have h₁ := h.requeue hperm
    have ho₁ : OwnedOk { s with schedulerQueue := post ++ [] ++ pre ++ [q] } L := ho.of_records rfl
    obtain ⟨i, hi, hrun⟩ := getProc_bind_eq_ok.1 hrun
    obtain rfl := (info_eq hi).symm
    obtain ⟨hvalid, hrun⟩ := kAssert_bind_eq_ok.1 hrun
    refine ⟨pre, q, post, hroom, hqueue, hpre, hq, hvalid, ?_⟩
    have hswitch := sSwitchProcess_spec h₁ ho₁ hcurrent hmem hrun
    simp only [List.append_nil] at hswitch
    exact hswitch
  · left
    have hfull := Nat.not_lt.1 hroom
    cases hqueue : s.schedulerQueue with
    | nil =>
      rw [yieldLoop, sDequeue, bind_assoc, get_bind_apply, hqueue] at hloop
      cases hloop
    | cons p rest =>
      rw [yieldLoop_full h hqueue hfull] at hloop
      cases hloop
      cases hrun
      exact ⟨hfull, rfl, p, rest, rfl, rfl⟩

end MeghaOS
