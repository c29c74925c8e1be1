import MeghaOS.Proof.Create

/-!
# Entering a new process

Once its memory is set up, `kprocess_create` gives the new process a parent, its first registers and
a place in the scheduler queue. `kprocessCreate_spec` says how a call ends: with a new process, with
the new process killed again, or with nothing that another process knows of. It leaves out the calls
that fail while the record still holds the words of its memory (`FailsHalfMade`).
-/

namespace MeghaOS

open Exec KState

variable {s s' s₁ : KState} {L : List Nat} {p q r c flags : Nat} {fresh : FreshMemory}
  {context : Ptr}

/-! ## The process without relatives -/

/-- Only the record of the new process changes. -/
theorem Built.of_record {context' : Ptr} (h : Built s s₁ p r flags fresh context)
    (hready : HeapReady s')
    (hglobals : s'.globals = s₁.globals) (hrecords : ∀ b, b ≠ p → s'.records b = s₁.records b)
    (hproc : s'.objs p = some (.proc (s'.info p))) (hmanagers : ∀ m, ManagerKept m s₁ s')
    (hinfo : (s'.info p).fixed =
      { fresh.process r (s.processCount + 1) flags with context := context' }.fixed) :
    Built s s' p r flags fresh context' where
  outside := by
    refine
      { ready := hready
        globals := ?_
        records := fun b o hb => ?_
        invalid := fun b i hb => ?_
        managers := fun m => (h.outside.managers m).trans (hmanagers m)
        windows := h.outside.windows.trans (RecordsStep.windows_of_isProcess hrecords
          (fun o ho => ?_) fun o ho => ?_) }
    · rw [hglobals, h.outside.globals,
        show s'.processCount = s₁.processCount from congrArg Globals.processCount hglobals]
    · have hne : b ≠ p := by
        rintro rfl
        rw [KState.records, h.unused] at hb
        cases hb
      rw [hrecords b hne]
      exact h.outside.records b o hb
    · have hstate : (s'.info p).state = .invalid := congrArg KProcessInfo.state hinfo
      by_cases hbp : b = p
      · rw [hbp, hproc] at hb
        cases hb
        exact .inr hstate
      · exact h.outside.invalid b i (proc_of_records (hrecords b hbp).symm hb)
    · rw [h.proc] at ho
      cases ho
      rfl
    · rw [hproc] at ho
      cases ho
      rfl
  count := (congrArg Globals.processCount hglobals).trans h.count
  ne_zero := h.ne_zero
  heap := h.heap
  unused := h.unused
  unusedRegs := h.unusedRegs
  proc := hproc
  info := hinfo
  regs := by
    obtain ⟨g, hg⟩ := h.regs
    have hne : r ≠ p := by
      rintro rfl
      rw [h.proc] at hg
      cases hg
    exact ⟨g, objs_of_records (hrecords r hne) rfl hg⟩

/-- The context of the new process is set. -/
theorem Built.contextSet {context' : Ptr} (h : Built s s₁ p r flags fresh context)
    (hset : ContextSet p context' s₁ s') : Built s s' p r flags fresh context' := by
  have hinfo : s'.info p = { s₁.info p with context := context' } := info_eq hset.proc
  refine h.of_record hset.ready hset.globals hset.records ?_ hset.managers ?_
  · rw [hinfo]
    exact hset.proc
  · have hfixed : ({ s₁.info p with context := context' } : KProcessInfo).fixed =
        { (s₁.info p).fixed with context := context' } := rfl
    rw [hinfo, hfixed, h.info]
    rfl

/-- Its memory is set up. -/
theorem Built.setup (h : Built s s₁ p r flags fresh context) (hstep : SetupStep p s₁ s') :
    Built s s' p r flags fresh context :=
  h.of_record hstep.ready hstep.globals hstep.records hstep.proc hstep.managers
    (hstep.info.trans h.info)

/-- What the record of the new process says, apart from its memory. -/
theorem Built.fields (h : Built s s' p r flags fresh context) : (s'.info p).registerStates = r ∧
    (s'.info p).processID = s.processCount + 1 ∧ (s'.info p).flags = flags ∧
    (s'.info p).context = context ∧ (s'.info p).childrenListNode = .self ∧
    (s'.info p).childrenListHead = [] ∧ (s'.info p).eventsQueueHead = [] ∧
    (s'.info p).schedulerQueueNode = .self ∧ (s'.info p).parent = .raw fresh.parent := by
  have hinfo := h.info
  simp only [KProcessInfo.fixed, FreshMemory.process, FreshMemory.record, KProcessInfo.mk.injEq]
    at hinfo
  simp only [hinfo, and_self]

/-- What no process knows of leaves the contexts. -/
theorem NewContext.of_outside (hout : Outside s s₁) (hprocs : ProcsOk s L)
    (hcurrent : CurrentLive s L)
    (hthread : bitIsSet flags processFlagsThread = true → s.currentProcess ≠ 0) {s₂ : KState}
    (hkept : ∀ m, ManagerKept m s₂ s') (h : NewContext s₁ s₂ flags context) :
    NewContext s s' flags context := by
  rcases h with ⟨hset, hcontext⟩ | ⟨hunset, c, hcontext, hold, v, hv⟩
  · refine .inl ⟨hset, ?_⟩
    have hc : s.currentProcess ∈ L := hcurrent.resolve_left (hthread hset)
    rw [hcontext, show s₁.currentProcess = s.currentProcess from
      congrArg Globals.currentProcess hout.globals, (hout.info (hprocs.proc _ hc)).2]
  · refine .inr ⟨hunset, c, hcontext, fun w hw => ?_, ?_⟩
    · obtain ⟨w', hw', -⟩ := hout.managers c w hw
      exact hold w' hw'
    · obtain ⟨v', hv', -⟩ := hkept c v hv
      exact ⟨v', hv'⟩

/-- `setupProcess` fails before there is a record, or with a record that no other process knows, or
it ends in `linkProcess`. -/
theorem setupProcess_spec {addr len : Nat} {ok : Bool} (hprocs : ProcsOk s L)
    (hcurrent : CurrentLive s L) (hcount : s.processCount < maxProcessCount)
    (hthread : bitIsSet flags processFlagsThread = true → s.currentProcess ≠ 0)
    (hrun : setupProcess addr len flags fresh s = .ok ((p, ok), s')) :
    (p = 0 ∧ ok = false ∧ Outside s s' ∧ s'.processCount = s.processCount) ∨
    (ok = false ∧ ∃ r context, Built s s' p r flags fresh context) ∨
    ∃ s₁ r context, Built s s₁ p r flags fresh context ∧ NewContext s s₁ flags context ∧
      linkProcess p s₁ = .ok (ok, s') := by
  obtain ⟨a, s₁, hmalloc, hrun⟩ := bind_eq_ok.1 hrun
  rcases sProcessInfoMalloc_spec hprocs.ready hcount hmalloc with ⟨rfl, hout, hsame⟩ | ⟨r, hbuilt⟩
  · cases hrun
    exact .inl ⟨rfl, rfl, hout, hsame⟩
  right
  rw [if_neg hbuilt.ne_zero] at hrun
  obtain ⟨ok₁, s₂, hdirectory, hrun⟩ := bind_eq_ok.1 hrun
  have hflags : (s₁.info a).flags = flags := hbuilt.fields.2.2.1
  obtain ⟨context, hset, hnew⟩ := sCreateProcessPageDirectory_spec hbuilt.outside.ready hbuilt.proc
    (fun ht => by
      rw [KProcessInfo.isThread, hflags] at ht
      have hc : s.currentProcess ∈ L := hcurrent.resolve_left (hthread ht)
      have hinfo := hbuilt.outside.info (hprocs.proc _ hc)
      rw [show s₁.currentProcess = s.currentProcess from
        congrArg Globals.currentProcess hbuilt.outside.globals, hinfo.1, hinfo.2]) hdirectory
  rw [hflags] at hnew
  have hbuilt₂ := hbuilt.contextSet hset
  rcases ite_eq_ok.1 hrun with ⟨-, hrun⟩ | ⟨hok₁, hrun⟩
  · cases hrun
    exact .inl ⟨rfl, r, context, hbuilt₂⟩
  have hnew₁ := hnew (Bool.eq_true_of_not_eq_false hok₁)
  obtain ⟨ok₂, s₃, hbinary, hrun⟩ := bind_eq_ok.1 hrun
  have hstep₃ := sSetupProcessBinaryMemory_setupFrame _ _ _ _ _ hbinary hset.ready hbuilt₂.proc
  have hbuilt₃ := hbuilt₂.setup hstep₃
  rcases ite_eq_ok.1 hrun with ⟨-, hrun⟩ | ⟨-, hrun⟩
  · cases hrun
    exact .inl ⟨rfl, r, context, hbuilt₃⟩
  obtain ⟨ok₃, s₄, hstack, hrun⟩ := bind_eq_ok.1 hrun
  have hstep₄ := sSetupProcessStackMemory_setupFrame _ _ _ hstack hstep₃.ready hbuilt₃.proc
  have hbuilt₄ := hbuilt₃.setup hstep₄
  rcases ite_eq_ok.1 hrun with ⟨-, hrun⟩ | ⟨-, hrun⟩
  · cases hrun
    exact .inl ⟨rfl, r, context, hbuilt₄⟩
  obtain ⟨ok₄, s₅, hdata, hrun⟩ := bind_eq_ok.1 hrun
  have hstep₅ := sSetupProcessDataMemory_setupFrame _ _ _ hdata hstep₄.ready hbuilt₄.proc
  have hbuilt₅ := hbuilt₄.setup hstep₅
  rcases ite_eq_ok.1 hrun with ⟨-, hrun⟩ | ⟨-, hrun⟩
  · cases hrun
    exact .inl ⟨rfl, r, context, hbuilt₅⟩
  obtain ⟨ok₅, s₆, hlink, hrun⟩ := bind_eq_ok.1 hrun
  cases hrun
  have hkept : ∀ m, ManagerKept m s₂ s₅ := ((hstep₃.trans hstep₄).trans hstep₅).managers
  exact .inr ⟨s₅, r, context, hbuilt₅, hnew₁.of_outside hbuilt.outside hprocs hcurrent
    hthread hkept,
    hlink⟩

/-! ## The parent -/

/-- The part of `linkProcess` that gives the process a parent. -/
def enterFamily (pinfo : Nat) : K Unit := do
  modifyProc pinfo fun i => { i with parent := .addr 0 }
  let currentProcess := (← get).currentProcess
  if currentProcess = 0 then
    kAssert (bitIsUnset (← getProc pinfo).flags processFlagsThread) "Threads cannot be Root"
  else
    changeParentProcess pinfo currentProcess
    kAssert ((← getProc pinfo).parent ≠ .addr 0) "Non-Root processes & Threads must have a parent"

/-- The part of `linkProcess` that gives the process its first registers and a place in the
queue. -/
def startProcess (pinfo : Nat) : K Bool := do
  let i ← getProc pinfo
  let _ ← getRegs i.registerStates
  modify (·.setObj i.registerStates (.regs (initialRegisters i)))
  modifyProc pinfo fun i => { i with state := .idle }
  sEnqueue pinfo

/-- A new process first gets its parent, and then its registers and its place in the queue. -/
theorem linkProcess_eq (pinfo : Nat) : linkProcess pinfo = (do
    enterFamily pinfo
    startProcess pinfo) := by
  unfold linkProcess enterFamily startProcess
  simp only [bind_assoc, Exec.ite_bind]

/-- The process that gets the children that `c` creates: `c`, or its parent if `c` is a thread. -/
def CreatesFor (s : KState) (c q : Nat) : Prop :=
  ((s.info c).isThread = false ∧ q = c) ∨ ((s.info c).isThread = true ∧ IsChild s.kin c q)

/-- The new process `p` became the last child of `q`. -/
structure Adoptive (s s' : KState) (p q : Nat) : Prop where
  proc : s'.objs p = some (.proc { s.info p with parent := .addr q, childrenListNode := .linked q })
  parent : s'.objs q = some (.proc { s.info q with
    childrenListHead := (s.info q).childrenListHead ++ [p] })
  step : RecordsStep (fun b => b = p ∨ b = q) s s'

/-- The parent that `change_parent_process` gives to a child that `c` creates. -/
theorem ProcsOk.newParent (h : ProcsOk s L) (hc : c ∈ L) :
    ∃ q, (if bitIsSet (s.info c).flags processFlagsThread then (s.info c).parent else .addr c) =
      .addr q ∧ q ∈ L ∧ CreatesFor s c q ∧ (s.info q).isThread = false := by
  by_cases hthread : (s.info c).isThread = true
  · obtain ⟨q, hq, hchild⟩ := h.thread_isChild hc hthread
    refine ⟨q, ?_, hq, .inr ⟨hthread, hchild⟩, h.family.parent_not_leaf hq hchild.mem⟩
    rw [if_pos (show bitIsSet (s.info c).flags processFlagsThread = true from hthread)]
    exact (h.word_ne_zero hc hchild hq).1
  · have hfalse := Bool.eq_false_of_not_eq_true hthread
    exact ⟨c, if_neg hthread, hc, .inl ⟨hfalse, rfl⟩, hfalse⟩

/-- `change_parent_process` enters a process that is in no list yet. -/
theorem changeParentProcess_new (h : ProcsOk s L) (hp : p ∉ L) (hc : c ∈ L)
    (hnode : (s.info p).childrenListNode = .self)
    (hrun : changeParentProcess p c s = .ok ((), s')) :
    ∃ q ∈ L, CreatesFor s c q ∧ (s.info q).isThread = false ∧ Adoptive s s' p q := by
  rw [changeParentProcess, get_bind_apply] at hrun
  obtain ⟨-, hrun⟩ := kAssert_bind_eq_ok.1 hrun
  obtain ⟨_, s₁, hremove, hrun⟩ := bind_eq_ok.1 hrun
  obtain ⟨rfl, h₁⟩ := childrenListRemove_spec_self h.ready hnode hremove
  have hcp : c ≠ p := fun heq => hp (heq ▸ hc)
  obtain ⟨i, hi, hrun⟩ := getProc_bind_eq_ok.1 hrun
  rw [objs_setObj_of_ne _ hcp, h.proc c hc] at hi
  obtain rfl := Obj.proc.inj (Option.some.inj hi)
  obtain ⟨_, s₂, hmodify, hrun⟩ := bind_eq_ok.1 hrun
  obtain ⟨-, rfl, h₂⟩ := modifyProc_recordsStep h₁.ready hmodify
  have hadd := follow_bind_eq_ok.1 hrun
  obtain ⟨q, hq, hqL, hcreates, hqthread⟩ := h.newParent hc
  rw [hq] at hadd h₂
  have hqp : q ≠ p := fun heq => hp (heq ▸ hqL)
  obtain ⟨-, -, hp₃, hq₃, h₃⟩ := childrenListAdd_spec h₂.ready hqp.symm hadd
  refine ⟨q, hqL, hcreates, hqthread, ?_, ?_, (h₁.mono fun b hb => .inl hb).trans
    ((h₂.mono fun b hb => .inl hb).trans h₃)⟩
  · rw [hp₃, info_setObj, if_pos rfl, info_setObj, if_pos rfl]
  · rw [hq₃, info_setObj, if_neg hqp, info_setObj, if_neg hqp]

/-- The process `p` joined the live processes `L`. -/
structure Joined (s s' : KState) (L : List Nat) (p : Nat) : Prop where
  procs : ProcsOk s' (p :: L)
  parent : (s.currentProcess = 0 ∧ (s'.info p).parent = .addr 0) ∨
    s.currentProcess ≠ 0 ∧ ∃ q ∈ L, CreatesFor s s.currentProcess q ∧ (s'.info p).parent = .addr q
  self : s'.info p = { s.info p with
    parent := (s'.info p).parent, childrenListNode := (s'.info p).childrenListNode }
  info : ∀ x ∈ L, s'.info x = { s.info x with childrenListHead := (s'.info x).childrenListHead }
  step : RecordsStep (fun b => b = p ∨ b ∈ L) s s'

/-- Another process joins the family. -/
theorem ProcsOk.join (h : ProcsOk s L) (hp : p ∉ L) (hcount : L.length < s.processCount)
    (hnode : (s.info p).schedulerQueueNode = .self) (hready : HeapReady s')
    (hglobals : s'.globals = s.globals) (hproc : s'.objs p = some (.proc (s'.info p)))
    (hparent : ∃ a, (s'.info p).parent = .addr a)
    (hnode' : (s'.info p).schedulerQueueNode = (s.info p).schedulerQueueNode)
    (hinfo : ∀ x ∈ L, s'.objs x = some (.proc (s'.info x)) ∧
      s'.info x = { s.info x with childrenListHead := (s'.info x).childrenListHead })
    (hfamily : Family s'.kin (p :: L)) : ProcsOk s' (p :: L) := by
  have hqueue : s'.schedulerQueue = s.schedulerQueue := congrArg Globals.schedulerQueue hglobals
  have hpc : s'.processCount = s.processCount := congrArg Globals.processCount hglobals
  refine
    { ready := hready
      phase := (congrArg Globals.phase hglobals).trans h.phase
      proc := fun x hx => ?_
      parentAddr := fun x hx => ?_
      family := hfamily
      queueNodup := hqueue ▸ h.queueNodup
      queueSubset := fun x hx => .tail _ (h.queueSubset x (hqueue ▸ hx))
      queued := fun x hx => ?_
      rootProcess := ?_
      count := ?_
      countMax := hpc ▸ h.countMax }
  · rcases List.mem_cons.1 hx with rfl | hx
    · exact hproc
    · exact (hinfo x hx).1
  · rcases List.mem_cons.1 hx with rfl | hx
    · exact hparent
    · rw [(hinfo x hx).2]
      exact h.parentAddr x hx
  · rw [hqueue]
    rcases List.mem_cons.1 hx with rfl | hx
    · rw [hnode', hnode]
      exact iff_of_false (by simp) fun hmem => hp (h.queueSubset _ hmem)
    · rw [(hinfo x hx).2]
      exact h.queued x hx
  · rw [show s'.rootProcess = s.rootProcess from congrArg Globals.rootProcess hglobals]
    refine h.rootProcess.imp_right fun hroot => ⟨.tail _ hroot.1, ?_⟩
    rw [IsRoot, KState.kin, (hinfo _ hroot.1).2]
    exact hroot.2
  · rw [hpc]
    exact hcount

/-- The record of a new process `p` that is set up, but has no relatives and no place in the
queue. -/
structure Newborn (s : KState) (L : List Nat) (p : Nat) : Prop where
  notMem : p ∉ L
  proc : s.objs p = some (.proc (s.info p))
  count : L.length < s.processCount
  listNode : (s.info p).childrenListNode = .self
  children : (s.info p).childrenListHead = []
  queueNode : (s.info p).schedulerQueueNode = .self
  events : (s.info p).eventsQueueHead = []
  regs : ∀ x ∈ L, (s.info x).registerStates ≠ (s.info p).registerStates

/-- The new process while it has no parent yet. -/
def parentless (s : KState) (p : Nat) : KState :=
  s.setObj p (.proc { s.info p with parent := .addr 0 })

/-- Without a parent the record has a null pointer. -/
theorem parentless_info_self : (parentless s p).info p = { s.info p with parent := .addr 0 } :=
  info_eq (objs_setObj_self _)

/-- The other records are as they were. -/
theorem parentless_objs (h : ProcsOk s L) (hp : p ∉ L) {x : Nat} (hx : x ∈ L) :
    (parentless s p).objs x = some (.proc (s.info x)) := by
  have hne : x ≠ p := fun heq => hp (heq ▸ hx)
  rw [parentless, objs_setObj_of_ne _ hne, h.proc x hx]

/-- The first process has no parent. -/
theorem Joined.root (h : ProcsOk s []) (hnew : Newborn s [] p) (hzero : s.currentProcess = 0)
    (hthread : (s.info p).isThread = false) (hstep : RecordsStep (· = p) s (parentless s p)) :
    Joined s (parentless s p) [] p := by
  refine
    { procs := h.join hnew.notMem hnew.count hnew.queueNode hstep.ready hstep.globals ?_
        ⟨0, by rw [parentless_info_self]⟩ (by rw [parentless_info_self]) (fun x hx => by cases hx)
        (.singleton ⟨?_, ?_⟩ ?_ ?_)
      parent := .inl ⟨hzero, by rw [parentless_info_self]⟩
      self := by rw [parentless_info_self]
      info := fun x hx => by cases hx
      step := hstep.mono fun b hb => .inl hb }
  · rw [parentless_info_self]
    exact objs_setObj_self _
  · rw [KState.kin, parentless_info_self]
    rfl
  · rw [KState.kin, parentless_info_self]
    show (s.info p).childrenListNode.owner = none
    rw [hnew.listNode]
    rfl
  · rw [KState.kin, parentless_info_self]
    exact hthread
  · rw [KState.kin, parentless_info_self]
    exact hnew.children

/-- The process that gets the children of `c` is the same when a new one is there. -/
theorem CreatesFor.of_parentless {q : Nat} (h : ProcsOk s L) (hp : p ∉ L) (hc : c ∈ L) (hq : q ∈ L)
    (hcreates : CreatesFor (parentless s p) c q) : CreatesFor s c q := by
  have hinfo : ∀ x ∈ L, s.info x = (parentless s p).info x := fun x hx =>
    (info_eq (parentless_objs h hp hx)).symm
  rw [CreatesFor, ← hinfo c hc] at hcreates
  exact hcreates.imp_right fun hchild =>
    ⟨hchild.1, hchild.2.of_info (hinfo c hc) (hinfo q hq)⟩

/-- A process that got a parent is one of the family. -/
theorem Adoptive.joined {q : Nat} (h : ProcsOk s L) (hnew : Newborn s L p)
    (hne : s.currentProcess ≠ 0) (hcreates : CreatesFor s s.currentProcess q) (hq : q ∈ L)
    (hqthread : (s.info q).isThread = false)
    (hstep : RecordsStep (· = p) s (parentless s p)) (hadopt : Adoptive (parentless s p) s' p q) :
    Joined s s' L p := by
  have hp := hnew.notMem
  have hq' := hadopt.parent
  have hp' := hadopt.proc
  rw [parentless_info_self] at hp'
  rw [info_eq (parentless_objs h hp hq)] at hq'
  have hobjs : ∀ x ∈ L, s'.objs x = some (.proc { s.info x with childrenListHead :=
      if x = q then (s.info x).childrenListHead ++ [p] else (s.info x).childrenListHead }) := by
    intro x hx
    by_cases hxq : x = q
    · rw [if_pos hxq, hxq, hq']
    · rw [if_neg hxq]
      refine objs_of_records (hadopt.step.records x fun hor => ?_) rfl (parentless_objs h hp hx)
      rcases hor with rfl | hor
      · exact hp hx
      · exact hxq hor
  have hinfo : ∀ x ∈ L, s'.info x = _ := fun x hx => info_eq (hobjs x hx)
  have hinfop : s'.info p = _ := info_eq hp'
  have hstep' := (hstep.mono (Y := fun b => b = p ∨ b ∈ L) fun b hb => .inl hb).trans
    (hadopt.step.mono fun b hb => hb.elim .inl fun heq => .inr (heq ▸ hq))
  refine
    { procs := h.join hp hnew.count hnew.queueNode hstep'.ready hstep'.globals ?_
        ⟨q, by rw [hinfop]⟩ (by rw [hinfop]) (fun x hx => ⟨?_, ?_⟩)
        (h.family.link hp hq hqthread ?_ ?_ ?_ fun x hx => ?_)
      parent := .inr ⟨hne, q, hq, hcreates, by rw [hinfop]⟩
      self := by rw [hinfop]
      info := fun x hx => by rw [hinfo x hx]
      step := hstep' }
  · rw [hinfop]
    exact hp'
  · rw [hinfo x hx]
    exact hobjs x hx
  · rw [hinfo x hx]
  · rw [KState.kin, hinfop]
    exact if_neg (h.ne_zero hq)
  · rw [KState.kin, hinfop]
    rfl
  · rw [KState.kin, hinfop]
    exact hnew.children
  · rw [KState.kin, hinfo x hx]
    split_ifs with hxq
    · rw [hxq]
      rfl
    · rfl

/-- `enterFamily` makes the first process the root, and any other one a child. -/
theorem enterFamily_spec (h : ProcsOk s L) (hcurrent : CurrentLive s L) (hnew : Newborn s L p)
    (hfirst : s.currentProcess = 0 → L = [])
    (hrun : enterFamily p s = .ok ((), s')) : Joined s s' L p := by
  obtain ⟨_, s₁, hmodify, hrun⟩ := bind_eq_ok.1 hrun
  obtain ⟨-, rfl, h₁⟩ := modifyProc_recordsStep h.ready hmodify
  change RecordsStep (· = p) s (parentless s p) at h₁
  rw [get_bind_apply] at hrun
  rcases ite_eq_ok.1 hrun with ⟨hzero, hrun⟩ | ⟨hne, hrun⟩
  · obtain ⟨i, hi, hrun⟩ := getProc_bind_eq_ok.1 hrun
    obtain rfl := (info_eq hi).symm
    obtain ⟨hthread, rfl⟩ := kAssert_eq_ok.1 hrun
    change bitIsUnset ((parentless s p).info p).flags processFlagsThread = true at hthread
    rw [parentless_info_self] at hthread
    have hL : L = [] := hfirst hzero
    subst hL
    exact .root h hnew hzero (isThread_eq_false.2 hthread) h₁
  · obtain ⟨_, s₂, hchange, hrun⟩ := bind_eq_ok.1 hrun
    obtain ⟨i, -, hrun⟩ := getProc_bind_eq_ok.1 hrun
    obtain ⟨-, rfl⟩ := kAssert_eq_ok.1 hrun
    have hp := hnew.notMem
    have hc : s.currentProcess ∈ L := hcurrent.resolve_left hne
    have hprocs₁ : ProcsOk (parentless s p) L :=
      h.of_place h₁.ready h₁.globals fun x hx => ⟨_, parentless_objs h hp hx, rfl⟩
    obtain ⟨q, hq, hcreates, hqthread, hadopt⟩ := changeParentProcess_new hprocs₁ hp hc
      (by rw [parentless_info_self]; exact hnew.listNode) hchange
    rw [info_eq (parentless_objs h hp hq)] at hqthread
    exact hadopt.joined h hnew hne (hcreates.of_parentless h hp hc hq) hq hqthread h₁

/-! ## The registers and the scheduler queue -/

/-- Another process has a register state of its own and no events. -/
theorem OwnedOk.cons (h : OwnedOk s L)
    (hregs : ∃ g, s.objs (s.info p).registerStates = some (.regs g))
    (hnew : ∀ x ∈ L, (s.info x).registerStates ≠ (s.info p).registerStates)
    (hevents : (s.info p).eventsQueueHead = []) : OwnedOk s (p :: L) where
  regs x hx := by
    rcases List.mem_cons.1 hx with rfl | hx
    · exact hregs
    · exact h.regs x hx
  regsInj x hx y hy heq := by
    rcases List.mem_cons.1 hx with hxp | hx <;> rcases List.mem_cons.1 hy with hyp | hy
    · rw [hxp, hyp]
    · rw [hxp] at heq
      exact absurd heq.symm (hnew y hy)
    · rw [hyp] at heq
      exact absurd heq (hnew x hx)
    · exact h.regsInj x hx y hy heq
  events x hx e he := by
    rcases List.mem_cons.1 hx with rfl | hx
    · rw [hevents] at he
      cases he
    · exact h.events x hx e he
  eventsNodup x hx := by
    rcases List.mem_cons.1 hx with rfl | hx
    · rw [hevents]
      exact .nil
    · exact h.eventsNodup x hx
  eventsInj x hx y hy e hex hey := by
    rcases List.mem_cons.1 hx with rfl | hx
    · rw [hevents] at hex
      cases hex
    rcases List.mem_cons.1 hy with rfl | hy
    · rw [hevents] at hey
      cases hey
    · exact h.eventsInj x hx y hy e hex hey

/-- The process `p`, with the register state `r`, is one of the live processes, but not in the
queue. -/
structure Linked (s s' : KState) (L : List Nat) (p r : Nat) : Prop where
  procs : ProcsOk s' (p :: L)
  owned : OwnedOk s' (p :: L)
  unqueued : p ∉ s'.schedulerQueue
  parent : (s.currentProcess = 0 ∧ (s'.info p).parent = .addr 0) ∨
    s.currentProcess ≠ 0 ∧ ∃ q ∈ L, CreatesFor s s.currentProcess q ∧ (s'.info p).parent = .addr q
  self : s'.info p = { s.info p with
    parent := (s'.info p).parent, childrenListNode := (s'.info p).childrenListNode, state := .idle }
  info : ∀ x ∈ L, s'.info x = { s.info x with childrenListHead := (s'.info x).childrenListHead }
  regs : s'.objs r = some (.regs (initialRegisters (s'.info p)))
  step : RecordsStep (fun b => b = p ∨ b = r ∨ b ∈ L) s s'

/-- The process `p` is at the end of the queue. -/
def enqueued (s : KState) (p : Nat) : KState :=
  { s with schedulerQueue := s.schedulerQueue ++ [p] }.setObj p
    (.proc { s.info p with schedulerQueueNode := .linked () })

/-- Setting the error number. -/
theorem Linked.error (h : Linked s s' L p r) (e : KernelErrorCodes) :
    Linked s { s' with errorNumber := e } L p r where
  procs := h.procs.of_records (h.procs.ready.of_nonCommit rfl) rfl fun _ _ => rfl
  owned := h.owned.of_records rfl
  unqueued := h.unqueued
  parent := h.parent
  self := h.self
  info := h.info
  regs := h.regs
  step := h.step.trans (.error h.procs.ready e)

/-- The new process with its first registers. -/
def started (s : KState) (p : Nat) : KState :=
  (s.setObj (s.info p).registerStates (.regs (initialRegisters (s.info p)))).setObj p
    (.proc { s.info p with state := .idle })

/-- What `linkProcess` does once the process has a parent. -/
theorem startProcess_steps {ok : Bool} (h : HeapReady s)
    (hproc : s.objs p = some (.proc (s.info p))) (hrun : startProcess p s = .ok (ok, s')) :
    (∃ g, s.objs (s.info p).registerStates = some (.regs g)) ∧
      RecordsStep (fun b => b = p ∨ b = (s.info p).registerStates) s (started s p) ∧
      sEnqueue p (started s p) = .ok (ok, s') := by
  obtain ⟨i, hi, hrun⟩ := getProc_bind_eq_ok.1 hrun
  obtain rfl := (info_eq hi).symm
  obtain ⟨g, hg, hrun⟩ := getRegs_bind_eq_ok.1 hrun
  rw [modify_bind_apply] at hrun
  obtain ⟨_, s₁, hmodify, hrun⟩ := bind_eq_ok.1 hrun
  have hne : p ≠ (s.info p).registerStates := fun heq => by
    rw [← heq, hproc] at hg
    cases hg
  have h₁ : RecordsStep (· = (s.info p).registerStates) s
      (s.setObj (s.info p).registerStates (.regs (initialRegisters (s.info p)))) :=
    .setObj h hg rfl rfl
  have hinfo : (s.setObj (s.info p).registerStates
      (.regs (initialRegisters (s.info p)))).info p = s.info p :=
    info_congr_objs (objs_setObj_of_ne _ hne)
  obtain ⟨-, rfl, h₂⟩ := modifyProc_recordsStep h₁.ready hmodify
  rw [hinfo] at h₂ hrun
  exact ⟨⟨g, hg⟩, (h₁.mono fun b hb => .inr hb).trans (h₂.mono fun b hb => .inl hb), hrun⟩

/-- The registers are the first ones. -/
theorem started_regs (hne : (s.info p).registerStates ≠ p) :
    (started s p).objs (s.info p).registerStates = some (.regs (initialRegisters (s.info p))) := by
  rw [started, objs_setObj_of_ne _ hne, objs_setObj_self]

/-- The records of the processes when the new one has its registers. -/
theorem started_objs {x : Nat} (hproc : s.objs x = some (.proc (s.info x)))
    (hne : x ≠ (s.info p).registerStates) : (started s p).objs x =
      some (.proc { s.info x with state := if x = p then .idle else (s.info x).state }) := by
  rw [started]
  by_cases hxp : x = p
  · rw [if_pos hxp, hxp, objs_setObj_self]
  · rw [if_neg hxp, objs_setObj_of_ne _ hxp, objs_setObj_of_ne _ hne, hproc]

/-- A process that joined the others and has its first registers is linked. -/
theorem Joined.linked (hjoin : Joined s s₁ L p) (h : ProcsOk s L) (ho : OwnedOk s L)
    (hnew : Newborn s L p) (hregs : ∃ g, s₁.objs (s₁.info p).registerStates = some (.regs g))
    (hstart : RecordsStep (fun b => b = p ∨ b = (s₁.info p).registerStates) s₁ (started s₁ p)) :
    Linked s (started s₁ p) L p (s.info p).registerStates := by
  obtain ⟨g, hg⟩ := hregs
  have hregs₁ : (s₁.info p).registerStates = (s.info p).registerStates := by rw [hjoin.self]
  have hne : ∀ x ∈ p :: L, x ≠ (s₁.info p).registerStates := fun x hx heq => by
    rw [← heq, hjoin.procs.proc x hx] at hg
    cases hg
  have hobjs := fun x hx => started_objs (hjoin.procs.proc x hx) (hne x hx)
  have hregsp := started_regs (hne p (.head _)).symm
  generalize started s₁ p = s₂ at *
  rw [hregs₁] at hstart hg hne hregsp
  have hinfop : s₂.info p = { s₁.info p with state := .idle } := by
    rw [info_eq (hobjs p (.head _)), if_pos rfl]
  have hinfo : ∀ x ∈ L, s₂.info x = s₁.info x := fun x hx => by
    have hxp : x ≠ p := fun heq => hnew.notMem (heq ▸ hx)
    rw [info_eq (hobjs x (.tail _ hx)), if_neg hxp]
  have hstep := (hjoin.step.mono (Y := fun b => b = p ∨ b = (s.info p).registerStates ∨ b ∈ L)
      fun b hb => hb.imp_right .inr).trans (hstart.mono fun b hb => hb.imp_right .inl)
  have hother : ∀ b o, s.objs b = some o → o.isVm = false → (∀ i, o ≠ .proc i) →
      b ≠ (s.info p).registerStates → s₂.objs b = some o := by
    intro b o hb hvm hnotProc hbr
    refine objs_of_records (hstep.records b ?_) hvm hb
    rintro (rfl | rfl | hbL)
    · exact hnotProc _ (Option.some.inj (hb.symm.trans hnew.proc))
    · exact hbr rfl
    · exact hnotProc _ (Option.some.inj (hb.symm.trans (h.proc b hbL)))
  refine
    { procs := hjoin.procs.of_place hstart.ready hstart.globals fun x hx => ⟨_, hobjs x hx, rfl⟩
      owned := OwnedOk.cons (ho.of_info (fun x hx => ?_) (fun x hx => ?_) fun x hx e he => ?_) ?_
        (fun x hx => ?_) ?_
      unqueued := fun hmem => ?_
      parent := by rw [hinfop]; exact hjoin.parent
      self := by rw [hinfop, hjoin.self]
      info := fun x hx => by rw [hinfo x hx]; exact hjoin.info x hx
      regs := by rw [hregsp, hinfop]; rfl
      step := hstep }
  · rw [hinfo x hx, hjoin.info x hx]
    exact ⟨rfl, rfl⟩
  · obtain ⟨g', hg'⟩ := ho.regs x hx
    exact ⟨g', hother _ _ hg' rfl (fun i => by simp) (hnew.regs x hx)⟩
  · obtain ⟨ev, hev⟩ := ho.events x hx e he
    refine ⟨ev, hother _ _ hev rfl (fun i => by simp) fun heq => ?_⟩
    -- an event is no record of a process, so it stayed what it was until the registers were set
    have hrecord := hjoin.step.records e fun hor => ?_
    · have hg₀ := objs_of_records hrecord rfl hev
      rw [heq, hg] at hg₀
      cases hg₀
    · rcases hor with rfl | heL
      · rw [hnew.proc] at hev
        cases hev
      · rw [h.proc e heL] at hev
        cases hev
  · rw [hinfop]
    show ∃ g, s₂.objs (s₁.info p).registerStates = some (.regs g)
    rw [hregs₁]
    exact ⟨_, hregsp⟩
  · rw [hinfo x hx, hinfop, hjoin.info x hx]
    show (s.info x).registerStates ≠ (s₁.info p).registerStates
    rw [hregs₁]
    exact hnew.regs x hx
  · rw [hinfop, hjoin.self]
    exact hnew.events
  · rw [show s₂.schedulerQueue = s.schedulerQueue from
      congrArg Globals.schedulerQueue hstep.globals] at hmem
    exact hnew.notMem (h.queueSubset p hmem)

/-- `linkProcess` makes the new process one of the live ones; it fails only when the queue has no
room. -/
theorem linkProcess_spec {ok : Bool} (h : ProcsOk s L) (ho : OwnedOk s L)
    (hcurrent : CurrentLive s L) (hnew : Newborn s L p) (hfirst : s.currentProcess = 0 → L = [])
    (hrun : linkProcess p s = .ok (ok, s')) :
    (ok = false ∧ maxProcessCount ≤ s'.processCount ∧ Linked s s' L p (s.info p).registerStates) ∨
    ok = true ∧ ∃ s₁, Linked s s₁ L p (s.info p).registerStates ∧
      s₁.processCount < maxProcessCount ∧ s' = enqueued s₁ p := by
  rw [linkProcess_eq] at hrun
  obtain ⟨_, s₁, hfamily, hrun⟩ := bind_eq_ok.1 hrun
  have hjoin := enterFamily_spec h hcurrent hnew hfirst hfamily
  obtain ⟨hregs, hstart, hrun⟩ :=
    startProcess_steps hjoin.procs.ready (hjoin.procs.proc p (.head _)) hrun
  have hlinked := hjoin.linked h ho hnew hregs hstart
  generalize started s₁ p = s₂ at *
  rw [sEnqueue, get_bind_apply] at hrun
  rcases ite_eq_ok.1 hrun with ⟨hfull, hrun⟩ | ⟨hroom, hrun⟩
  · obtain ⟨rfl, rfl⟩ := returnError_eq_ok.1 hrun
    exact .inl ⟨rfl, hfull, hlinked.error _⟩
  · rw [modify_bind_apply] at hrun
    obtain ⟨_, s₃, hmodify, hrun⟩ := bind_eq_ok.1 hrun
    obtain ⟨i, hi, rfl⟩ := modifyProc_eq_ok.1 hmodify
    cases hrun
    refine .inr ⟨rfl, s₂, hlinked, Nat.not_le.1 hroom, ?_⟩
    have hi₂ : s₂.objs p = some (.proc i) := hi
    rw [enqueued, info_eq hi₂]

/-! ## `kprocess_create` -/

/-- A process that enters the queue. -/
theorem ProcsOk.enqueued (h : ProcsOk s L) (hp : p ∈ L) (hqueue : p ∉ s.schedulerQueue) :
    ProcsOk (enqueued s p) L := by
  have hready : HeapReady { s with schedulerQueue := s.schedulerQueue ++ [p] } :=
    ⟨h.ready.phase, h.ready.heapOk.imp fun _ hs => ⟨hs.inv, hs.buffer, hs.objs⟩⟩
  have hobjs : ∀ x ∈ L, (MeghaOS.enqueued s p).objs x = some (.proc { s.info x with
      schedulerQueueNode := if x = p then .linked () else (s.info x).schedulerQueueNode }) := by
    intro x hx
    by_cases hxp : x = p
    · rw [if_pos hxp, hxp]
      exact objs_setObj_self _
    · rw [if_neg hxp]
      exact (objs_setObj_of_ne _ hxp).trans (h.proc x hx)
  have hinfo : ∀ x ∈ L, (MeghaOS.enqueued s p).info x = _ := fun x hx => info_eq (hobjs x hx)
  have hkin : ∀ x ∈ L, (MeghaOS.enqueued s p).kin x = s.kin x := fun x hx => by
    rw [KState.kin, hinfo x hx]
    rfl
  refine
    { ready := hready.setObj (by
        show s.objs p ≠ none
        rw [h.proc p hp]
        simp)
      phase := h.phase
      proc := fun x hx => by rw [hinfo x hx]; exact hobjs x hx
      parentAddr := fun x hx => by rw [hinfo x hx]; exact h.parentAddr x hx
      family := h.family.congr hkin
      queueNodup := h.queueNodup.append (List.nodup_singleton p) (List.disjoint_singleton.2 hqueue)
      queueSubset := fun x hx => ?_
      queued := fun x hx => ?_
      rootProcess := h.rootProcess.imp_right fun hroot => ⟨hroot.1, ?_⟩
      count := h.count
      countMax := h.countMax }
  · rcases List.mem_append.1 hx with hx | hx
    · exact h.queueSubset x hx
    · rwa [List.mem_singleton.1 hx]
  · rw [hinfo x hx]
    show _ ↔ x ∈ s.schedulerQueue ++ [p]
    rw [List.mem_append, List.mem_singleton]
    dsimp only
    by_cases hxp : x = p
    · simp [hxp]
    · rw [if_neg hxp, h.queued x hx, or_iff_left hxp]
  · exact ⟨(congrArg Kin.parent (hkin _ hroot.1)).trans hroot.2.1,
      (congrArg Kin.listedBy (hkin _ hroot.1)).trans hroot.2.2⟩

/-- The process `p` was created, but is not in the queue yet. -/
structure Grown (s s' : KState) (L : List Nat) (p flags : Nat) : Prop where
  procs : ProcsOk s' (p :: L)
  owned : OwnedOk s' (p :: L)
  heap : ¬ IsStatic p
  unqueued : p ∉ s'.schedulerQueue
  globals : s'.globals = { s.globals with processCount := s.processCount + 1 }
  parent : (s.currentProcess = 0 ∧ (s'.info p).parent = .addr 0) ∨
    s.currentProcess ≠ 0 ∧ ∃ q ∈ L, CreatesFor s s.currentProcess q ∧ (s'.info p).parent = .addr q
  processID : (s'.info p).processID = s.processCount + 1
  state : (s'.info p).state = .idle
  events : (s'.info p).eventsQueueHead = []
  children : (s'.info p).childrenListHead = []
  context : NewContext s s' flags (s'.info p).context
  flags : (s'.info p).flags = flags
  info : ∀ x ∈ L, s'.info x = { s.info x with childrenListHead := (s'.info x).childrenListHead }
  regs : s'.objs (s'.info p).registerStates = some (.regs (initialRegisters (s'.info p)))
  kept : ∀ b o, s.objs b = some o → o.isVm = false → (∀ i, o ≠ .proc i) → s'.objs b = some o
  live : ∀ b, b ∉ p :: L → s'.Live b → s.Live b
  managers : ∀ m, ManagerKept m s s'
  windows : SameWindows s s'

/-- The new process is new. -/
theorem Grown.notMem (h : Grown s s' L p flags) : p ∉ L :=
  (List.nodup_cons.1 h.procs.family.nodup).1

/-- From the call's start to the place in the queue there is one process more. -/
theorem Linked.grown (h : ProcsOk s L) (hcurrent : CurrentLive s L)
    (hbuilt : Built s s₁ p r flags fresh context) (hnew : NewContext s s₁ flags context)
    (hlink : Linked s₁ s' L p r) : Grown s s' L p flags := by
  obtain ⟨hregs, hpid, hflags, hcontext, -, hchildren, hevents, -, -⟩ := hbuilt.fields
  have hinfo₁ : ∀ x ∈ L, s₁.info x = s.info x := fun x hx => (hbuilt.outside.info (h.proc x hx)).2
  have hkin₁ : ∀ x ∈ L, s₁.kin x = s.kin x :=
    fun x hx => by rw [KState.kin, hinfo₁ x hx, KState.kin]
  have hcur : s₁.currentProcess = s.currentProcess :=
    congrArg Globals.currentProcess hbuilt.outside.globals
  have hself := hlink.self
  refine
    { procs := hlink.procs
      owned := hlink.owned
      heap := hbuilt.heap
      unqueued := hlink.unqueued
      globals := by rw [hlink.step.globals, hbuilt.outside.globals, hbuilt.count]
      parent := ?_
      processID := by rw [hself]; exact hpid
      flags := by rw [hself]; exact hflags
      state := by rw [hself]
      events := by rw [hself]; exact hevents
      children := by rw [hself]; exact hchildren
      context := ?_
      info := fun x hx => by rw [hlink.info x hx, hinfo₁ x hx]
      regs := ?_
      kept := fun b o hb hvm hproc => ?_
      live := fun b hb hlive => ?_
      managers := fun m => (hbuilt.outside.managers m).trans (.of_vms hlink.step.vms)
      windows := hbuilt.outside.windows.trans hlink.step.windows }
  · have hparent := hlink.parent
    rw [hcur] at hparent
    rcases hparent with hzero | ⟨hne, q, hq, hcreates, hparent⟩
    · exact .inl hzero
    refine .inr ⟨hne, q, hq, ?_, hparent⟩
    have hc : s.currentProcess ∈ L := hcurrent.resolve_left hne
    rw [CreatesFor, hinfo₁ _ hc] at hcreates
    refine hcreates.imp_right fun hchild => ⟨hchild.1, hchild.2.ne, ?_, ?_, ?_⟩
    · rw [← hkin₁ _ hc]
      exact hchild.2.parent
    · rw [← hkin₁ _ hc]
      exact hchild.2.listedBy
    · rw [← hkin₁ _ hq]
      exact hchild.2.mem
  · have hcontext' : (s'.info p).context = context := by
      rw [hself]
      exact hcontext
    rw [hcontext']
    rcases hnew with hnew | ⟨hunset, c, hc, hold, v, hv⟩
    · exact .inl hnew
    · obtain ⟨v', hv', -⟩ := ManagerKept.of_vms (m := c) hlink.step.vms v hv
      exact .inr ⟨hunset, c, hc, hold, v', hv'⟩
  · have hregs' : (s'.info p).registerStates = r := by
      rw [hself]
      exact hregs
    rw [hregs']
    exact hlink.regs
  · have hb₁ := hbuilt.outside.records b o (records_eq_some.2 ⟨hb, hvm⟩)
    refine objs_of_records (hlink.step.records b ?_) hvm (records_eq_some.1 hb₁).1
    rintro (rfl | rfl | hbL)
    · rw [hbuilt.unused] at hb
      cases hb
    · rw [hbuilt.unusedRegs] at hb
      cases hb
    · exact hproc _ (Option.some.inj (hb.symm.trans (h.proc b hbL)))
  · obtain ⟨i, hi, hvalid⟩ := hlive
    have hrecord : s'.records b = s₁.records b := by
      refine hlink.step.records b ?_
      rintro (rfl | rfl | hbL)
      · exact hb (.head _)
      · rw [hlink.regs] at hi
        cases hi
      · exact hb (.tail _ hbL)
    rcases hbuilt.outside.invalid b i (proc_of_records hrecord.symm hi) with hi | hinvalid
    · exact ⟨i, hi, hvalid⟩
    · exact absurd hinvalid hvalid

/-- A call of `kprocess_create` that is not refused at once. -/
def KState.Admits (s : KState) (flags : Nat) : Prop :=
  s.processCount ≠ maxProcessCount ∧
    (s.currentProcess = 0 → bitIsSet flags processFlagsThread = false ∧ s.processCount = 0)

instance (s : KState) (flags : Nat) : Decidable (s.Admits flags) :=
  inferInstanceAs (Decidable (_ ∧ (_ → _)))

/-- A call of `kprocess_create` fails in the state `s'`, and kills the process `p`, whose record it
has allocated. -/
def GivesUp (s : KState) (addr len flags : Nat) (fresh : FreshMemory) (p : Nat) (s' : KState) :
    Prop :=
  s.Admits flags ∧ setupProcess addr len flags fresh s = .ok ((p, false), s') ∧ p ≠ 0

/-- A call of `kprocess_create` fails when it has allocated the record of the process and has not
assigned its parent yet, and maybe not its context either. The kill of the half made process takes
the words that the memory held before for these pointers. -/
def FailsHalfMade (s : KState) (addr len flags : Nat) (fresh : FreshMemory) : Prop :=
  ∃ p s', GivesUp s addr len flags fresh p s' ∧ (s'.info p).parent = .raw fresh.parent

/-- If the event creates a process, the call does not fail with a half made process. -/
def KernelEvent.Whole (s : KState) : KernelEvent → Prop
  | .create addr len flags fresh => ¬ FailsHalfMade s addr len flags fresh
  | _ => True

/-- A call of `kprocess_create` that is not refused sets a process up. -/
theorem kprocessCreate_setup {addr len : Nat} {result : Option Nat}
    (hrun : kprocessCreate addr len flags fresh s = .ok (result, s')) :
    (result = none ∧ ∃ e, s' = { s with errorNumber := e }) ∨
    (s.Admits flags ∧ ∃ p ok s₁, setupProcess addr len flags fresh s = .ok ((p, ok), s₁) ∧
      (ok = true ∧ (∃ i, s₁.objs p = some (.proc i) ∧ result = some i.processID) ∧ s' = s₁ ∨
        ok = false ∧ result = none ∧ ∃ killed,
          kprocessKillProcess none fresh.context p kprocessExitCodeForceKilled s₁ =
            .ok (killed, s'))) := by
  rw [kprocessCreate, get_bind_apply] at hrun
  rcases ite_eq_ok.1 hrun with ⟨-, hrun⟩ | ⟨hcount, hrun⟩
  · obtain ⟨rfl, rfl⟩ := returnError_eq_ok.1 hrun
    exact .inl ⟨rfl, _, rfl⟩
  rcases ite_eq_ok.1 hrun with ⟨-, hrun⟩ | ⟨hthread, hrun⟩
  · obtain ⟨rfl, rfl⟩ := returnError_eq_ok.1 hrun
    exact .inl ⟨rfl, _, rfl⟩
  rcases ite_eq_ok.1 hrun with ⟨-, hrun⟩ | ⟨hroot, hrun⟩
  · obtain ⟨rfl, rfl⟩ := returnError_eq_ok.1 hrun
    exact .inl ⟨rfl, _, rfl⟩
  obtain ⟨⟨p, ok⟩, s₁, hsetup, hrun⟩ := bind_eq_ok.1 hrun
  refine .inr ⟨⟨hcount, fun hzero => ⟨?_, ?_⟩⟩, p, ok, s₁, hsetup, ?_⟩
  · exact Bool.eq_false_of_not_eq_true fun hset => hthread ⟨hzero, hset⟩
  · exact Nat.eq_zero_of_not_pos fun hpos => hroot ⟨hzero, hpos⟩
  · cases ok with
    | true =>
      obtain ⟨i, hi, hrun⟩ := getProc_bind_eq_ok.1 hrun
      cases hrun
      exact .inl ⟨rfl, ⟨i, hi, rfl⟩, rfl⟩
    | false =>
      obtain ⟨killed, s₂, hkill, hrun⟩ := bind_eq_ok.1 hrun
      cases hrun
      exact .inr ⟨rfl, rfl, killed, hkill⟩

/-- A call that returns a PID has made all the steps. -/
theorem setupProcess_of_created {addr len pid : Nat}
    (hrun : kprocessCreate addr len flags fresh s = .ok (some pid, s')) :
    ∃ p, setupProcess addr len flags fresh s = .ok ((p, true), s') := by
  rcases kprocessCreate_setup hrun with ⟨habsurd, -⟩ | ⟨-, p, ok, s₁, hsetup, hend⟩
  · cases habsurd
  · rcases hend with ⟨rfl, -, rfl⟩ | ⟨-, habsurd, -⟩
    · exact ⟨p, hsetup⟩
    · cases habsurd

/-- A call that returns a PID did not fail. -/
theorem not_failsHalfMade {addr len pid : Nat}
    (hrun : kprocessCreate addr len flags fresh s = .ok (some pid, s')) :
    ¬ FailsHalfMade s addr len flags fresh := by
  rintro ⟨p, t, ⟨-, hsetup, -⟩, -⟩
  obtain ⟨q, hset⟩ := setupProcess_of_created hrun
  cases hsetup.symm.trans hset

/-- There is no process at `NULL`. -/
theorem kprocessKillProcess_null {slot : Option Nat} {stale exitCode : Nat} {killed : Bool}
    (h : HeapReady s) (hrun : kprocessKillProcess slot stale 0 exitCode s = .ok (killed, s')) :
    s' = { s with errorNumber := .errProcExitNotAllowed } := by
  rw [kprocessKillProcess, killWith_eq, get_bind_apply] at hrun
  rcases ite_eq_ok.1 hrun with ⟨-, hrun⟩ | ⟨-, hrun⟩
  · exact (returnError_eq_ok.1 hrun).2
  · obtain ⟨i, hi, -⟩ := getProc_bind_eq_ok.1 hrun
    obtain ⟨alloc, hs⟩ := h.heapOk
    rw [hs.objs_zero] at hi
    cases hi

/-- The record of a process whose memory is set up is ready to be linked. -/
theorem Built.newborn (hbuilt : Built s s₁ p r flags fresh context) (h : ProcsOk s L)
    (ho : OwnedOk s L) : Newborn s₁ L p := by
  obtain ⟨hregs, -, -, -, hlist, hchildren, hevents, hnode, -⟩ := hbuilt.fields
  have hle := h.count
  refine ⟨fun hmem => ?_, hbuilt.proc, by rw [hbuilt.count]; omega, hlist, hchildren, hnode,
    hevents, fun x hx heq => ?_⟩
  · have hproc := h.proc p hmem
    rw [hbuilt.unused] at hproc
    cases hproc
  · obtain ⟨g, hg⟩ := ho.regs x hx
    rw [(hbuilt.outside.info (h.proc x hx)).2, hregs] at heq
    rw [heq, hbuilt.unusedRegs] at hg
    cases hg

/-- A new process for which the queue has no room is killed. -/
theorem Grown.killed {slot : Option Nat} {stale exitCode : Nat} {killed : Bool}
    (hg : Grown s s₁ L p flags) (h : ProcsOk s L)
    (hroot : s.currentProcess = 0 → s.processCount = 0) (hfull : maxProcessCount ≤ s₁.processCount)
    (hkill : kprocessKillProcess slot stale p exitCode s₁ = .ok (killed, s')) : killed = true := by
  have hcount : s₁.processCount = s.processCount + 1 := congrArg Globals.processCount hg.globals
  rcases kprocessKillProcess_spec hg.procs hg.owned (.head _) hkill with ⟨-, hnull, -⟩ | ⟨rfl, -⟩
  · rcases hg.parent with ⟨hzero, -⟩ | ⟨-, q, hq, -, hparent⟩
    · have hpc := hroot hzero
      have hfull' : 20 ≤ s₁.processCount := hfull
      omega
    · rw [hparent] at hnull
      exact absurd (Ptr.addr.inj hnull) (h.ne_zero hq)
  · rfl

/-- How `kprocess_create` ends unless it fails with a half made process: it has no effect that
another process knows of, or there is a new process, which is killed again when the queue is
full. -/
theorem kprocessCreate_spec {addr len : Nat} {result : Option Nat} (h : ProcsOk s L)
    (ho : OwnedOk s L) (hcurrent : CurrentLive s L)
    (hwhole : ¬ FailsHalfMade s addr len flags fresh)
    (hrun : kprocessCreate addr len flags fresh s = .ok (result, s')) :
    (result = none ∧ Outside s s' ∧ s'.processCount = s.processCount) ∨
    ∃ p s₁, Grown s s₁ L p flags ∧
      ((result = some (s.processCount + 1) ∧ s₁.processCount < maxProcessCount ∧
        s' = enqueued s₁ p) ∨
        result = none ∧ maxProcessCount ≤ s₁.processCount ∧
          GivesUp s addr len flags fresh p s₁ ∧
          kprocessKillProcess none fresh.context p kprocessExitCodeForceKilled s₁ =
            .ok (true, s')) := by
  rcases kprocessCreate_setup hrun with
    ⟨rfl, e, rfl⟩ | ⟨hadmits, p, ok, s₁, hsetup, hend⟩
  · exact .inl ⟨rfl, .error h.ready _, rfl⟩
  have hcount := hadmits.1
  have hroot := hadmits.2
  have hmax : s.processCount < maxProcessCount := Nat.lt_of_le_of_ne h.countMax hcount
  have hthread : bitIsSet flags processFlagsThread = true → s.currentProcess ≠ 0 :=
    fun hset hzero => by
      rw [(hroot hzero).1] at hset
      cases hset
  rcases setupProcess_spec h hcurrent hmax hthread hsetup with
    ⟨rfl, rfl, hout, hsame⟩ | ⟨rfl, r, context, hbuilt⟩ | ⟨s₂, r, context, hbuilt, hnew, hlink⟩
  · -- there is no record to kill
    obtain ⟨-, rfl, killed, hkill⟩ := hend.resolve_left fun hend => Bool.false_ne_true hend.1
    obtain rfl := kprocessKillProcess_null hout.ready hkill
    exact .inl ⟨rfl, hout.trans (.error hout.ready _), hsame⟩
  · have hparent : (s₁.info p).parent = .raw fresh.parent := hbuilt.fields.2.2.2.2.2.2.2.2
    exact absurd ⟨p, s₁, ⟨hadmits, hsetup, hbuilt.ne_zero⟩, hparent⟩ hwhole
  · have hle := h.count
    have hprocs₂ : ProcsOk s₂ L := hbuilt.outside.procsOk h (by rw [hbuilt.count]; omega)
      (by rw [hbuilt.count]; exact hmax)
    have howned₂ := hbuilt.outside.ownedOk h ho
    have hcur : s₂.currentProcess = s.currentProcess :=
      congrArg Globals.currentProcess hbuilt.outside.globals
    have hfirst : s.currentProcess = 0 → L = [] := fun hzero => by
      have hpc := (hroot hzero).2
      exact List.eq_nil_of_length_eq_zero (by omega)
    have hspec := linkProcess_spec hprocs₂ howned₂ (by rw [CurrentLive, hcur]; exact hcurrent)
      (hbuilt.newborn h ho) (by rw [hcur]; exact hfirst) hlink
    rw [hbuilt.fields.1] at hspec
    right
    rcases hspec with ⟨rfl, hfull, hlinked⟩ | ⟨rfl, s₃, hlinked, hroom, rfl⟩
    · have hgrown := hlinked.grown h hcurrent hbuilt hnew
      obtain ⟨-, rfl, killed, hkill⟩ := hend.resolve_left fun hend => Bool.false_ne_true hend.1
      obtain rfl := hgrown.killed h (fun hzero => (hroot hzero).2) hfull hkill
      exact ⟨p, s₁, hgrown, .inr ⟨rfl, hfull, ⟨hadmits, hsetup, hbuilt.ne_zero⟩, hkill⟩⟩
    · have hgrown := hlinked.grown h hcurrent hbuilt hnew
      obtain ⟨-, ⟨i, hi, rfl⟩, rfl⟩ := hend.resolve_right fun hend => Bool.false_ne_true hend.1.symm
      have hobj : (enqueued s₃ p).objs p =
          some (.proc { s₃.info p with schedulerQueueNode := .linked () }) := objs_setObj_self _
      rw [hobj] at hi
      cases hi
      exact ⟨p, s₃, hgrown, .inl ⟨congrArg some hgrown.processID, hroom, rfl⟩⟩

end MeghaOS
