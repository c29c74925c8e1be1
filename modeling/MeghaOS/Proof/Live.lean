import MeghaOS.Proof.Booted
import MeghaOS.Proof.Link

/-!
# Runs of processes

Between two events of the kernel its live processes are in order (`LiveInv`): their records agree,
each has its own register state and events, and each has a context, which its threads share and no
other process has.
-/

namespace MeghaOS

open Exec KState

variable {s s' s₁ : KState} {L L' M : List Nat} {p q c : Nat} {i : KProcessInfo} {R : Nat → Prop}

/-! ## Contexts -/

/-- The frame of the page directory in the context of a process. -/
def KState.contextCr3 (s : KState) (p : Nat) : Option Nat :=
  match s.objs (s.info p).context.word with
  | some (.vmm v) => some (physicalToPageframe v.parentProcessPD)
  | _ => none

/-- The page directory of a process is that of its context. -/
theorem contextCr3_eq {v : VMemoryManager} (hv : s.objs (s.info p).context.word = some (.vmm v)) :
    s.contextCr3 p = some (physicalToPageframe v.parentProcessPD) := by
  rw [KState.contextCr3, hv]

/-- Each process has a context with a manager. A thread has that of its parent, and two processes
that are no threads have different ones. -/
structure ContextsOk (s : KState) (L : List Nat) : Prop where
  manager : ∀ p ∈ L, ∃ c v, (s.info p).context = .addr c ∧ s.objs c = some (.vmm v)
  thread : ∀ p ∈ L, ∀ q ∈ L, (s.info p).isThread = true → (s.info p).parent = .addr q →
    (s.info p).context = (s.info q).context
  own : ∀ p ∈ L, ∀ q ∈ L, (s.info p).isThread = false → (s.info q).isThread = false →
    (s.info p).context = (s.info q).context → p = q

/-- The context of a live process was assigned. -/
theorem ContextsOk.addr (h : ContextsOk s L) (hp : p ∈ L) :
    (s.info p).context = .addr (s.info p).context.word := by
  obtain ⟨c, v, hc, -⟩ := h.manager p hp
  rw [hc, Ptr.word]

/-- What the contexts of the processes `M` need: their records keep the context, the flags and, if
they are threads, the parent, and the managers are kept. -/
structure SameContexts (s s' : KState) (M : List Nat) : Prop where
  context : ∀ x ∈ M, (s'.info x).context = (s.info x).context
  flags : ∀ x ∈ M, (s'.info x).flags = (s.info x).flags
  parent : ∀ x ∈ M, (s.info x).isThread = true → (s'.info x).parent = (s.info x).parent
  managers : ∀ x ∈ M, ∀ c, (s.info x).context = .addr c → ManagerKept c s s'

namespace SameContexts

/-- A process stays a thread, or none. -/
theorem isThread (h : SameContexts s s' M) (hp : p ∈ M) :
    (s'.info p).isThread = (s.info p).isThread := by
  rw [KProcessInfo.isThread, KProcessInfo.isThread, h.flags p hp]

/-- The contexts of those who are left stay in order. -/
theorem contextsOk (h : SameContexts s s' M) (hL : ContextsOk s L) (hsub : ∀ x ∈ M, x ∈ L) :
    ContextsOk s' M where
  manager p hp := by
    obtain ⟨c, v, hc, hv⟩ := hL.manager p (hsub p hp)
    obtain ⟨v', hv', -⟩ := h.managers p hp c hc v hv
    exact ⟨c, v', (h.context p hp).trans hc, hv'⟩
  thread p hp q hq hthread hparent := by
    rw [h.isThread hp] at hthread
    rw [h.parent p hp hthread] at hparent
    rw [h.context p hp, h.context q hq]
    exact hL.thread p (hsub p hp) q (hsub q hq) hthread hparent
  own p hp q hq hp' hq' heq := by
    rw [h.isThread hp] at hp'
    rw [h.isThread hq] at hq'
    rw [h.context p hp, h.context q hq] at heq
    exact hL.own p (hsub p hp) q (hsub q hq) hp' hq' heq

/-- So do their page directories. -/
theorem contextCr3 (h : SameContexts s s' M) (hL : ContextsOk s L) (hsub : ∀ x ∈ M, x ∈ L)
    (hp : p ∈ M) : s'.contextCr3 p = s.contextCr3 p := by
  obtain ⟨c, v, hc, hv⟩ := hL.manager p (hsub p hp)
  obtain ⟨v', hv', hcore⟩ := h.managers p hp c hc v hv
  have hpd : v'.core.parentProcessPD = v.core.parentProcessPD := by rw [hcore]
  rw [contextCr3_eq (v := v') (by rw [h.context p hp, hc]; exact hv'),
    contextCr3_eq (v := v) (by rw [hc]; exact hv)]
  exact congrArg (fun pd => some (physicalToPageframe pd)) hpd

/-- Nothing but a state, a node or events of the records changes. -/
theorem of_info (hinfo : ∀ x ∈ M, (s'.info x).context = (s.info x).context ∧
    (s'.info x).flags = (s.info x).flags ∧ (s'.info x).parent = (s.info x).parent)
    (hmanagers : ∀ m, ManagerKept m s s') : SameContexts s s' M where
  context x hx := (hinfo x hx).1
  flags x hx := (hinfo x hx).2.1
  parent x hx _ := (hinfo x hx).2.2
  managers _ _ m _ := hmanagers m

end SameContexts

/-- The survivors keep their contexts. -/
theorem Survive.sameContexts (hs : Survive R s s' L L') (hL : ContextsOk s L) :
    SameContexts s s' L' where
  context x hx := (KProcessInfo.of_self (hs.self x hx)).2.2.1
  flags x hx := (KProcessInfo.of_self (hs.self x hx)).2.1
  parent := hs.thread
  managers x hx c hc := hs.managers c fun y hy hy' hythread hword => by
    have hyc : (s.info y).context = .addr c := by rw [hL.addr hy, hword]
    by_cases hxthread : (s.info x).isThread = true
    · -- the parent of a surviving thread survives
      have hflags : (s'.info x).flags = (s.info x).flags :=
        (KProcessInfo.of_self (hs.self x hx)).2.1
      obtain ⟨q, hq, hchild⟩ := hs.procs.thread_isChild hx (by rwa [KProcessInfo.isThread, hflags])
      have hparent := (hs.procs.word_ne_zero hx hchild hq).1
      rw [hs.thread x hx hxthread] at hparent
      have hqL := hs.mem hq
      have hqthread : (s'.info q).isThread = false := hs.procs.family.parent_not_leaf hq hchild.mem
      rw [KProcessInfo.isThread, (KProcessInfo.of_self (hs.self q hq)).2.1] at hqthread
      have hsame := hL.thread x (hs.mem hx) q hqL hxthread hparent
      obtain rfl := hL.own q hqL y hy hqthread hythread (by rw [← hsame, hc, hyc])
      exact hy' hq
    · obtain rfl := hL.own x (hs.mem hx) y hy (Bool.eq_false_of_not_eq_true hxthread) hythread
        (by rw [hc, hyc])
      exact hy' hx

/-- A new process has a context of its own, or that of its parent. -/
theorem Grown.contextsOk {flags : Nat} (hg : Grown s s' L p flags) (h : ProcsOk s L)
    (hcurrent : CurrentLive s L) (hL : ContextsOk s L) : ContextsOk s' (p :: L) := by
  have hsame : SameContexts s s' L := .of_info (fun x hx => by
    rw [hg.info x hx]
    exact ⟨rfl, rfl, rfl⟩) hg.managers
  have hok := hsame.contextsOk hL fun _ hx => hx
  have hthread : (s'.info p).isThread = bitIsSet flags processFlagsThread := by
    rw [KProcessInfo.isThread, hg.flags]
  -- a new context is that of no process yet
  have hfresh : bitIsSet flags processFlagsThread = false → ∀ x ∈ L,
      (s'.info p).context ≠ (s'.info x).context := by
    intro hunset x hx heq
    obtain ⟨-, c, hc, hold, -⟩ := hg.context.resolve_left fun hset => by
      rw [hunset] at hset
      cases hset.1
    obtain ⟨c', v, hc', hv⟩ := hL.manager x hx
    rw [hsame.context x hx, hc', hc] at heq
    obtain rfl := Ptr.addr.inj heq
    exact hold v hv
  refine
    { manager := fun x hx => ?_
      thread := fun x hx q hq hxthread hparent => ?_
      own := fun x hx y hy hxthread hythread heq => ?_ }
  · rcases List.mem_cons.1 hx with rfl | hx
    · rcases hg.context with ⟨hset, hcontext⟩ | ⟨-, c, hc, -, v, hv⟩
      · rcases hcurrent with hzero | hc
        · -- a thread has a parent
          obtain ⟨q, hq, hchild⟩ := hg.procs.thread_isChild (.head _) (hthread.trans hset)
          have hnull := (hg.parent.resolve_right fun hne => hne.1 hzero).2
          have hword := (hg.procs.word_ne_zero (.head _) hchild hq).2
          rw [hnull] at hword
          exact absurd rfl hword
        · obtain ⟨c, v, hcc, hv⟩ := hL.manager _ hc
          obtain ⟨v', hv', -⟩ := hg.managers c v hv
          exact ⟨c, v', hcontext.trans hcc, hv'⟩
      · exact ⟨c, v, hc, hv⟩
    · exact hok.manager x hx
  · rcases List.mem_cons.1 hx with rfl | hx
    · rw [hthread] at hxthread
      obtain ⟨-, hcontext⟩ := hg.context.resolve_right fun hnew => by
        rw [hxthread] at hnew
        cases hnew.1
      rcases hg.parent with ⟨-, hnull⟩ | ⟨hne, q', hq', hcreates, hparent'⟩
      · rw [hnull] at hparent
        exact absurd (Ptr.addr.inj hparent).symm (hg.procs.ne_zero hq)
      rw [hparent'] at hparent
      obtain rfl := Ptr.addr.inj hparent
      rw [hcontext, hsame.context _ hq']
      rcases hcreates with ⟨-, rfl⟩ | ⟨hcthread, hchild⟩
      · rfl
      · have hc := hcurrent.resolve_left hne
        exact hL.thread _ hc _ hq' hcthread (h.word_ne_zero hc hchild hq').1
    · have hxthread' := hxthread
      rw [hsame.isThread hx] at hxthread'
      obtain ⟨q', hq', hchild⟩ := h.thread_isChild hx hxthread'
      have hparent' := (h.word_ne_zero hx hchild hq').1
      rw [← hsame.parent x hx hxthread', hparent] at hparent'
      obtain rfl := Ptr.addr.inj hparent'
      exact hok.thread x hx q hq' hxthread hparent
  · rcases List.mem_cons.1 hx with rfl | hx <;> rcases List.mem_cons.1 hy with hyp | hy
    · exact hyp.symm
    · exact absurd heq (hfresh (hthread ▸ hxthread) y hy)
    · rw [hyp] at heq hythread
      exact absurd heq.symm (hfresh (hthread ▸ hythread) x hx)
    · exact hok.own x hx y hy hxthread hythread heq

/-! ## Killing and exiting -/

/-- A killed process is gone, with its child threads, and nobody else. -/
theorem kprocessKillProcess_survive {slot : Option Nat} {stale exitCode : Nat} (h : ProcsOk s L)
    (ho : OwnedOk s L) (hp : p ∈ L)
    (hrun : kprocessKillProcess slot stale p exitCode s = .ok (true, s')) :
    ∃ L', Survive (fun _ => True) s s' L L' ∧ p ∉ L' ∧ ∀ x ∈ L, x ∉ L' →
      x = p ∨ x ∈ (s.info p).childrenListHead ∧ (s.info x).isThread = true := by
  have hears : ∀ q, Hears (fun _ => True) s q := fun q => .inl fun _ => trivial
  rcases kprocessKillProcess_spec h ho hp hrun with ⟨hfalse, -⟩ | ⟨-, q, hthread | ⟨L', hprocess⟩⟩
  · cases hfalse
  · refine ⟨L.erase p, hthread.survive h ho hp fun _ _ => trivial, h.family.nodup.not_mem_erase,
      fun x hx hx' => .inl ?_⟩
    by_contra hne
    exact hx' ((List.mem_erase_of_ne hne).2 hx)
  · obtain ⟨hs, hp'⟩ := hprocess.survive h ho hp (hears p) (hears q)
    refine ⟨L', hs, hp', fun x hx hx' => ?_⟩
    obtain ⟨s₁, s₂, L₁, hgone, -, -, -, -, rfl⟩ := hprocess.steps
    by_cases hxp : x = p
    · exact .inl hxp
    · exact .inr (hgone.dead h ho hp (h.ne_root hp hprocess.child) hx fun hx₁ =>
        hx' ((List.mem_erase_of_ne hxp).2 hx₁))

/-- The part of `kprocess_exit` that kills the process. -/
def exitProcess (slot : Option Nat) (exitCode stale process : Nat) : K Switch := do
  if ← kprocessKillProcess slot stale process (exitCode % 256) then
    modify fun s => { s with currentProcess := 0 }
    kprocessYield none
  else return .returned (stale = 1)

/-- `kprocess_exit` is refused to the root, or a process dies and the kernel yields without a
current process. -/
theorem kprocessExit_spec {exitCode stale slot : Nat} {destroy : Bool} {r : Switch}
    (h : ProcsOk s L) (ho : OwnedOk s L) (hcurrent : CurrentLive s L)
    (hrun : kprocessExit exitCode destroy stale slot s = .ok (r, s')) :
    s.currentProcess ∈ L ∧
    ((r = .returned (stale = 1) ∧ s' = { s with errorNumber := .errProcExitNotAllowed }) ∨
      ∃ L' s₁, Survive (fun _ => True) s s₁ L L' ∧ s.currentProcess ∉ L' ∧
        kprocessYield none { s₁ with currentProcess := 0 } = .ok (r, s')) := by
  rw [kprocessExit, get_bind_apply] at hrun
  obtain ⟨hne, hrun⟩ := kAssert_bind_eq_ok.1 hrun
  have hc := hcurrent.resolve_left hne
  refine ⟨hc, ?_⟩
  obtain ⟨i, hi, hrun⟩ := getProc_bind_eq_ok.1 hrun
  obtain rfl := (info_eq hi).symm
  obtain ⟨p, hp, hdies, slot, hrun⟩ : ∃ p ∈ L, (p = s.currentProcess ∨
      (s.info s.currentProcess).isThread = true ∧ (s.info s.currentProcess).parent = .addr p) ∧
        ∃ slot, exitProcess slot exitCode stale p s = .ok (r, s') := by
    rcases ite_eq_ok.1 hrun with ⟨⟨-, -, hset⟩, hrun⟩ | ⟨-, hrun⟩
    · obtain ⟨q, hq, hchild⟩ := h.thread_isChild hc hset
      have hparent := (h.word_ne_zero hc hchild hq).1
      replace hrun := follow_bind_eq_ok.1 hrun
      rw [hparent] at hrun
      exact ⟨_, hq, .inr ⟨hset, hparent⟩, _, hrun⟩
    · exact ⟨_, hc, .inl rfl, _, hrun⟩
  obtain ⟨killed, s₁, hkill, hrun⟩ := bind_eq_ok.1 hrun
  cases killed with
  | false =>
    rcases kprocessKillProcess_spec h ho hp hkill with ⟨-, -, rfl⟩ | ⟨habsurd, -⟩
    · cases hrun
      exact .inl ⟨rfl, rfl⟩
    · cases habsurd
  | true =>
    obtain ⟨L', hs, hp', -⟩ := kprocessKillProcess_survive h ho hp hkill
    refine .inr ⟨L', s₁, hs, fun hc' => ?_, hrun⟩
    rcases hdies with rfl | ⟨hthread, hparent⟩
    · exact hp' hc'
    · -- a thread does not outlive its parent
      have hflags := (KProcessInfo.of_self (hs.self _ hc')).2.1
      obtain ⟨q, hq, hchild⟩ := hs.procs.thread_isChild hc' (by rwa [KProcessInfo.isThread, hflags])
      have hparent' := (hs.procs.word_ne_zero hc' hchild hq).1
      rw [hs.thread _ hc' hthread, hparent] at hparent'
      exact hp' (Ptr.addr.inj hparent' ▸ hq)

/-! ## Events that leave the processes alone -/

/-- Nothing changes for the live processes but their events. -/
structure Quiet (s s' : KState) (L : List Nat) : Prop where
  procs : ProcsOk s' L
  owned : OwnedOk s' L
  globals : s'.globals = { s.globals with tickCount := s'.tickCount }
  info : ∀ x ∈ L, s'.info x = { s.info x with eventsQueueHead := (s'.info x).eventsQueueHead }
  regs : ∀ x ∈ L, s'.objs (s.info x).registerStates = s.objs (s.info x).registerStates
  live : ∀ b, b ∉ L → s'.Live b → s.Live b
  managers : ∀ m, ManagerKept m s s'

namespace Quiet

/-- A run of the memory manager that releases nothing. -/
theorem of_vmStep (h : ProcsOk s L) (ho : OwnedOk s L) (hstep : VmStep (fun _ => False) s s') :
    Quiet s s' L where
  procs := h.of_vmStep hstep
  owned := ho.of_vmStep hstep
  globals := by
    have hglobals := hstep.globals
    rw [hglobals, show s'.tickCount = s.tickCount from congrArg Globals.tickCount hglobals]
    rfl
  info x _ := by rw [info_congr (congrFun hstep.records x)]
  regs x hx := by
    obtain ⟨r, hr⟩ := ho.regs x hx
    rw [hr]
    exact objs_of_records (congrFun hstep.records _) rfl hr
  live b _ hlive := by
    obtain ⟨i, hi, hvalid⟩ := hlive
    exact ⟨i, proc_of_records (congrFun hstep.records b).symm hi, hvalid⟩
  managers _ := .of_vmStep hstep id

/-- Another tick is counted. -/
theorem tick (h : ProcsOk s L) (ho : OwnedOk s L) (n : Nat) :
    Quiet s { s with tickCount := n } L where
  procs :=
    { h with ready := ⟨h.ready.phase, h.ready.heapOk.imp fun _ hs => ⟨hs.inv, hs.buffer, hs.objs⟩⟩ }
  owned := ho.of_records rfl
  globals := rfl
  info _ _ := rfl
  regs _ _ := rfl
  live _ _ := id
  managers _ := .refl

/-- Two steps. -/
theorem trans (h₁ : Quiet s s₁ L) (h₂ : Quiet s₁ s' L) : Quiet s s' L where
  procs := h₂.procs
  owned := h₂.owned
  globals := by rw [h₂.globals, h₁.globals]
  info x hx := by rw [h₂.info x hx, h₁.info x hx]
  regs x hx := by
    have hregs := h₂.regs x hx
    rw [h₁.info x hx] at hregs
    exact hregs.trans (h₁.regs x hx)
  live b hb hlive := h₁.live b hb (h₂.live b hb hlive)
  managers m := (h₁.managers m).trans (h₂.managers m)

/-- A step on the record of a live process, and on one of its events or a new one. -/
theorem of_recordsStep {e : Nat} (h : ProcsOk s L) (ho : OwnedOk s L) (hprocs : ProcsOk s' L)
    (howned : OwnedOk s' L) (hp : p ∈ L) (hstep : RecordsStep (fun b => b = p ∨ b = e) s s')
    (he : s.objs e = none ∨ ∃ ev, s.objs e = some (.event ev))
    (he' : ∀ i, s'.objs e ≠ some (.proc i))
    (hinfo : s'.info p = { s.info p with eventsQueueHead := (s'.info p).eventsQueueHead }) :
    Quiet s s' L where
  procs := hprocs
  owned := howned
  globals := by
    have hglobals := hstep.globals
    rw [hglobals, show s'.tickCount = s.tickCount from congrArg Globals.tickCount hglobals]
    rfl
  info x hx := by
    by_cases hxp : x = p
    · rw [hxp]
      exact hinfo
    · rw [info_congr (hstep.records x fun hor => hor.elim hxp fun heq => ?_)]
      have hx' := h.proc x hx
      rw [heq] at hx'
      rcases he with hnone | ⟨ev, hev⟩
      · rw [hnone] at hx'
        cases hx'
      · rw [hev] at hx'
        cases hx'
  regs x hx := by
    obtain ⟨r, hr⟩ := ho.regs x hx
    rw [hr]
    refine objs_of_records (hstep.records _ fun hor => ?_) rfl hr
    rcases hor with heq | heq
    · rw [heq, h.proc p hp] at hr
      cases hr
    · rw [heq] at hr
      rcases he with hnone | ⟨ev, hev⟩
      · rw [hnone] at hr
        cases hr
      · rw [hev] at hr
        cases hr
  live b hb hlive := by
    obtain ⟨i, hi, hvalid⟩ := hlive
    refine ⟨i, proc_of_records (hstep.records b fun hor => ?_).symm hi, hvalid⟩
    rcases hor with rfl | rfl
    · exact hb hp
    · exact he' i hi
  managers _ := .of_vms hstep.vms

/-- A new event. -/
theorem pushed {e : Nat} {ev : KProcessEvent} (h : ProcsOk s L) (ho : OwnedOk s L) (hp : p ∈ L)
    (hpush : Pushed s s' p e ev) : Quiet s s' L :=
  .of_recordsStep h ho (hpush.procsOk h) (ho.pushed h (fun _ hq => hq) hp hpush) hp hpush.step
    (.inl hpush.fresh) (fun i hi => by rw [hpush.event] at hi; cases hi) (by rw [hpush.info_self])

end Quiet

/-- What `kprocess_popEvent` does when there is an event: it takes the first one out of the queue of
the process. -/
structure Popped (s s' : KState) (p e : Nat) (rest : List Nat) : Prop where
  head : (s.info p).eventsQueueHead = e :: rest
  proc : s'.objs p = some (.proc { s.info p with eventsQueueHead := rest })
  event : ∀ i, s'.objs e ≠ some (.proc i)
  step : RecordsStep (fun b => b = p ∨ b = e) s s'

/-- `kprocess_popEvent` returns the first event of the process that has the PID, if there is one. -/
theorem kprocessPopEvent_spec (h : ProcsOk s L) {pid : Nat} {ev : KProcessEvent}
    (hrun : kprocessPopEvent pid s = .ok (ev, s')) :
    ∃ p, s.findProcess pid = some p ∧
      (((s.info p).eventsQueueHead = [] ∧ ev = ⟨.none, 0⟩ ∧ s' = s) ∨
        ∃ e rest, s.objs e = some (.event ev) ∧ Popped s s' p e rest) := by
  obtain ⟨p, hfind, hrun⟩ := lookup_bind_eq_ok h hrun
  refine ⟨p, hfind, ?_⟩
  have hp := h.queueSubset p (findProcess_mem hfind).1
  obtain ⟨i, hi, hrun⟩ := getProc_bind_eq_ok.1 hrun
  obtain rfl := (info_eq hi).symm
  cases hlist : (s.info p).eventsQueueHead with
  | nil =>
    rw [hlist] at hrun
    cases hrun
    exact .inl ⟨rfl, rfl, rfl⟩
  | cons e rest =>
    rw [hlist] at hrun
    obtain ⟨_, s₁, hmodify, hrun⟩ := bind_eq_ok.1 hrun
    obtain ⟨-, rfl, h₁⟩ := modifyProc_recordsStep h.ready hmodify
    obtain ⟨ev', hev, hrun⟩ := getEvent_bind_eq_ok.1 hrun
    obtain ⟨freed, s₂, hfree, hrun⟩ := bind_eq_ok.1 hrun
    cases hrun
    have hep : e ≠ p := fun heq => by
      rw [heq, objs_setObj_self] at hev
      cases hev
    have hev' := hev
    rw [objs_setObj_of_ne _ hep] at hev'
    have h₂ := kfree_recordsStep h₁.ready hev rfl hfree
    refine .inr ⟨e, rest, hev', hlist, ?_, fun i hi => ?_,
      (h₁.mono fun b hb => .inl hb).trans (h₂.mono fun b hb => .inr hb)⟩
    · exact proc_of_records (h₂.records p hep.symm) (objs_setObj_self _)
    · obtain ⟨-, ⟨-, hnone⟩ | ⟨-, hsame, -⟩⟩ :=
        kfree_recordStep h₁.ready (h₁.ready.lt (by rw [hev]; simp)) hfree
      · rw [hnone] at hi
        cases hi
      · rw [hsame, hev] at hi
        cases hi

/-- An event less. -/
theorem OwnedOk.popped {e : Nat} {ev : KProcessEvent} {rest : List Nat} (ho : OwnedOk s L)
    (hp : p ∈ L) (hproc : s.objs p = some (.proc (s.info p))) (hev : s.objs e = some (.event ev))
    (hpop : Popped s s' p e rest) (hinfo : ∀ x ∈ L, x ≠ p → s'.info x = s.info x) :
      OwnedOk s' L := by
  have hinfop : s'.info p = { s.info p with eventsQueueHead := rest } := info_eq hpop.proc
  have hnodup := ho.eventsNodup p hp
  rw [hpop.head] at hnodup
  have hrest : e ∉ rest := (List.nodup_cons.1 hnodup).1
  have hregs : ∀ x ∈ L, (s'.info x).registerStates = (s.info x).registerStates := fun x hx => by
    by_cases hxp : x = p
    · rw [hxp, hinfop]
    · rw [hinfo x hx hxp]
  have hevents : ∀ x ∈ L, ∀ b ∈ (s'.info x).eventsQueueHead,
      b ∈ (s.info x).eventsQueueHead ∧ b ≠ e := by
    intro x hx b hb
    by_cases hxp : x = p
    · rw [hxp, hinfop] at hb
      rw [hxp, hpop.head]
      exact ⟨.tail _ hb, fun heq => hrest (heq ▸ hb)⟩
    · rw [hinfo x hx hxp] at hb
      refine ⟨hb, fun heq => hxp (ho.eventsInj x hx p hp b hb ?_)⟩
      rw [hpop.head, heq]
      exact .head _
  have hkeep : ∀ b o, s.objs b = some o → o.isVm = false → (∀ i, o ≠ .proc i) → b ≠ e →
      s'.objs b = some o := by
    intro b o hb hvm hnotProc hbe
    refine objs_of_records (hpop.step.records b fun hor => ?_) hvm hb
    rcases hor with rfl | rfl
    · exact hnotProc _ (Option.some.inj (hb.symm.trans hproc))
    · exact hbe rfl
  refine
    { regs := fun x hx => ?_
      regsInj := fun x hx y hy heq => ho.regsInj x hx y hy (by rwa [hregs x hx, hregs y hy] at heq)
      events := fun x hx b hb => ?_
      eventsNodup := fun x hx => ?_
      eventsInj := fun x hx y hy b hbx hby =>
        ho.eventsInj x hx y hy b (hevents x hx b hbx).1 (hevents y hy b hby).1 }
  · obtain ⟨r, hr⟩ := ho.regs x hx
    rw [hregs x hx]
    refine ⟨r, hkeep _ _ hr rfl (fun i => by simp) fun heq => ?_⟩
    rw [heq, hev] at hr
    cases hr
  · obtain ⟨hb', hbe⟩ := hevents x hx b hb
    obtain ⟨ev', hev'⟩ := ho.events x hx b hb'
    exact ⟨ev', hkeep _ _ hev' rfl (fun i => by simp) hbe⟩
  · by_cases hxp : x = p
    · rw [hxp, hinfop]
      exact (List.nodup_cons.1 hnodup).2
    · rw [hinfo x hx hxp]
      exact ho.eventsNodup x hx

/-- An event is popped. -/
theorem Quiet.popped {e : Nat} {ev : KProcessEvent} {rest : List Nat} (h : ProcsOk s L)
    (ho : OwnedOk s L) (hp : p ∈ L) (hev : s.objs e = some (.event ev))
    (hpop : Popped s s' p e rest) :
    Quiet s s' L := by
  have hinfop : s'.info p = { s.info p with eventsQueueHead := rest } := info_eq hpop.proc
  have hne : ∀ x ∈ L, x ≠ e := by
    rintro x hx rfl
    rw [h.proc x hx] at hev
    cases hev
  have hrecords : ∀ x ∈ L, x ≠ p → s'.records x = s.records x := fun x hx hxp =>
    hpop.step.records x fun hor => hor.elim hxp (hne x hx)
  refine .of_recordsStep h ho (h.of_place hpop.step.ready hpop.step.globals fun x hx => ?_)
    (ho.popped hp (h.proc p hp) hev hpop fun x hx hxp => info_congr (hrecords x hx hxp)) hp
      hpop.step
    (.inr ⟨ev, hev⟩) hpop.event (by rw [hinfop])
  by_cases hxp : x = p
  · rw [hxp]
    exact ⟨_, hpop.proc, rfl⟩
  · exact ⟨_, proc_of_records (hrecords x hx hxp) (h.proc x hx), rfl⟩

/-- `kprocess_getCurrentPID` changes nothing. -/
theorem kprocessGetCurrentPID_state {pid : Nat} (hrun : kprocessGetCurrentPID s = .ok (pid, s')) :
    s' = s := by
  rw [kprocessGetCurrentPID, get_bind_apply] at hrun
  rcases ite_eq_ok.1 hrun with ⟨-, hrun⟩ | ⟨-, hrun⟩
  · cases hrun
    rfl
  · obtain ⟨i, -, hrun⟩ := getProc_bind_eq_ok.1 hrun
    cases hrun
    rfl

/-- The timer interrupt at most pushes an event. -/
theorem timerInterruptHandler_quiet (h : ProcsOk s L) (ho : OwnedOk s L)
    (hrun : timerInterruptHandler s = .ok ((), s')) : Quiet s s' L := by
  rw [timerInterruptHandler, modify_bind_apply, keventmanagerInvoke, get_bind_apply] at hrun
  have h₁ := Quiet.tick h ho (u32 (s.tickCount + 1))
  rcases ite_eq_ok.1 hrun with ⟨-, hrun⟩ | ⟨-, hrun⟩
  · obtain ⟨pid, s₁, hpid, hrun⟩ := bind_eq_ok.1 hrun
    obtain rfl := kprocessGetCurrentPID_state hpid
    rcases ite_eq_ok.1 hrun with ⟨-, hrun⟩ | ⟨-, hrun⟩
    · obtain ⟨ok, s₂, hpush, hrun⟩ := bind_eq_ok.1 hrun
      cases hrun
      obtain ⟨p, hfind, ⟨-, e, rfl⟩ | ⟨-, e, hpushed⟩⟩ := kprocessPushEvent_spec h₁.procs hpush
      · exact h₁.trans (.of_vmStep h₁.procs h₁.owned (.error h₁.procs.ready e))
      · exact h₁.trans (.pushed h₁.procs h₁.owned
          (h₁.procs.queueSubset p (findProcess_mem hfind).1) hpushed)
    · cases hrun
      exact h₁
  · cases hrun
    exact h₁

/-! ## The invariant -/

/-- The processes in `L`, and no others, are live and in order. The current process is one of them,
and the only one that is running. -/
structure LiveInv (s : KState) (L : List Nat) : Prop where
  procs : ProcsOk s L
  owned : OwnedOk s L
  current : CurrentLive s L
  contexts : ContextsOk s L
  heap : ∀ p ∈ L, ¬ IsStatic p
  live : ∀ p, s.Live p ↔ p ∈ L
  running : ∀ p ∈ L, (s.info p).state = .running ↔ p = s.currentProcess

/-- The processes in `L` are live when nobody else is and their states are set. -/
theorem ProcsOk.live_iff (h : ProcsOk s L) (hvalid : ∀ x ∈ L, (s.info x).state ≠ .invalid)
    (hdead : ∀ x, x ∉ L → ¬ s.Live x) : s.Live p ↔ p ∈ L :=
  ⟨fun hlive => by_contra fun hp => hdead p hp hlive, fun hp => ⟨_, h.proc p hp, hvalid p hp⟩⟩

/-- A live process is in a valid state. -/
theorem LiveInv.valid (h : LiveInv s L) (hp : p ∈ L) : (s.info p).state ≠ .invalid := by
  obtain ⟨i, hi, hvalid⟩ := (h.live p).2 hp
  rwa [info_eq hi]

/-- A booted kernel is one whose heap is ready, in the last phase. -/
theorem booted_kernelReady (h : Booted s) :
    ∃ s₂ v rs, KernelReady s₂ v rs ∧ s = { s₂ with phase := .kernelReady } := by
  obtain ⟨info, mem, freshDirty, hrun⟩ := h
  obtain ⟨_, s₁, hmain, hrun⟩ := bind_eq_ok.1 hrun
  obtain ⟨_, s₂, hinit, hrun⟩ := bind_eq_ok.1 hrun
  obtain ⟨-, -, v, rs, h₂⟩ := kernelMainHeap_spec hmain hinit
  exact ⟨s₂, v, rs, h₂, (kernelPhaseSet_eq_ok.1 hrun).2⟩

/-- There is no process at the start. -/
theorem booted_noProcess (h : Booted s) : NoProcess s := by
  obtain ⟨s₂, v, rs, h₂, rfl⟩ := booted_kernelReady h
  obtain ⟨hcount, hcurrent, hroot, hqueue, hfreed⟩ := h₂.noProcess
  exact ⟨hcount, hcurrent, hroot, hqueue, hfreed⟩

/-- Before the first process is created there is none. -/
theorem booted_live (h : Booted s) : LiveInv s [] := by
  obtain ⟨s₂, v, rs, h₂, rfl⟩ := booted_kernelReady h
  refine
    { procs :=
        { ready := ⟨rfl, _, h₂.heapOk.inv, h₂.heapOk.buffer, h₂.heapOk.objs⟩
          phase := rfl
          proc := fun p hp => by cases hp
          parentAddr := fun p hp => by cases hp
          family := .nil
          queueNodup := ?_
          queueSubset := fun p hp => ?_
          queued := fun p hp => by cases hp
          rootProcess := .inl h₂.noProcess.rootProcess
          count := Nat.zero_le _
          countMax := ?_ }
      owned := ?_
      current := .inl h₂.noProcess.currentProcess
      contexts := ?_
      heap := fun p hp => by cases hp
      live := fun p => iff_of_false (fun hlive => ?_) List.not_mem_nil
      running := fun p hp => by cases hp }
  · show s₂.schedulerQueue.Nodup
    rw [h₂.noProcess.schedulerQueue]
    exact .nil
  · have hp' : p ∈ s₂.schedulerQueue := hp
    rw [h₂.noProcess.schedulerQueue] at hp'
    cases hp'
  · show s₂.processCount ≤ maxProcessCount
    rw [h₂.noProcess.processCount]
    exact Nat.zero_le _
  · constructor <;> intro p hp <;> cases hp
  · constructor <;> intro p hp <;> cases hp
  · -- the only records are those of virtual memory
    obtain ⟨i, hi, -⟩ := hlive
    have hi₂ : s₂.objs p = some (.proc i) := hi
    rcases h₂.owned p (by rw [hi₂]; simp) with hp | hp
    · rw [hp, h₂.vmmOk.vmm] at hi₂
      cases hi₂
    · obtain ⟨n, hn, rfl⟩ := List.mem_iff_getElem.1 hp
      have hvas := (List.forall₂_iff_get.1 h₂.vmmOk.vas).2 n hn
        ((List.forall₂_iff_get.1 h₂.vmmOk.vas).1 ▸ hn)
      rw [List.get_eq_getElem, hi₂] at hvas
      cases hvas

namespace LiveInv

/-- A step after which the same processes, or fewer, are live, in the states that they had. -/
theorem kept (h : LiveInv s L) (hprocs : ProcsOk s' L') (howned : OwnedOk s' L')
    (hsame : SameContexts s s' L') (hsub : ∀ x ∈ L', x ∈ L)
    (hcur : s'.currentProcess = s.currentProcess) (hcurrent : CurrentLive s' L')
    (hstate : ∀ x ∈ L', (s'.info x).state = (s.info x).state) (hdead : ∀ x, x ∉ L' → ¬ s'.Live x) :
    LiveInv s' L' where
  procs := hprocs
  owned := howned
  current := hcurrent
  contexts := hsame.contextsOk h.contexts hsub
  heap x hx := h.heap x (hsub x hx)
  live _ := hprocs.live_iff (fun x hx => by rw [hstate x hx]; exact h.valid (hsub x hx)) hdead
  running x hx := by
    rw [hstate x hx, hcur]
    exact h.running x (hsub x hx)

/-- A quiet step keeps the live processes. -/
theorem quiet (h : LiveInv s L) (hq : Quiet s s' L) : LiveInv s' L ∧ SameContexts s s' L := by
  have hsame : SameContexts s s' L := .of_info (fun x hx => by
    rw [hq.info x hx]
    exact ⟨rfl, rfl, rfl⟩) hq.managers
  have hcur : s'.currentProcess = s.currentProcess := congrArg Globals.currentProcess hq.globals
  refine ⟨h.kept hq.procs hq.owned hsame (fun _ hx => hx) hcur ?_ (fun x hx => by rw [hq.info x hx])
    fun x hx hlive => hx ((h.live x).1 (hq.live x hx hlive)), hsame⟩
  rw [CurrentLive, hcur]
  exact h.current

/-- An event that makes no process that is live. -/
theorem outside (h : LiveInv s L) (hout : Outside s s') (hle : s.processCount ≤ s'.processCount)
    (hmax : s'.processCount ≤ maxProcessCount) : LiveInv s' L ∧ SameContexts s s' L := by
  have hsame : SameContexts s s' L := .of_info (fun x hx => by
    rw [(hout.info (h.procs.proc x hx)).2]
    exact ⟨rfl, rfl, rfl⟩) hout.managers
  have hcur : s'.currentProcess = s.currentProcess := congrArg Globals.currentProcess hout.globals
  refine ⟨h.kept (hout.procsOk h.procs hle hmax) (hout.ownedOk h.procs h.owned) hsame
    (fun _ hx => hx)
    hcur ?_ (fun x hx => by rw [(hout.info (h.procs.proc x hx)).2]) (fun x hx hlive => ?_), hsame⟩
  · rw [CurrentLive, hcur]
    exact h.current
  · obtain ⟨i, hi, hvalid⟩ := hlive
    rcases hout.invalid x i hi with hi | hinvalid
    · exact hx ((h.live x).1 ⟨i, hi, hvalid⟩)
    · exact hvalid hinvalid

/-- A new process is one more. -/
theorem grown {flags : Nat} (h : LiveInv s L) (hg : Grown s s' L p flags) :
    LiveInv s' (p :: L) := by
  have hcur : s'.currentProcess = s.currentProcess := congrArg Globals.currentProcess hg.globals
  have hpc : p ≠ s.currentProcess := fun heq => by
    rcases h.current with hzero | hc
    · exact hg.procs.ne_zero (.head _) (heq.trans hzero)
    · exact hg.notMem (heq ▸ hc)
  refine
    { procs := hg.procs
      owned := hg.owned
      current := ?_
      contexts := hg.contextsOk h.procs h.current h.contexts
      heap := fun x hx => ?_
      live := fun _ => hg.procs.live_iff (fun x hx => ?_) fun x hx hlive => ?_
      running := fun x hx => ?_ }
  · rw [CurrentLive, hcur]
    exact h.current.imp_right (.tail _)
  · rcases List.mem_cons.1 hx with rfl | hx
    · exact hg.heap
    · exact h.heap x hx
  · rcases List.mem_cons.1 hx with rfl | hx
    · rw [hg.state]
      exact fun habsurd => by cases habsurd
    · rw [hg.info x hx]
      exact h.valid hx
  · exact hx (.tail _ ((h.live x).1 (hg.live x hx hlive)))
  · rw [hcur]
    rcases List.mem_cons.1 hx with rfl | hx
    · rw [hg.state]
      exact iff_of_false (fun habsurd => by cases habsurd) hpc
    · rw [hg.info x hx]
      exact h.running x hx

/-- A state in which only the scheduler queue, and the node of one process in it, is another one. -/
theorem requeued (h : LiveInv s L) (hp : p ∈ L) (hprocs : ProcsOk s' L) {node : NodeState Unit}
    (hobjs : s'.objs = (s.setObj p (.proc { s.info p with schedulerQueueNode := node })).objs)
    (hcur : s'.currentProcess = s.currentProcess) : LiveInv s' L ∧ SameContexts s s' L := by
  have hstep : RecordsStep (· = p) s
    (s.setObj p (.proc { s.info p with schedulerQueueNode := node })) :=
    .setObj h.procs.ready (h.procs.proc p hp) rfl rfl
  have hinfo : ∀ x, s'.info x = { s.info x with
      schedulerQueueNode := if x = p then node else (s.info x).schedulerQueueNode } := fun x => by
    rw [KState.info, hobjs]
    show KState.info _ x = _
    rw [info_setObj]
    split_ifs with hxp
    · rw [hxp]
    · rfl
  have hother : ∀ b, (∀ i, s.objs b ≠ some (.proc i)) → s'.objs b = s.objs b := fun b hb => by
    rw [hobjs]
    refine objs_setObj_of_ne _ fun heq => hb (s.info p) ?_
    rw [heq]
    exact h.procs.proc p hp
  have hsame : SameContexts s s' L := by
    refine .of_info (fun x _ => by rw [hinfo x]; exact ⟨rfl, rfl, rfl⟩) fun m v hv => ⟨v, ?_, rfl⟩
    rw [hother m fun i hi => by rw [hv] at hi; cases hi]
    exact hv
  refine ⟨h.kept hprocs ?_ hsame (fun _ hx => hx) hcur ?_ (fun x _ => by rw [hinfo x])
    (fun x hx hlive => ?_), hsame⟩
  · refine h.owned.of_info (fun x _ => by rw [hinfo x]; exact ⟨rfl, rfl⟩) (fun x hx => ?_)
      fun x hx e he => ?_
    · obtain ⟨r, hr⟩ := h.owned.regs x hx
      exact ⟨r, by rw [hother _ fun i hi => by rw [hr] at hi; cases hi]; exact hr⟩
    · obtain ⟨ev, hev⟩ := h.owned.events x hx e he
      exact ⟨ev, by rw [hother _ fun i hi => by rw [hev] at hi; cases hi]; exact hev⟩
  · rw [CurrentLive, hcur]
    exact h.current
  · obtain ⟨i, hi, hvalid⟩ := hlive
    have hxp : x ≠ p := fun heq => hx (heq ▸ hp)
    rw [hobjs, objs_setObj_of_ne _ hxp] at hi
    exact hx ((h.live x).1 ⟨i, hi, hvalid⟩)

/-- It enters the scheduler queue. -/
theorem enqueued (h : LiveInv s L) (hp : p ∈ L) (hqueue : p ∉ s.schedulerQueue) :
    LiveInv (MeghaOS.enqueued s p) L ∧ SameContexts s (MeghaOS.enqueued s p) L :=
  h.requeued hp (h.procs.enqueued hp hqueue) rfl rfl

/-- A process that is lost from the head of the queue is live all the same. -/
theorem lostHead {rest : List Nat} (h : LiveInv s L) (hqueue : s.schedulerQueue = p :: rest)
    (e : KernelErrorCodes) : LiveInv { unqueued s p rest with errorNumber := e } L ∧
      SameContexts s { unqueued s p rest with errorNumber := e } L :=
  h.requeued (h.procs.queueSubset p (hqueue ▸ .head _)) (h.procs.lostHead hqueue e) rfl rfl

/-- Nobody but the survivors is live. -/
theorem dead (h : LiveInv s L) (hs : Survive R s s' L L') (hp : p ∉ L') : ¬ s'.Live p := by
  rintro ⟨i, hi, hvalid⟩
  obtain ⟨hpL, hi⟩ := hs.dead h.heap p i hp hi
  exact hpL ((h.live p).1 ⟨i, hi, hvalid⟩)

/-- Processes die, and the current process is not among them, or there is none any more. -/
theorem survive (h : LiveInv s L) (hs : Survive R s s' L L')
    (hcur : s.currentProcess = 0 ∨ s.currentProcess ∈ L') : LiveInv s' L' := by
  have hcur' : s'.currentProcess = s.currentProcess := congrArg Globals.currentProcess hs.globals
  refine h.kept hs.procs hs.owned (hs.sameContexts h.contexts) (fun _ => hs.mem) hcur' ?_
    (fun x hx => (KProcessInfo.of_self (hs.self x hx)).2.2.2.1) fun _ => h.dead hs
  rw [CurrentLive, hcur']
  exact hcur

/-- Processes die, and there is no current process any more. -/
theorem exited (h : LiveInv s L) (hs : Survive R s s' L L') (hgone : s.currentProcess ∉ L') :
    LiveInv { s' with currentProcess := 0 } L' where
  procs := hs.procs.dispatch hs.procs.rootProcess
  owned := hs.owned.of_records rfl
  current := .inl rfl
  contexts :=
    have hok := (hs.sameContexts h.contexts).contextsOk h.contexts fun _ => hs.mem
    ⟨hok.manager, hok.thread, hok.own⟩
  heap x hx := h.heap x (hs.mem hx)
  live _ := hs.procs.live_iff (fun x hx => by
    rw [(KProcessInfo.of_self (hs.self x hx)).2.2.2.1]
    exact h.valid (hs.mem hx)) fun _ => h.dead hs
  running x hx := by
    show (s'.info x).state = .running ↔ x = 0
    rw [(KProcessInfo.of_self (hs.self x hx)).2.2.2.1, h.running x (hs.mem hx)]
    exact iff_of_false (fun heq => hgone (heq ▸ hx)) (hs.procs.ne_zero hx)

/-- The kernel jumps to another process. -/
theorem switched {state : Option ProcessRegisterState} {q cr3 : Nat} {regs : ProcessRegisterState}
    (h : LiveInv s L) (hs : Switched s s' L state q cr3 regs) :
    LiveInv s' L ∧ SameContexts s s' L := by
  have hsame : SameContexts s s' L := .of_info (fun x hx => by
    rw [hs.info x hx]
    exact ⟨rfl, rfl, rfl⟩) fun _ => .of_vms hs.vms
  have hcur : s'.currentProcess = q := congrArg Globals.currentProcess hs.globals
  refine ⟨
    { procs := hs.procs
      owned := hs.owned
      current := .inr (hcur ▸ hs.mem)
      contexts := hsame.contextsOk h.contexts fun _ hx => hx
      heap := h.heap
      live := fun _ => hs.procs.live_iff (fun x hx => ?_) fun x hx hlive => ?_
      running := fun x hx => ?_ }, hsame⟩
  · have hvalid := h.valid hx
    rw [hs.info x hx]
    dsimp only
    split_ifs
    · exact fun habsurd => by cases habsurd
    · exact fun habsurd => by cases habsurd
    · exact hvalid
  · obtain ⟨i, hi, hvalid⟩ := hlive
    refine hx ((h.live x).1 ⟨i, proc_of_records (hs.records x hx fun y hy heq => ?_).symm hi,
      hvalid⟩)
    -- there are registers at this address
    obtain ⟨r, hr⟩ := hs.owned.regs y hy
    rw [hs.info y hy] at hr
    rw [heq] at hi
    rw [show s'.objs (s.info y).registerStates = some (.regs r) from hr] at hi
    cases hi
  · have hrunning := h.running x hx
    rw [hs.info x hx, hcur]
    dsimp only
    split_ifs with hxq hxc
    · exact iff_of_true rfl hxq
    · exact iff_of_false (fun habsurd => by cases habsurd) hxq
    · exact iff_of_false (fun hrun => hxc (hrunning.1 hrun)) hxq

/-- The scheduler queue is in another order. -/
theorem requeue {queue : List Nat} (h : LiveInv s L) (hperm : queue.Perm s.schedulerQueue) :
    LiveInv { s with schedulerQueue := queue } L where
  procs := h.procs.requeue hperm
  owned := h.owned.of_records rfl
  current := h.current
  contexts := ⟨h.contexts.manager, h.contexts.thread, h.contexts.own⟩
  heap := h.heap
  live := h.live
  running := h.running

end LiveInv

end MeghaOS
