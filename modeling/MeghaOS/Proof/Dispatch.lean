import MeghaOS.Proof.HeapRun
import MeghaOS.Proof.LiveStep

/-!
# Dispatching

A ledger has a line for each process: the registers that the process saved at its own last yield, or
its first ones, and the page directory of the context it was created with. Whenever the kernel jumps
to a process, in any run of the kernel in which no half made process is killed, it loads what is in
the line of that process. The kill of a half made process follows the pointers that a released
record left in its memory, and may delete the context of another process
(`half_made_process_breaks_dispatch`).
-/

namespace MeghaOS

open Exec KState

variable {s s' s₁ : KState} {L L' : List Nat} {p q : Nat}

/-! ## The ledger -/

/-- The lines of the processes, by the addresses of their records. -/
structure Ledger where
  registers : Nat → ProcessRegisterState
  cr3 : Nat → Option Nat

/-- The ledger after an event of the kernel. A process that is created gets a new line, and one that
yields writes the registers that it saves to its own line. -/
def Ledger.after (g : Ledger) (s s' : KState) : KernelEvent → Ledger
  | .create _ _ _ _ =>
    { registers := fun p =>
        if p ∈ s.schedulerQueue then g.registers p else initialRegisters (s'.info p)
      cr3 := fun p => if p ∈ s.schedulerQueue then g.cr3 p else s'.contextCr3 p }
  | .yield (some regs) =>
    { g with registers := fun p => if p = s.currentProcess then regs else g.registers p }
  | _ => g

/-- The runs of the kernel from the end of `kernel_main`, when every event meets the condition `ok`,
with the ledger. -/
inductive DispatchRun (ok : KState → KernelEvent → Prop) : KState → Ledger → Prop
  | booted {s : KState} (g : Ledger) : Booted s → DispatchRun ok s g
  | event {s s' : KState} {g : Ledger} {e : KernelEvent} : DispatchRun ok s g → ok s e →
      kernelEvent e s = .ok ((), s') → DispatchRun ok s' (g.after s s' e)

/-- What `jump_to_process` gets, when the kernel is in the state `s`, is what is in the line of the
process that is current then; and the page directory is still that of its context. -/
structure Ledger.Resumes (g : Ledger) (s : KState) (cr3 : Nat) (regs : ProcessRegisterState) :
    Prop where
  saved : regs = g.registers s.currentProcess
  created : g.cr3 s.currentProcess = some cr3
  context : s.contextCr3 s.currentProcess = some cr3

section

variable {g : Ledger} {state : Option ProcessRegisterState}

/-- A yield writes the line of the current process only. -/
theorem after_yield_registers {x : Nat} (hx : x ≠ s.currentProcess) :
    (g.after s s' (.yield state)).registers x = g.registers x := by
  cases state with
  | none => rfl
  | some regs => exact if_neg hx

/-- A yield writes no page directory to the ledger. -/
theorem after_yield_cr3 : (g.after s s' (.yield state)).cr3 = g.cr3 := by cases state <;> rfl

end

/-! ## The invariant -/

/-- The lines of the processes in the scheduler queue are right; that of the current process is
written when it yields. -/
structure LedgerOk (s : KState) (g : Ledger) : Prop where
  registers : ∀ p ∈ s.schedulerQueue, p ≠ s.currentProcess →
    s.objs (s.info p).registerStates = some (.regs (g.registers p))
  cr3 : ∀ p ∈ s.schedulerQueue, s.contextCr3 p = g.cr3 p

/-- A change of the record of a process leaves the saved registers as they are. -/
theorem saved_setObj {i : KProcessInfo} {x : Nat} (hlive : LiveInv s L) (hp : p ∈ L)
    (hobjs : s'.objs = (s.setObj p (.proc i)).objs)
    (hi : i.registerStates = (s.info p).registerStates) (hx : x ∈ L) :
    s'.objs (s'.info x).registerStates = s.objs (s.info x).registerStates := by
  have hinfo : (s'.info x).registerStates = (s.info x).registerStates := by
    rw [info_congr_objs (congrFun hobjs x), info_setObj]
    split_ifs with hxp
    · rw [hxp, hi]
    · rfl
  obtain ⟨regs, hregs⟩ := hlive.owned.regs x hx
  rw [hinfo, hobjs]
  -- the record of a process is not that of registers
  refine objs_setObj_of_ne _ fun heq => ?_
  rw [heq, hlive.procs.proc p hp] at hregs
  cases hregs

namespace LedgerOk

variable {g g' : Ledger}

/-- Steps that keep the saved registers and the contexts of the processes that are in the queue
after them. -/
theorem kept (h : LedgerOk s g) (hL : ContextsOk s L) (hsame : SameContexts s s' L')
    (hsub : ∀ x ∈ L', x ∈ L) (hqueue : ∀ x ∈ s'.schedulerQueue, x ∈ s.schedulerQueue ∧ x ∈ L')
    (hcur : s'.currentProcess = s.currentProcess)
    (hregs : ∀ x ∈ L', s'.objs (s'.info x).registerStates = s.objs (s.info x).registerStates) :
    LedgerOk s' g where
  registers x hx hxc := by
    obtain ⟨hxq, hxL⟩ := hqueue x hx
    rw [hcur] at hxc
    rw [hregs x hxL]
    exact h.registers x hxq hxc
  cr3 x hx := by
    obtain ⟨hxq, hxL⟩ := hqueue x hx
    rw [hsame.contextCr3 hL hsub hxL]
    exact h.cr3 x hxq

/-- A step that changes neither the queue nor the saved registers. -/
theorem same (h : LedgerOk s g) (hlive : LiveInv s L) (hsame : SameContexts s s' L)
    (hqueue : s'.schedulerQueue = s.schedulerQueue) (hcur : s'.currentProcess = s.currentProcess)
    (hregs : ∀ x ∈ L, s'.objs (s'.info x).registerStates = s.objs (s.info x).registerStates) :
    LedgerOk s' g :=
  h.kept hlive.contexts hsame (fun _ hx => hx)
    (fun x hx => by
      rw [hqueue] at hx
      exact ⟨hx, hlive.procs.queueSubset x hx⟩)
    hcur hregs

/-- The survivors keep their lines. -/
theorem survive {R : Nat → Prop} (h : LedgerOk s g) (hlive : LiveInv s L)
    (hs : Survive R s s' L L') :
    LedgerOk s' g := by
  refine h.kept hlive.contexts (hs.sameContexts hlive.contexts) (fun _ => hs.mem) (fun x hx => ?_)
    (congrArg Globals.currentProcess hs.globals) fun x hx => ?_
  · rw [hs.queue, List.mem_filter] at hx
    exact ⟨hx.1, by simpa using hx.2⟩
  · rw [(KProcessInfo.of_self (hs.self x hx)).2.2.2.2.1]
    exact hs.regs x hx

/-- Only the lines of the processes in the queue matter, and the current process may rewrite its
registers. -/
theorem congr (h : LedgerOk s g)
    (hg : ∀ x ∈ s.schedulerQueue, x ≠ s.currentProcess → g'.registers x = g.registers x)
    (hcr3 : ∀ x ∈ s.schedulerQueue, g'.cr3 x = g.cr3 x) : LedgerOk s g' where
  registers x hx hxc := by
    rw [hg x hx hxc]
    exact h.registers x hx hxc
  cr3 x hx := by
    rw [hcr3 x hx]
    exact h.cr3 x hx

/-- The order of the queue does not matter. -/
theorem requeue {q : List Nat} (h : LedgerOk s g) (hperm : q.Perm s.schedulerQueue) :
    LedgerOk { s with schedulerQueue := q } g :=
  ⟨fun x hx => h.registers x (hperm.mem_iff.1 hx), fun x hx => h.cr3 x (hperm.mem_iff.1 hx)⟩

/-- The queue loses its head. -/
theorem lostHead {rest : List Nat} (h : LedgerOk s g) (hlive : LiveInv s L)
    (hqueue : s.schedulerQueue = p :: rest) (e : KernelErrorCodes) :
    LedgerOk { unqueued s p rest with errorNumber := e } g := by
  have hp : p ∈ L := hlive.procs.queueSubset p (hqueue ▸ .head _)
  refine h.kept hlive.contexts (hlive.lostHead hqueue e).2 (fun _ hx => hx) (fun x hx => ?_) rfl
    fun _ => saved_setObj hlive hp rfl rfl
  have hmem : x ∈ s.schedulerQueue := hqueue ▸ .tail _ hx
  exact ⟨hmem, hlive.procs.queueSubset x hmem⟩

section Switched

variable {state : Option ProcessRegisterState} {q cr3 : Nat} {regs : ProcessRegisterState}

/-- A switch writes the registers that the current process saves to its line and its record. -/
theorem switched (h : LedgerOk s g) (hlive : LiveInv s L) (hs : Switched s s' L state q cr3 regs) :
    LedgerOk s' (g.after s s' (.yield state)) := by
  have hqueue : s'.schedulerQueue = s.schedulerQueue :=
    congrArg Globals.schedulerQueue hs.globals
  refine ⟨fun x hx _ => ?_, fun x hx => ?_⟩
  · rw [hqueue] at hx
    have hxL : x ∈ L := hlive.procs.queueSubset x hx
    obtain ⟨regs', hregs⟩ := hs.owned.regs x hxL
    have hsaved := hs.saved x hxL
    rw [hs.info x hxL] at hregs ⊢
    by_cases hxc : x = s.currentProcess
    · rw [if_pos hxc] at hsaved
      cases state with
      | none =>
        rw [show (none : Option ProcessRegisterState).map Obj.regs = none from rfl] at hsaved
        rw [hsaved] at hregs
        cases hregs
      | some saved =>
        have hline : (g.after s s' (.yield (some saved))).registers x = saved := if_pos hxc
        rw [hline]
        exact hsaved
    · rw [if_neg hxc] at hsaved
      rw [after_yield_registers hxc]
      exact hsaved.trans (h.registers x hx hxc)
  · rw [hqueue] at hx
    have hxL : x ∈ L := hlive.procs.queueSubset x hx
    rw [after_yield_cr3, (hlive.switched hs).2.contextCr3 hlive.contexts (fun _ hx => hx) hxL]
    exact h.cr3 x hx

/-- A switch loads what is in the line of the next process. -/
theorem resumes (h : LedgerOk s g) (hlive : LiveInv s L) (hs : Switched s s' L state q cr3 regs)
    (hq : q ∈ s.schedulerQueue) : g.Resumes s' cr3 regs := by
  have hcurrent : s'.currentProcess = q := congrArg Globals.currentProcess hs.globals
  have hqc : q ≠ s.currentProcess := by
    rintro rfl
    exact hs.other (hlive.procs.ne_zero hs.mem) rfl
  have hline := h.registers q hq hqc
  have hcontext : s.contextCr3 q = some cr3 := by
    obtain ⟨v, hv, rfl⟩ := hs.context
    exact contextCr3_eq hv
  refine ⟨?_, ?_, ?_⟩ <;> rw [hcurrent]
  · rw [hs.regs] at hline
    exact Obj.regs.inj (Option.some.inj hline)
  · rw [← h.cr3 q hq]
    exact hcontext
  · rw [(hlive.switched hs).2.contextCr3 hlive.contexts (fun _ hx => hx) hs.mem]
    exact hcontext

end Switched

end LedgerOk

/-- `kprocess_yield` keeps the lines right, and jumps to a process with what is in its line. -/
theorem kprocessYield_resumes {g : Ledger} {state : Option ProcessRegisterState} {r : Switch}
    (hlive : LiveInv s L) (hg : LedgerOk s g) (hrun : kprocessYield state s = .ok (r, s')) :
    LiveInv s' L ∧ LedgerOk s' (g.after s s' (.yield state)) ∧
      ∀ flags cr3 regs, r = .jumped flags cr3 regs → g.Resumes s' cr3 regs := by
  have hwritten : LedgerOk s (g.after s s' (.yield state)) :=
    hg.congr (fun _ _ => after_yield_registers) fun x _ => congrFun after_yield_cr3 x
  rcases kprocessYield_spec hlive.procs hlive.owned hlive.current hrun with
    ⟨-, rfl, p, rest, hqueue, rfl⟩ | ⟨pre, q, post, hy⟩
  · -- there is no room in the queue, which loses its head
    exact ⟨(hlive.lostHead hqueue _).1, hwritten.lostHead hlive hqueue _,
      fun _ _ _ habsurd => by cases habsurd⟩
  have hlive₁ := hlive.requeue hy.perm
  rcases hy.switch with ⟨rfl, rfl, -, -⟩ | ⟨flags, cr3, regs, rfl, hs⟩
  · -- the process that is next is the current one
    exact ⟨hlive₁, hwritten.requeue hy.perm, fun _ _ _ habsurd => by cases habsurd⟩
  · have hg₁ := hg.requeue hy.perm
    have hafter : g.after { s with schedulerQueue := post ++ pre ++ [q] } s' (.yield state) =
        g.after s s' (.yield state) := by
      cases state <;> rfl
    refine ⟨(hlive₁.switched hs).1, hafter ▸ hg₁.switched hlive₁ hs, ?_⟩
    rintro _ _ _ ⟨⟩
    exact hg₁.resumes hlive₁ hs (List.mem_append_right _ (.head _))

/-- `kprocess_exit` keeps the lines of the survivors right, and jumps to a process with what is in
its line. -/
theorem kprocessExit_resumes {g : Ledger} {exitCode stale slot : Nat} {destroy : Bool} {r : Switch}
    (hlive : LiveInv s L) (hg : LedgerOk s g)
    (hrun : kprocessExit exitCode destroy stale slot s = .ok (r, s')) :
    (∃ L', LiveInv s' L') ∧ LedgerOk s' g ∧
      ∀ flags cr3 regs, r = .jumped flags cr3 regs → g.Resumes s' cr3 regs := by
  obtain ⟨-, ⟨rfl, rfl⟩ | ⟨L', s₁, hs, hgone, hyield⟩⟩ :=
    kprocessExit_spec hlive.procs hlive.owned hlive.current hrun
  · obtain ⟨hlive', -⟩ := hlive.quiet
      (.of_vmStep hlive.procs hlive.owned (.error hlive.procs.ready .errProcExitNotAllowed))
    exact ⟨⟨L, hlive'⟩, ⟨hg.registers, hg.cr3⟩, fun flags cr3 regs habsurd => by cases habsurd⟩
  · have hg₁ := hg.survive hlive hs
    have hcur : s₁.currentProcess = s.currentProcess := congrArg Globals.currentProcess hs.globals
    have hg₂ : LedgerOk { s₁ with currentProcess := 0 } g := by
      refine ⟨fun x hx _ => hg₁.registers x hx fun heq => hgone ?_, hg₁.cr3⟩
      rw [← hcur, ← heq]
      exact hs.procs.queueSubset x hx
    obtain ⟨hlive', hg', hresumes⟩ := kprocessYield_resumes (hlive.exited hs hgone) hg₂ hyield
    exact ⟨⟨L', hlive'⟩, hg', hresumes⟩

/-! ## Creating a process -/

variable {g g' : Ledger}

/-- The lines of the processes that were in the queue before a process was created. -/
theorem Ledger.after_create {addr len flags : Nat} {fresh : FreshMemory}
    (hp : p ∈ s.schedulerQueue) :
    (g.after s s' (.create addr len flags fresh)).registers p = g.registers p ∧
      (g.after s s' (.create addr len flags fresh)).cr3 p = g.cr3 p := ⟨if_pos hp, if_pos hp⟩

/-- A process that is not in the queue yet leaves the lines right. -/
theorem LedgerOk.grown {flags : Nat} (h : LedgerOk s g) (hlive : LiveInv s L)
    (hgrown : Grown s s' L p flags) : LedgerOk s' g := by
  have hsame : SameContexts s s' L := .of_info (fun x hx => by
    rw [hgrown.info x hx]
    exact ⟨rfl, rfl, rfl⟩) hgrown.managers
  refine h.same hlive hsame (congrArg Globals.schedulerQueue hgrown.globals)
    (congrArg Globals.currentProcess hgrown.globals) fun x hx => ?_
  rw [hgrown.info x hx]
  obtain ⟨r, hr⟩ := hlive.owned.regs x hx
  rw [hr]
  exact hgrown.kept _ _ hr rfl fun i => by simp

/-- A process that is created is put in the queue with a line of its own. -/
theorem LedgerOk.created {addr len flags : Nat} {fresh : FreshMemory} (h : LedgerOk s g)
    (hlive : LiveInv s L) (hgrown : Grown s s₁ L p flags) :
    LedgerOk (enqueued s₁ p) (g.after s (enqueued s₁ p) (.create addr len flags fresh)) := by
  have hlive₁ := hlive.grown hgrown
  have h₁ := h.grown hlive hgrown
  have hsame := (hlive₁.enqueued (.head _) hgrown.unqueued).2
  have hqueue₁ : s₁.schedulerQueue = s.schedulerQueue :=
    congrArg Globals.schedulerQueue hgrown.globals
  have hpq : p ∉ s.schedulerQueue := hqueue₁ ▸ hgrown.unqueued
  have hregs : ∀ x ∈ p :: L, (enqueued s₁ p).objs ((enqueued s₁ p).info x).registerStates =
      s₁.objs (s₁.info x).registerStates :=
    fun _ => saved_setObj hlive₁ (.head _) rfl rfl
  have hinfop : (enqueued s₁ p).info p = { s₁.info p with schedulerQueueNode := .linked () } :=
    info_eq (objs_setObj_self _)
  have hqueue : ∀ x ∈ (enqueued s₁ p).schedulerQueue, x ∈ s.schedulerQueue ∨ x = p := by
    intro x hx
    have hx' : x ∈ s₁.schedulerQueue ++ [p] := hx
    rw [hqueue₁] at hx'
    exact (List.mem_append.1 hx').imp_right List.mem_singleton.1
  refine ⟨fun x hx hxc => ?_, fun x hx => ?_⟩
  · rcases hqueue x hx with hxq | rfl
    · rw [(Ledger.after_create hxq).1, hregs x (.tail _ (hlive.procs.queueSubset x hxq))]
      exact h₁.registers x (hqueue₁ ▸ hxq) hxc
    · have hline : (g.after s (enqueued s₁ x) (.create addr len flags fresh)).registers x =
          initialRegisters ((enqueued s₁ x).info x) := if_neg hpq
      rw [hline, hregs x (.head _), hgrown.regs, hinfop]
      rfl
  · rcases hqueue x hx with hxq | rfl
    · rw [(Ledger.after_create hxq).2, hsame.contextCr3 hlive₁.contexts (fun _ hx => hx)
        (.tail _ (hlive.procs.queueSubset x hxq))]
      exact h₁.cr3 x (hqueue₁ ▸ hxq)
    · exact (if_neg hpq).symm

/-- `kprocess_create` gives a line to the new process, and leaves the others right. -/
theorem kprocessCreate_ledger {addr len flags : Nat} {fresh : FreshMemory} {result : Option Nat}
    (hlive : LiveInv s L) (hg : LedgerOk s g) (hwhole : ¬ FailsHalfMade s addr len flags fresh)
    (hrun : kprocessCreate addr len flags fresh s = .ok (result, s')) :
    (∃ L', LiveInv s' L') ∧ LedgerOk s' (g.after s s' (.create addr len flags fresh)) := by
  have hcreated (h : LedgerOk s' g) (hqueue : ∀ x ∈ s'.schedulerQueue, x ∈ s.schedulerQueue) :
      LedgerOk s' (g.after s s' (.create addr len flags fresh)) :=
    h.congr (fun x hx _ => (Ledger.after_create (hqueue x hx)).1)
      fun x hx => (Ledger.after_create (hqueue x hx)).2
  rcases kprocessCreate_spec hlive.procs hlive.owned hlive.current hwhole hrun with
    ⟨-, hout, hcount⟩ | ⟨p, s₁, hgrown, ⟨-, -, rfl⟩ | ⟨-, -, -, hkill⟩⟩
  · obtain ⟨hlive', hsame⟩ :=
      hlive.outside hout hcount.ge (hcount.le.trans hlive.procs.countMax)
    have hqueue : s'.schedulerQueue = s.schedulerQueue :=
      congrArg Globals.schedulerQueue hout.globals
    have hcurrent := congrArg Globals.currentProcess hout.globals
    refine ⟨⟨L, hlive'⟩, hcreated (hg.same hlive hsame hqueue hcurrent fun x hx => ?_)
      fun x hx => hqueue ▸ hx⟩
    rw [(hout.info (hlive.procs.proc x hx)).2]
    obtain ⟨r, hr⟩ := hlive.owned.regs x hx
    rw [hr]
    exact (records_eq_some.1 (hout.records _ _ (records_eq_some.2 ⟨hr, rfl⟩))).1
  · exact ⟨⟨_, ((hlive.grown hgrown).enqueued (.head _) hgrown.unqueued).1⟩,
      hg.created hlive hgrown⟩
  · have hlive₁ := hlive.grown hgrown
    obtain ⟨L', hs, hp', hdead⟩ := kprocessKillProcess_survive hlive₁.procs hlive₁.owned
      (.head _) hkill
    have hcur : s₁.currentProcess = s.currentProcess :=
      congrArg Globals.currentProcess hgrown.globals
    refine ⟨⟨L', hlive₁.survive hs ?_⟩,
      hcreated ((hg.grown hlive hgrown).survive hlive₁ hs) fun x hx => ?_⟩
    · -- the new process has no child that dies with it
      rw [hcur]
      refine hlive.current.imp_right fun hc => ?_
      by_contra hc'
      rcases hdead _ (.tail _ hc) hc' with rfl | ⟨hchild, -⟩
      · exact hgrown.notMem hc
      · rw [hgrown.children] at hchild
        cases hchild
    · rw [hs.queue, List.mem_filter, show s₁.schedulerQueue = s.schedulerQueue from
        congrArg Globals.schedulerQueue hgrown.globals] at hx
      exact hx.1

/-! ## Runs -/

/-- Events that leave the processes alone leave the lines right. -/
theorem LedgerOk.quiet (h : LedgerOk s g) (hlive : LiveInv s L) (hq : Quiet s s' L) :
    LedgerOk s' g := by
  refine h.same hlive (hlive.quiet hq).2 (congrArg Globals.schedulerQueue hq.globals)
    (congrArg Globals.currentProcess hq.globals) fun x hx => ?_
  rw [hq.info x hx]
  exact hq.regs x hx

/-- An event keeps the lines right, unless it fails to create a process and leaves it half made. -/
theorem kernelEvent_ledger {e : KernelEvent} (hlive : LiveInv s L) (hg : LedgerOk s g)
    (hwhole : e.Whole s) (hrun : kernelEvent e s = .ok ((), s')) :
    (∃ L', LiveInv s' L') ∧ LedgerOk s' (g.after s s' e) := by
  have hquiet : Quiet s s' L → g.after s s' e = g →
      (∃ L', LiveInv s' L') ∧ LedgerOk s' (g.after s s' e) := fun hq hafter => by
    rw [hafter]
    exact ⟨⟨L, (hlive.quiet hq).1⟩, hg.quiet hlive hq⟩
  cases e with
  | create addr len flags fresh =>
    obtain ⟨result, s₁, hcreate, hrun⟩ := bind_eq_ok.1 hrun
    cases hrun
    exact kprocessCreate_ledger hlive hg hwhole hcreate
  | yield state =>
    obtain ⟨r, s₁, hyield, hrun⟩ := bind_eq_ok.1 hrun
    cases hrun
    obtain ⟨hlive', hg', -⟩ := kprocessYield_resumes hlive hg hyield
    exact ⟨⟨L, hlive'⟩, hg'⟩
  | exit code destroy stale slot =>
    obtain ⟨r, s₁, hexit, hrun⟩ := bind_eq_ok.1 hrun
    cases hrun
    obtain ⟨hlive', hg', -⟩ := kprocessExit_resumes hlive hg hexit
    exact ⟨hlive', hg'⟩
  | pageFault addr =>
    have hstep : VmStep (fun _ => False) s s' :=
      (pageFaultHandler_fixes _ _).vmFrame _ _ _ hrun hlive.procs.ready
    exact hquiet (.of_vmStep hlive.procs hlive.owned hstep) rfl
  | popEvent =>
    obtain ⟨pid, s₁, hpid, hrest⟩ := bind_eq_ok.1 hrun
    obtain rfl := kprocessGetCurrentPID_state hpid
    obtain ⟨ev, s₂, hpop, hrest⟩ := bind_eq_ok.1 hrest
    cases hrest
    obtain ⟨p, hfind, ⟨-, -, rfl⟩ | ⟨e, rest, hev, hpopped⟩⟩ :=
      kprocessPopEvent_spec hlive.procs hpop
    · exact hquiet (.of_vmStep hlive.procs hlive.owned (.refl hlive.procs.ready)) rfl
    · exact hquiet (.popped hlive.procs hlive.owned
        (hlive.procs.queueSubset p (findProcess_mem hfind).1) hev hpopped) rfl
  | timer => exact hquiet (timerInterruptHandler_quiet hlive.procs hlive.owned hrun) rfl
  | memmapKernel va szPages flags =>
    rw [kernelEvent, get_bind_apply] at hrun
    obtain ⟨⟨mapped, out⟩, s₁, hmap, hrun⟩ := bind_eq_ok.1 hrun
    cases hrun
    have hstep : VmStep (fun _ => False) s s' :=
      kvmmMemmap_vmFrame _ _ _ _ _ _ _ _ hmap hlive.procs.ready
    exact hquiet (.of_vmStep hlive.procs hlive.owned hstep) rfl

theorem DispatchRun.inv (h : DispatchRun (fun s e => e.Whole s) s g) :
    ∃ L, LiveInv s L ∧ LedgerOk s g := by
  induction h with
  | booted g hboot =>
    have hlive := booted_live hboot
    exact ⟨[], hlive, fun p hp _ => (by cases hlive.procs.queueSubset p hp),
      fun p hp => by cases hlive.procs.queueSubset p hp⟩
  | event _ hwhole hrun ih =>
    obtain ⟨L, hlive, hg⟩ := ih
    obtain ⟨⟨L', hlive'⟩, hg'⟩ := kernelEvent_ledger hlive hg hwhole hrun
    exact ⟨L', hlive', hg'⟩

/-- Whenever a yield or an exit jumps to a process, it loads the registers that this process saved
at its own last yield, or its first ones, and the page directory of the context it was created
with, if no failed `kprocess_create` was left with a half made process. -/
theorem dispatch_run_resumes (h : DispatchRun (fun s e => e.Whole s) s g) :
    (∀ state flags cr3 regs s', kprocessYield state s = .ok (.jumped flags cr3 regs, s') →
      g.Resumes s' cr3 regs) ∧
    ∀ exitCode destroy stale slot flags cr3 regs s',
      kprocessExit exitCode destroy stale slot s = .ok (.jumped flags cr3 regs, s') →
        g.Resumes s' cr3 regs := by
  obtain ⟨L, hlive, hg⟩ := h.inv
  constructor
  · intro state flags cr3 regs s' hrun
    exact (kprocessYield_resumes hlive hg hrun).2.2 _ _ _ rfl
  · intro exitCode destroy stale slot flags cr3 regs s' hrun
    exact (kprocessExit_resumes hlive hg hrun).2.2 _ _ _ rfl

/-! ## Runs of the small machine -/

/-- The ledger after some events. -/
def Ledger.afterEvents (g : Ledger) (s : KState) : List KernelEvent → Ledger
  | [] => g
  | e :: events =>
    (g.after s ((kernelEvent e).finalState s) e).afterEvents ((kernelEvent e).finalState s) events

/-- Events that the kernel completes are a run. -/
theorem DispatchRun.completes {ok : KState → KernelEvent → Prop}
    {check : KState → KernelEvent → Bool} {events : List KernelEvent}
    (hcheck : ∀ s e, check s e = true → ok s e) (h : DispatchRun ok s g)
    (hevents : s.completes check events = true) :
    DispatchRun ok (events.foldl (fun s e => (kernelEvent e).finalState s) s)
      (g.afterEvents s events) := by
  induction events generalizing s g with
  | nil => exact h
  | cons e events ih =>
    rw [KState.completes, Bool.and_eq_true, Bool.and_eq_true] at hevents
    exact ih (h.event (hcheck s e hevents.1.1) (eq_ok_finalState hevents.1.2)) hevents.2

/-- The registers that the root process saves when it yields. -/
def savedByRoot : ProcessRegisterState := ⟨1, 2, 3, 4, 5, 6, 7, 8, 9⟩

/-- The registers that the other process saves. -/
def savedByOther : ProcessRegisterState := ⟨9, 8, 7, 6, 5, 4, 3, 2, 1⟩

/-- Fresh memory that holds zeroes. -/
def zeroedMemory : FreshMemory :=
  ⟨⟨0, 0⟩, ⟨0, 0⟩, ⟨0, 0⟩, 0, 0, ⟨0, 0, 0, 0, 0, 0, 0, 0, 0⟩, false⟩

/-- The small machine when it is ready to run the root process. -/
def smallMachineReady : KState :=
  (kernelMain smallMachine.files false).finalState (entryState smallMachine fun _ _ => Entry.zero)

/-- The small machine after some events. -/
def smallMachineAfter (events : List KernelEvent) : KState :=
  events.foldl (fun s e => (kernelEvent e).finalState s) smallMachineReady

/-- A process is created from the bytes at the start of the kernel. -/
def createProcess : KernelEvent := .create 0xC0000000 100 0 zeroedMemory

/-- The current process creates a thread. -/
def createThread : KernelEvent := .create 0x400000 0 processFlagsThread zeroedMemory

/-- The current process or thread exits. -/
def exitCurrent : KernelEvent := .exit 0 false 0 0

/-- The ledger before the first process is created. -/
def blankLedger : Ledger := ⟨fun _ => savedByOther, fun _ => none⟩

set_option maxRecDepth 100000 in
theorem smallMachineReady_booted : Booted smallMachineReady :=
  ⟨smallMachine, fun _ _ => Entry.zero, false, eq_ok_finalState (by decide +kernel)⟩

/-- What the small machine runs. -/
theorem smallMachine_run {ok : KState → KernelEvent → Prop} {check : KState → KernelEvent → Bool}
    {events : List KernelEvent} (hcheck : ∀ s e, KernelRun ok s → check s e = true → ok s e)
    (h : smallMachineReady.completes check events = true) :
    KernelRun ok (smallMachineAfter events) :=
  KernelRun.completes hcheck (.booted smallMachineReady_booted) h

/-- What the small machine runs, whatever the events are. -/
theorem smallMachine_anyRun {events : List KernelEvent}
    (h : smallMachineReady.completes (fun _ _ => true) events = true) :
    KernelRun (fun _ _ => True) (smallMachineAfter events) :=
  smallMachine_run (fun _ _ _ _ => trivial) h

/-- What the small machine runs, when every creation of a process succeeds. -/
theorem smallMachine_wholeRun {events : List KernelEvent}
    (h : smallMachineReady.completes (fun s e => e.returnsPid s) events = true) :
    KernelRun (fun s e => e.Whole s) (smallMachineAfter events) :=
  smallMachine_run (fun _ _ _ => KernelEvent.whole_of_returnsPid) h

set_option maxRecDepth 100000 in
/-- The root process creates another one and yields to it. When this one yields, the kernel resumes
the root process with the registers that it had saved. -/
theorem dispatch_run_resumes_two : ∃ s g flags cr3 s',
    DispatchRun (fun s e => e.Whole s) s g ∧
    kprocessYield (some savedByOther) s = .ok (.jumped flags cr3 savedByRoot, s') ∧
    g.Resumes s' cr3 savedByRoot := by
  obtain ⟨hevents, hvalue⟩ :
      smallMachineReady.completes (fun s e => e.returnsPid s)
        [createProcess, .yield none, createProcess, .yield (some savedByRoot)] = true ∧
      (kprocessYield (some savedByOther) (smallMachineAfter
        [createProcess, .yield none, createProcess, .yield (some savedByRoot)])).map Prod.fst =
          .ok (.jumped 0 72 savedByRoot) := by
    decide +kernel
  have hrun := (DispatchRun.booted blankLedger smallMachineReady_booted).completes
    (fun _ _ => KernelEvent.whole_of_returnsPid) hevents
  have hjump := eq_ok_of_value hvalue
  exact ⟨_, _, _, _, _, hrun, hjump, (dispatch_run_resumes hrun).1 _ _ _ _ _ hjump⟩

/-! ## A process that is left half made -/

/-- To show something of every number, it is enough to show it of one that nothing is known of. -/
theorem forall_of_epsilon {P : Nat → Prop} (h : P (Classical.epsilon fun j => ¬ P j)) (j : Nat) :
    P j := by
  by_contra hj
  exact Classical.epsilon_spec (p := fun j => ¬ P j) ⟨j, hj⟩ h

/-- No frame is handed out when none is free. -/
theorem kpmmAlloc_noFrame (reg : KernelPhysicalMemoryRegions) (hs : PabOk s)
    (hphase : s.phase.check .pmmReady = true)
    (hused : ∀ f < 16384, s.frameState f ≠ pmmStateFree) :
    kpmmAlloc 1 reg s = .ok (none, { s with errorNumber := .errOutOfMem }) := by
  rcases kpmmAlloc_returns reg hs hphase (fun f hf hfree => absurd hfree (hused f hf)) Nat.one_pos
    (by decide) with ⟨f, s₁, -, hfreeRun, -⟩ | ⟨hrun, -⟩
  · have hin := hfreeRun.inside
    exact absurd (hfreeRun.free f (Nat.le_refl f) (Nat.lt_succ_self f)) (hused f (by omega))
  · exact hrun

/-- Four frames that are all used, or all reserved, are not free. -/
theorem not_free_of_byte : ∀ byte ∈ [0x55, 0xAA], ∀ k < 4,
    byte >>> (k * 2) &&& 3 ≠ pmmStateFree := by
  decide

/-- Two bits for each state. -/
theorem Bitmap.stateAt_of_two {b : Bitmap} (h : b.bitsPerState = 2) (i : Nat) :
    b.stateAt i = b.bitmap (i / 4) >>> (i % 4 * 2) &&& 3 := by
  simp [stateAt, byteIndex, bitIndex, stateMask, statesPerByte, h]

/-- A process for whose page directory there is no frame is killed half made. -/
theorem kprocessCreate_noFrame {s₂ : KState} {addr len flags : Nat} {fresh : FreshMemory}
    {i : KProcessInfo} {v : VMemoryManager} {killed : Bool}
    (hcount : s.processCount ≠ maxProcessCount) (hcurrent : s.currentProcess ≠ 0)
    (hmalloc : sProcessInfoMalloc flags fresh s = .ok (p, s₁)) (hp : p ≠ 0)
    (hproc : s₁.objs p = some (.proc i)) (hthread : bitIsUnset i.flags processFlagsThread = true)
    (hcontext : s₁.objs s₁.context = some (.vmm v))
    (hframe : kpmmAlloc 1 .pmmRegionAny s₁ = .ok (none, { s₁ with errorNumber := .errOutOfMem }))
    (hkill : kprocessKillProcess none fresh.context p kprocessExitCodeForceKilled
      { s₁ with errorNumber := .errOutOfMem } = .ok (killed, s₂)) :
    kernelEvent (.create addr len flags fresh) s = .ok ((), s₂) := by
  have hsetup : kpgSetupPageDirectory 0
      (pgNewpdFlagCreateNew ||| pgNewpdFlagCopyKernelPages ||| pgNewpdFlagRecursiveMap)
      (some v.parentProcessPD) s₁ = .ok (none, { s₁ with errorNumber := .errOutOfMem }) := by
    rw [kpgSetupPageDirectory, openPd, if_pos (by decide), bind_of_ok (bind_of_ok hframe)]
    rfl
  have hread : kvmmGetPageDirectory s₁.context s₁ = .ok (v.parentProcessPD, s₁) :=
    getVmm_bind_eq_ok.2 ⟨v, hcontext, rfl⟩
  have hpd : sCreateProcessPageDirectory p fresh s₁ =
      .ok (false, { s₁ with errorNumber := .errOutOfMem }) := by
    rw [sCreateProcessPageDirectory]
    refine getProc_bind_eq_ok.2 ⟨i, hproc, ?_⟩
    rw [if_pos hthread, get_bind_apply, bind_of_ok hread, bind_of_ok hsetup]
    rfl
  have hfails : setupProcess addr len flags fresh s =
      .ok ((p, false), { s₁ with errorNumber := .errOutOfMem }) := by
    rw [setupProcess, bind_of_ok hmalloc, if_neg hp, bind_of_ok hpd]
    rfl
  have hcreate : kprocessCreate addr len flags fresh s = .ok (none, s₂) := by
    rw [kprocessCreate, get_bind_apply, if_neg hcount, if_neg fun h => hcurrent h.1,
      if_neg fun h => hcurrent h.1, bind_of_ok hfails]
    exact bind_of_ok hkill
  exact bind_of_ok hcreate

/-- The records of the second process and of the half made one. -/
abbrev secondProcess : Nat := 0xC004728C
abbrev halfMadeProcess : Nat := 0xC0047764

/-- What the record of a thread of the second process leaves in its block, when the thread is
released: the addresses of the context of that process and of its record among it. -/
def staleMemory : FreshMemory :=
  ⟨⟨0x400000, 0⟩, ⟨0x95000, 64⟩, ⟨0x54000, 64⟩, 0xC0047340, secondProcess,
    ⟨0, 0, 0, 0, 0, 0, 0, 0, 0⟩, false⟩

/-- Two more processes take all the frames, and threads of the root process and of the second
process come and go, until the block of a thread of the second process is the first free one. -/
def threadsGone : List KernelEvent :=
  [createProcess, .yield none, .create 0xC0000000 5000 0 zeroedMemory,
    .create 0xC0000000 61440 0 zeroedMemory, createThread, createThread, .yield (some savedByRoot),
    .yield (some savedByOther), .yield (some savedByOther), exitCurrent,
    .yield (some savedByOther), .yield (some savedByRoot), createThread,
    .yield (some savedByOther), .yield (some savedByOther), exitCurrent, .popEvent,
    .yield (some savedByRoot), .yield (some savedByOther)]

/-- The last of these threads exits, and the root process runs. No frame is free. -/
def noFrameLeft : List KernelEvent := threadsGone ++ [exitCurrent, .yield (some savedByOther)]

/-- The root process begins to create a process. -/
def halfMade : KState :=
  (sProcessInfoMalloc 0 staleMemory).finalState (smallMachineAfter noFrameLeft)

/-- The half made process is killed, and with it the context of the second process. The root process
uses a page of its stack and creates a process, whose context has the address of the one that is
lost, and yields. -/
def replaceContext : K (List Nat × Switch × Nat) := do
  let _ ← kprocessKillProcess none staleMemory.context halfMadeProcess kprocessExitCodeForceKilled
  kernelEvent (.pageFault 0x12000)
  let queue := (← get).schedulerQueue
  kernelEvent createProcess
  let r ← kprocessYield (some savedByRoot)
  return (queue, r, (← get).currentProcess)

set_option maxRecDepth 100000 in
/-- The words in the fresh record are those of the thread whose block it gets. The last fact is
about any byte of the PAB behind the first 24. -/
theorem halfMade_values :
    ((smallMachineAfter threadsGone).currentProcess = halfMadeProcess ∧
      ((smallMachineAfter threadsGone).info halfMadeProcess).context = .addr staleMemory.context ∧
      ((smallMachineAfter threadsGone).info halfMadeProcess).parent = .addr staleMemory.parent) ∧
    smallMachineReady.completes (fun _ _ => true) noFrameLeft = true ∧
    (smallMachineAfter noFrameLeft).processCount = 3 ∧
    (smallMachineAfter noFrameLeft).currentProcess = 0xC0047020 ∧
    secondProcess ∈ (smallMachineAfter noFrameLeft).schedulerQueue ∧
    (blankLedger.afterEvents smallMachineReady noFrameLeft).cr3 secondProcess = some 75 ∧
    (sProcessInfoMalloc 0 staleMemory (smallMachineAfter noFrameLeft)).map Prod.fst =
      .ok halfMadeProcess ∧
    halfMade.objs halfMadeProcess = some (.proc
      { staleMemory.record with processID := 4, registerStates := 0xC00478FC }) ∧
    (kvmmGetPageDirectory halfMade.context halfMade).map Prod.fst = .ok 0x23000 ∧
    halfMade.pab.bitsPerState = pabBitsPerState ∧ halfMade.pab.size = pabSizeBytes ∧
    halfMade.phase.check .pmmReady = true ∧ (∀ j < 24, halfMade.pab.bitmap j = 0x55) ∧
    halfMade.pab.bitmap (Classical.epsilon (fun j => ¬ halfMade.pab.bitmap (j + 24) = 0xAA) + 24) =
      0xAA := by
  decide +kernel

set_option maxRecDepth 100000 in
theorem replaceContext_value :
    (replaceContext { halfMade with errorNumber := .errOutOfMem }).map Prod.fst =
      .ok ([secondProcess, 0xC00474F8, 0xC0047020], .jumped 0 76 savedByOther, secondProcess) := by
  decide +kernel

/-- No frame is free. -/
theorem halfMade_noFrame {f : Nat} : halfMade.frameState f ≠ pmmStateFree := by
  obtain ⟨-, -, -, -, -, -, -, -, -, hbits, -, -, hused, hreserved⟩ := halfMade_values
  have hbyte : halfMade.pab.bitmap (f / 4) ∈ [0x55, 0xAA] := by
    rcases Nat.lt_or_ge (f / 4) 24 with hlt | hge
    · rw [hused _ hlt]
      decide
    · have hall : ∀ j, halfMade.pab.bitmap (j + 24) = 0xAA := forall_of_epsilon hreserved
      rw [← Nat.sub_add_cancel hge, hall]
      decide
  rw [KState.frameState, Bitmap.stateAt_of_two hbits]
  exact not_free_of_byte _ hbyte _ (Nat.mod_lt _ (by decide))

/-- A process is not dispatched with the page directory of its own context: the kill of a half made
process deleted this context, and the second process runs in the page directory of the new one. -/
theorem half_made_process_breaks_dispatch : ∃ s g state flags cr3 regs s',
    DispatchRun (fun _ _ => True) s g ∧
    kprocessYield state s = .ok (.jumped flags cr3 regs, s') ∧ ¬ g.Resumes s' cr3 regs := by
  obtain ⟨-, hevents, hcount, hcurrent, hqueue, hline, hmalloc, hproc, hpd, hbits, hsize, hphase,
    -⟩ := halfMade_values
  obtain ⟨v, hcontext, -⟩ := getVmm_bind_eq_ok.1 (eq_ok_of_value hpd)
  obtain ⟨killed, s₁, hkill, hrun⟩ := bind_eq_ok.1 (eq_ok_of_value replaceContext_value)
  obtain ⟨⟨⟩, s₂, hfault, hrun⟩ := bind_eq_ok.1 hrun
  rw [get_bind_apply] at hrun
  obtain ⟨⟨⟩, s₃, hcreate, hrun⟩ := bind_eq_ok.1 hrun
  obtain ⟨r, s₄, hyield, hrun⟩ := bind_eq_ok.1 hrun
  simp only [get_bind_apply, pure_apply, Except.ok.injEq, Prod.mk.injEq] at hrun
  obtain ⟨⟨hqueue₂, rfl, hdispatched⟩, -⟩ := hrun
  have hmade : sProcessInfoMalloc 0 staleMemory (smallMachineAfter noFrameLeft) =
      .ok (halfMadeProcess, halfMade) := eq_ok_of_value hmalloc
  have hframe := kpmmAlloc_noFrame .pmmRegionAny ⟨hbits, hsize⟩ hphase fun f _ => halfMade_noFrame
  have hfails : kernelEvent (.create 0xC0000000 100 0 staleMemory) (smallMachineAfter noFrameLeft) =
      .ok ((), s₁) :=
    kprocessCreate_noFrame (by rw [hcount]; decide) (by rw [hcurrent]; decide) hmade (by decide)
      hproc rfl hcontext hframe hkill
  have hbefore : DispatchRun (fun _ _ => True) (smallMachineAfter noFrameLeft)
      (blankLedger.afterEvents smallMachineReady noFrameLeft) :=
    (DispatchRun.booted blankLedger smallMachineReady_booted).completes (fun _ _ _ => trivial)
      hevents
  generalize smallMachineAfter noFrameLeft = s at hqueue hfails hbefore
  generalize blankLedger.afterEvents smallMachineReady noFrameLeft = g at hline hbefore
  have hmem : secondProcess ∈ s₂.schedulerQueue := hqueue₂ ▸ .head _
  refine ⟨_, _, _, _, _, _, _, ((hbefore.event trivial hfails).event trivial hfault).event trivial
    hcreate, hyield, fun h => ?_⟩
  have hcreated := h.created
  rw [hdispatched, createProcess, (Ledger.after_create hmem).2] at hcreated
  have hkept : (g.after s s₁ (.create 0xC0000000 100 0 staleMemory)).cr3 secondProcess = some 75 :=
    (Ledger.after_create hqueue).2.trans hline
  cases hkept.symm.trans hcreated

end MeghaOS
