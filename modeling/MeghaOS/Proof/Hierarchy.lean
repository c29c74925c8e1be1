import MeghaOS.Proof.Dispatch
import MeghaOS.Proof.LiveStep

/-!
# The process hierarchy

As long as no failed `kprocess_create` leaves a process half made, every live process is counted and
in the scheduler queue (`AllCounted`), and the hierarchy of processes is what the notes on process
management say. A process that is left half made stays counted when its record has no parent
(`huge_process_breaks_hierarchy`).
-/

namespace MeghaOS

open Exec KState

variable {s s' s₁ : KState} {L L' : List Nat} {p q : Nat}

/-! ## The counter and the queue -/

/-- Every live process is in the scheduler queue, they are all that is counted, and there is room
for another. -/
structure AllCounted (s : KState) (L : List Nat) : Prop where
  count : s.processCount = L.length
  queued : ∀ p ∈ L, p ∈ s.schedulerQueue
  room : s.processCount < maxProcessCount

namespace AllCounted

theorem of_globals (h : AllCounted s L) (hcount : s'.processCount = s.processCount)
    (hqueue : s'.schedulerQueue = s.schedulerQueue) : AllCounted s' L where
  count := hcount.trans h.count
  queued := by
    rw [hqueue]
    exact h.queued
  room := hcount ▸ h.room

/-- The queue holds the live processes. -/
theorem perm (h : AllCounted s L) (hlive : LiveInv s L) : s.schedulerQueue.Perm L :=
  (List.perm_ext_iff_of_nodup hlive.procs.queueNodup hlive.procs.family.nodup).2 fun p =>
    ⟨hlive.procs.queueSubset p, h.queued p⟩

theorem booted (h : Booted s) : AllCounted s [] := by
  have hempty : s.processCount = 0 := (booted_noProcess h).processCount
  refine ⟨hempty, fun p hp => (by cases hp), ?_⟩
  rw [hempty]
  decide

/-- The dead are no longer counted, nor in the queue. -/
theorem survive {R : Nat → Prop} (h : AllCounted s L) (hs : Survive R s s' L L') :
    AllCounted s' L' := by
  have hcount := hs.count
  have hlen := hs.sublist.length_le
  have hall := h.count
  have hroom := h.room
  refine ⟨by omega, fun p hp => ?_, by omega⟩
  rw [hs.queue]
  exact List.mem_filter.2 ⟨h.queued p (hs.mem hp), by simpa using hp⟩

theorem step (h : AllCounted s L) (hstep : LiveStep s L s' L') : AllCounted s' L' := by
  cases hstep with
  | quiet hq =>
    exact h.of_globals (congrArg Globals.processCount hq.globals)
      (congrArg Globals.schedulerQueue hq.globals)
  | lost _ hfull => exact absurd h.room (Nat.not_lt.2 hfull)
  | requeued hperm => exact ⟨h.count, fun p hp => hperm.mem_iff.2 (h.queued p hp), h.room⟩
  | switched hs =>
    exact h.of_globals (congrArg Globals.processCount hs.globals)
      (congrArg Globals.schedulerQueue hs.globals)
  | died hs _ => exact (h.survive hs).of_globals rfl rfl

theorem create {addr len flags : Nat} {fresh : FreshMemory} {result : Option Nat}
    (h : AllCounted s L) (hstep : CreateStep addr len flags fresh s L result s' L') :
    AllCounted s' L' := by
  cases hstep with
  | failed hout hcount =>
    exact h.of_globals hcount
      (congrArg Globals.schedulerQueue hout.globals)
  | @created s₁ _ p hg hroom =>
    have hcount : s₁.processCount = s.processCount + 1 := congrArg Globals.processCount hg.globals
    have hqueue : s₁.schedulerQueue = s.schedulerQueue := congrArg Globals.schedulerQueue hg.globals
    refine ⟨?_, fun x hx => ?_, hroom⟩
    · rw [List.length_cons, ← h.count]
      exact hcount
    · show x ∈ s₁.schedulerQueue ++ [p]
      rw [List.mem_append, hqueue, List.mem_singleton]
      exact (List.mem_cons.1 hx).symm.imp_left (h.queued x)
  | @revoked s₁ _ _ _ p hg _ hs hperm =>
    have hcount : s₁.processCount = s.processCount + 1 := congrArg Globals.processCount hg.globals
    have hqueue : s₁.schedulerQueue = s.schedulerQueue := congrArg Globals.schedulerQueue hg.globals
    have hkilled := hs.count
    have hlen := hperm.length_eq
    have hall := h.count
    have hroom := h.room
    rw [List.length_cons] at hkilled
    refine ⟨by omega, fun x hx => ?_, by omega⟩
    rw [hs.queue, hqueue]
    exact List.mem_filter.2 ⟨h.queued x (hperm.mem_iff.1 hx), by simpa using hx⟩

end AllCounted

/-! ## The hierarchy -/

/-- The hierarchy of processes, as the notes on process management have it. -/
structure HierarchyOk (s : KState) : Prop where
  count : s.processCount = s.schedulerQueue.length
  queueNodup : s.schedulerQueue.Nodup
  queued : ∀ p, s.Live p ↔ p ∈ s.schedulerQueue
  root : ∀ p, s.Live p ∧ (s.info p).parent.word = 0 ↔ p = s.rootProcess
  thread : ∀ p, s.Live p → (s.info p).isThread = true → ∃ q, s.Live q ∧
    (s.info p).parent = .addr q ∧
    (s.info q).isThread = false ∧ (s.info p).context = (s.info q).context
  childless : ∀ p, s.Live p → (s.info p).isThread = true → (s.info p).childrenListHead = []
  childrenNodup : ∀ p, s.Live p → (s.info p).childrenListHead.Nodup
  children : ∀ p q, s.Live p → s.Live q →
    (p ∈ (s.info q).childrenListHead ↔ (s.info p).parent = .addr q)
  childrenLive : ∀ p q, s.Live q → p ∈ (s.info q).childrenListHead → s.Live p
  running : s.currentProcess ≠ 0 → ∀ p, s.Live p ∧ (s.info p).state = .running ↔
    p = s.currentProcess

/-- A process has no parent if and only if it is the root of the family. -/
theorem ProcsOk.word_eq_zero (h : ProcsOk s L) (hp : p ∈ L) :
    (s.info p).parent.word = 0 ↔ IsRoot s.kin p := by
  constructor
  · intro hword
    rcases h.family.parent p hp with ⟨hroot, -⟩ | ⟨q, hq, hchild⟩
    · exact hroot
    · exact absurd hword (h.word_ne_zero hp hchild hq).2
  · rintro ⟨htarget, -⟩
    obtain ⟨a, ha⟩ := h.parentAddr p hp
    have hnone : (Ptr.addr a).target = none := by rw [← ha]; exact htarget
    rw [ha]
    by_contra hne
    have ha0 : ¬ a = 0 := hne
    rw [Ptr.target, if_neg ha0] at hnone
    cases hnone

/-- The parent field of a process names the process that lists it. -/
theorem ProcsOk.mem_children_iff (h : ProcsOk s L) (hp : p ∈ L) (hq : q ∈ L) :
    p ∈ (s.info q).childrenListHead ↔ (s.info p).parent = .addr q := by
  constructor
  · intro hmem
    exact (h.word_ne_zero hp (h.family.isChild_of_mem hq hmem) hq).1
  · intro hparent
    have htarget : (s.kin p).parent = some q := by
      show (s.info p).parent.target = some q
      rw [hparent, Ptr.target, if_neg (h.ne_zero hq)]
    obtain ⟨r, -, hchild⟩ := h.family.isChild hp (by rw [htarget]; simp)
    obtain rfl : r = q := Option.some.inj (hchild.parent.symm.trans htarget)
    exact hchild.mem

theorem AllCounted.hierarchyOk (h : AllCounted s L) (hlive : LiveInv s L)
    (hroot : s.rootProcess ≠ 0) :
    HierarchyOk s := by
  obtain ⟨hrootL, hisRoot⟩ := hlive.procs.rootProcess.resolve_left hroot
  refine
    { count := by rw [h.count, (h.perm hlive).length_eq]
      queueNodup := hlive.procs.queueNodup
      queued := fun p => (hlive.live p).trans (h.perm hlive).mem_iff.symm
      root := fun p => ?_
      thread := fun p hp hthread => ?_
      childless := fun p hp hthread => hlive.procs.family.leaf p ((hlive.live p).1 hp) hthread
      childrenNodup := fun p hp => hlive.procs.family.childrenNodup p ((hlive.live p).1 hp)
      children := fun p q hp hq =>
        hlive.procs.mem_children_iff ((hlive.live p).1 hp) ((hlive.live q).1 hq)
      childrenLive := fun p q hq hmem =>
        (hlive.live p).2 (hlive.procs.family.children q ((hlive.live q).1 hq) p hmem).1
      running := fun hne p => ?_ }
  · rw [hlive.live p]
    constructor
    · rintro ⟨hp, hword⟩
      exact hlive.procs.family.root p hp _ hrootL ((hlive.procs.word_eq_zero hp).1 hword) hisRoot
    · rintro rfl
      exact ⟨hrootL, (hlive.procs.word_eq_zero hrootL).2 hisRoot⟩
  · have hpL := (hlive.live p).1 hp
    obtain ⟨q, hq, hchild⟩ := hlive.procs.thread_isChild hpL hthread
    have hparent := (hlive.procs.word_ne_zero hpL hchild hq).1
    exact ⟨q, (hlive.live q).2 hq, hparent, hlive.procs.family.parent_not_leaf hq hchild.mem,
      hlive.contexts.thread p hpL q hq hthread hparent⟩
  · rw [hlive.live p]
    constructor
    · rintro ⟨hp, hrunning⟩
      exact (hlive.running p hp).1 hrunning
    · rintro rfl
      have hc := hlive.current.resolve_left hne
      exact ⟨hc, (hlive.running _ hc).2 rfl⟩

/-! ## Runs -/

theorem KernelRun.counted (h : KernelRun (fun s e => e.Whole s) s) :
    ∃ L, LiveInv s L ∧ AllCounted s L :=
  h.preserve id AllCounted.booted (fun _ => AllCounted.step) fun _ hs _ hstep => hs.create hstep

/-- After the root process first ran, the hierarchy is what it should be, if no failed
`kprocess_create` left a process half made. -/
theorem kernel_run_hierarchyOk (h : KernelRun (fun s e => e.Whole s) s)
    (hroot : s.rootProcess ≠ 0) : HierarchyOk s := by
  obtain ⟨L, hlive, hcounted⟩ := h.counted
  exact hcounted.hierarchyOk hlive hroot

set_option maxRecDepth 100000 in
/-- The root process creates a process and a thread, and yields to the process. -/
theorem kernel_run_hierarchyOk_three : HierarchyOk (smallMachineAfter
    [createProcess, .yield none, createProcess, createThread, .yield (some savedByRoot)]) := by
  obtain ⟨hevents, hroot⟩ :
      smallMachineReady.completes (fun s e => e.returnsPid s)
        [createProcess, .yield none, createProcess, createThread, .yield (some savedByRoot)] =
          true ∧
      (smallMachineAfter [createProcess, .yield none, createProcess, createThread,
        .yield (some savedByRoot)]).rootProcess ≠ 0 := by
    decide +kernel
  exact kernel_run_hierarchyOk (smallMachine_wholeRun hevents) hroot

/-! ## A process that is left half made -/

/-- The creation of a process whose binary does not fit into its memory. -/
def createHugeProcess : KernelEvent := .create 0xC0000000 0x7FFFFFFF 0 zeroedMemory

/-- What the small machine does when the root process creates a process that is too large. -/
def hugeProcessEvents : List KernelEvent := [createProcess, .yield none, createHugeProcess]

set_option maxRecDepth 100000 in
/-- The root process runs and is alone in the queue, but two processes are counted. -/
theorem hugeProcess_values : (smallMachineAfter hugeProcessEvents).processCount = 2 ∧
    (smallMachineAfter hugeProcessEvents).rootProcess = 0xC0047020 ∧
    (smallMachineAfter hugeProcessEvents).currentProcess = 0xC0047020 ∧
    (smallMachineAfter hugeProcessEvents).schedulerQueue = [0xC0047020] ∧
    (smallMachineAfter hugeProcessEvents).objs 0xC0047020 =
      some (.proc ((smallMachineAfter hugeProcessEvents).info 0xC0047020)) ∧
    ((smallMachineAfter hugeProcessEvents).info 0xC0047020).schedulerQueueNode = .linked () := by
  decide +kernel

set_option maxRecDepth 100000 in
theorem hugeProcess_run : KernelRun (fun _ _ => True) (smallMachineAfter hugeProcessEvents) :=
  smallMachine_anyRun (by decide +kernel)

/-- The process that was too large is still counted. -/
theorem huge_process_breaks_hierarchy : ∃ s, KernelRun (fun _ _ => True) s ∧ s.rootProcess ≠ 0 ∧
    ¬ HierarchyOk s := by
  obtain ⟨hcount, hroot, -, hqueue, -⟩ := hugeProcess_values
  refine ⟨_, hugeProcess_run, by simp [hroot], fun h => ?_⟩
  have hlength := h.count
  simp [hcount, hqueue] at hlength

end MeghaOS
