import MeghaOS.Proof.Kill

/-!
# Who survives the death of a process

A killed process takes its child threads along, and its other children go to the root. `Survive`
says what this leaves of the others, and `ProcessKilled` how the kernel gets there.
-/

namespace MeghaOS

open Exec KState

variable {s s' s₁ : KState} {L L' L₁ : List Nat} {p q r c a : Nat} {i : KProcessInfo}
  {R : Nat → Prop}

/-! ## Survivors -/

/-- A record without its relatives and its events. -/
def KProcessInfo.self (i : KProcessInfo) : KProcessInfo :=
  { i with
    parent := .addr 0
    childrenListHead := []
    childrenListNode := .null
    eventsQueueHead := [] }

/-- What the record of a process keeps for life. -/
theorem KProcessInfo.of_self {i j : KProcessInfo} (h : i.self = j.self) :
    i.processID = j.processID ∧ i.flags = j.flags ∧ i.context = j.context ∧ i.state = j.state ∧
      i.registerStates = j.registerStates ∧ i.stack = j.stack := by
  simp only [self, KProcessInfo.mk.injEq] at h
  simp only [h, and_self]

/-- The manager at `m` stays as it was made. -/
def ManagerKept (m : Nat) (s s' : KState) : Prop :=
  ∀ v, s.objs m = some (.vmm v) → ∃ v', s'.objs m = some (.vmm v') ∧ v'.core = v.core

namespace ManagerKept

variable {m : Nat}

/-- Nothing happens. -/
theorem refl : ManagerKept m s s := fun v hv => ⟨v, hv, rfl⟩

/-- Two steps. -/
theorem trans (h₁ : ManagerKept m s s₁) (h₂ : ManagerKept m s₁ s') : ManagerKept m s s' := by
  intro v hv
  obtain ⟨v₁, hv₁, hcore₁⟩ := h₁ v hv
  obtain ⟨v₂, hv₂, hcore₂⟩ := h₂ v₁ hv₁
  exact ⟨v₂, hv₂, hcore₂.trans hcore₁⟩

/-- A run of the memory manager that does not release the manager. -/
theorem of_vmStep {gone : Nat → Prop} (h : VmStep gone s s') (hm : ¬ gone m) : ManagerKept m s s' :=
  fun v hv => h.managers m v hm hv

/-- The records of virtual memory stay, but for a flag. -/
theorem of_vms (h : s'.vms = s.vms) : ManagerKept m s s' := by
  intro v hv
  have hm := congrFun h m
  rw [vms_eq, vms_eq, hv] at hm
  cases ho : s'.objs m with
  | none =>
    rw [ho] at hm
    cases hm
  | some o =>
    rw [ho] at hm
    cases o with
    | vmm v' =>
      have hclean : (Obj.vmm v').clean = (Obj.vmm v).clean := Option.some.inj hm
      have hv' : { v' with isPageDirectoryDirty := false } =
        { v with isPageDirectoryDirty := false } :=
        Obj.vmm.inj hclean
      exact ⟨v', rfl, congrArg (fun w : VMemoryManager => { w with head := [] }) hv'⟩
    | _ => cases hm

end ManagerKept

/-- What the death of processes leaves of the live processes `L`: those of `L'`, as they were. Only
processes of `R` get new events. -/
structure Survive (R : Nat → Prop) (s s' : KState) (L L' : List Nat) : Prop where
  procs : ProcsOk s' L'
  owned : OwnedOk s' L'
  sublist : L'.Sublist L
  queue : s'.schedulerQueue = s.schedulerQueue.filter (· ∈ L')
  globals : s'.globals = { s.globals with
    cr3 := s'.cr3, schedulerQueue := s'.schedulerQueue, processCount := s'.processCount }
  count : s'.processCount + L.length = s.processCount + L'.length
  self : ∀ x ∈ L', (s'.info x).self = (s.info x).self
  thread : ∀ x ∈ L', (s.info x).isThread = true → (s'.info x).parent = (s.info x).parent
  events : ∀ x ∈ L', ¬ R x → (s'.info x).eventsQueueHead = (s.info x).eventsQueueHead ∧
    ∀ e ∈ (s.info x).eventsQueueHead, s'.objs e = s.objs e
  regs : ∀ x ∈ L', s'.objs (s.info x).registerStates = s.objs (s.info x).registerStates
  managers : ∀ m, (∀ x ∈ L, x ∉ L' → (s.info x).isThread = false → (s.info x).context.word ≠ m) →
    ManagerKept m s s'
  windows : SameWindows s s'
  dead : (∀ x ∈ L, ¬ IsStatic x) → ∀ b i, b ∉ L' → s'.objs b = some (.proc i) →
    b ∉ L ∧ s.objs b = some (.proc i)

/-- Every process in the queue is live. -/
theorem ProcsOk.queue_filter (h : ProcsOk s L) :
    s.schedulerQueue = s.schedulerQueue.filter (· ∈ L) :=
  (List.filter_eq_self.2 fun x hx => by simpa using h.queueSubset x hx).symm

namespace Survive

/-- Who is left was there. -/
theorem mem (h : Survive R s s' L L') {x : Nat} (hx : x ∈ L') : x ∈ L := h.sublist.subset hx

/-- Two steps. -/
theorem trans (h₁ : Survive R s s₁ L L₁) (h₂ : Survive R s₁ s' L₁ L') : Survive R s s' L L' where
  procs := h₂.procs
  owned := h₂.owned
  sublist := h₂.sublist.trans h₁.sublist
  queue := by
    rw [h₂.queue, h₁.queue, List.filter_filter]
    refine List.filter_congr fun x _ => ?_
    by_cases hx : x ∈ L'
    · simp [hx, h₂.mem hx]
    · simp [hx]
  globals := by
    rw [h₂.globals, h₁.globals]
  count := by
    have h₁' := h₁.count
    have h₂' := h₂.count
    omega
  self x hx := (h₂.self x hx).trans (h₁.self x (h₂.mem hx))
  thread x hx ht := by
    have hflags : (s₁.info x).flags = (s.info x).flags :=
      (KProcessInfo.of_self (h₁.self x (h₂.mem hx))).2.1
    rw [h₂.thread x hx (by rwa [KProcessInfo.isThread, hflags]), h₁.thread x (h₂.mem hx) ht]
  events x hx hR := by
    obtain ⟨hlist₁, hobjs₁⟩ := h₁.events x (h₂.mem hx) hR
    obtain ⟨hlist₂, hobjs₂⟩ := h₂.events x hx hR
    rw [hlist₁] at hlist₂ hobjs₂
    exact ⟨hlist₂, fun e he => (hobjs₂ e he).trans (hobjs₁ e he)⟩
  regs x hx := by
    have hregs : (s₁.info x).registerStates = (s.info x).registerStates :=
      (KProcessInfo.of_self (h₁.self x (h₂.mem hx))).2.2.2.2.1
    have hregs₂ := h₂.regs x hx
    rw [hregs] at hregs₂
    exact hregs₂.trans (h₁.regs x (h₂.mem hx))
  managers m hm := by
    refine (h₁.managers m fun x hx hx₁ => hm x hx fun hx' => hx₁ (h₂.mem hx')).trans
      (h₂.managers m fun x hx₁ hx' ht => ?_)
    have hself := KProcessInfo.of_self (h₁.self x hx₁)
    rw [hself.2.2.1]
    rw [KProcessInfo.isThread, hself.2.1] at ht
    exact hm x (h₁.mem hx₁) hx' ht
  windows := h₁.windows.trans h₂.windows
  dead hheap b i hb hi := by
    obtain ⟨hb₁, hi₁⟩ := h₂.dead (fun x hx => hheap x (h₁.mem hx)) b i hb hi
    exact h₁.dead hheap b i hb₁ hi₁

/-- A step on the records of live processes that is about their relatives alone. -/
theorem of_recordsStep (h : ProcsOk s L) (hprocs : ProcsOk s' L) (howned : OwnedOk s' L)
    (hstep : RecordsStep (· ∈ L) s s') (hself : ∀ x ∈ L, (s'.info x).self = (s.info x).self)
    (hthread : ∀ x ∈ L, (s.info x).isThread = true → (s'.info x).parent = (s.info x).parent)
    (hevents : ∀ x ∈ L, (s'.info x).eventsQueueHead = (s.info x).eventsQueueHead)
    (ho : OwnedOk s L) : Survive R s s' L L where
  procs := hprocs
  owned := howned
  sublist := List.Sublist.refl _
  queue := (congrArg Globals.schedulerQueue hstep.globals).trans h.queue_filter
  globals := by
    have hglobals := hstep.globals
    rw [hglobals, show s'.cr3 = s.cr3 from congrArg Globals.cr3 hglobals,
      show s'.schedulerQueue = s.schedulerQueue from congrArg Globals.schedulerQueue hglobals,
      show s'.processCount = s.processCount from congrArg Globals.processCount hglobals]
    rfl
  count := congrArg (· + L.length) (congrArg Globals.processCount hstep.globals)
  self := hself
  thread := hthread
  events x hx _ := by
    refine ⟨hevents x hx, fun e he => ?_⟩
    obtain ⟨ev, hev⟩ := ho.events x hx e he
    rw [hev]
    refine objs_of_records (hstep.records e fun hmem => ?_) rfl hev
    rw [h.proc e hmem] at hev
    cases hev
  regs x hx := by
    obtain ⟨r, hr⟩ := ho.regs x hx
    rw [hr]
    refine objs_of_records (hstep.records _ fun hmem => ?_) rfl hr
    rw [h.proc _ hmem] at hr
    cases hr
  managers _ _ := .of_vms hstep.vms
  windows := hstep.windows
  dead _ b i hb hi := ⟨hb, proc_of_records (hstep.records b hb).symm hi⟩

/-- Nothing happens to the processes. -/
theorem refl (h : ProcsOk s L) (ho : OwnedOk s L) : Survive R s s L L :=
  of_recordsStep h h ho (.refl h.ready) (fun _ _ => rfl) (fun _ _ _ => rfl) (fun _ _ => rfl) ho

/-- A run of the memory manager. -/
theorem of_vmStep (h : ProcsOk s L) (ho : OwnedOk s L) (hstep : VmStep (fun _ => False) s s') :
    Survive R s s' L L := by
  have hinfo : ∀ x, s'.info x = s.info x := fun x => info_congr (congrFun hstep.records x)
  refine
    { procs := h.of_vmStep hstep
      owned := ho.of_vmStep hstep
      sublist := List.Sublist.refl _
      queue := (congrArg Globals.schedulerQueue hstep.globals).trans h.queue_filter
      globals := ?_
      count := congrArg (· + L.length) (congrArg Globals.processCount hstep.globals)
      self := fun x _ => by rw [hinfo]
      thread := fun x _ _ => by rw [hinfo]
      events := fun x hx _ => ?_
      regs := fun x hx => ?_
      managers := fun m _ => .of_vmStep hstep id
      windows := .of_records hstep.records
      dead := fun _ b i hb hi => ⟨hb, proc_of_records (congrFun hstep.records b).symm hi⟩ }
  · rw [hstep.globals, show s'.cr3 = s.cr3 from congrArg Globals.cr3 hstep.globals,
      show s'.schedulerQueue = s.schedulerQueue from congrArg Globals.schedulerQueue hstep.globals,
      show s'.processCount = s.processCount from congrArg Globals.processCount hstep.globals]
    rfl
  · rw [hinfo]
    refine ⟨rfl, fun e he => ?_⟩
    obtain ⟨ev, hev⟩ := ho.events x hx e he
    rw [hev]
    exact objs_of_records (congrFun hstep.records e) rfl hev
  · obtain ⟨r, hr⟩ := ho.regs x hx
    rw [hr]
    exact objs_of_records (congrFun hstep.records _) rfl hr

end Survive

/-- A killed process is gone. -/
theorem Buried.survive {exitCode : Nat} (h : ProcsOk s L) (ho : OwnedOk s L) (hp : p ∈ L)
    (hb : Buried s s' L p q exitCode) (hR : ∀ r, s.notified p q = some r → R r) :
    Survive R s s' L (L.erase p) := by
  have hmem : ∀ {x}, x ∈ L.erase p ↔ x ≠ p ∧ x ∈ L := h.family.nodup.mem_erase_iff
  obtain ⟨r, hr, new, -, hinfo⟩ := hb.info
  refine
    { procs := hb.procs
      owned := hb.owned
      sublist := List.erase_sublist
      queue := ?_
      globals := ?_
      count := ?_
      self := fun x hx => by rw [hinfo x hx]; rfl
      thread := fun x hx _ => by rw [hinfo x hx]
      events := fun x hx hRx => ?_
      regs := fun x hx => ?_
      managers := fun m _ => .of_vms hb.vms
      windows := hb.windows
      dead := fun hheap b i hbL hi => ?_ }
  · rw [show s'.schedulerQueue = s.schedulerQueue.erase p from
      congrArg Globals.schedulerQueue hb.globals, h.queueNodup.erase_eq_filter]
    refine List.filter_congr fun x hx => ?_
    by_cases hxp : x = p
    · simp [hxp, h.family.nodup.not_mem_erase]
    · simp [hxp, hmem.2 ⟨hxp, h.queueSubset x hx⟩]
  · have hglobals := hb.globals
    rw [hglobals, show s'.cr3 = s.cr3 from congrArg Globals.cr3 hglobals,
      show s'.schedulerQueue = s.schedulerQueue.erase p from
        congrArg Globals.schedulerQueue hglobals,
      show s'.processCount = s.processCount - 1 from congrArg Globals.processCount hglobals]
    rfl
  · have hlen := List.length_erase_of_mem hp
    have hpos := List.length_pos_of_mem hp
    have hle := h.count
    rw [show s'.processCount = s.processCount - 1 from congrArg Globals.processCount hb.globals]
    omega
  · rw [hinfo x hx]
    have hxr : x ≠ r := fun heq => hRx (heq ▸ hR r hr)
    refine ⟨if_neg hxr, fun e he => ?_⟩
    obtain ⟨hxp, hxL⟩ := hmem.1 hx
    obtain ⟨ev, hev⟩ := ho.events x hxL e he
    rw [hev]
    refine hb.kept e _ hev rfl (fun i => by simp)
      (fun hmem => hxp (ho.eventsInj x hxL p hp e he hmem)) fun heq => ?_
    obtain ⟨regs, hregs⟩ := ho.regs p hp
    rw [heq, hregs] at hev
    cases hev
  · obtain ⟨hxp, hxL⟩ := hmem.1 hx
    obtain ⟨regs, hregs⟩ := ho.regs x hxL
    rw [hregs]
    refine hb.kept _ _ hregs rfl (fun i => by simp) (fun hmem => ?_)
      fun heq => hxp (ho.regsInj x hxL p hp heq)
    obtain ⟨ev, hev⟩ := ho.events p hp _ hmem
    rw [hregs] at hev
    cases hev
  · by_cases hbp : b = p
    · rw [hbp, hb.gone (hheap p hp)] at hi
      cases hi
    · have hbL' : b ∉ L := fun hbL' => hbL (hmem.2 ⟨hbp, hbL'⟩)
      exact ⟨hbL', hb.noNew b i hbL' hi⟩

/-- A killed thread is gone. -/
theorem ThreadKilled.survive {exitCode : Nat} (h : ProcsOk s L) (ho : OwnedOk s L) (hp : p ∈ L)
    (hk : ThreadKilled s s' L p q exitCode) (hR : ∀ r, s.notified p q = some r → R r) :
    Survive R s s' L (L.erase p) := by
  obtain ⟨freed, t, hfree, hb⟩ := hk.steps
  have hstep : VmStep (fun _ => False) _ _ :=
    kvmmFree_vmFrame _ _ _ _ _ hfree h.ready
  have hinfo : ∀ x, t.info x = s.info x := fun x => info_congr (congrFun hstep.records x)
  refine (Survive.of_vmStep h ho hstep).trans
    (hb.survive (h.of_vmStep hstep) (ho.of_vmStep hstep) hp fun r hr => hR r ?_)
  rw [← hr, KState.notified, KState.notified, hinfo,
    show t.schedulerQueue = s.schedulerQueue from congrArg Globals.schedulerQueue hstep.globals]
  exact List.find?_congr fun x _ => by rw [hinfo]

/-- A child that is handed to the root process. -/
theorem Adopted.survive (h : ProcsOk s L) (ho : OwnedOk s L) (hc : (s.info c).isThread = false)
    (ha : Adopted s s' L c r) : Survive R s s' L L := by
  refine .of_recordsStep h ha.procs ha.owned ha.step (fun x hx => ?_) (fun x hx ht => ?_)
    (fun x hx => ?_) ho
  · rw [ha.info x hx]
    rfl
  · have hxc : x ≠ c := by
      rintro rfl
      rw [hc] at ht
      cases ht
    rw [ha.info x hx]
    exact if_neg hxc
  · rw [ha.info x hx]

/-! ## The children of a killed process -/

/-- How the children of the process `q` leave it: they go to the root, or they are threads and
die. -/
inductive ChildrenGone (q : Nat) : KState → List Nat → KState → List Nat → Prop
  | done {s : KState} {L : List Nat} : ChildrenGone q s L s L
  | adopted {s t s' : KState} {L L' : List Nat} {c : Nat} :
      c ∈ L → IsChild s.kin c q → (s.info c).isThread = false → Adopted s t L c s.rootProcess →
        ChildrenGone q t L s' L' → ChildrenGone q s L s' L'
  | killed {s t s' : KState} {L L' : List Nat} {c : Nat} :
      c ∈ L → ThreadKilled s t L c q kprocessExitCodeForceKilled →
        ChildrenGone q t (L.erase c) s' L' → ChildrenGone q s L s' L'

/-- How the children of the process `q` leave it, with the notifications that the child threads
make. -/
inductive NotedGone (q : Nat) : KState → List Nat → List Notification → KState → List Nat → Prop
  | done {s : KState} {L : List Nat} : NotedGone q s L [] s L
  | adopted {s t s' : KState} {L L' : List Nat} {notes : List Notification} {c : Nat} :
      c ∈ L → IsChild s.kin c q → (s.info c).isThread = false → Adopted s t L c s.rootProcess →
        NotedGone q t L notes s' L' → NotedGone q s L notes s' L'
  | killed {s t s' : KState} {L L' : List Nat} {note : Notification}
    {notes : List Notification} {c : Nat} :
      c ∈ L → ThreadKilled s t L c q kprocessExitCodeForceKilled →
        Noted s t c q kprocessExitCodeForceKilled note → NotedGone q t (L.erase c) notes s' L' →
          NotedGone q s L (note :: notes) s' L'

/-- The notes may be forgotten. -/
theorem NotedGone.gone {notes : List Notification} (h : NotedGone q s L notes s' L') :
    ChildrenGone q s L s' L' := by
  induction h with
  | done => exact .done
  | adopted hc hchild hthread hadopted _ ih => exact .adopted hc hchild hthread hadopted ih
  | killed hc hkilled _ _ ih => exact .killed hc hkilled ih

/-- The processes that are left, and what they own. -/
theorem ThreadKilled.procs {exitCode : Nat} (hk : ThreadKilled s s' L p q exitCode) :
    ProcsOk s' (L.erase p) ∧ OwnedOk s' (L.erase p) := by
  obtain ⟨freed, t, -, hb⟩ := hk.steps
  exact ⟨hb.procs, hb.owned⟩

/-- The thread is taken from the list of its parent, and from no other. -/
theorem ThreadKilled.children {exitCode : Nat} (h : ProcsOk s L)
    (hk : ThreadKilled s s' L p q exitCode) : s'.rootProcess = s.rootProcess ∧
      ∀ x ∈ L.erase p, (s'.info x).childrenListHead = (s.info x).childrenListHead.erase p := by
  obtain ⟨freed, t, hfree, hb⟩ := hk.steps
  have hstep : VmStep (fun _ => False) _ _ :=
    kvmmFree_vmFrame _ _ _ _ _ hfree h.ready
  obtain ⟨r, -, new, -, hinfo⟩ := hb.info
  refine ⟨?_, fun x hx => ?_⟩
  · rw [show s'.rootProcess = t.rootProcess from congrArg Globals.rootProcess hb.globals]
    exact congrArg Globals.rootProcess hstep.globals
  · rw [hinfo x hx, info_congr (congrFun hstep.records x)]

/-- The loop over the children of `q` ends when it has none. -/
theorem notedKillChildren_spec {killThread : Nat → K (Bool × List Notification)} {stale n : Nat}
    {notes : List Notification} (h : ProcsOk s L) (ho : OwnedOk s L) (hq : q ∈ L)
    (hrun : notedKillChildren
      (fun child => notedKillWith killThread none stale child kprocessExitCodeForceKilled) q n s =
        .ok (notes, s')) :
    ∃ L', NotedGone q s L notes s' L' ∧ q ∈ L' ∧ (s'.info q).childrenListHead = [] := by
  induction n generalizing s L notes with
  | zero =>
    obtain ⟨i, hi, hrest⟩ := getProc_bind_eq_ok.1 hrun
    rcases ite_eq_ok.1 hrest with ⟨hnil, hrest⟩ | ⟨-, hrest⟩
    · cases hrest
      rw [← info_eq hi] at hnil
      exact ⟨L, .done, hq, hnil⟩
    · cases hrest
  | succ n ih =>
    obtain ⟨i, hi, hrest⟩ := getProc_bind_eq_ok.1 hrun
    obtain rfl := (info_eq hi).symm
    cases hlist : (s.info q).childrenListHead with
    | nil =>
      rw [hlist] at hrest
      cases hrest
      exact ⟨L, .done, hq, hlist⟩
    | cons c l =>
      rw [hlist] at hrest
      have hchild : IsChild s.kin c q :=
        h.family.isChild_of_mem hq (by rw [KState.kin, KProcessInfo.kin, hlist]; exact .head l)
      have hc : c ∈ L := (h.family.children q hq c hchild.mem).1
      obtain ⟨i, hi, hrest⟩ := getProc_bind_eq_ok.1 hrest
      obtain rfl := (info_eq hi).symm
      rcases ite_eq_ok.1 hrest with ⟨hunset, hrest⟩ | ⟨hset, hrest⟩
      · rw [get_bind_apply] at hrest
        obtain ⟨_, s₁, hchange, hrest⟩ := bind_eq_ok.1 hrest
        have hadopted := changeParentProcess_spec h ho hc hq hchild hchange
        obtain ⟨i, -, hrest⟩ := getProc_bind_eq_ok.1 hrest
        rw [get_bind_apply] at hrest
        obtain ⟨-, hrest⟩ := kAssert_bind_eq_ok.1 hrest
        obtain ⟨L', hgone, hend⟩ := ih hadopted.procs hadopted.owned hq hrest
        exact ⟨L', .adopted hc hchild (isThread_eq_false.2 hunset) hadopted hgone, hend⟩
      · have hthread : (s.info c).isThread = true := by
          rw [← isThread_eq_false] at hset
          exact Bool.eq_true_of_not_eq_false hset
        obtain ⟨⟨ok, notes₁⟩, s₁, hkill, hrest⟩ := bind_eq_ok.1 hrest
        obtain ⟨rfl, q', note, rfl, hkilled, hnoted⟩ := notedKillThread_spec h ho hc hthread hkill
        obtain rfl : q' = q := Option.some.inj (hkilled.child.parent.symm.trans hchild.parent)
        obtain ⟨hprocs₁, howned₁⟩ := hkilled.procs
        obtain ⟨notes₂, s₂, hloop, hrest⟩ := bind_eq_ok.1 hrest
        cases hrest
        obtain ⟨L', hgone, hend⟩ := ih hprocs₁ howned₁ ((List.mem_erase_of_ne hchild.ne.symm).2 hq)
          hloop
        exact ⟨L', .killed hc hkilled hnoted hgone, hend⟩

/-- What is true of the program that returns notifications is true of the one that does not. -/
theorem map_eq_ok {α β : Type} {x : K α} {f : α → β} {b : β} :
    (f <$> x) s = .ok (b, s') ↔ ∃ a, x s = .ok (a, s') ∧ f a = b := by
  rw [map_eq_pure_bind, bind_eq_ok]
  constructor
  · rintro ⟨a, t, hx, hpure⟩
    cases hpure
    exact ⟨a, hx, rfl⟩
  · rintro ⟨a, hx, rfl⟩
    exact ⟨a, s', hx, rfl⟩

/-- A program for child threads that makes no notifications. -/
theorem map_fst_map (x : K Bool) :
    Prod.fst <$> ((fun b => (b, ([] : List Notification))) <$> x) = x := by
  simp only [map_eq_pure_bind, bind_assoc, pure_bind, bind_pure]

/-- The end of `kprocess_kill_process` takes a process without children from its parent and the
queue. -/
theorem bury_spec (h : ProcsOk s L) (ho : OwnedOk s L) (hp : p ∈ L) (hq : q ∈ L)
    (hchild : IsChild s.kin p q) (hleaf : (s.info p).childrenListHead = [])
    (hregs : i.registerStates = (s.info p).registerStates) {slot : Option Nat} {exitCode : Nat}
    {ok : Bool} (hrun : bury slot i p exitCode s = .ok (ok, s')) :
    ok = true ∧ Buried s s' L p q exitCode := by
  rw [bury_eq] at hrun
  obtain ⟨note, hnoted, rfl⟩ := map_eq_ok.1 hrun
  exact ⟨rfl, (notedBury_spec h ho hp hq hchild hleaf hregs hnoted).1⟩

/-- A thread has neither children nor a context of its own: it is only buried. -/
theorem killThread_spec (h : ProcsOk s L) (ho : OwnedOk s L) (hp : p ∈ L)
    (hthread : (s.info p).isThread = true) {killThread : Nat → K Bool}
    {slot : Option Nat} {stale exitCode : Nat} {ok : Bool}
    (hrun : killWith killThread slot stale p exitCode s = .ok (ok, s')) :
    ok = true ∧ ∃ q, ThreadKilled s s' L p q exitCode := by
  rw [killWith_eq_noted fun c => (map_fst_map (killThread c)).symm] at hrun
  obtain ⟨⟨ok', notes⟩, hnoted, rfl⟩ := map_eq_ok.1 hrun
  obtain ⟨rfl, q, note, -, hkilled, -⟩ := notedKillThread_spec h ho hp hthread hnoted
  exact ⟨rfl, q, hkilled⟩

/-- The loop of `kprocess_kill_process` leaves no child. -/
theorem killChildren_spec {killThread : Nat → K Bool} {stale n : Nat} (h : ProcsOk s L)
    (ho : OwnedOk s L) (hq : q ∈ L)
    (hrun : killChildren
      (fun child => killWith killThread none stale child kprocessExitCodeForceKilled) q n s =
        .ok ((), s')) :
    ∃ L', ChildrenGone q s L s' L' ∧ q ∈ L' ∧ (s'.info q).childrenListHead = [] := by
  rw [killChildren_eq fun p => killWith_eq_noted (fun c => (map_fst_map (killThread c)).symm) none
    stale p _] at hrun
  obtain ⟨notes, hrun, -⟩ := map_eq_ok.1 hrun
  obtain ⟨L', hgone, hend⟩ := notedKillChildren_spec h ho hq hrun
  exact ⟨L', hgone.gone, hend⟩

/-! ## Who is notified -/

/-- The first element found stays the first one when others are dropped. -/
theorem find?_filter_eq_some {f P : Nat → Bool} {l : List Nat} (h : l.find? f = some q)
    (hq : P q = true) : (l.filter P).find? f = some q := by
  induction l with
  | nil => cases h
  | cons b l ih =>
    by_cases hb : f b = true
    · rw [List.find?_cons_of_pos hb] at h
      obtain rfl := Option.some.inj h
      rw [List.filter_cons_of_pos hq, List.find?_cons_of_pos hb]
    · rw [List.find?_cons_of_neg hb] at h
      by_cases hPb : P b = true
      · rw [List.filter_cons_of_pos hPb, List.find?_cons_of_neg hb]
        exact ih h
      · rw [List.filter_cons_of_neg hPb]
        exact ih h

/-- The lookup by PID finds the process. -/
def Found (s : KState) (q : Nat) : Prop := s.findProcess (s.info q).processID = some q

/-- The notifications for the process `q` reach processes of `R` alone. -/
def Hears (R : Nat → Prop) (s : KState) (q : Nat) : Prop := (∀ x, R x) ∨ R q ∧ Found s q

/-- A process that is found by its PID is still found. -/
theorem Found.survive (hf : Found s q) (hs : Survive R s s' L L') (hq : q ∈ L') : Found s' q := by
  have hpid : ∀ x ∈ L', (s'.info x).processID = (s.info x).processID := fun x hx =>
    (KProcessInfo.of_self (hs.self x hx)).1
  have hfind : (s.schedulerQueue.filter (· ∈ L')).find?
      (fun x => (s.info x).processID = (s.info q).processID) = some q :=
    find?_filter_eq_some hf (by simpa using hq)
  rw [Found, KState.findProcess, hs.queue, hpid q hq, ← hfind]
  refine List.find?_congr fun x hx => ?_
  rw [hpid x (by simpa using (List.mem_filter.1 hx).2)]

/-- Who hears of an event still hears of it. -/
theorem Hears.survive (hears : Hears R s q) (hs : Survive R s s' L L') (hq : q ∈ L') :
    Hears R s' q := hears.imp_right fun hf => ⟨hf.1, hf.2.survive hs hq⟩

/-- The process that is told is one that hears. -/
theorem Hears.notified (hears : Hears R s q) (h : ProcsOk s L) (hne : p ≠ q)
    (hr : s.notified p q = some r) : R r := by
  rcases hears with hall | ⟨hRq, hf⟩
  · exact hall r
  · have hfind : (s.schedulerQueue.erase p).find?
        (fun x => (s.info x).processID = (s.info q).processID) = some q := by
      rw [h.queueNodup.erase_eq_filter]
      exact find?_filter_eq_some hf (by simpa using hne.symm)
    rw [KState.notified, hfind] at hr
    exact Option.some.inj hr ▸ hRq

namespace ChildrenGone

/-- The loop over the children keeps who hears of it. -/
theorem survive (hgone : ChildrenGone q s L s' L') (h : ProcsOk s L) (ho : OwnedOk s L) (hq : q ∈ L)
    (hears : Hears R s q) : Survive R s s' L L' ∧ q ∈ L' := by
  induction hgone with
  | done => exact ⟨.refl h ho, hq⟩
  | adopted hc hchild hthread hadopted _ ih =>
    have hturn : Survive R _ _ _ _ := hadopted.survive h ho hthread
    obtain ⟨hrest, hq'⟩ := ih hadopted.procs hadopted.owned hq (hears.survive hturn hq)
    exact ⟨hturn.trans hrest, hq'⟩
  | killed hc hkilled _ ih =>
    have hturn : Survive R _ _ _ _ := hkilled.survive h ho hc fun r hr =>
      hears.notified h hkilled.child.ne hr
    have hq₁ := (List.mem_erase_of_ne hkilled.child.ne.symm).2 hq
    obtain ⟨hrest, hq'⟩ := ih hturn.procs hturn.owned hq₁ (hears.survive hturn hq₁)
    exact ⟨hturn.trans hrest, hq'⟩

/-- The children of a process that is not the root only become fewer, and those that die are
threads. -/
theorem dead (hgone : ChildrenGone q s L s' L') (h : ProcsOk s L) (ho : OwnedOk s L) (hq : q ∈ L)
    (hroot : q ≠ s.rootProcess) {x : Nat} (hx : x ∈ L) (hx' : x ∉ L') :
    x ∈ (s.info q).childrenListHead ∧ (s.info x).isThread = true := by
  induction hgone with
  | done => exact absurd hx hx'
  | @adopted s t s' L L' c hc hchild hthread hadopted _ ih =>
    have hroot' : t.rootProcess = s.rootProcess :=
      congrArg Globals.rootProcess hadopted.step.globals
    obtain ⟨hmem, ht⟩ := ih hadopted.procs hadopted.owned hq (by rwa [hroot']) hx hx'
    rw [hadopted.info q hq] at hmem
    rw [KProcessInfo.isThread, hadopted.info x hx] at ht
    dsimp only at hmem
    rw [if_neg hroot] at hmem
    exact ⟨List.mem_of_mem_erase hmem, ht⟩
  | @killed s t s' L L' c hc hkilled _ ih =>
    by_cases hxc : x = c
    · rw [hxc]
      exact ⟨hkilled.child.mem, hkilled.thread⟩
    · obtain ⟨hroot', hchildren⟩ := hkilled.children h
      have hq₁ := (List.mem_erase_of_ne hkilled.child.ne.symm).2 hq
      have hx₁ := (List.mem_erase_of_ne hxc).2 hx
      obtain ⟨hmem, ht⟩ := ih hkilled.procs.1 hkilled.procs.2 hq₁ (by rwa [hroot']) hx₁ hx'
      rw [hchildren q hq₁] at hmem
      refine ⟨List.mem_of_mem_erase hmem, ?_⟩
      have hself := (hkilled.survive (R := fun _ => True) h ho hc fun _ _ => trivial).self x hx₁
      rwa [KProcessInfo.isThread, (KProcessInfo.of_self hself).2.1] at ht

end ChildrenGone

/-! ## The address space of a killed process -/

/-- The question whether the context is in use changes nothing. -/
theorem currentUsesContext_eq_ok {context : Ptr} {stale : Nat} {b : Bool}
    (hrun : currentUsesContext context stale s = .ok (b, s')) : s' = s := by
  rw [currentUsesContext, get_bind_apply] at hrun
  rcases ite_eq_ok.1 hrun with ⟨-, hrun⟩ | ⟨-, hrun⟩ <;> cases hrun <;> rfl

/-- What the release of the context `c` of the process `q` does. -/
structure ContextGone (s s' : KState) (q c : Nat) : Prop where
  steps : ∃ n deleted s₁, kvmmDelete c { s with cr3 := n } = .ok (deleted, s₁) ∧
    RecordsStep (· = q) s₁ s' ∧
    ∃ context, s'.info q = { s₁.info q with context } ∧
      (s₁.objs q = some (.proc (s₁.info q)) → s'.objs q = some (.proc (s'.info q)))

/-- The context of the process is released, or left to its other users. -/
theorem releaseContext_spec {stale : Nat} (h : HeapReady s)
    (hrun : releaseContext stale q i s = .ok ((), s')) : ContextGone s s' q i.context.word := by
  obtain ⟨uses, s₁, huses, hdelete⟩ := bind_eq_ok.1 hrun
  rw [currentUsesContext_eq_ok huses] at hdelete
  obtain ⟨n, hrest⟩ : ∃ n, (do
      let context ← i.context.follow
      let pd ← kvmmGetPageDirectory context
      if ← kvmmDelete context then modifyProc q fun i => { i with context := .addr 0 }
      let _ ← kpgDeletePageDirectory pd pgDelpdFlagKeepKernelPages) { s with cr3 := n } =
        .ok ((), s') := by
    rcases ite_eq_ok.1 hdelete with ⟨-, hdelete⟩ | ⟨-, hdelete⟩
    · rw [get_bind_apply] at hdelete
      obtain ⟨pd, s₂, hpd, hdelete⟩ := bind_eq_ok.1 hdelete
      obtain ⟨v, -, hpd⟩ := getVmm_bind_eq_ok.1 hpd
      cases hpd
      exact ⟨_, hdelete⟩
    · exact ⟨s.cr3, hdelete⟩
  replace hrest := follow_bind_eq_ok.1 hrest
  obtain ⟨pd, s₂, hpd, hrest⟩ := bind_eq_ok.1 hrest
  obtain ⟨v, -, hpd⟩ := getVmm_bind_eq_ok.1 hpd
  cases hpd
  obtain ⟨deleted, s₃, hdelete, hrest⟩ := bind_eq_ok.1 hrest
  have hready₂ : HeapReady { s with cr3 := n } :=
    ⟨h.phase, h.heapOk.imp fun _ hs => ⟨hs.inv, hs.buffer, hs.objs⟩⟩
  have hready₃ := (kvmmDelete_vmFrame _ _ _ _ hdelete hready₂).ready
  refine ⟨n, deleted, s₃, hdelete, ?_⟩
  rcases ite_eq_ok.1 hrest with ⟨-, hrest⟩ | ⟨-, hrest⟩
  · obtain ⟨_, s₄, hmodify, hrest⟩ := bind_eq_ok.1 hrest
    obtain ⟨hqobj, rfl, h₄⟩ := modifyProc_recordsStep hready₃ hmodify
    obtain ⟨done, s₅, hpgdelete, hrest⟩ := bind_eq_ok.1 hrest
    cases hrest
    have hnc := (kpgDeletePageDirectory_fixes _ _).commit _ _ _ hpgdelete
    have h₅ : RecordsStep (· = q) _ _ := .of_nonCommit h₄.ready hnc
    have hq₅ := proc_of_records (congrFun (records_of_nonCommit hnc) q) (objs_setObj_self _)
    refine ⟨h₄.trans h₅, .addr 0, info_eq hq₅, fun _ => ?_⟩
    rwa [info_eq hq₅]
  · obtain ⟨done, s₅, hpgdelete, hrest⟩ := bind_eq_ok.1 hrest
    cases hrest
    have hnc := (kpgDeletePageDirectory_fixes _ _).commit _ _ _ hpgdelete
    have hrecord := congrFun (records_of_nonCommit hnc) q
    refine ⟨.of_nonCommit hready₃ hnc, (s₃.info q).context, info_congr hrecord, fun hq₃ => ?_⟩
    rw [info_congr hrecord]
    exact proc_of_records hrecord hq₃

/-- `killContext` lets the children go and then deletes the context. -/
theorem killContext_spec {killThread : Nat → K Bool} {stale : Nat} (h : ProcsOk s L)
    (ho : OwnedOk s L) (hq : q ∈ L)
    (hrun : killContext
      (fun child => killWith killThread none stale child kprocessExitCodeForceKilled) stale q i s =
        .ok ((), s')) :
    ∃ s₁ L₁, ChildrenGone q s L s₁ L₁ ∧ q ∈ L₁ ∧ (s₁.info q).childrenListHead = [] ∧
      ContextGone s₁ s' q i.context.word := by
  obtain ⟨_, s₁, hchildren, hrest⟩ := bind_eq_ok.1 hrun
  obtain ⟨L₁, hgone, hq₁, hnil⟩ := killChildren_spec h ho hq hchildren
  have hready₁ : HeapReady s₁ := (hgone.survive (R := fun _ => True) h ho hq
    (.inl fun _ => trivial)).1.procs.ready
  exact ⟨s₁, L₁, hgone, hq₁, hnil, releaseContext_spec hready₁ hrest⟩

/-- Another page directory is loaded. -/
theorem ProcsOk.reload (h : ProcsOk s L) (n : Nat) : ProcsOk { s with cr3 := n } L :=
  h.withGlobals (.refl _) h.rootProcess h.count h.countMax

/-- What the others see of the release of the context `c`. -/
structure Prepared (s s' : KState) (L : List Nat) (q c : Nat) : Prop where
  procs : ProcsOk s' L
  owned : OwnedOk s' L
  records : ∀ b, b ≠ q → s'.records b = s.records b
  info : ∃ context, s'.info q = { s.info q with context }
  globals : s'.globals = { s.globals with cr3 := s'.cr3 }
  managers : ∀ m, m ≠ c → ManagerKept m s s'
  windows : SameWindows s s'

/-- The release of a context changes no process. -/
theorem ContextGone.prepared (h : ProcsOk s L) (ho : OwnedOk s L) (hq : q ∈ L)
    (hgone : ContextGone s s' q c) : Prepared s s' L q c := by
  obtain ⟨n, deleted, s₁, hdelete, hstep, context, hinfo, hproc⟩ := hgone.steps
  have h₀ := h.reload n
  have h₁ := kvmmDelete_vmFrame _ _ _ _ hdelete h₀.ready
  have hprocs₁ := h₀.of_vmStep h₁
  have hinfo₁ : s₁.info q = s.info q := info_congr (congrFun h₁.records q)
  rw [hinfo₁] at hinfo
  have hrecords : ∀ b, b ≠ q → s'.records b = s.records b := fun b hb =>
    (hstep.records b hb).trans (congrFun h₁.records b)
  have hproc' := hproc (hprocs₁.proc q hq)
  have hglobals : s'.globals = { s.globals with cr3 := n } := hstep.globals.trans h₁.globals
  refine ⟨?_, ?_, hrecords, ⟨context, hinfo⟩, ?_, fun m hm => ?_, ?_⟩
  · refine hprocs₁.of_place hstep.ready hstep.globals fun x hx => ?_
    by_cases hxq : x = q
    · rw [hxq]
      refine ⟨_, hproc', ?_⟩
      rw [hinfo, hinfo₁]
      rfl
    · exact ⟨_, proc_of_records (hstep.records x hxq) (hprocs₁.proc x hx), rfl⟩
  · refine ho.of_info (fun x hx => ?_) (fun x hx => ?_) fun x hx e he => ?_
    · by_cases hxq : x = q
      · rw [hxq, hinfo]
        exact ⟨rfl, rfl⟩
      · rw [info_congr (hrecords x hxq)]
        exact ⟨rfl, rfl⟩
    · obtain ⟨r, hr⟩ := ho.regs x hx
      refine ⟨r, objs_of_records (hrecords _ fun heq => ?_) rfl hr⟩
      rw [heq, h.proc q hq] at hr
      cases hr
    · obtain ⟨ev, hev⟩ := ho.events x hx e he
      refine ⟨ev, objs_of_records (hrecords _ fun heq => ?_) rfl hev⟩
      rw [heq, h.proc q hq] at hev
      cases hev
  · rw [hglobals, show s'.cr3 = n from congrArg Globals.cr3 hglobals]
  · have hdeleted : ManagerKept m { s with cr3 := n } s₁ := .of_vmStep h₁ hm
    have hkept : ManagerKept m s₁ s' := .of_vms hstep.vms
    exact hdeleted.trans hkept
  · exact (SameWindows.of_records h₁.records).trans hstep.windows

/-- Whoever survives what follows is as it was before. -/
theorem Prepared.survive (hp : Prepared s s₁ L q c) (h : ProcsOk s L)
    (ho : OwnedOk s L) (hq : q ∈ L)
    (hthread : (s.info q).isThread = false) (hc : (s.info q).context.word = c)
    (hs : Survive R s₁ s' L L') (hvms : s'.vms = s₁.vms) (hqL' : q ∉ L') :
    Survive R s s' L L' := by
  have hinfo : ∀ x ∈ L', s₁.info x = s.info x := fun x hx =>
    info_congr (hp.records x fun heq => hqL' (heq ▸ hx))
  refine
    { procs := hs.procs
      owned := hs.owned
      sublist := hs.sublist
      queue := ?_
      globals := ?_
      count := ?_
      self := fun x hx => by rw [hs.self x hx, hinfo x hx]
      thread := fun x hx ht => ?_
      events := fun x hx hR => ?_
      regs := fun x hx => ?_
      managers := fun m hm => ?_
      windows := hp.windows.trans hs.windows
      dead := fun hheap b i hb hi => ?_ }
  · rw [hs.queue, show s₁.schedulerQueue = s.schedulerQueue from
      congrArg Globals.schedulerQueue hp.globals]
  · rw [hs.globals, hp.globals]
  · rw [hs.count, show s₁.processCount = s.processCount from
      congrArg Globals.processCount hp.globals]
  · rw [hs.thread x hx (by rwa [hinfo x hx]), hinfo x hx]
  · obtain ⟨hlist, hobjs⟩ := hs.events x hx hR
    rw [hinfo x hx] at hlist hobjs
    refine ⟨hlist, fun e he => ?_⟩
    obtain ⟨ev, hev⟩ := ho.events x (hs.mem hx) e he
    rw [hobjs e he, hev]
    refine objs_of_records (hp.records e fun heq => ?_) rfl hev
    rw [heq, h.proc q hq] at hev
    cases hev
  · obtain ⟨r, hr⟩ := ho.regs x (hs.mem hx)
    have hkept := hs.regs x hx
    rw [hinfo x hx] at hkept
    rw [hkept, hr]
    refine objs_of_records (hp.records _ fun heq => ?_) rfl hr
    rw [heq, h.proc q hq] at hr
    cases hr
  · refine (hp.managers m ?_).trans (.of_vms hvms)
    rintro rfl
    exact hm q hq hqL' hthread hc
  · obtain ⟨hbL, hi₁⟩ := hs.dead hheap b i hb hi
    exact ⟨hbL, proc_of_records (hp.records b fun heq => hbL (heq ▸ hq)).symm hi₁⟩

/-! ## Killing a process -/

/-- A process that is no thread was killed, whose parent is `q`. -/
structure ProcessKilled (s s' : KState) (L L' : List Nat) (p q exitCode : Nat) : Prop where
  process : (s.info p).isThread = false
  child : IsChild s.kin p q
  mem : q ∈ L
  steps : ∃ s₁ s₂ L₁, ChildrenGone p s L s₁ L₁ ∧ p ∈ L₁ ∧ (s₁.info p).childrenListHead = [] ∧
    ContextGone s₁ s₂ p (s.info p).context.word ∧ Buried s₂ s' L₁ p q exitCode ∧ L' = L₁.erase p

/-- The parents of the others stay. -/
theorem ThreadKilled.parent {exitCode : Nat} (h : ProcsOk s L)
    (hk : ThreadKilled s s' L p q exitCode) {x : Nat} (hx : x ∈ L.erase p) :
    (s'.info x).parent = (s.info x).parent := by
  obtain ⟨freed, t, hfree, hb⟩ := hk.steps
  have hstep : VmStep (fun _ => False) _ _ :=
    kvmmFree_vmFrame _ _ _ _ _ hfree h.ready
  obtain ⟨r, -, new, -, hinfo⟩ := hb.info
  rw [hinfo x hx, info_congr (congrFun hstep.records x)]

/-- The process whose children go keeps its own parent. -/
theorem ChildrenGone.parent (hgone : ChildrenGone q s L s' L') (h : ProcsOk s L) (ho : OwnedOk s L)
    (hq : q ∈ L) : (s'.info q).parent = (s.info q).parent := by
  induction hgone with
  | done => rfl
  | adopted hc hchild hthread hadopted _ ih =>
    rw [ih hadopted.procs hadopted.owned hq, hadopted.info q hq]
    exact if_neg hchild.ne.symm
  | killed hc hkilled _ ih =>
    have hq₁ := (List.mem_erase_of_ne hkilled.child.ne.symm).2 hq
    rw [ih hkilled.procs.1 hkilled.procs.2 hq₁, hkilled.parent h hq₁]

/-- Once its children and its context are gone, a process still is the child of its parent. -/
theorem ChildrenGone.isChild {s₂ : KState} (hgone : ChildrenGone p s L s₁ L₁) (h : ProcsOk s L)
    (ho : OwnedOk s L) (hp : p ∈ L) (hp₁ : p ∈ L₁) (hprep : Prepared s₁ s₂ L₁ p c)
    (hchild : IsChild s.kin p q) : q ∈ L₁ ∧ IsChild s₂.kin p q := by
  obtain ⟨context, hinfo⟩ := hprep.info
  have hparent : (s₂.kin p).parent = some q := by
    rw [KState.kin, hinfo]
    show (s₁.info p).parent.target = some q
    rw [hgone.parent h ho hp]
    exact hchild.parent
  obtain ⟨q', hq', hchild'⟩ := hprep.procs.family.isChild hp₁ (by rw [hparent]; simp)
  obtain rfl := Option.some.inj (hparent.symm.trans hchild'.parent)
  exact ⟨hq', hchild'⟩

/-- `kprocess_kill_process` refuses to kill the root; it kills any other process. -/
theorem kprocessKillProcess_spec {slot : Option Nat} {stale exitCode : Nat} {ok : Bool}
    (h : ProcsOk s L) (ho : OwnedOk s L) (hp : p ∈ L)
    (hrun : kprocessKillProcess slot stale p exitCode s = .ok (ok, s')) :
    (ok = false ∧ (s.info p).parent = .addr 0 ∧
      s' = { s with errorNumber := .errProcExitNotAllowed }) ∨
      ok = true ∧ ∃ q, ThreadKilled s s' L p q exitCode ∨
        ∃ L', ProcessKilled s s' L L' p q exitCode := by
  by_cases hthread : (s.info p).isThread = true
  · obtain ⟨rfl, q, hkilled⟩ := killThread_spec h ho hp hthread hrun
    exact .inr ⟨rfl, q, .inl hkilled⟩
  have hprocess : (s.info p).isThread = false := Bool.eq_false_of_not_eq_true hthread
  rw [kprocessKillProcess, killWith_eq, get_bind_apply] at hrun
  rcases ite_eq_ok.1 hrun with ⟨hzero, -⟩ | ⟨-, hrun⟩
  · have hle := h.count
    have hpos := List.length_pos_of_mem hp
    omega
  obtain ⟨i, hi, hrun⟩ := getProc_bind_eq_ok.1 hrun
  obtain rfl := (info_eq hi).symm
  rcases ite_eq_ok.1 hrun with ⟨hword, hrun⟩ | ⟨hword, hrun⟩
  · obtain ⟨rfl, rfl⟩ := returnError_eq_ok.1 hrun
    obtain ⟨a, ha⟩ := h.parentAddr p hp
    rw [ha] at hword
    exact .inl ⟨rfl, ha.trans (congrArg Ptr.addr hword), rfl⟩
  obtain ⟨q, hq, hchild⟩ := h.family.isChild hp (by
    obtain ⟨a, ha⟩ := h.parentAddr p hp
    rw [ha] at hword
    rw [KState.kin, KProcessInfo.kin, ha]
    exact fun hnone => hword (by simpa [Ptr.target, Ptr.word] using hnone))
  rcases ite_eq_ok.1 hrun with ⟨-, hrun⟩ | ⟨hset, -⟩
  · obtain ⟨_, s₂, hcontext, hbury⟩ := bind_eq_ok.1 hrun
    obtain ⟨s₁, L₁, hgone, hp₁, hnil, hcgone⟩ := killContext_spec h ho hp hcontext
    obtain ⟨hsurvive, -⟩ := hgone.survive (R := fun _ => True) h ho hp (.inl fun _ => trivial)
    have hprep := hcgone.prepared hsurvive.procs hsurvive.owned hp₁
    obtain ⟨context, hinfo⟩ := hprep.info
    obtain ⟨hq', hchild'⟩ := hgone.isChild h ho hp hp₁ hprep hchild
    have hregs : (s₂.info p).registerStates = (s.info p).registerStates := by
      rw [hinfo]
      exact (KProcessInfo.of_self (hsurvive.self p hp₁)).2.2.2.2.1
    obtain ⟨rfl, hburied⟩ := bury_spec hprep.procs hprep.owned hp₁ hq' hchild'
      (by rw [hinfo]; exact hnil) hregs.symm hbury
    exact .inr ⟨rfl, q, .inr ⟨_, hprocess, hchild, hq, s₁, s₂, L₁, hgone, hp₁, hnil, hcgone,
      hburied, rfl⟩⟩
  · exact absurd (isThread_eq_false.1 hprocess) hset

/-- The PIDs stay. -/
theorem Prepared.processID (hp : Prepared s s' L q c) (x : Nat) :
    (s'.info x).processID = (s.info x).processID := by
  by_cases hx : x = q
  · obtain ⟨context, hinfo⟩ := hp.info
    rw [hx, hinfo]
  · rw [info_congr (hp.records x hx)]

/-- A process that is found by its PID is still found. -/
theorem Found.prepared {r : Nat} (hf : Found s r) (hp : Prepared s s' L q c) : Found s' r := by
  have hqueue : s'.schedulerQueue = s.schedulerQueue := congrArg Globals.schedulerQueue hp.globals
  rw [Found, KState.findProcess, hqueue, ← hf, KState.findProcess]
  refine List.find?_congr fun x _ => ?_
  rw [hp.processID, hp.processID]

/-- A child is not the root. -/
theorem ProcsOk.ne_root (h : ProcsOk s L) (hp : p ∈ L) (hchild : IsChild s.kin p q) :
    p ≠ s.rootProcess := by
  rintro rfl
  rcases h.rootProcess with hzero | ⟨-, hroot⟩
  · exact h.ne_zero hp hzero
  · rw [IsRoot, hchild.parent] at hroot
    cases hroot.1

/-- The parent of a process lives as long as the process, as it is no thread. -/
theorem ChildrenGone.parent_mem (hgone : ChildrenGone p s L s' L') (h : ProcsOk s L)
    (ho : OwnedOk s L) (hp : p ∈ L) (hchild : IsChild s.kin p q) (hq : q ∈ L) : q ∈ L' := by
  by_contra hq'
  have hleaf := h.family.parent_not_leaf hq hchild.mem
  obtain ⟨-, hthread⟩ := hgone.dead h ho hp (h.ne_root hp hchild) hq hq'
  rw [show (s.kin q).isLeaf = (s.info q).isThread from rfl, hthread] at hleaf
  cases hleaf

/-- A killed process that is no thread is gone, with its child threads. -/
theorem ProcessKilled.survive {exitCode : Nat} (h : ProcsOk s L) (ho : OwnedOk s L) (hp : p ∈ L)
    (hk : ProcessKilled s s' L L' p q exitCode) (hearsp : Hears R s p) (hearsq : Hears R s q) :
    Survive R s s' L L' ∧ p ∉ L' := by
  obtain ⟨s₁, s₂, L₁, hgone, hp₁, hnil, hcgone, hburied, rfl⟩ := hk.steps
  obtain ⟨hs₁, -⟩ := hgone.survive h ho hp hearsp
  have hprep := hcgone.prepared hs₁.procs hs₁.owned hp₁
  have hself := KProcessInfo.of_self (hs₁.self p hp₁)
  have hthread₁ : (s₁.info p).isThread = false := by
    rw [KProcessInfo.isThread, hself.2.1]
    exact hk.process
  have hnotMem : p ∉ L₁.erase p := hs₁.procs.family.nodup.not_mem_erase
  refine ⟨hs₁.trans (hprep.survive hs₁.procs hs₁.owned hp₁ hthread₁ (congrArg Ptr.word hself.2.2.1)
    (hburied.survive hprep.procs hprep.owned hp₁ fun r hr => ?_) hburied.vms hnotMem), hnotMem⟩
  have hq₁ := hgone.parent_mem h ho hp hk.child hk.mem
  have hears₂ : Hears R s₂ q :=
    (hearsq.survive hs₁ hq₁).imp_right fun hf => ⟨hf.1, hf.2.prepared hprep⟩
  exact hears₂.notified hprep.procs hk.child.ne hr

end MeghaOS
