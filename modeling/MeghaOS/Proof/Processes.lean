import MeghaOS.Lib.Family
import MeghaOS.Process
import MeghaOS.Proof.Records

/-!
# Live processes

`ProcsOk s L` says that the records of the live processes `L` form a family whose lists, and whose
queue, the kernel keeps consistent; `OwnedOk s M` says that the processes `M` own their register
states and their events. The programs on these records are specified here one by one.
-/

namespace MeghaOS

open Exec KState

variable {α : Type} {s s' : KState} {L M : List Nat} {p q a pid : Nat} {i : KProcessInfo}

/-! ## Records of processes -/

/-- The record of no process. -/
def noProcess : KProcessInfo where
  binary := ⟨0, 0⟩
  stack := ⟨0, 0⟩
  data := ⟨0, 0⟩
  context := .addr 0
  schedulerQueueNode := .null
  eventsQueueHead := []
  childrenListHead := []
  childrenListNode := .null
  parent := .addr 0
  processID := 0
  flags := 0
  state := .invalid
  registerStates := 0

/-- The record of the process at an address. -/
def KState.info (s : KState) (p : Nat) : KProcessInfo :=
  match s.objs p with
  | some (.proc i) => i
  | _ => noProcess

/-- The record of a process is its `info`. -/
theorem info_eq (h : s.objs p = some (.proc i)) : s.info p = i := by rw [KState.info, h]

/-- There is a process at an address. A record is that of a process once its state was set. -/
def KState.Live (s : KState) (p : Nat) : Prop := ∃ i, s.objs p = some (.proc i) ∧ i.state ≠ .invalid

/-- A record that is not the memory manager's is the same when the view of the records is. -/
theorem objs_of_records {o : Obj} (h : s'.records a = s.records a) (ho : o.isVm = false)
    (ha : s.objs a = some o) : s'.objs a = some o :=
  (records_eq_some.1 (h.trans (records_eq_some.2 ⟨ha, ho⟩))).1

/-- So is the record of a process. -/
theorem proc_of_records (h : s'.records p = s.records p) (hp : s.objs p = some (.proc i)) :
    s'.objs p = some (.proc i) := objs_of_records h rfl hp

/-- The process that an assigned parent field leads to. -/
def Ptr.target : Ptr → Option Nat
  | .raw _ => none
  | .addr a => if a = 0 then none else some a

/-- A pointer to a record is the record's address. -/
theorem Ptr.word_of_target {ptr : Ptr} (h : ptr.target = some q) : ptr.word = q := by
  cases ptr with
  | raw _ => cases h
  | addr a =>
    rw [Ptr.target] at h
    split_ifs at h
    exact Option.some.inj h

/-- The owner of the list of children that a node is in. -/
def NodeState.owner : NodeState Nat → Option Nat
  | .linked q => some q
  | .self | .null => none

/-- A node with an owner is linked to it. -/
theorem NodeState.eq_linked {n : NodeState Nat} (h : n.owner = some q) : n = .linked q := by
  cases n with
  | linked r => exact congrArg _ (Option.some.inj h)
  | self => cases h
  | null => cases h

/-- Whether a process is a thread. -/
def KProcessInfo.isThread (i : KProcessInfo) : Bool := bitIsSet i.flags processFlagsThread

/-- What a record says of the relatives of its process. -/
def KProcessInfo.kin (i : KProcessInfo) : Kin Nat where
  parent := i.parent.target
  listedBy := i.childrenListNode.owner
  children := i.childrenListHead
  isLeaf := i.isThread

/-- The relatives of the process at an address. -/
def KState.kin (s : KState) (p : Nat) : Kin Nat := (s.info p).kin

/-- The fields of a record that place the process among the others. -/
def KProcessInfo.place (i : KProcessInfo) :
    Ptr × NodeState Nat × List Nat × Nat × NodeState Unit :=
  (i.parent, i.childrenListNode, i.childrenListHead, i.flags, i.schedulerQueueNode)

/-- The relatives are part of a process's place. -/
theorem kin_of_place {j : KProcessInfo} (h : j.place = i.place) : j.kin = i.kin := by
  simp only [KProcessInfo.place, Prod.mk.injEq] at h
  simp only [KProcessInfo.kin, KProcessInfo.isThread, h]

/-- A process that is no thread. -/
theorem isThread_eq_false : i.isThread = false ↔ bitIsUnset i.flags processFlagsThread = true := by
  rw [KProcessInfo.isThread, bitIsUnset, Bool.not_eq_true']

/-! ## The invariants -/

/-- The records of the live processes `L` agree about who is whose child and who is in the scheduler
queue. -/
structure ProcsOk (s : KState) (L : List Nat) : Prop where
  ready : HeapReady s
  phase : s.phase = .kernelReady
  proc : ∀ p ∈ L, s.objs p = some (.proc (s.info p))
  parentAddr : ∀ p ∈ L, ∃ a, (s.info p).parent = .addr a
  family : Family s.kin L
  queueNodup : s.schedulerQueue.Nodup
  queueSubset : ∀ p ∈ s.schedulerQueue, p ∈ L
  queued : ∀ p ∈ L, (s.info p).schedulerQueueNode = .linked () ↔ p ∈ s.schedulerQueue
  rootProcess : s.rootProcess = 0 ∨ s.rootProcess ∈ L ∧ IsRoot s.kin s.rootProcess
  count : L.length ≤ s.processCount
  countMax : s.processCount ≤ maxProcessCount

/-- The processes of `M` have a register state and events of their own. -/
structure OwnedOk (s : KState) (M : List Nat) : Prop where
  regs : ∀ p ∈ M, ∃ r, s.objs (s.info p).registerStates = some (.regs r)
  regsInj : ∀ p ∈ M, ∀ q ∈ M, (s.info p).registerStates = (s.info q).registerStates → p = q
  events : ∀ p ∈ M, ∀ e ∈ (s.info p).eventsQueueHead, ∃ ev, s.objs e = some (.event ev)
  eventsNodup : ∀ p ∈ M, (s.info p).eventsQueueHead.Nodup
  eventsInj : ∀ p ∈ M, ∀ q ∈ M, ∀ e ∈ (s.info p).eventsQueueHead,
    e ∈ (s.info q).eventsQueueHead → p = q

namespace ProcsOk

/-- What the kernel knows beside the records may change: the page directory, the current process,
how many processes are counted, the root process, and the order of the queue. -/
theorem withGlobals {cr3 current count root : Nat} {queue : List Nat} (h : ProcsOk s L)
    (hqueue : queue.Perm s.schedulerQueue) (hroot : root = 0 ∨ root ∈ L ∧ IsRoot s.kin root)
    (hle : L.length ≤ count) (hmax : count ≤ maxProcessCount) :
    ProcsOk { s with
      cr3 := cr3, currentProcess := current, processCount := count, rootProcess := root,
      schedulerQueue := queue } L where
  ready := ⟨h.ready.phase, h.ready.heapOk.imp fun _ hs => ⟨hs.inv, hs.buffer, hs.objs⟩⟩
  phase := h.phase
  proc := h.proc
  parentAddr := h.parentAddr
  family := h.family
  queueNodup := hqueue.nodup_iff.2 h.queueNodup
  queueSubset p hp := h.queueSubset p (hqueue.mem_iff.1 hp)
  queued p hp := (h.queued p hp).trans hqueue.mem_iff.symm
  rootProcess := hroot
  count := hle
  countMax := hmax

/-- A live process is not at `NULL`. -/
theorem ne_zero (h : ProcsOk s L) (hp : p ∈ L) : p ≠ 0 := by
  rintro rfl
  obtain ⟨alloc, hs⟩ := h.ready.heapOk
  have hproc := h.proc 0 hp
  rw [hs.objs_zero] at hproc
  cases hproc

/-- The live processes may get other relatives. -/
theorem of_family (h : ProcsOk s L) (hready : HeapReady s') (hglobals : s'.globals = s.globals)
    (hproc : ∀ p ∈ L, s'.objs p = some (.proc (s'.info p)) ∧
      (∃ a, (s'.info p).parent = .addr a) ∧
      (s'.info p).schedulerQueueNode = (s.info p).schedulerQueueNode)
    (hfamily : Family s'.kin L) (hroot : ∀ p ∈ L, IsRoot s.kin p → IsRoot s'.kin p) :
    ProcsOk s' L := by
  have hqueue : s'.schedulerQueue = s.schedulerQueue := congrArg Globals.schedulerQueue hglobals
  have hcount : s'.processCount = s.processCount := congrArg Globals.processCount hglobals
  refine
    { ready := hready
      phase := (congrArg Globals.phase hglobals).trans h.phase
      proc := fun p hp => (hproc p hp).1
      parentAddr := fun p hp => (hproc p hp).2.1
      family := hfamily
      queueNodup := hqueue ▸ h.queueNodup
      queueSubset := hqueue ▸ h.queueSubset
      queued := fun p hp => ?_
      rootProcess := ?_
      count := hcount ▸ h.count
      countMax := hcount ▸ h.countMax }
  · rw [(hproc p hp).2.2, hqueue]
    exact h.queued p hp
  · rw [show s'.rootProcess = s.rootProcess from congrArg Globals.rootProcess hglobals]
    exact h.rootProcess.imp_right fun ⟨hmem, hr⟩ => ⟨hmem, hroot _ hmem hr⟩

/-- Only the places of the live processes matter. -/
theorem of_place (h : ProcsOk s L) (hready : HeapReady s') (hglobals : s'.globals = s.globals)
    (hproc : ∀ p ∈ L, ∃ i, s'.objs p = some (.proc i) ∧ i.place = (s.info p).place) :
    ProcsOk s' L := by
  have hinfo : ∀ p ∈ L, s'.objs p = some (.proc (s'.info p)) ∧
      (s'.info p).place = (s.info p).place := fun p hp => by
    obtain ⟨i, hi, hplace⟩ := hproc p hp
    rw [info_eq hi]
    exact ⟨hi, hplace⟩
  have hkin : ∀ p ∈ L, s'.kin p = s.kin p := fun p hp => kin_of_place (hinfo p hp).2
  refine h.of_family hready hglobals (fun p hp => ⟨(hinfo p hp).1, ?_, ?_⟩) (h.family.congr hkin)
    fun p hp hroot => ?_
  · rw [show (s'.info p).parent = (s.info p).parent from congrArg (·.1) (hinfo p hp).2]
    exact h.parentAddr p hp
  · exact congrArg (·.2.2.2.2) (hinfo p hp).2
  · rwa [IsRoot, hkin _ hp]

/-- Nothing happens to the records of the live processes. -/
theorem of_records (h : ProcsOk s L) (hready : HeapReady s') (hglobals : s'.globals = s.globals)
    (hrecords : ∀ p ∈ L, s'.records p = s.records p) : ProcsOk s' L :=
  h.of_place hready hglobals fun p hp => ⟨_, proc_of_records (hrecords p hp) (h.proc p hp), rfl⟩

/-- The memory manager changes no process. -/
theorem of_vmStep {gone : Nat → Prop} (h : ProcsOk s L) (hstep : VmStep gone s s') : ProcsOk s' L :=
  h.of_records hstep.ready hstep.globals fun p _ => congrFun hstep.records p

end ProcsOk

namespace OwnedOk

/-- Only the register states and the events of the processes matter. -/
theorem of_info (h : OwnedOk s M)
    (hinfo : ∀ p ∈ M, (s'.info p).registerStates = (s.info p).registerStates ∧
      (s'.info p).eventsQueueHead = (s.info p).eventsQueueHead)
    (hregs : ∀ p ∈ M, ∃ r, s'.objs (s.info p).registerStates = some (.regs r))
    (hevents : ∀ p ∈ M, ∀ e ∈ (s.info p).eventsQueueHead, ∃ ev, s'.objs e = some (.event ev)) :
    OwnedOk s' M where
  regs p hp := by
    rw [(hinfo p hp).1]
    exact hregs p hp
  regsInj p hp q hq heq := by
    rw [(hinfo p hp).1, (hinfo q hq).1] at heq
    exact h.regsInj p hp q hq heq
  events p hp e he := by
    rw [(hinfo p hp).2] at he
    exact hevents p hp e he
  eventsNodup p hp := by
    rw [(hinfo p hp).2]
    exact h.eventsNodup p hp
  eventsInj p hp q hq e hep heq := by
    rw [(hinfo p hp).2] at hep
    rw [(hinfo q hq).2] at heq
    exact h.eventsInj p hp q hq e hep heq

/-- Fewer processes own less. -/
theorem subset (h : OwnedOk s L) (hsub : ∀ p ∈ M, p ∈ L) : OwnedOk s M where
  regs p hp := h.regs p (hsub p hp)
  regsInj p hp q hq := h.regsInj p (hsub p hp) q (hsub q hq)
  events p hp := h.events p (hsub p hp)
  eventsNodup p hp := h.eventsNodup p (hsub p hp)
  eventsInj p hp q hq := h.eventsInj p (hsub p hp) q (hsub q hq)

end OwnedOk

/-! ## Steps on records -/

/-- The records of virtual memory, without the flag that committing pages changes. -/
def KState.vms (s : KState) (a : Nat) : Option Obj := ((s.objs a).filter Obj.isVm).map Obj.clean

/-- The records of the memory manager are what the two views leave of them. -/
theorem vms_eq (a : Nat) :
    s.vms a = ((s.objs a).map Obj.clean).filter Obj.isVm := by
  rw [KState.vms]
  cases s.objs a with
  | none => rfl
  | some o =>
    rw [Option.filter_some, Option.map_some, Option.filter_some, Obj.isVm_clean]
    split_ifs <;> rfl

/-- Committing pages changes no record of the memory manager but its dirty flag. -/
theorem vms_of_nonCommit (h : s'.nonCommit = s.nonCommit) : s'.vms = s.vms := by
  funext a
  rw [vms_eq, vms_eq, objs_clean_of_nonCommit h a]

/-- They depend on the record only. -/
theorem vms_congr (h : s'.objs a = s.objs a) : s'.vms a = s.vms a :=
    by rw [KState.vms, KState.vms, h]

/-- Where there is no record there is none of the memory manager. -/
theorem vms_of_none (h : s.objs a = none) : s.vms a = none := by
  rw [KState.vms, h]
  rfl

/-- Nor where there is another one. -/
theorem vms_of_record {o : Obj} (h : s.objs a = some o) (ho : o.isVm = false) : s.vms a = none := by
  rw [KState.vms, h, Option.filter_some, ho]
  rfl

/-- Whether a record belongs to a process. -/
def Obj.isProcess : Obj → Bool
  | proc _ | regs _ | event _ => true
  | vmm _ | vas _ | share _ | window _ => false

/-- The record of a process is none of the memory manager's. -/
theorem Obj.isVm_of_isProcess {o : Obj} (h : o.isProcess = true) : o.isVm = false := by
  cases o <;> first | rfl | cases h

/-- The windows stay as they are. -/
def SameWindows (s s' : KState) : Prop :=
  ∀ b w, s'.objs b = some (.window w) ↔ s.objs b = some (.window w)

/-- The windows are among the records. -/
theorem SameWindows.of_records (h : s'.records = s.records) : SameWindows s s' := fun b w => by
  have hiff : ∀ t : KState, t.objs b = some (.window w) ↔ t.records b = some (.window w) :=
    fun t => by simp [records_eq_some, Obj.isVm]
  rw [hiff, hiff, h]

/-- Windows stay over two steps. -/
theorem SameWindows.trans {s₁ : KState} (h₁ : SameWindows s s₁) (h₂ : SameWindows s₁ s') :
    SameWindows s s' := fun b w => (h₂ b w).trans (h₁ b w)

/-- What a program guarantees that changes records of processes at addresses of `X` alone, and
nothing else but flags of virtual memory. -/
structure RecordsStep (X : Nat → Prop) (s s' : KState) : Prop where
  ready : HeapReady s'
  globals : s'.globals = s.globals
  records : ∀ b, ¬ X b → s'.records b = s.records b
  vms : s'.vms = s.vms
  windows : SameWindows s s'

namespace RecordsStep

variable {X Y : Nat → Prop}

/-- Nothing happens. -/
theorem refl (h : HeapReady s) : RecordsStep X s s :=
  ⟨h, rfl, fun _ _ => rfl, rfl, fun _ _ => Iff.rfl⟩

/-- Two steps. -/
theorem trans {s₁ : KState} (h₁ : RecordsStep X s s₁) (h₂ : RecordsStep X s₁ s') :
    RecordsStep X s s' where
  ready := h₂.ready
  globals := h₂.globals.trans h₁.globals
  records b hb := (h₂.records b hb).trans (h₁.records b hb)
  vms := h₂.vms.trans h₁.vms
  windows := h₁.windows.trans h₂.windows

/-- A step may be said to change more. -/
theorem mono (h : RecordsStep X s s') (hXY : ∀ b, X b → Y b) : RecordsStep Y s s' where
  ready := h.ready
  globals := h.globals
  records b hb := h.records b fun hX => hb (hXY b hX)
  vms := h.vms
  windows := h.windows

/-- A step that commits pages changes no record. -/
theorem of_nonCommit (h : HeapReady s) (hnc : s'.nonCommit = s.nonCommit) : RecordsStep X s s' where
  ready := h.of_nonCommit hnc
  globals := globals_of_nonCommit hnc
  records b _ := congrFun (records_of_nonCommit hnc) b
  vms := vms_of_nonCommit hnc
  windows := .of_records (records_of_nonCommit hnc)

/-- Setting the error number changes no record. -/
theorem error (h : HeapReady s) (e : KernelErrorCodes) :
    RecordsStep X s { s with errorNumber := e } := .of_nonCommit h rfl

/-- Records of processes at one address are no windows. -/
theorem windows_of_isProcess (hrecords : ∀ b, b ≠ a → s'.records b = s.records b)
    (ha : ∀ o, s.objs a = some o → o.isProcess = true)
    (ha' : ∀ o, s'.objs a = some o → o.isProcess = true) : SameWindows s s' := fun b w => by
  by_cases hb : b = a
  · have hnot : ∀ t : KState, (∀ o, t.objs a = some o → o.isProcess = true) →
        t.objs b ≠ some (.window w) := fun t ht hw => by
      have habsurd := ht _ (hb ▸ hw)
      cases habsurd
    exact ⟨fun hw => absurd hw (hnot s' ha'), fun hw => absurd hw (hnot s ha)⟩
  · have hiff : ∀ t : KState, t.objs b = some (.window w) ↔ t.records b = some (.window w) :=
      fun t => by simp [records_eq_some, Obj.isVm]
    rw [hiff, hiff, hrecords b hb]

/-- A record of a process is put in the place of another one. -/
theorem setObj (h : HeapReady s) {o o' : Obj} (ha : s.objs a = some o) (ho : o.isProcess = true)
    (ho' : o'.isProcess = true) : RecordsStep (· = a) s (s.setObj a o') where
  ready := h.setObj (by rw [ha]; simp)
  globals := rfl
  records b hb := by simp [KState.records, KState.setObj, hb]
  vms := by
    funext b
    by_cases hb : b = a
    · rw [hb, vms_of_record ha (Obj.isVm_of_isProcess ho),
        vms_of_record (objs_setObj_self o') (Obj.isVm_of_isProcess ho')]
    · exact vms_congr (objs_setObj_of_ne o' hb)
  windows := windows_of_isProcess (fun b hb => by simp [KState.records, KState.setObj, hb])
    (fun o₁ h₁ => Option.some.inj (ha.symm.trans h₁) ▸ ho)
    (fun o₁ h₁ => Option.some.inj ((objs_setObj_self o').symm.trans h₁) ▸ ho')

end RecordsStep

/-- A new record of a process. -/
theorem kmallocObj_recordsStep {o : Obj} (ho : o.isProcess = true) (hready : HeapReady s)
    (hrun : kmallocObj o s = .ok (a, s')) : (a = 0 ∧ ∃ e, s' = { s with errorNumber := e }) ∨
      a ≠ 0 ∧ s.objs a = none ∧ s'.objs a = some o ∧ RecordsStep (· = a) s s' := by
  rcases kmallocObj_recordStep hready hrun with herr | ⟨hne, -, hfresh, hnew, hstep⟩
  · exact .inl herr
  refine .inr ⟨hne, hfresh, hnew, hstep.ready, hstep.globals, fun b hb => hstep.records b hb, ?_,
    RecordsStep.windows_of_isProcess hstep.records (fun o₁ h₁ => by rw [hfresh] at h₁; cases h₁)
      fun o₁ h₁ => Option.some.inj (hnew.symm.trans h₁) ▸ ho⟩
  obtain ⟨alloc, hs⟩ := hready.heapOk
  rcases kmallocObj_spec hs hrun with ⟨rfl, -⟩ | ⟨node, s₁, s₂, rfl, hall, rfl⟩
  · exact absurd rfl hne
  funext b
  by_cases hb : b = node + sizeofKMallocHeader
  · rw [hb, vms_of_record hnew (Obj.isVm_of_isProcess ho), vms_of_none hfresh]
  · have hobjs : (s₂.setObj (node + sizeofKMallocHeader) o).objs b = s₁.objs b := by
      rw [objs_setObj_of_ne _ hb, hall.objs_eq]
    rw [vms_congr hobjs, vms_of_nonCommit hall.nonCommit]

/-- A record of a process is released, or it stays. -/
theorem kfree_recordsStep {o : Obj} {ok : Bool} (hready : HeapReady s) (ha : s.objs a = some o)
    (ho : o.isProcess = true) (hrun : kfree a s = .ok (ok, s')) : RecordsStep (· = a) s s' := by
  have hlt := hready.lt (a := a) (by rw [ha]; simp)
  obtain ⟨hstep, hobjs⟩ := kfree_recordStep hready hlt hrun
  refine ⟨hstep.ready, hstep.globals, fun b hb => hstep.records b hb, ?_,
    RecordsStep.windows_of_isProcess hstep.records
      (fun o₁ h₁ => Option.some.inj (ha.symm.trans h₁) ▸ ho) fun o₁ h₁ => ?_⟩
  · obtain ⟨alloc, hs⟩ := hready.heapOk
    rcases kfree_spec hs hlt hrun with ⟨-, -, e, rfl⟩ | ⟨-, node, -, -, -, -, heq⟩
    · rfl
    funext b
    by_cases hb : b = a
    · rw [hb, vms_of_record ha (Obj.isVm_of_isProcess ho), heq]
      exact vms_of_none (if_pos rfl)
    · rw [heq]
      exact vms_congr (if_neg hb)
  · rcases hobjs with ⟨-, hnone⟩ | ⟨-, hsame, -⟩
    · rw [hnone] at h₁
      cases h₁
    · rw [hsame, ha] at h₁
      exact Option.some.inj h₁ ▸ ho

/-- No process appears outside `L`. -/
def NoNewProcess (L : List Nat) (s s' : KState) : Prop :=
  ∀ b i, b ∉ L → s'.objs b = some (.proc i) → s.objs b = some (.proc i)

namespace NoNewProcess

/-- Nothing happens. -/
theorem refl : NoNewProcess L s s := fun _ _ _ h => h

/-- Two steps. -/
theorem trans {s₁ : KState} (h₁ : NoNewProcess L s s₁) (h₂ : NoNewProcess L s₁ s') :
    NoNewProcess L s s' := fun b i hb hi => h₁ b i hb (h₂ b i hb hi)

/-- A step that leaves the records of other addresses. -/
theorem of_records (h : ∀ b, b ∉ L → s'.records b = s.records b) : NoNewProcess L s s' :=
  fun b _ hb hi => proc_of_records (h b hb).symm hi

/-- A release. -/
theorem kfree {ok : Bool} (hready : HeapReady s) (hlt : a < 2 ^ 32)
    (hrun : kfree a s = .ok (ok, s')) : NoNewProcess L s s' := fun b i _ hi => by
  obtain ⟨hstep, hobjs⟩ := kfree_recordStep hready hlt hrun
  by_cases hb : b = a
  · rw [hb] at hi ⊢
    rcases hobjs with ⟨-, hnone⟩ | ⟨-, hsame, -⟩
    · rw [hnone] at hi
      cases hi
    · rwa [hsame] at hi
  · exact proc_of_records (hstep.records b hb).symm hi

end NoNewProcess

/-- Writing the record of a process changes that record only. -/
theorem modifyProc_recordsStep {f : KProcessInfo → KProcessInfo} (hready : HeapReady s)
    (hrun : modifyProc p f s = .ok ((), s')) : s.objs p = some (.proc (s.info p)) ∧
      s' = s.setObj p (.proc (f (s.info p))) ∧ RecordsStep (· = p) s s' := by
  obtain ⟨i, hi, rfl⟩ := modifyProc_eq_ok.1 hrun
  rw [info_eq hi]
  exact ⟨hi, rfl, .setObj hready hi rfl rfl⟩

/-- The `info` of a process depends on its record only. -/
theorem info_congr_objs (h : s'.objs p = s.objs p) : s'.info p = s.info p := by
  rw [KState.info, KState.info, h]

/-- And so on the view of the records. -/
theorem info_congr (h : s'.records p = s.records p) : s'.info p = s.info p := by
  have hread : ∀ t : KState, t.info p =
      match t.records p with | some (.proc i) => i | _ => noProcess := fun t => by
    rw [KState.info, KState.records]
    cases t.objs p with
    | none => rfl
    | some o => cases o <;> rfl
  rw [hread, hread, h]

/-- The records after one was put. -/
theorem info_setObj (i : KProcessInfo) :
    (s.setObj p (.proc i)).info q = if q = p then i else s.info q := by
  by_cases hq : q = p
  · rw [hq, if_pos rfl]
    exact info_eq (objs_setObj_self _)
  · rw [if_neg hq]
    exact info_congr_objs (objs_setObj_of_ne _ hq)

/-! ## Looking up a process -/

/-- `s_getProcessInfoFromID` finds the first process in the queue with the PID. -/
theorem findPid_eq (l : List Nat) (hl : ∀ p ∈ l, s.objs p = some (.proc (s.info p))) :
    findPid pid l s = match l.find? fun p => (s.info p).processID = pid with
      | some p => .ok (p, s)
      | none => .ok (0, { s with errorNumber := .errInvalidRange }) := by
  induction l with
  | nil => rfl
  | cons p l ih =>
    have hp : getProc p s = .ok (s.info p, s) := getProc_eq_ok.2 ⟨hl p List.mem_cons_self, rfl⟩
    rw [findPid, bind_of_ok hp, Exec.ite_apply]
    by_cases hpid : (s.info p).processID = pid
    · rw [if_pos hpid, List.find?_cons_of_pos (by simpa using hpid)]
      rfl
    · rw [if_neg hpid, List.find?_cons_of_neg (by simpa using hpid)]
      exact ih fun q hq => hl q (.tail _ hq)

/-- The process that a PID stands for. -/
def KState.findProcess (s : KState) (pid : Nat) : Option Nat :=
  s.schedulerQueue.find? fun p => (s.info p).processID = pid

/-- A process that is found by its PID is in the queue. -/
theorem findProcess_mem (h : s.findProcess pid = some p) :
    p ∈ s.schedulerQueue ∧ (s.info p).processID = pid :=
  ⟨List.mem_of_find?_eq_some h, by simpa using List.find?_some h⟩

/-- The lookup of `kprocess_pushEvent` and `kprocess_popEvent` finds a process. -/
theorem lookup_bind_eq_ok {β : Type} {e : String} {f : Nat → K β} {r : β × KState}
    (h : ProcsOk s L)
    (hrun : (do
      let pinfo ← sGetProcessInfoFromID pid
      kAssert (pinfo ≠ 0) e
      f pinfo) s = .ok r) : ∃ p, s.findProcess pid = some p ∧ f p s = .ok r := by
  obtain ⟨pinfo, s₁, hfind, hrest⟩ := bind_eq_ok.1 hrun
  rw [sGetProcessInfoFromID, get_bind_apply,
    findPid_eq _ fun p hp => h.proc p (h.queueSubset p hp)] at hfind
  obtain ⟨hne, hrest⟩ := kAssert_bind_eq_ok.1 hrest
  cases hprocess : s.findProcess pid with
  | none =>
    rw [KState.findProcess] at hprocess
    rw [hprocess] at hfind
    cases hfind
    exact absurd rfl hne
  | some p =>
    have hprocess' := hprocess
    rw [KState.findProcess] at hprocess'
    rw [hprocess'] at hfind
    cases hfind
    exact ⟨_, rfl, hrest⟩

/-! ## Events -/

/-- What `kprocess_pushEvent` does when there is memory for the event: a new record at the end of
the queue of the process. -/
structure Pushed (s s' : KState) (p e : Nat) (ev : KProcessEvent) : Prop where
  fresh : s.objs e = none
  event : s'.objs e = some (.event ev)
  proc : s'.objs p = some (.proc { s.info p with
    eventsQueueHead := (s.info p).eventsQueueHead ++ [e] })
  step : RecordsStep (fun b => b = p ∨ b = e) s s'

/-- `kprocess_pushEvent` has no memory for the event, or appends it to the queue of the process that
has the PID. -/
theorem kprocessPushEvent_spec (h : ProcsOk s L) {eventID : KernelEvents} {data : Nat} {ok : Bool}
    (hrun : kprocessPushEvent pid eventID data s = .ok (ok, s')) :
    ∃ p, s.findProcess pid = some p ∧
      ((ok = false ∧ ∃ e, s' = { s with errorNumber := e }) ∨
        ok = true ∧ ∃ e, Pushed s s' p e ⟨eventID, data⟩) := by
  obtain ⟨p, hfind, hrest⟩ := lookup_bind_eq_ok h hrun
  refine ⟨p, hfind, ?_⟩
  have hproc := h.proc p (h.queueSubset p (findProcess_mem hfind).1)
  obtain ⟨e, s₁, hnew, hrest⟩ := bind_eq_ok.1 hrest
  rcases kmallocObj_recordsStep rfl h.ready hnew with ⟨rfl, e, rfl⟩ | ⟨hne, hfresh, hevent, hstep⟩
  · cases hrest
    exact .inl ⟨rfl, e, rfl⟩
  rw [if_neg hne] at hrest
  obtain ⟨_, s₂, hmodify, hrest⟩ := bind_eq_ok.1 hrest
  cases hrest
  obtain ⟨hp₁, rfl, hstep'⟩ := modifyProc_recordsStep hstep.ready hmodify
  have hpe : p ≠ e := by
    rintro rfl
    rw [hfresh] at hproc
    cases hproc
  have hinfo : s₁.info p = s.info p := info_congr (hstep.records p hpe)
  refine .inr ⟨rfl, e, hfresh, ?_, ?_, (hstep.mono fun b hb => .inr hb).trans
    (hstep'.mono fun b hb => .inl hb)⟩
  · rw [objs_setObj_of_ne _ hpe.symm, hevent]
  · rw [objs_setObj_self, hinfo]

namespace Pushed

variable {e : Nat} {ev : KProcessEvent}

/-- The event is a new record. -/
theorem ne (h : ProcsOk s L) (hpush : Pushed s s' p e ev) (hq : q ∈ L) : q ≠ e := by
  rintro rfl
  have hproc := h.proc q hq
  rw [hpush.fresh] at hproc
  cases hproc

/-- The other processes get nothing. -/
theorem info_of_ne (h : ProcsOk s L) (hpush : Pushed s s' p e ev) (hq : q ∈ L) (hne : q ≠ p) :
    s'.info q = s.info q :=
  info_congr (hpush.step.records q fun hor => hor.elim hne (hpush.ne h hq))

/-- The process gets the event at the end of its queue. -/
theorem info_self (hpush : Pushed s s' p e ev) : s'.info p = { s.info p with
    eventsQueueHead := (s.info p).eventsQueueHead ++ [e] } := info_eq hpush.proc

/-- The processes are as they were. -/
theorem procsOk (h : ProcsOk s L) (hpush : Pushed s s' p e ev) : ProcsOk s' L := by
  refine h.of_place hpush.step.ready hpush.step.globals fun q hq => ?_
  by_cases hqp : q = p
  · rw [hqp]
    exact ⟨_, hpush.proc, rfl⟩
  · refine ⟨_, proc_of_records (hpush.step.records q fun hor => ?_) (h.proc q hq), rfl⟩
    exact hor.elim hqp (hpush.ne h hq)

end Pushed

namespace OwnedOk

/-- A step that changes records of processes, or where there is no record, disturbs no register
states and no events. -/
theorem of_step {X : Nat → Prop} (h : OwnedOk s M) (hstep : RecordsStep X s s')
    (hX : ∀ b, X b → s.objs b = none ∨ ∃ i, s.objs b = some (.proc i))
    (hinfo : ∀ p ∈ M, (s'.info p).registerStates = (s.info p).registerStates ∧
      (s'.info p).eventsQueueHead = (s.info p).eventsQueueHead) : OwnedOk s' M := by
  have hkeep : ∀ {b o}, s.objs b = some o → (∀ i, o ≠ .proc i) → o.isVm = false →
      s'.objs b = some o := fun {b o} hb hproc hvm => by
    refine objs_of_records (hstep.records b fun hXb => ?_) hvm hb
    rcases hX b hXb with hnone | ⟨i, hi⟩
    · rw [hb] at hnone
      cases hnone
    · exact hproc i (Option.some.inj (hb.symm.trans hi))
  refine h.of_info hinfo (fun p hp => ?_) fun p hp e he => ?_
  · obtain ⟨r, hr⟩ := h.regs p hp
    exact ⟨r, hkeep hr (fun i => by simp) rfl⟩
  · obtain ⟨ev, hev⟩ := h.events p hp e he
    exact ⟨ev, hkeep hev (fun i => by simp) rfl⟩

/-- What the processes own is in their records. -/
theorem of_records (h : OwnedOk s M) (hrecords : s'.records = s.records) : OwnedOk s' M := by
  refine h.of_info (fun p _ => ?_) (fun p hp => ?_) fun p hp e he => ?_
  · rw [info_congr (congrFun hrecords p)]
    exact ⟨rfl, rfl⟩
  · obtain ⟨r, hr⟩ := h.regs p hp
    exact ⟨r, objs_of_records (congrFun hrecords _) rfl hr⟩
  · obtain ⟨ev, hev⟩ := h.events p hp e he
    exact ⟨ev, objs_of_records (congrFun hrecords _) rfl hev⟩

/-- A new event for one of the processes, or for another one. -/
theorem pushed {e : Nat} {ev : KProcessEvent} (h : OwnedOk s M) (hprocs : ProcsOk s L)
    (hsub : ∀ q ∈ M, q ∈ L) (hp : p ∈ L) (hpush : Pushed s s' p e ev) : OwnedOk s' M := by
  have hinfo : ∀ q ∈ M, s'.info q = if q = p then { s.info q with
      eventsQueueHead := (s.info q).eventsQueueHead ++ [e] } else s.info q := fun q hq => by
    split_ifs with hqp
    · rw [hqp, hpush.info_self]
    · exact hpush.info_of_ne hprocs (hsub q hq) hqp
  have hregs : ∀ q ∈ M, (s'.info q).registerStates = (s.info q).registerStates := fun q hq => by
    rw [hinfo q hq]
    split_ifs <;> rfl
  have hevents : ∀ q ∈ M, (s'.info q).eventsQueueHead =
      if q = p then (s.info q).eventsQueueHead ++ [e] else (s.info q).eventsQueueHead := by
    intro q hq
    rw [hinfo q hq]
    split_ifs <;> rfl
  have hkeep : ∀ {b o}, s.objs b = some o → (∀ i, o ≠ .proc i) → o.isVm = false →
      s'.objs b = some o := fun {b o} hb hproc hvm => by
    refine objs_of_records (hpush.step.records b fun hor => ?_) hvm hb
    rcases hor with rfl | rfl
    · exact hproc _ (Option.some.inj (hb.symm.trans (hprocs.proc b hp)))
    · rw [hpush.fresh] at hb
      cases hb
  have hnew : ∀ q ∈ M, e ∉ (s.info q).eventsQueueHead := fun q hq hmem => by
    obtain ⟨ev', hev'⟩ := h.events q hq e hmem
    rw [hpush.fresh] at hev'
    cases hev'
  have hmem : ∀ {q b}, q ∈ M → b ∈ (s'.info q).eventsQueueHead →
      b ∈ (s.info q).eventsQueueHead ∨ q = p ∧ b = e := fun {q b} hq hb => by
    rw [hevents q hq] at hb
    split_ifs at hb with hqp
    · exact (List.mem_append.1 hb).imp_right fun hb => ⟨hqp, List.mem_singleton.1 hb⟩
    · exact .inl hb
  refine
    { regs := fun q hq => ?_
      regsInj := fun q hq r hr heq => h.regsInj q hq r hr (by rwa [hregs q hq, hregs r hr] at heq)
      events := fun q hq b hb => ?_
      eventsNodup := fun q hq => ?_
      eventsInj := fun q hq r hr b hbq hbr => ?_ }
  · rw [hregs q hq]
    obtain ⟨r, hr⟩ := h.regs q hq
    exact ⟨r, hkeep hr (fun i => by simp) rfl⟩
  · rcases hmem hq hb with hb | ⟨-, rfl⟩
    · obtain ⟨ev', hev'⟩ := h.events q hq b hb
      exact ⟨ev', hkeep hev' (fun i => by simp) rfl⟩
    · exact ⟨ev, hpush.event⟩
  · rw [hevents q hq]
    split_ifs
    · exact (h.eventsNodup q hq).append (List.nodup_singleton e)
        (List.disjoint_singleton.2 (hnew q hq))
    · exact h.eventsNodup q hq
  · rcases hmem hq hbq with hbq | ⟨rfl, rfl⟩
    · rcases hmem hr hbr with hbr | ⟨-, rfl⟩
      · exact h.eventsInj q hq r hr b hbq hbr
      · exact absurd hbq (hnew q hq)
    · rcases hmem hr hbr with hbr | ⟨rfl, -⟩
      · exact absurd hbr (hnew r hr)
      · rfl

end OwnedOk

/-- Freeing the events of a process. -/
theorem freeEvents_spec {es : List Nat} (hready : HeapReady s) (hnodup : es.Nodup)
    (hes : ∀ e ∈ es, ∃ ev, s.objs e = some (.event ev)) (hrun : freeEvents es s = .ok ((), s')) :
    RecordsStep (· ∈ es) s s' ∧ NoNewProcess L s s' := by
  induction es generalizing s with
  | nil =>
    cases hrun
    exact ⟨.refl hready, .refl⟩
  | cons e es ih =>
    obtain ⟨ok, s₁, hfree, hrest⟩ := bind_eq_ok.1 hrun
    obtain ⟨ev, hev⟩ := hes e List.mem_cons_self
    obtain ⟨hnotMem, hnodup⟩ := List.nodup_cons.1 hnodup
    have h₁ := kfree_recordsStep hready hev rfl hfree
    obtain ⟨h₂, hnew⟩ := ih h₁.ready hnodup (fun e' he' => by
      obtain ⟨ev', hev'⟩ := hes e' (.tail _ he')
      have hne : e' ≠ e := fun heq => hnotMem (heq ▸ he')
      exact ⟨ev', objs_of_records (h₁.records e' hne) rfl hev'⟩) hrest
    refine ⟨(h₁.mono fun b hb => hb ▸ List.mem_cons_self).trans (h₂.mono fun b hb => .tail _ hb),
      ?_⟩
    exact (NoNewProcess.kfree hready (hready.lt (by rw [hev]; simp)) hfree).trans hnew

/-! ## Lists of children -/

/-- `list_remove` of a process that is in the list of another one. -/
theorem childrenListRemove_spec (hready : HeapReady s) (hne : p ≠ q)
    (hnode : (s.info p).childrenListNode = .linked q)
    (hrun : childrenListRemove p s = .ok ((), s')) :
    s'.objs p = some (.proc { s.info p with childrenListNode := .null }) ∧
      s'.objs q = some (.proc { s.info q with
        childrenListHead := (s.info q).childrenListHead.erase p }) ∧
      RecordsStep (fun b => b = p ∨ b = q) s s' := by
  obtain ⟨i, hi, hrest⟩ := getProc_bind_eq_ok.1 hrun
  obtain rfl := info_eq hi
  rw [hnode] at hrest
  obtain ⟨_, s₁, hmodify, hrest⟩ := bind_eq_ok.1 hrest
  obtain ⟨hq, rfl, h₁⟩ := modifyProc_recordsStep hready hmodify
  obtain ⟨-, rfl, h₂⟩ := modifyProc_recordsStep h₁.ready hrest
  refine ⟨?_, ?_, (h₁.mono fun b hb => .inr hb).trans (h₂.mono fun b hb => .inl hb)⟩
  · rw [objs_setObj_self, info_setObj, if_neg hne]
  · rw [objs_setObj_of_ne _ hne.symm, objs_setObj_self]

/-- `list_remove` of a process that is in no list. -/
theorem childrenListRemove_spec_self (hready : HeapReady s)
    (hnode : (s.info p).childrenListNode = .self)
    (hrun : childrenListRemove p s = .ok ((), s')) :
    s' = s.setObj p (.proc { s.info p with childrenListNode := .null }) ∧
      RecordsStep (· = p) s s' := by
  obtain ⟨i, hi, hrest⟩ := getProc_bind_eq_ok.1 hrun
  obtain rfl := info_eq hi
  rw [hnode] at hrest
  obtain ⟨-, rfl, h₁⟩ := modifyProc_recordsStep hready hrest
  exact ⟨rfl, h₁⟩

/-- `list_add_before` of a process at the end of the children of another one. -/
theorem childrenListAdd_spec (hready : HeapReady s) (hne : p ≠ q)
    (hrun : childrenListAdd q p s = .ok ((), s')) :
    s.objs q = some (.proc (s.info q)) ∧ s.objs p = some (.proc (s.info p)) ∧
      s'.objs p = some (.proc { s.info p with childrenListNode := .linked q }) ∧
      s'.objs q = some (.proc { s.info q with
        childrenListHead := (s.info q).childrenListHead ++ [p] }) ∧
      RecordsStep (fun b => b = p ∨ b = q) s s' := by
  obtain ⟨_, s₁, hmodify, hrest⟩ := bind_eq_ok.1 hrun
  obtain ⟨hq, rfl, h₁⟩ := modifyProc_recordsStep hready hmodify
  obtain ⟨hp, rfl, h₂⟩ := modifyProc_recordsStep h₁.ready hrest
  rw [objs_setObj_of_ne _ hne, info_setObj, if_neg hne] at hp
  refine ⟨hq, hp, ?_, ?_, (h₁.mono fun b hb => .inr hb).trans (h₂.mono fun b hb => .inl hb)⟩
  · rw [objs_setObj_self, info_setObj, if_neg hne]
  · rw [objs_setObj_of_ne _ hne.symm, objs_setObj_self]

/-! ## A process leaves -/

/-- `queue_remove` of a process. -/
theorem queueRemove_spec (hready : HeapReady s) (hrun : queueRemove p s = .ok ((), s')) :
    s'.objs p = some (.proc { s.info p with schedulerQueueNode := .null }) ∧
      RecordsStep (· = p) { s with schedulerQueue := if (s.info p).schedulerQueueNode = .linked ()
        then s.schedulerQueue.erase p else s.schedulerQueue } s' := by
  obtain ⟨i, hi, hrest⟩ := getProc_bind_eq_ok.1 hrun
  obtain rfl := info_eq hi
  cases hnode : (s.info p).schedulerQueueNode with
  | null =>
    rw [hnode] at hrest
    cases hrest
  | self =>
    rw [hnode] at hrest
    obtain ⟨-, rfl, h₁⟩ := modifyProc_recordsStep hready hrest
    rw [if_neg (by simp)]
    exact ⟨objs_setObj_self _, h₁⟩
  | linked u =>
    rw [hnode] at hrest
    rw [if_pos rfl]
    simp only [modify_bind_apply] at hrest
    have hready₁ : HeapReady { s with schedulerQueue := s.schedulerQueue.erase p } :=
      ⟨hready.phase, hready.heapOk.imp fun _ hs => ⟨hs.inv, hs.buffer, hs.objs⟩⟩
    obtain ⟨-, rfl, h₁⟩ := modifyProc_recordsStep hready₁ hrest
    exact ⟨objs_setObj_self _, h₁⟩

/-- What is left of the others when a process without children leaves them. -/
structure Left (s s' : KState) (L : List Nat) (p q : Nat) : Prop where
  procs : ProcsOk s' (L.erase p)
  proc : s'.objs p = some (.proc { s.info p with
    childrenListNode := .null, schedulerQueueNode := .null })
  info : ∀ r ∈ L, r ≠ p → s'.info r =
    { s.info r with childrenListHead := (s.info r).childrenListHead.erase p }
  globals : s'.globals = { s.globals with schedulerQueue := s.schedulerQueue.erase p }
  records : ∀ b, b ≠ p → b ≠ q → s'.records b = s.records b
  vms : s'.vms = s.vms
  windows : SameWindows s s'

/-- A process without children leaves the list of its parent and the scheduler queue. -/
theorem leave_spec (h : ProcsOk s L) (hp : p ∈ L) (hchild : IsChild s.kin p q)
    (hleaf : (s.info p).childrenListHead = []) {s₁ : KState}
    (hrun₁ : childrenListRemove p s = .ok ((), s₁)) (hrun₂ : queueRemove p s₁ = .ok ((), s')) :
    Left s s' L p q := by
  have hnode : (s.info p).childrenListNode = .linked q := NodeState.eq_linked hchild.listedBy
  obtain ⟨hp₁, hq₁, h₁⟩ := childrenListRemove_spec h.ready hchild.ne hnode hrun₁
  obtain ⟨hp₂, h₂⟩ := queueRemove_spec h₁.ready hrun₂
  have hqueue₁ : s₁.schedulerQueue = s.schedulerQueue := congrArg Globals.schedulerQueue h₁.globals
  have hqueueNode : (s₁.info p).schedulerQueueNode = (s.info p).schedulerQueueNode := by
    rw [info_eq hp₁]
  have herase : (if (s₁.info p).schedulerQueueNode = .linked () then s₁.schedulerQueue.erase p
      else s₁.schedulerQueue) = s.schedulerQueue.erase p := by
    rw [hqueueNode, hqueue₁]
    split_ifs with hlinked
    · rfl
    · rw [List.erase_of_not_mem fun hmem => hlinked ((h.queued p hp).2 hmem)]
  rw [herase] at h₂
  have hglobals : s'.globals = { s.globals with schedulerQueue := s.schedulerQueue.erase p } := by
    rw [h₂.globals, ← h₁.globals]
    rfl
  have hother : ∀ b, b ≠ p → b ≠ q → s'.records b = s.records b := fun b hbp hbq =>
    (h₂.records b hbp).trans (h₁.records b fun hor => hor.elim hbp hbq)
  have hq₂ : s'.objs q = some (.proc { s.info q with
      childrenListHead := (s.info q).childrenListHead.erase p }) :=
    proc_of_records (h₂.records q hchild.ne.symm) hq₁
  have herased : ∀ r ∈ L, r ≠ q →
      (s.info r).childrenListHead.erase p = (s.info r).childrenListHead := fun r hr hrq =>
    List.erase_of_not_mem (h.family.notMem_children hchild hr hrq)
  have hinfo : ∀ r ∈ L, r ≠ p → s'.objs r = some (.proc { s.info r with
      childrenListHead := (s.info r).childrenListHead.erase p }) := fun r hr hrp => by
    by_cases hrq : r = q
    · rw [hrq]
      exact hq₂
    · rw [herased r hr hrq]
      exact proc_of_records (hother r hrp hrq) (h.proc r hr)
  have hsub : ∀ {r}, r ∈ L.erase p → r ∈ L ∧ r ≠ p := fun hr =>
    ⟨List.mem_of_mem_erase hr, (h.family.nodup.mem_erase_iff.1 hr).1⟩
  have hqueue : s'.schedulerQueue = s.schedulerQueue.erase p :=
    congrArg Globals.schedulerQueue hglobals
  have hkin : ∀ r ∈ L, r ≠ p → s'.kin r =
      if r = q then { s.kin q with children := (s.kin q).children.erase p } else s.kin r := by
    intro r hr hrp
    rw [KState.kin, info_eq (hinfo r hr hrp)]
    split_ifs with hrq
    · rw [hrq]
      rfl
    · rw [herased r hr hrq]
      rfl
  refine ⟨?_, ?_, fun r hr hrp => info_eq (hinfo r hr hrp), hglobals, hother, h₂.vms.trans h₁.vms,
    h₁.windows.trans h₂.windows⟩
  · refine
      { ready := h₂.ready
        phase := (congrArg Globals.phase hglobals).trans h.phase
        proc := fun r hr => ?_
        parentAddr := fun r hr => ?_
        family := h.family.unlink hchild hleaf hkin
        queueNodup := hqueue ▸ h.queueNodup.erase p
        queueSubset := fun r hr => ?_
        queued := fun r hr => ?_
        rootProcess := ?_
        count := ?_
        countMax := ?_ }
    · obtain ⟨hrL, hrp⟩ := hsub hr
      rw [info_eq (hinfo r hrL hrp)]
      exact hinfo r hrL hrp
    · obtain ⟨hrL, hrp⟩ := hsub hr
      rw [info_eq (hinfo r hrL hrp)]
      exact h.parentAddr r hrL
    · rw [hqueue, h.queueNodup.mem_erase_iff] at hr
      exact h.family.nodup.mem_erase_iff.2 ⟨hr.1, h.queueSubset r hr.2⟩
    · obtain ⟨hrL, hrp⟩ := hsub hr
      rw [info_eq (hinfo r hrL hrp), hqueue, h.queueNodup.mem_erase_iff]
      exact (h.queued r hrL).trans ⟨fun hmem => ⟨hrp, hmem⟩, And.right⟩
    · rw [show s'.rootProcess = s.rootProcess from congrArg Globals.rootProcess hglobals]
      refine h.rootProcess.imp_right fun ⟨hmem, hroot⟩ => ?_
      have hne : s.rootProcess ≠ p := by
        rintro heq
        rw [heq, IsRoot, hchild.parent] at hroot
        cases hroot.1
      refine ⟨h.family.nodup.mem_erase_iff.2 ⟨hne, hmem⟩, ?_⟩
      rw [IsRoot, hkin _ hmem hne]
      split_ifs with hrq
      · rw [hrq] at hroot
        exact hroot
      · exact hroot
    · rw [show s'.processCount = s.processCount from congrArg Globals.processCount hglobals]
      exact Nat.le_trans (List.length_erase_le) h.count
    · rw [show s'.processCount = s.processCount from congrArg Globals.processCount hglobals]
      exact h.countMax
  · rw [hp₂, info_eq hp₁]

end MeghaOS
