import MeghaOS.Proof.Schedule

/-!
# Creating a process

The steps of `kprocess_create` first make the records of the new process, which no other process
knows (`Outside`), then set up its memory, which changes its own record alone (`SetupStep`), and
last enter it among its relatives and into the scheduler queue (`Linked`).
-/

namespace MeghaOS

open Exec KState

variable {α : Type} {s s' s₁ : KState} {L : List Nat} {p q a : Nat} {i : KProcessInfo}

/-! ## Set-up of the memory -/

/-- A record without what the set-up of the memory of its process changes. -/
def KProcessInfo.fixed (i : KProcessInfo) : KProcessInfo :=
  { i with binary := ⟨0, 0⟩, stack := ⟨0, 0⟩, data := ⟨0, 0⟩ }

/-- What a program guarantees that sets up the memory of the process `p`. -/
structure SetupStep (p : Nat) (s s' : KState) : Prop where
  ready : HeapReady s'
  globals : s'.globals = s.globals
  records : ∀ b, b ≠ p → s'.records b = s.records b
  proc : s'.objs p = some (.proc (s'.info p))
  info : (s'.info p).fixed = (s.info p).fixed
  managers : ∀ m, ManagerKept m s s'

/-- The guarantee, when the heap and the record of the process are there before. -/
def SetupFrame (p : Nat) (s s' : KState) : Prop :=
  HeapReady s → s.objs p = some (.proc (s.info p)) → SetupStep p s s'

namespace SetupStep

/-- Nothing happens. -/
theorem refl (h : HeapReady s) (hp : s.objs p = some (.proc (s.info p))) : SetupStep p s s :=
  ⟨h, rfl, fun _ _ => rfl, hp, rfl, fun _ => .refl⟩

/-- Two steps. -/
theorem trans (h₁ : SetupStep p s s₁) (h₂ : SetupStep p s₁ s') : SetupStep p s s' where
  ready := h₂.ready
  globals := h₂.globals.trans h₁.globals
  records b hb := (h₂.records b hb).trans (h₁.records b hb)
  proc := h₂.proc
  info := h₂.info.trans h₁.info
  managers m := (h₁.managers m).trans (h₂.managers m)

/-- A run of the memory manager. -/
theorem of_vmStep (hp : s.objs p = some (.proc (s.info p))) (h : VmStep (fun _ => False) s s') :
    SetupStep p s s' := by
  have hinfo : s'.info p = s.info p := info_congr (congrFun h.records p)
  refine ⟨h.ready, h.globals, fun b _ => congrFun h.records b, ?_, by rw [hinfo],
    fun m => .of_vmStep h id⟩
  rw [hinfo]
  exact proc_of_records (congrFun h.records p) hp

end SetupStep

instance : IsPreorder KState (SetupFrame p) where
  refl _ h hp := .refl h hp
  trans _ _ _ h₁ h₂ h hp := (h₁ h hp).trans (h₂ (h₁ h hp).ready (h₁ h hp).proc)

/-- A program of the memory manager. -/
theorem Exec.Ensures.setupFrame {x : K α} (h : Ensures (VmFrame fun _ => False) x) :
    Ensures (SetupFrame p) x :=
  fun _ _ _ hrun hready hp => .of_vmStep hp (h _ _ _ hrun hready)

/-- A program that may only commit pages. -/
theorem Exec.Fixes.setupFrame {x : K α} (h : Fixes nonCommit x) : Ensures (SetupFrame p) x :=
  h.vmFrame.setupFrame

/-- A write to the new record that leaves the fixed fields. -/
theorem modifyProc_setupFrame {f : KProcessInfo → KProcessInfo} (hf : ∀ i, (f i).fixed = i.fixed) :
    Ensures (SetupFrame p) (modifyProc p f) := by
  intro s _ s' hrun hready hp
  obtain ⟨-, rfl, hstep⟩ := modifyProc_recordsStep hready hrun
  have hp' : (s.setObj p (.proc (f (s.info p)))).info p = f (s.info p) :=
    info_eq (objs_setObj_self _)
  refine ⟨hstep.ready, hstep.globals, fun b hb => hstep.records b hb, ?_, ?_, fun m =>
    .of_vms hstep.vms⟩
  · rw [hp']
    exact objs_setObj_self _
  · rw [hp']
    exact hf _

/-- The copy of pages may fault. -/
theorem memcpyPages_fixes (n dest src destOffset : Nat) :
    Fixes nonCommit (memcpyPages n dest src destOffset) := by
  induction n generalizing dest src destOffset with
  | zero => exact .pure _
  | succ n ih =>
    refine .bind (kpgTemporaryMap_fixes _).commit fun _ => ?_
    refine .bind (touchRange_fixes _ _) fun _ => .bind (touchRange_fixes _ _) fun _ => ?_
    exact .bind kpgTemporaryUnmap_fixes.commit fun _ => ih _ _ _

/-- So may `k_memcpyToPhyMem`. -/
theorem kMemcpyToPhyMem_fixes (dest src destOffset srcOffset n : Nat) :
    Fixes nonCommit (kMemcpyToPhyMem dest src destOffset srcOffset n) := by
  refine .bind (.kernelPhaseValidate _) fun _ => .bind (memcpyPages_fixes _ _ _ _) fun _ => ?_
  refine .bind (kpgTemporaryMap_fixes _).commit fun _ => .bind (touchRange_fixes _ _) fun _ => ?_
  exact .bind (touchRange_fixes _ _) fun _ => kpgTemporaryUnmap_fixes.commit

/-- One of the three regions of a stack. -/
theorem mapStackPart_setupFrame (context va szPages flags : Nat) :
    Ensures (SetupFrame p) (mapStackPart context va szPages flags) := by
  refine .bind (kvmmMemmap_vmFrame _ _ _ _ _).setupFrame fun _ => .ite (.pure _) ?_
  exact .bind (kvmmSetAddressSpaceMetadata_fixes _ _).setupFrame fun _ => .pure _

/-- `s_setupProcessBinaryMemory`. -/
theorem sSetupProcessBinaryMemory_setupFrame (addr len : Nat) :
    Ensures (SetupFrame p) (sSetupProcessBinaryMemory addr len p) := by
  refine .bind (Fixes.getProc _).setupFrame fun _ => .ite ?_ ?_
  · exact .bind (modifyProc_setupFrame fun _ => rfl) fun _ => .pure _
  refine .bind (Fixes.kAssert _ _).setupFrame fun _ => ?_
  refine .bind (modifyProc_setupFrame fun _ => rfl) fun _ => ?_
  refine .bind (Fixes.getProc _).setupFrame fun _ => .bind (Fixes.follow _).setupFrame fun _ => ?_
  refine .bind (kvmmMemmap_vmFrame _ _ _ _ _).setupFrame fun _ => .ite (.pure _) ?_
  refine .bind (kvmmSetAddressSpaceMetadata_fixes _ _).setupFrame fun _ => ?_
  exact .bind (kMemcpyToPhyMem_fixes _ _ _ _ _).setupFrame fun _ => .pure _

/-- `s_setupProcessStackMemory`. -/
theorem sSetupProcessStackMemory_setupFrame :
    Ensures (SetupFrame p) (sSetupProcessStackMemory p) := by
  refine .bind (modifyProc_setupFrame fun _ => rfl) fun _ => ?_
  refine .bind (Fixes.getProc _).setupFrame fun _ => .bind (Fixes.follow _).setupFrame fun _ => ?_
  refine .bind (kvmmFindFree_fixes _ _).setupFrame fun _ => ?_
  refine .ite (returnError_fixes _ _).commit.setupFrame ?_
  refine .bind (mapStackPart_setupFrame _ _ _ _) fun _ => .ite (.pure _) ?_
  refine .bind (modifyProc_setupFrame ?_) fun _ => ?_
  · intro i
    simp only [KProcessInfo.fixed]
  · exact .bind (mapStackPart_setupFrame _ _ _ _) fun _ => .ite (.pure _)
      (mapStackPart_setupFrame _ _ _ _)

/-- `s_setupProcessDataMemory`. -/
theorem sSetupProcessDataMemory_setupFrame :
    Ensures (SetupFrame p) (sSetupProcessDataMemory p) := by
  refine .bind (Fixes.getProc _).setupFrame fun _ => .ite ?_ ?_
  · refine .bind (modifyProc_setupFrame fun _ => rfl) fun _ => ?_
    refine .bind (Fixes.follow _).setupFrame fun _ => ?_
    refine .bind (kvmmMemmap_vmFrame _ _ _ _ _).setupFrame fun _ => ?_
    refine .bind (modifyProc_setupFrame fun _ => rfl) fun _ => .ite (.pure _) ?_
    exact .bind (kvmmSetAddressSpaceMetadata_fixes _ _).setupFrame fun _ => .pure _
  · refine .bind Fixes.get.setupFrame fun _ => .ite ?_ ?_
    · refine .bind Fixes.get.setupFrame fun _ => .bind (Fixes.getProc _).setupFrame fun _ => ?_
      exact .bind (modifyProc_setupFrame fun _ => rfl) fun _ => .pure _
    · exact .bind (modifyProc_setupFrame fun _ => rfl) fun _ => .pure _

/-! ## Records that no other process knows -/

/-- What a program guarantees that makes new records, none of which is that of a live process, and
changes none that was there but flags of virtual memory. -/
structure Outside (s s' : KState) : Prop where
  ready : HeapReady s'
  globals : s'.globals = { s.globals with processCount := s'.processCount }
  records : ∀ b o, s.records b = some o → s'.records b = some o
  invalid : ∀ b i, s'.objs b = some (.proc i) → s.objs b = some (.proc i) ∨ i.state = .invalid
  managers : ∀ m, ManagerKept m s s'
  windows : SameWindows s s'

namespace Outside

/-- Nothing happens. -/
theorem refl (h : HeapReady s) : Outside s s :=
  ⟨h, rfl, fun _ _ h => h, fun _ _ => .inl, fun _ => .refl, fun _ _ => Iff.rfl⟩

/-- Two steps. -/
theorem trans (h₁ : Outside s s₁) (h₂ : Outside s₁ s') : Outside s s' where
  ready := h₂.ready
  globals := by
    rw [h₂.globals, h₁.globals]
  records b o hb := h₂.records b o (h₁.records b o hb)
  invalid b i hb := (h₂.invalid b i hb).elim (h₁.invalid b i) .inr
  managers m := (h₁.managers m).trans (h₂.managers m)
  windows := h₁.windows.trans h₂.windows

/-- A run of the memory manager. -/
theorem of_vmStep (h : VmStep (fun _ => False) s s') : Outside s s' where
  ready := h.ready
  globals := by
    rw [h.globals, show s'.processCount = s.processCount from congrArg
      Globals.processCount h.globals]
    rfl
  records b o hb := by rw [h.records, hb]
  invalid b _ hb := .inl (proc_of_records (congrFun h.records b).symm hb)
  managers m := .of_vmStep h id
  windows := .of_records h.records

/-- Setting the error number. -/
theorem error (h : HeapReady s) (e : KernelErrorCodes) : Outside s { s with errorNumber := e } :=
  .of_vmStep (.error h e)

/-- A step on a record that was not there at first. -/
theorem recordsStep (h : Outside s s₁) (hfresh : s.objs a = none)
    (hstep : RecordsStep (· = a) s₁ s')
    (hinvalid : ∀ i, s'.objs a = some (.proc i) → i.state = .invalid) : Outside s s' where
  ready := hstep.ready
  globals := by
    have hglobals := hstep.globals
    rw [hglobals, h.globals,
      show s'.processCount = s₁.processCount from congrArg Globals.processCount hglobals]
  records b o hb := by
    have hne : b ≠ a := by
      rintro rfl
      rw [KState.records, hfresh] at hb
      cases hb
    rw [hstep.records b hne]
    exact h.records b o hb
  invalid b i hb := by
    by_cases hba : b = a
    · rw [hba] at hb
      exact .inr (hinvalid i hb)
    · exact h.invalid b i (proc_of_records (hstep.records b hba).symm hb)
  managers m := (h.managers m).trans (.of_vms hstep.vms)
  windows := h.windows.trans hstep.windows

/-- The record that was put is that of no live process. -/
theorem invalid_setObj {j : KProcessInfo} (hj : j.state = .invalid) (i : KProcessInfo)
    (hi : (s.setObj a (.proc j)).objs a = some (.proc i)) : i.state = .invalid := by
  rw [objs_setObj_self] at hi
  cases hi
  exact hj

/-- Another number of processes is counted. -/
theorem recount (h : Outside s s₁) (n : Nat) : Outside s { s₁ with processCount := n } where
  ready := ⟨h.ready.phase, h.ready.heapOk.imp fun _ hs => ⟨hs.inv, hs.buffer, hs.objs⟩⟩
  globals := congrArg (fun g : Globals => { g with processCount := n }) h.globals
  records := h.records
  invalid := h.invalid
  managers := h.managers
  windows := h.windows

/-- The processes keep their records. -/
theorem info (h : Outside s s') (hp : s.objs p = some (.proc i)) :
    s'.objs p = some (.proc i) ∧ s'.info p = s.info p := by
  have hrecord := h.records p _ (records_eq_some.2 ⟨hp, rfl⟩)
  have hp' := (records_eq_some.1 hrecord).1
  exact ⟨hp', by rw [info_eq hp', info_eq hp]⟩

/-- The processes are as they were. -/
theorem procsOk (h : Outside s s') (hprocs : ProcsOk s L) (hle : s.processCount ≤ s'.processCount)
    (hmax : s'.processCount ≤ maxProcessCount) : ProcsOk s' L := by
  have h₀ : ProcsOk { s with processCount := s'.processCount } L :=
    hprocs.recount (Nat.le_trans hprocs.count hle) hmax
  exact h₀.of_place h.ready h.globals fun x hx => ⟨_, (h.info (hprocs.proc x hx)).1, rfl⟩

/-- They own what they owned. -/
theorem ownedOk (h : Outside s s') (hprocs : ProcsOk s L) (ho : OwnedOk s L) : OwnedOk s' L := by
  refine ho.of_info (fun x hx => ?_) (fun x hx => ?_) fun x hx e he => ?_
  · rw [(h.info (hprocs.proc x hx)).2]
    exact ⟨rfl, rfl⟩
  · obtain ⟨r, hr⟩ := ho.regs x hx
    exact ⟨r, (records_eq_some.1 (h.records _ _ (records_eq_some.2 ⟨hr, rfl⟩))).1⟩
  · obtain ⟨ev, hev⟩ := ho.events x hx e he
    exact ⟨ev, (records_eq_some.1 (h.records _ _ (records_eq_some.2 ⟨hev, rfl⟩))).1⟩

end Outside

/-- No record is taken away by a step on other addresses. -/
theorem RecordsStep.objs_none {X : Nat → Prop} (h : RecordsStep X s s') (ha : ¬ X a)
    (hnone : s'.objs a = none) : s.objs a = none := by
  cases ho : s.objs a with
  | none => rfl
  | some o =>
    cases hvm : o.isVm with
    | false =>
      have hrecord := (h.records a ha).trans (records_eq_some.2 ⟨ho, hvm⟩)
      rw [KState.records, hnone] at hrecord
      cases hrecord
    | true =>
      have hvms := congrFun h.vms a
      rw [KState.vms, KState.vms, hnone, ho, Option.filter_some, hvm] at hvms
      cases hvms

/-- The record of a new process. -/
def FreshMemory.process (fresh : FreshMemory) (registerStates processID flags : Nat) :
    KProcessInfo :=
  { fresh.record with registerStates, processID, flags, state := .invalid }

/-- The record of the process `p`, with the register state `r`, is there, and the process has a
context; no other process knows it. -/
structure Built (s s' : KState) (p r flags : Nat) (fresh : FreshMemory) (context : Ptr) : Prop where
  outside : Outside s s'
  count : s'.processCount = s.processCount + 1
  ne_zero : p ≠ 0
  heap : ¬ IsStatic p
  unused : s.objs p = none
  unusedRegs : s.objs r = none
  proc : s'.objs p = some (.proc (s'.info p))
  info : (s'.info p).fixed =
    { fresh.process r (s.processCount + 1) flags with context := context }.fixed
  regs : ∃ g, s'.objs r = some (.regs g)

/-- `s_processInfo_malloc` fails without a trace, or there is a record that no process knows. -/
theorem sProcessInfoMalloc_spec {flags : Nat} {fresh : FreshMemory} (hready : HeapReady s)
    (hcount : s.processCount < maxProcessCount)
    (hrun : sProcessInfoMalloc flags fresh s = .ok (p, s')) :
    (p = 0 ∧ Outside s s' ∧ s'.processCount = s.processCount) ∨ ∃ r, Built s s' p r flags fresh
      (.raw fresh.context) := by
  obtain ⟨a, s₁, hnew, hrun⟩ := bind_eq_ok.1 hrun
  rcases kmallocObj_recordsStep rfl hready hnew with ⟨rfl, e, rfl⟩ | ⟨hne, hfresh, hobj, h₁⟩
  · cases hrun
    exact .inl ⟨rfl, .error hready e, rfl⟩
  have hheap : ¬ IsStatic a := by
    rcases kmallocObj_recordStep hready hnew with ⟨hzero, -⟩ | ⟨-, hheap, -⟩
    · exact absurd hzero hne
    · exact hheap
  have hout₁ : Outside s s₁ := (Outside.refl hready).recordsStep hfresh h₁ fun i hi => by
    rw [hobj] at hi
    cases hi
    rfl
  rw [if_neg hne] at hrun
  obtain ⟨r, s₂, hregs, hrun⟩ := bind_eq_ok.1 hrun
  obtain ⟨_, s₃, hmodify, hrun⟩ := bind_eq_ok.1 hrun
  rcases kmallocObj_recordsStep rfl h₁.ready hregs with ⟨rfl, e, rfl⟩ | ⟨hner, hfreshr, hobjr, h₂⟩
  · have hout₂ : Outside s { s₁ with errorNumber := e } := hout₁.trans (.error h₁.ready e)
    obtain ⟨-, rfl, h₃⟩ := modifyProc_recordsStep hout₂.ready hmodify
    cases hrun
    have hp₁ : (s₁.info a).state = .invalid := by rw [info_eq hobj]; rfl
    exact .inl ⟨rfl, hout₂.recordsStep hfresh h₃ (Outside.invalid_setObj hp₁),
      congrArg Globals.processCount h₁.globals⟩
  · have hra : r ≠ a := by
      rintro rfl
      rw [hobj] at hfreshr
      cases hfreshr
    have hfreshr₀ : s.objs r = none := h₁.objs_none hra hfreshr
    have hout₂ := hout₁.recordsStep hfreshr₀ h₂ fun i hi => by
      rw [hobjr] at hi
      cases hi
    obtain ⟨-, rfl, h₃⟩ := modifyProc_recordsStep h₂.ready hmodify
    have hp₂ : s₂.info a = fresh.record := by
      rw [info_congr (h₂.records a hra.symm), info_eq hobj]
    have hout₃ := hout₂.recordsStep hfresh h₃ (Outside.invalid_setObj (by rw [hp₂]; rfl))
    rw [if_neg hner, modify_bind_apply, get_bind_apply] at hrun
    obtain ⟨_, s₄, hmodify₄, hrun⟩ := bind_eq_ok.1 hrun
    cases hrun
    have hcount₃ : (s₂.setObj p (.proc { s₂.info p with registerStates := r })).processCount =
        s.processCount := (congrArg Globals.processCount h₂.globals).trans
          (congrArg Globals.processCount h₁.globals)
    have hmax : s.processCount < 20 := hcount
    have hsucc : u32 (s.processCount + 1) = s.processCount + 1 := Nat.mod_eq_of_lt (by omega)
    rw [hcount₃, hsucc, hp₂] at hmodify₄
    have hout₄ := hout₃.recount (s.processCount + 1)
    rw [hp₂] at hout₄
    obtain ⟨-, rfl, h₅⟩ := modifyProc_recordsStep hout₄.ready hmodify₄
    have hinfo : KState.info { s₂.setObj p (.proc { fresh.record with registerStates := r }) with
        processCount := s.processCount + 1 } p = { fresh.record with registerStates := r } :=
      info_eq (objs_setObj_self _)
    rw [hinfo] at h₅ ⊢
    refine .inr ⟨r, hout₄.recordsStep hfresh h₅ (Outside.invalid_setObj rfl), rfl, hne, hheap,
      hfresh, hfreshr₀, ?_, ?_, fresh.registers, ?_⟩
    · rw [info_setObj, if_pos rfl]
      exact objs_setObj_self _
    · rw [info_setObj, if_pos rfl]
      rfl
    · rw [objs_setObj_of_ne _ hra]
      exact (objs_setObj_of_ne _ hra).trans hobjr

/-! ## The context -/

/-- The process `p` got a context, and nothing else changed but that records of virtual memory may
be new. -/
structure ContextSet (p : Nat) (context : Ptr) (s s' : KState) : Prop where
  ready : HeapReady s'
  globals : s'.globals = s.globals
  records : ∀ b, b ≠ p → s'.records b = s.records b
  proc : s'.objs p = some (.proc { s.info p with context })
  managers : ∀ m, ManagerKept m s s'

/-- A run of the memory manager before the context is set. -/
theorem ContextSet.of_vmStep {context : Ptr} (hp : s.objs p = some (.proc (s.info p)))
    (hstep : VmStep (fun _ => False) s s') (hcontext : (s.info p).context = context) :
    ContextSet p context s s' where
  ready := hstep.ready
  globals := hstep.globals
  records b _ := congrFun hstep.records b
  proc := by
    rw [← hcontext]
    exact proc_of_records (congrFun hstep.records p) hp
  managers m := .of_vmStep hstep id

/-- The step that enters the context. -/
theorem ContextSet.modifyProc {context : Ptr} (hstep : VmStep (fun _ => False) s s₁)
    (hrun : modifyProc p (fun i => { i with context }) s₁ = .ok ((), s')) :
    ContextSet p context s s' := by
  obtain ⟨-, rfl, h⟩ := modifyProc_recordsStep hstep.ready hrun
  refine ⟨h.ready, h.globals.trans hstep.globals,
    fun b hb => (h.records b hb).trans (congrFun hstep.records b), ?_,
    fun m => (ManagerKept.of_vmStep hstep id).trans (.of_vms h.vms)⟩
  rw [objs_setObj_self, info_congr (congrFun hstep.records p)]

/-- The same after it. -/
theorem ContextSet.vmStep {context : Ptr} (h : ContextSet p context s s₁)
    (hstep : VmStep (fun _ => False) s₁ s') : ContextSet p context s s' where
  ready := hstep.ready
  globals := hstep.globals.trans h.globals
  records b hb := (congrFun hstep.records b).trans (h.records b hb)
  proc := proc_of_records (congrFun hstep.records p) h.proc
  managers m := (h.managers m).trans (.of_vmStep hstep id)

/-- `kvmm_new` makes a manager where there was no record. -/
theorem kvmmNew_spec {m start end_ pd : Nat} {reg : KernelPhysicalMemoryRegions} {freshDirty : Bool}
    (hready : HeapReady s) (hrun : kvmmNew start end_ pd reg freshDirty s = .ok (m, s')) :
    m = 0 ∨ s.objs m = none ∧ ∃ v, s'.objs m = some (.vmm v) ∧ v.parentProcessPD = pd := by
  rcases ite_eq_ok.1 hrun with ⟨-, hrun⟩ | ⟨-, hrun⟩
  · exact .inl (returnError_eq_ok.1 hrun).1
  obtain ⟨-, hrun⟩ := kAssert_bind_eq_ok.1 hrun
  simp only [get_bind_apply, hready.phase, if_true] at hrun
  rcases kmallocObj_recordStep hready hrun with ⟨rfl, -⟩ | ⟨-, -, hnone, hobj, -⟩
  · exact .inl rfl
  · exact .inr ⟨hnone, _, hobj, rfl⟩

/-- `kprocess_getCurrentContext` changes nothing. -/
theorem kprocessGetCurrentContext_state {context : Ptr}
    (hrun : kprocessGetCurrentContext s = .ok (context, s')) : s = s' := by
  rw [kprocessGetCurrentContext, get_bind_apply] at hrun
  rcases ite_eq_ok.1 hrun with ⟨-, hrun⟩ | ⟨-, hrun⟩
  · exact congrArg Prod.snd (Except.ok.inj hrun)
  · revert hrun
    cases s.objs s.currentProcess with
    | none => exact fun hrun => congrArg Prod.snd (Except.ok.inj hrun)
    | some o => cases o <;> exact fun hrun => congrArg Prod.snd (Except.ok.inj hrun)

/-- It returns the context of the current process. -/
theorem kprocessGetCurrentContext_spec {context : Ptr} (hready : HeapReady s)
    (hp : s.objs s.currentProcess = some (.proc i))
    (hrun : kprocessGetCurrentContext s = .ok (context, s')) : context = i.context := by
  rw [kprocessGetCurrentContext, get_bind_apply] at hrun
  rcases ite_eq_ok.1 hrun with ⟨hzero, -⟩ | ⟨-, hrun⟩
  · obtain ⟨alloc, hs⟩ := hready.heapOk
    rw [hzero, hs.objs_zero] at hp
    cases hp
  · rw [hp] at hrun
    exact (congrArg Prod.fst (Except.ok.inj hrun)).symm

/-- The context that a new process gets: that of the current process, if it is a thread, or else one
with a new manager. -/
def NewContext (s s' : KState) (flags : Nat) (context : Ptr) : Prop :=
  (bitIsSet flags processFlagsThread = true ∧ context = (s.info s.currentProcess).context) ∨
    (bitIsSet flags processFlagsThread = false ∧ ∃ c, context = .addr c ∧
      (∀ v, s.objs c ≠ some (.vmm v)) ∧ ∃ v, s'.objs c = some (.vmm v))

/-- `s_createProcessPageDirectory` sets the context, or leaves the word of the fresh memory. -/
theorem sCreateProcessPageDirectory_spec {fresh : FreshMemory} {ok : Bool} (hready : HeapReady s)
    (hp : s.objs p = some (.proc (s.info p)))
    (hcurrent : (s.info p).isThread = true →
      s.objs s.currentProcess = some (.proc (s.info s.currentProcess)))
    (hrun : sCreateProcessPageDirectory p fresh s = .ok (ok, s')) :
    ∃ context, ContextSet p context s s' ∧
      (ok = true → NewContext s s' (s.info p).flags context) := by
  obtain ⟨i, hi, hrun⟩ := getProc_bind_eq_ok.1 hrun
  obtain rfl := (info_eq hi).symm
  rcases ite_eq_ok.1 hrun with ⟨hunset, hrun⟩ | ⟨hset, hrun⟩
  · rw [get_bind_apply] at hrun
    obtain ⟨kernelPD, s₁, hkernel, hrun⟩ := bind_eq_ok.1 hrun
    obtain ⟨v, -, hkernel⟩ := getVmm_bind_eq_ok.1 hkernel
    cases hkernel
    obtain ⟨found, s₂, hsetup, hrun⟩ := bind_eq_ok.1 hrun
    have h₂ : VmStep (fun _ => False) s s₂ :=
      (kpgSetupPageDirectory_fixes _ _ _).commit.vmFrame _ _ _ hsetup hready
    cases found with
    | none =>
      cases hrun
      exact ⟨_, .of_vmStep hp h₂ rfl, fun h => by cases h⟩
    | some newPD =>
      obtain ⟨m, s₃, hnew, hrun⟩ := bind_eq_ok.1 hrun
      have h₃ : VmStep (fun _ => False) s₂ s₃ := kvmmNew_vmFrame _ _ _ _ _ _ _ _ hnew h₂.ready
      obtain ⟨_, s₄, hmodify, hrun⟩ := bind_eq_ok.1 hrun
      have h₄ := ContextSet.modifyProc (h₂.trans h₃) hmodify
      rcases ite_eq_ok.1 hrun with ⟨-, hrun⟩ | ⟨hne, hrun⟩
      · obtain ⟨deleted, s₅, hdelete, hrun⟩ := bind_eq_ok.1 hrun
        cases hrun
        have h₅ : VmStep (fun _ => False) s₄ s' :=
          (kpgDeletePageDirectory_fixes _ _).commit.vmFrame _ _ _ hdelete h₄.ready
        exact ⟨_, h₄.vmStep h₅, fun h => by cases h⟩
      · cases hrun
        refine ⟨_, h₄, fun _ => .inr ⟨isThread_eq_false.2 hunset, m, rfl, ?_⟩⟩
        obtain ⟨hnone, w, hw, -⟩ := (kvmmNew_spec h₂.ready hnew).resolve_left hne
        have hnc := (kpgSetupPageDirectory_fixes _ _ _).commit _ _ _ hsetup
        have hnone₀ : s.objs m = none := (objs_none_of_nonCommit hnc).1 hnone
        obtain ⟨-, rfl, hstep⟩ := modifyProc_recordsStep h₃.ready hmodify
        refine ⟨fun v hv => ?_, w, ?_⟩
        · rw [hnone₀] at hv
          cases hv
        have hmp : m ≠ p := by
          rintro rfl
          rw [hp] at hnone₀
          cases hnone₀
        exact (objs_setObj_of_ne _ hmp).trans hw
  · obtain ⟨context, s₁, hget, hrun⟩ := bind_eq_ok.1 hrun
    obtain rfl := kprocessGetCurrentContext_state hget
    obtain ⟨_, s₂, hmodify, hrun⟩ := bind_eq_ok.1 hrun
    obtain ⟨rfl, rfl⟩ := Prod.mk.inj (Except.ok.inj hrun)
    have hthread : (s.info p).isThread = true := by
      rw [← isThread_eq_false] at hset
      exact Bool.eq_true_of_not_eq_false hset
    exact ⟨context, .modifyProc (.refl hready) hmodify, fun _ =>
      .inl ⟨hthread, kprocessGetCurrentContext_spec hready (hcurrent hthread) hget⟩⟩

end MeghaOS
