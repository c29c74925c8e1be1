import MeghaOS.Proof.HigherHalf
import MeghaOS.Proof.PmmInit

/-!
# The start of the kernel

`MemoryReady` is what holds when `kernel_main` calls `kmalloc_init`, on any machine and with any
files loaded: the kernel's address spaces are in order and cover the low region, and there is no
other record. `KernelReady` is what holds when `kmalloc_init` has made the heap.
-/

namespace MeghaOS

open Exec KState

variable {s s' : KState} {v : VMemoryManager} {rs : List VMemoryAddressSpace}

/-- There is no process, and there has been none. -/
structure NoProcess (s : KState) : Prop where
  processCount : s.processCount = 0
  currentProcess : s.currentProcess = 0
  rootProcess : s.rootProcess = 0
  schedulerQueue : s.schedulerQueue = []
  freedContext : s.freedContext = fun _ => none

/-- The end of the page of the internal temporary mapping. -/
abbrev memEndPagingTempMap : Nat := memStartPagingIntTempMap + 4096

theorem NoProcess.of_nonCommit (h : NoProcess s) (hnc : s'.nonCommit = s.nonCommit) :
    NoProcess s' where
  processCount := (congrArg KState.processCount hnc).trans h.processCount
  currentProcess := (congrArg KState.currentProcess hnc).trans h.currentProcess
  rootProcess := (congrArg KState.rootProcess hnc).trans h.rootProcess
  schedulerQueue := (congrArg KState.schedulerQueue hnc).trans h.schedulerQueue
  freedContext := (congrArg KState.freedContext hnc).trans h.freedContext

/-- The manager that `kvmm_new` makes for the kernel. -/
def kernelVmm (freshDirty : Bool) : VMemoryManager :=
  ⟨memStartKernelLowRegion, memEndKernelHighRegion, true, kernelPageDir, freshDirty,
    .pmmRegionAny, []⟩

/-- The kernel between `s_initializeMemoryManagers` and `kmalloc_init`: `used` bytes of the static
memory may be handed out, and no address space ends above `bound`. -/
structure MemoryReady (s : KState) (used bound : Nat) (v : VMemoryManager)
    (rs : List VMemoryAddressSpace) : Prop where
  phase : s.phase = .vmmReady
  pabOk : PabOk s
  tempExt : s.tempExt = none
  tempInt : s.tempInt = none
  cr3 : s.cr3 = physicalToPageframe kernelPageDir
  noProcess : NoProcess s
  salloc : SallocOk s
  next : s.sallocNext ≤ memStartSalloc + used
  vmmOk : VmmOk s s.context v rs
  same : ∃ freshDirty, v = { kernelVmm freshDirty with head := v.head }
  lowRegion : ∀ f < 70, ∃ r ∈ rs, r.Covers (higherHalfVa f)
  below : ∀ r ∈ rs, r.startVm + r.allocationSzBytes ≤ bound
  owned : ∀ a, s.objs a ≠ none → a = s.context ∨ a ∈ v.head

/-! ## `kernel_main` up to the memory managers -/

/-- The kernel before `s_initializeMemoryManagers`. -/
structure VmmReady (s : KState) (v : VMemoryManager) : Prop where
  phase : s.phase = .vmmReady
  pabOk : PabOk s
  states : ∀ f, s.frameState f = pmmStateFree ∨ s.frameState f = pmmStateReserved
  tempExt : s.tempExt = none
  tempInt : s.tempInt = none
  cr3 : s.cr3 = physicalToPageframe kernelPageDir
  mem : ∃ mem, s.mem = gKernelEntry mem
  noProcess : NoProcess s
  salloc : SallocOk s
  sallocNext : s.sallocNext = memStartSalloc + 4032
  context : s.context = memStartSalloc + 4000
  vmm : s.objs s.context = some (.vmm v)
  owned : ∀ a, s.objs a ≠ none → a = s.context

/-- `kernel_main` before `s_initializeMemoryManagers`. -/
def kernelMainVmm (freshDirty : Bool) : K Unit := do
  kpmmInit
  ksallocInit
  khandleInit
  let context ← kvmmNew memStartKernelLowRegion memEndKernelHighRegion kernelPageDir .pmmRegionAny
    freshDirty
  modify fun s => { s with context }
  kernelPhaseSet .vmmReady

theorem kernelMainMemory_eq (files : List BootFileItem) (freshDirty : Bool) :
    kernelMainMemory files freshDirty =
      (kernelMainVmm freshDirty >>= fun _ => sInitializeMemoryManagers files >>= fun _ =>
        ktssInit) := by
  simp only [kernelMainMemory, kernelMainVmm, bind_assoc]

/-- Before the heap is ready, a new manager lies in static memory. -/
theorem kvmmNew_static_ok {start end_ pd : Nat} (reg : KernelPhysicalMemoryRegions)
    (freshDirty : Bool) (hphase : s.phase = .sallocReady) (hlt : start < end_) (hpd : pd ≠ 0)
    (hlower : memStartSalloc ≤ s.sallocNext)
    (hroom : s.sallocNext + 32 ≤ memStartSalloc + memLenBytesSalloc) :
    kvmmNew start end_ pd reg freshDirty s = .ok (s.sallocNext,
      KState.setObj { s with sallocNext := s.sallocNext + 32 } s.sallocNext
        (.vmm ⟨start, end_, true, pd, freshDirty, reg, []⟩)) := by
  have hcheck : s.phase.check .kmallocReady = false := by rw [hphase]; rfl
  have hne : s.sallocNext ≠ 0 := by
    simp only [memStartSalloc] at hlower
    omega
  have hcall := ksalloc_ok sizeofVMemoryManager 32 (by rw [hphase]; rfl)
    (by decide) (by decide) hlower hroom
  rw [kvmmNew, if_neg (by omega), kAssert_bind_eq_ok]
  refine ⟨hpd, ?_⟩
  rw [get_bind_apply, hcheck]
  simp only [Bool.false_eq_true, if_false]
  rw [sallocObj, show (Obj.vmm _).size = sizeofVMemoryManager from rfl,
    bind_of_ok hcall, if_pos hne]
  rfl

theorem kernelMainVmm_spec {info : BootLoaderInfo} {mem : Nat → Nat → Entry} {freshDirty : Bool}
    (h : kernelMainVmm freshDirty (entryState info mem) = .ok ((), s)) :
    VmmReady s (kernelVmm freshDirty) := by
  obtain ⟨_, s₁, hpmm, h⟩ := bind_eq_ok.1 h
  obtain ⟨hs₁, heq, hstates⟩ := kpmmInit_spec rfl hpmm
  rw [ksallocInit, bind_assoc, modify_bind_apply, kernelPhaseSet_bind_eq_ok] at h
  obtain ⟨-, h⟩ := h
  have hobjs : s₁.objs = fun _ => none := by
    rw [heq]
    rfl
  obtain ⟨s₂, hs₂⟩ : ∃ s₂ : KState, s₂ =
    { s₁ with sallocNext := memStartSalloc, phase := .sallocReady } := ⟨_, rfl⟩
  have hphase₂ : s₂.phase = .sallocReady := by rw [hs₂]
  have hnext₂ : s₂.sallocNext = memStartSalloc := by rw [hs₂]
  have hhandles := ksalloc_ok (s := s₂) handlesArrayBytes 4000
    (by rw [hphase₂]; rfl) (by decide) (by decide) (by rw [hnext₂]) (by rw [hnext₂]; decide)
  rw [← kscalloc_eq_ksalloc] at hhandles
  rw [← hs₂, khandleInit, bind_assoc, kernelPhaseValidate_bind_eq_ok, bind_assoc,
    bind_of_ok hhandles, hnext₂, if_neg (by decide), pure_bind] at h
  obtain ⟨-, h⟩ := h
  obtain ⟨s₃, hs₃⟩ : ∃ s₃ : KState, s₃ = { s₂ with sallocNext := memStartSalloc + 4000 } := ⟨_, rfl⟩
  have hphase₃ : s₃.phase = .sallocReady := by rw [hs₃, hphase₂]
  have hnext₃ : s₃.sallocNext = memStartSalloc + 4000 := by rw [hs₃]
  have hlt : memStartKernelLowRegion < memEndKernelHighRegion := by decide
  have hpd : kernelPageDir ≠ 0 := by decide
  have hnew := kvmmNew_static_ok .pmmRegionAny freshDirty hphase₃ hlt hpd (by rw [hnext₃]; decide)
    (by rw [hnext₃]; decide)
  rw [← hs₃, bind_of_ok hnew, modify_bind_apply, kernelPhaseSet_eq_ok, hnext₃] at h
  obtain ⟨-, rfl⟩ := h
  have hobjs₃ : s₃.objs = fun _ => none := by rw [hs₃, hs₂, hobjs]
  have howned : ∀ a, (KState.setObj { s₃ with sallocNext := memStartSalloc + 4000 + 32 }
      (memStartSalloc + 4000) (.vmm (kernelVmm freshDirty))).objs a ≠ none →
      a = memStartSalloc + 4000 := by
    intro a ha
    by_contra hne
    exact ha (by simp only [KState.setObj, if_neg hne, hobjs₃])
  have hpab : s₃.pab = s₁.pab := by rw [hs₃, hs₂]
  exact
    { phase := rfl
      pabOk := hs₁.congr hpab
      states := fun f => by
        show s₃.frameState f = _ ∨ s₃.frameState f = _
        rw [frameState, hpab]
        exact hstates f
      tempExt := by rw [hs₃, hs₂, heq]; rfl
      tempInt := by rw [hs₃, hs₂, heq]; rfl
      cr3 := by rw [hs₃, hs₂, heq]; rfl
      mem := ⟨mem, by rw [hs₃, hs₂, heq]; rfl⟩
      noProcess := by constructor <;> rw [hs₃, hs₂, heq] <;> rfl
      salloc :=
        { lower := (by decide : memStartSalloc ≤ memStartSalloc + 4032)
          upper := (by decide : memStartSalloc + 4032 ≤ memStartSalloc + memLenBytesSalloc)
          objs := fun a ha => by
            rw [howned a ha]
            exact (by decide : memStartSalloc ≤ memStartSalloc + 4000 ∧
              memStartSalloc + 4000 < memStartSalloc + 4032) }
      sallocNext := rfl
      context := rfl
      vmm := by simp only [KState.setObj, if_true]; rfl
      owned := howned }

/-! ## `s_initializeMemoryManagers` -/

/-- `kpmm_allocAt` changes the PAB alone, and leaves no frame in an invalid state. -/
theorem kpmmAllocAt_boot {start count : Nat} {ok : Bool} (hs : PabOk s)
    (hvalid : ∀ f, s.frameState f ≠ pmmStateInvalid)
    (h : kpmmAllocAt start count .pmmRegionAny s = .ok (ok, s')) :
    PabOk s' ∧ s' = { s with pab := s'.pab, errorNumber := s'.errorNumber } ∧
      (∀ f, s'.frameState f ≠ pmmStateInvalid) ∧
      (∀ f, s.frameState f = pmmStateUsed → s'.frameState f = pmmStateUsed) ∧
      (ok = false ∧ s'.errorNumber ≠ .errNone ∨
        u32Sub (start + u32 (count * pageFrameSizeBytes)) 1 < kpmmGetUsableMemorySize s ∧
          ∀ f, bytesToPageframesFloor start ≤ f → f < bytesToPageframesFloor start + count →
            s'.frameState f = pmmStateUsed) := by
  rcases kpmmAllocAt_parts h with ⟨rfl, e, he, rfl⟩ | ⟨hend, -, hset⟩
  · exact ⟨hs.congr rfl, rfl, hvalid, fun _ => id, .inl ⟨rfl, he⟩⟩
  · have hlt : bytesToPageframesFloor start < 2 ^ 32 :=
      Nat.lt_of_le_of_lt Nat.and_le_right (by omega)
    obtain ⟨-, hframes, -⟩ := pabSetContinous_spec hs hlt hset
    have hstate := hframes.frameState
    refine ⟨hframes.pabOk hs, by rw [hframes.eq], fun f => ?_, fun f hf => ?_,
      .inr ⟨hend, fun f h1 h2 => by rw [hstate, if_pos ⟨h1, h2⟩]⟩⟩ <;> rw [hstate] <;> split
    · decide
    · exact hvalid f
    · rfl
    · exact hf

theorem kPanicOnError_bind_eq_ok {α : Type} {f : Unit → K α} {r : α × KState} :
    (kPanicOnError >>= f) s = .ok r ↔ s.errorNumber = .errNone ∧ f () s = .ok r := by
  rw [kPanicOnError, bind_assoc, get_bind_apply]
  by_cases he : s.errorNumber = .errNone <;> simp [he, kPanic]

/-- The part of `s_initializeMemoryManagers` before the loop. -/
theorem sInitializeMemoryManagers_parts {files : List BootFileItem} (hs : PabOk s)
    (hvalid : ∀ f, s.frameState f ≠ pmmStateInvalid)
    (h : sInitializeMemoryManagers files s = .ok ((), s')) :
    ∃ s₁, PabOk s₁ ∧ s₁ = { s with pab := s₁.pab, errorNumber := s₁.errorNumber } ∧
      (∀ f, s₁.frameState f ≠ pmmStateInvalid) ∧
      (∀ f < 70, f * 4096 < higherHalfEnd s₁ ∧ s₁.frameState f = pmmStateUsed) ∧
      (mapHigherHalfFrom (higherHalfEnd s₁) 513 0 >>= fun _ =>
        reserveKernelPage memStartPagingExtTempMap >>= fun _ =>
          reserveKernelPage memStartPagingIntTempMap) s₁ = .ok ((), s') := by
  obtain ⟨ok, s₁, halloc, hrest⟩ := bind_eq_ok.1 h
  obtain ⟨hs₁, heq₁, hvalid₁, -, hlow⟩ := kpmmAllocAt_boot hs hvalid halloc
  have hjoin : ∀ rest : Unit → K Unit,
      (if ok = false then kPanicOnError >>= fun r => rest r else rest ()) s₁ = .ok ((), s') →
        (∀ f < 70, f * 4096 < higherHalfEnd s₁ ∧ s₁.frameState f = pmmStateUsed) ∧
          rest () s₁ = .ok ((), s') := by
    intro rest hrest
    have hused : ¬ (ok = false ∧ s₁.errorNumber ≠ .errNone) →
        ∀ f < 70, f * 4096 < higherHalfEnd s₁ ∧ s₁.frameState f = pmmStateUsed := by
      intro hno f hf
      obtain ⟨hsize, hstate⟩ := hlow.resolve_left hno
      have hsame : kpmmGetUsableMemorySize s₁ = kpmmGetUsableMemorySize s := by
        rw [heq₁]
        rfl
      have hlast : u32Sub (0 + u32 (bytesToPageframesCeiling memLenBytesKernelLowRegion *
          pageFrameSizeBytes)) 1 = 0x45FFF := by decide
      rw [hlast] at hsize
      refine ⟨Nat.lt_min.2 ⟨by omega, ?_⟩, hstate f (Nat.zero_le f) hf⟩
      exact Nat.lt_of_le_of_lt (Nat.mul_le_mul_right 4096 (show f ≤ 69 by omega)) (by decide)
    rcases ite_eq_ok.1 hrest with ⟨-, hrest⟩ | ⟨hok, hrest⟩
    · obtain ⟨he, hrest⟩ := kPanicOnError_bind_eq_ok.1 hrest
      exact ⟨hused fun h => h.2 he, hrest⟩
    · exact ⟨hused fun h => hok h.1, hrest⟩
  obtain ⟨hlow₁, hrest⟩ := hjoin _ hrest
  dsimp only at hrest
  cases hfirst : files.head? with
  | none =>
    rw [hfirst] at hrest
    cases hrest
  | some firstFile =>
    cases hlast : files.getLast? with
    | none =>
      rw [hfirst, hlast] at hrest
      cases hrest
    | some lastFile =>
      rw [hfirst, hlast] at hrest
      obtain ⟨ok₂, s₂, halloc₂, hrest⟩ := bind_eq_ok.1 hrest
      obtain ⟨hs₂, heq₂, hvalid₂, hkeep, -⟩ := kpmmAllocAt_boot hs₁ hvalid₁ halloc₂
      rcases ite_eq_ok.1 hrest with ⟨-, hrest⟩ | ⟨-, hrest⟩
      · cases hrest
      · refine ⟨s₂, hs₂, by rw [heq₂, heq₁], hvalid₂,
          fun f hf => ⟨?_, hkeep f (hlow₁ f hf).2⟩, hrest⟩
        rw [heq₂]
        exact (hlow₁ f hf).1

theorem VmmReady.higherHalfReady (h : VmmReady s v) (hnil : v = kernelVmm v.isPageDirectoryDirty)
    (hpab : PabOk s') (heq : s' = { s with pab := s'.pab, errorNumber := s'.errorNumber })
    (hvalid : ∀ f, s'.frameState f ≠ pmmStateInvalid) : HigherHalfReady s' v where
  phase := by
    rw [heq]
    exact h.phase
  pabOk := hpab
  valid f _ := hvalid f
  tempInt := by
    rw [heq]
    exact h.tempInt
  pde := by
    obtain ⟨mem, hmem⟩ := h.mem
    have hentry : s'.entry s'.cr3 kernelPdeIndex = s'.mem s'.cr3 kernelPdeIndex :=
      entry_mem fun hslot => absurd hslot.2 (by decide)
    rw [hentry, heq]
    show s.mem s.cr3 kernelPdeIndex = _
    rw [hmem, h.cr3]
    rfl
  pte f hf := by
    obtain ⟨mem, hmem⟩ := h.mem
    rw [entry_mem (not_isTempSlot_higherHalf hf), heq]
    show s.mem kernelPageTableFrame f = _
    rw [hmem]
    exact if_pos hf
  salloc := h.salloc.congr (by rw [heq]) fun a ha => by rwa [heq] at ha
  room := by
    rw [heq]
    show s.sallocNext + _ ≤ _
    rw [h.sallocNext]
    decide
  vmm := by
    rw [heq]
    exact h.vmm
  start := by rw [hnil]; rfl
  end_ := by rw [hnil]; rfl
  head := by rw [hnil]; rfl

/-- When the loop has ended, the memory of the kernel is ready. -/
theorem HigherHalfUpTo.memoryReady {s₁ s₂ : KState} {freshDirty : Bool} {n : Nat}
    (h : HigherHalfUpTo s₂ (kernelVmm freshDirty) s n v rs)
    (h₁ : VmmReady s₁ (kernelVmm freshDirty))
    (hready : HigherHalfReady s₂ (kernelVmm freshDirty))
    (heq : s₂ = { s₁ with pab := s₂.pab, errorNumber := s₂.errorNumber }) (hn : n ≤ 512)
    (hlow : ∀ f < 70, f < n ∧ s₂.frameState f = pmmStateUsed) :
    MemoryReady s 28608 0xC0200000 v rs where
  phase := by
    rw [h.eq]
    exact hready.phase
  pabOk := by
    rw [h.eq]
    exact hready.pabOk.congr rfl
  tempExt := by
    rw [h.eq, heq]
    exact h₁.tempExt
  tempInt := by
    rw [h.eq]
    exact hready.tempInt
  cr3 := by
    rw [h.eq, heq]
    exact h₁.cr3
  noProcess := by
    rw [h.eq, heq]
    exact ⟨h₁.noProcess.processCount, h₁.noProcess.currentProcess, h₁.noProcess.rootProcess,
      h₁.noProcess.schedulerQueue, h₁.noProcess.freedContext⟩
  salloc := h.salloc
  next := by
    have hroom := h.room
    have hnext : s₂.sallocNext = memStartSalloc + 4032 := by
      rw [heq]
      exact h₁.sallocNext
    omega
  vmmOk := by
    have hcontext : s.context = s₂.context := by rw [h.eq]
    rw [hcontext]
    exact h.vmmOk
  same := ⟨freshDirty, h.same⟩
  lowRegion f hf := by
    obtain ⟨hfn, hused⟩ := hlow f hf
    exact (h.covered f hfn).2 (by rw [hused]; decide)
  below r hr := by
    have hbelow := h.below r hr
    simp only [higherHalfVa, memStartKernelLowRegion] at hbelow
    omega
  owned a ha := by
    have hcontext : s.context = s₁.context := by rw [h.eq, heq]
    rw [hcontext]
    refine (h.owned a ha).imp (fun h₂ => h₁.owned a ?_) id
    rwa [heq] at h₂

namespace MemoryReady

variable {used bound : Nat}

theorem start (h : MemoryReady s used bound v rs) : v.start = memStartKernelLowRegion := by
  obtain ⟨d, hsame⟩ := h.same
  rw [hsame]
  rfl

theorem end_ (h : MemoryReady s used bound v rs) : v.end_ = memEndKernelHighRegion := by
  obtain ⟨d, hsame⟩ := h.same
  rw [hsame]
  rfl

/-- A page behind all the address spaces is reserved. -/
theorem reserve (h : MemoryReady s used bound v rs) {va : Nat}
    (hused : used + 48 ≤ memLenBytesSalloc)
    (hva : memStartKernelLowRegion ≤ va ∧ va + 4096 ≤ memEndKernelHighRegion ∧ va % 4096 = 0)
    (hbound : bound ≤ va) (hrun : reserveKernelPage va s = .ok ((), s')) :
    ∃ v' rs', MemoryReady s' (used + 48) (va + 4096) v' rs' := by
  obtain ⟨hlo, hhi, hal⟩ := hva
  have hne : va ≠ 0 := by
    simp only [memStartKernelLowRegion] at hlo
    omega
  have hroom : SallocRoom s := by
    have hnext := h.next
    unfold SallocRoom
    omega
  obtain ⟨s₁, hrun₁, heq, hsalloc, hvmm, howned⟩ :=
    kvmmMemmap_static_ok committedKernelPage h.salloc
    hroom h.phase h.vmmOk hne hal (h.start ▸ hlo) Nat.one_pos (h.end_ ▸ hhi)
    (fun r hr => Nat.le_trans (h.below r hr) hbound) rfl
  rw [reserveKernelPage, get_bind_apply, bind_of_ok hrun₁] at hrun
  simp only [if_neg hne] at hrun
  obtain rfl : s₁ = s' := by
    cases hrun
    rfl
  have hcontext : s₁.context = s.context := by rw [heq]
  refine ⟨_, _,
    { phase := by rw [heq]; exact h.phase
      pabOk := h.pabOk.congr (by rw [heq])
      tempExt := by rw [heq]; exact h.tempExt
      tempInt := by rw [heq]; exact h.tempInt
      cr3 := by rw [heq]; exact h.cr3
      noProcess := by
        rw [heq]
        exact ⟨h.noProcess.processCount, h.noProcess.currentProcess, h.noProcess.rootProcess,
          h.noProcess.schedulerQueue, h.noProcess.freedContext⟩
      salloc := hsalloc
      next := by
        rw [heq]
        exact Nat.add_le_add_right h.next 48
      vmmOk := by rw [hcontext]; exact hvmm
      same := h.same.imp fun d hd => by rw [hd]
      lowRegion := fun f hf => (h.lowRegion f hf).imp fun r hr =>
        ⟨List.mem_append_left _ hr.1, hr.2⟩
      below := fun r hr => ?_
      owned := fun a ha => ?_ }⟩
  · rcases List.mem_append.1 hr with hr | hr
    · exact Nat.le_trans (h.below r hr) (Nat.le_trans hbound (Nat.le_add_right _ _))
    · rw [List.mem_singleton.1 hr]
  · rw [hcontext]
    rcases howned a ha with ha | rfl
    · exact (h.owned a ha).imp id (List.mem_append_left _)
    · exact .inr (by simp)

end MemoryReady

theorem sInitializeMemoryManagers_spec {freshDirty : Bool} {files : List BootFileItem}
    (h₁ : VmmReady s (kernelVmm freshDirty))
    (h : sInitializeMemoryManagers files s = .ok ((), s')) :
    ∃ v rs, MemoryReady s' 28704 memEndPagingTempMap v rs := by
  have hvalid : ∀ f, s.frameState f ≠ pmmStateInvalid := fun f => by
    rcases h₁.states f with hf | hf <;> rw [hf] <;> decide
  obtain ⟨s₂, hpab, heq₂, hvalid₂, hlow, h⟩ := sInitializeMemoryManagers_parts h₁.pabOk hvalid h
  have hready := h₁.higherHalfReady rfl hpab heq₂ hvalid₂
  have hle : higherHalfEnd s₂ ≤ 0x200000 := Nat.min_le_right _ _
  have hend : ∀ j, j * 4096 < higherHalfEnd s₂ ↔ j < (higherHalfEnd s₂ + 4095) / 4096 := by omega
  have hn : (higherHalfEnd s₂ + 4095) / 4096 ≤ 512 := by omega
  obtain ⟨s₃, v₃, rs₃, hrun₃, h₃⟩ := mapHigherHalfFrom_spec 513 hready hend hn (Nat.zero_le _)
    (by omega) hready.upTo
  rw [Nat.zero_mul] at hrun₃
  rw [bind_of_ok hrun₃] at h
  have hmem₃ := h₃.memoryReady h₁ hready heq₂ hn fun f hf =>
    ⟨(hend f).1 (hlow f hf).1, (hlow f hf).2⟩
  obtain ⟨_, s₄, hrun₄, hrun₅⟩ := bind_eq_ok.1 h
  obtain ⟨v₄, rs₄, hmem₄⟩ := hmem₃.reserve (by decide) (by decide) (by decide) hrun₄
  exact hmem₄.reserve (by decide) (by decide) (by decide) hrun₅

/-- `kernel_main` up to `kmalloc_init`. -/
theorem kernelMainMemory_spec {info : BootLoaderInfo} {mem : Nat → Nat → Entry} {freshDirty : Bool}
    (h : kernelMainMemory info.files freshDirty (entryState info mem) = .ok ((), s)) :
    ∃ v rs, MemoryReady s 29072 memEndPagingTempMap v rs := by
  rw [kernelMainMemory_eq] at h
  obtain ⟨_, s₁, hvmm, h⟩ := bind_eq_ok.1 h
  obtain ⟨_, s₂, hinit, htss⟩ := bind_eq_ok.1 h
  obtain ⟨v, rs, hmem⟩ := sInitializeMemoryManagers_spec (kernelMainVmm_spec hvmm) hinit
  have hlower := hmem.salloc.lower
  have hnext := hmem.next
  have hroom : s₂.sallocNext + 368 ≤ memStartSalloc + memLenBytesSalloc := by
    simp only [memLenBytesSalloc]
    omega
  have hrun := ksalloc_ok sizeofTss 368 (by rw [hmem.phase]; rfl) (by decide)
    (by decide) hlower hroom
  have hne : s₂.sallocNext ≠ 0 := by
    simp only [memStartSalloc] at hlower
    omega
  rw [ktssInit, bind_of_ok hrun, if_neg hne] at htss
  obtain rfl := (Prod.mk.inj (Except.ok.inj htss)).2
  exact ⟨v, rs,
    { hmem with
      salloc := hmem.salloc.handOut (by omega) hroom
      next := Nat.add_le_add_right hnext 368
      pabOk := hmem.pabOk.congr rfl
      noProcess := ⟨hmem.noProcess.processCount, hmem.noProcess.currentProcess,
        hmem.noProcess.rootProcess, hmem.noProcess.schedulerQueue, hmem.noProcess.freedContext⟩
      vmmOk := hmem.vmmOk.congr hmem.vmmOk.vmm fun _ _ => rfl }⟩

/-! ## `kmalloc_init` -/

/-- A range that lies in a gap fits. -/
theorem InGap.fits {lo va szBytes : Nat} (h : InGap v rs lo va szBytes) (hpos : 0 < szBytes) :
    Fits v rs va szBytes where
  pos := hpos
  upper := h.upper
  empty r hr hin := by
    rcases h.apart r hr with h | h <;> omega

/-- Before the heap is ready, a reservation that fits and is not refused is entered in the list. -/
theorem addNewVirtualAddressSpace_static {m a va szPages flags : Nat} (hs : SallocOk s)
    (hphase : s.phase.check .kmallocReady = false) (hv : VmmOk s m v rs)
    (hfits : Fits v rs va (pageframesToBytes szPages))
    (h : addNewVirtualAddressSpace m va szPages flags s = .ok (a, s')) (hne : a ≠ 0) :
    s' = { s with sallocNext := s'.sallocNext, objs := s'.objs } ∧ SallocOk s' ∧ ∃ head rs',
      VmmOk s' m { v with head } rs' ∧ (∀ r ∈ rs, r ∈ rs') ∧
        ∀ b, s'.objs b ≠ none → s.objs b ≠ none ∧ (b ∈ v.head → b ∈ head) ∨ b ∈ head := by
  rcases addNewVirtualAddressSpace_parts hv.vmm h with ⟨rfl, -, -⟩ | ⟨hin, new, s₃, hnew, hrest⟩
  · exact absurd rfl hne
  rcases createNewVirtAddrSpace_static hs hphase hnew with ⟨rfl, -⟩ |
    ⟨hszal, rfl, hne', hs₃, next, heq₃⟩
  · rcases hrest with ⟨-, rfl, -⟩ | ⟨hne', -⟩
    · exact absurd rfl hne
    · exact absurd rfl hne'
  rcases hrest with ⟨hzero, -⟩ | ⟨-, henter⟩
  · exact absurd hzero hne'
  have hv₃ : VmmOk s₃ m v rs := heq₃ ▸ hv.of_salloc hs _ _
  rcases enterVas_spec hv₃.vmm hv₃.vas henter with ⟨rfl, -⟩ |
    ⟨rfl, l₁, l₂, rs₁, rs₂, hl, rfl, hlen, hno, hlow, hhigh, rfl⟩
  · exact absurd rfl hne
  have hlo : v.start ≤ va := Nat.le_of_not_lt fun hlt => hin (.inr (.inl hlt))
  have hal : va % 4096 = 0 := isAligned_page_iff.1 (by simpa using fun hal => hin (.inl hal))
  obtain ⟨hbelow, habove⟩ := gap_of_not_overlaps hv.layout hv.end_lt hfits hno hlow hhigh
  have hlayout := hv.layout.insert (x := ⟨true, flags, va, pageframesToBytes szPages, 0⟩) hlo
    hfits.pos hfits.upper hbelow habove
  have hfresh : s.sallocNext ∉ v.head := fun hmem => by
    obtain ⟨r, -, hr⟩ := hv.objs_head hmem
    rw [hs.objs_next] at hr
    cases hr
  have hobj : s₃.objs s.sallocNext =
      some (.vas ⟨true, flags, va, pageframesToBytes szPages, 0⟩) := by
    simp [heq₃, KState.setObj, newStaticVas]
  have hv' := hv₃.insert (d := v.isPageDirectoryDirty) hobj hfresh hl hlen hlayout
    ⟨hal, isAligned_page_iff.1 hszal⟩ rfl
  have hm := hs₃.objs m (by rw [hv₃.vmm]; simp)
  refine ⟨by rw [heq₃]; rfl, hs₃.setObj hm.1 hm.2, _, _, hv', fun r hr => ?_, fun b hb => ?_⟩
  · simp only [List.mem_append, List.mem_cons] at hr ⊢
    tauto
  · by_cases hbs : b = s.sallocNext
    · exact .inr (by simp [hbs])
    · have hbm : s.objs b ≠ none := by
        by_cases hbm : b = m
        · rw [hbm, hv.vmm]
          simp
        · simpa [KState.setObj, hbm, heq₃, hbs] using hb
      refine .inl ⟨hbm, fun hmem => ?_⟩
      rw [hl] at hmem
      simp only [List.mem_append, List.mem_cons] at hmem ⊢
      tauto

/-- The kernel after `kmalloc_init`. -/
structure KernelReady (s : KState) (v : VMemoryManager) (rs : List VMemoryAddressSpace) : Prop where
  heapOk : HeapOk s []
  noProcess : NoProcess s
  vmmOk : VmmOk s s.context v rs
  same : ∃ freshDirty, v = { kernelVmm freshDirty with head := v.head }
  owned : ∀ a, s.objs a ≠ none → a = s.context ∨ a ∈ v.head

/-- The address that `find_next_va` finds for the heap lies above the static memory. -/
theorem MemoryReady.above_salloc {used bound lo va szBytes : Nat}
    (h : MemoryReady s used bound v rs)
    (hgap : InGap v rs lo va szBytes) (hlo : memStartKernelLowRegion ≤ lo) (hpos : 0 < szBytes) :
    memStartSalloc + memLenBytesSalloc ≤ va := by
  by_contra hlt
  have hle := Nat.le_trans hlo hgap.lower
  simp only [memStartSalloc, memLenBytesSalloc, memStartKernelLowRegion] at hlt hle
  obtain ⟨r, hr, hc⟩ := h.lowRegion ((va - memStartKernelLowRegion) / 4096) (by
    simp only [memStartKernelLowRegion]
    omega)
  obtain ⟨hc1, hc2⟩ := hc
  have hal := h.vmmOk.aligned r hr
  have hapart := hgap.apart r hr
  simp only [higherHalfVa, memStartKernelLowRegion, pageFrameSizeBytes] at hc1 hc2 hal
  omega

/-- `kmalloc_init` makes the heap of one free section. -/
theorem kmallocInit_spec {used bound : Nat} (h : MemoryReady s used bound v rs)
    (hrun : kmallocInit s = .ok ((), s')) :
    s'.phase = .kmallocReady ∧
      (∃ buffer, HeapInv s'.heap [buffer] [buffer] [] ∧ s'.heap.buffer = buffer) ∧
      ∃ v' rs', KernelReady s' v' rs' := by
  rw [kmallocInit, kernelPhaseValidate_bind_eq_ok, get_bind_apply] at hrun
  obtain ⟨⟨buffer, out⟩, s₁, hmap, hrun⟩ := bind_eq_ok.1 hrun.2
  have hle : v.start ≤ v.end_ := by
    rw [h.start, h.end_]
    decide
  have hsize : pageframesToBytes (bytesToPageframesCeiling memLenBytesKmalloc) =
      memLenBytesKmalloc := by
    decide
  obtain ⟨va, a, s₂, hva, hadd, hcases⟩ := kvmmMemmap_parts hmap
  have hflag : bitIsUnset vmmMemmapFlagKernelPage vmmMemmapFlagImmcommit = true := by decide
  rcases hcases with ⟨-, hr, rfl⟩ | ⟨hne, -, hr, rfl⟩ | ⟨-, hset, -⟩
  · cases hr
    cases hrun
  · cases hr
    rcases ite_eq_ok.1 hrun with ⟨-, hrun⟩ | ⟨hbuffer, hrun⟩
    · cases hrun
    have hnonempty : rs ≠ [] := fun hnil => by
      obtain ⟨r, hr, -⟩ := h.lowRegion 0 (by decide)
      rw [hnil] at hr
      cases hr
    obtain ⟨-, hfind⟩ := hva.resolve_left fun hne => hne.1 rfl
    have hgap : InGap v rs v.start buffer memLenBytesKmalloc := by
      rcases (findNextVa_spec h.vmmOk hle hfind).2 with hzero | ⟨hnil, -⟩ | hgap
      · exact absurd hzero hbuffer
      · exact absurd hnil hnonempty
      · rwa [hsize] at hgap
    have habove := h.above_salloc hgap (Nat.le_of_eq h.start.symm) (by decide)
    have hupper := hgap.upper
    rw [h.end_] at hupper
    have hphase : s.phase.check .kmallocReady = false := by
      rw [h.phase]
      rfl
    obtain ⟨heq₁, hsalloc₁, head, rs₁, hv₁, -, howned₁⟩ := addNewVirtualAddressSpace_static h.salloc
      hphase h.vmmOk (hsize ▸ hgap.fits (by decide)) hadd hne
    obtain ⟨_, s₂, htouch, hrun⟩ := bind_eq_ok.1 hrun
    have hnc := touchRange_fixes _ _ _ _ _ htouch
    obtain ⟨_, s₃, hinit, hrun⟩ := bind_eq_ok.1 hrun
    obtain ⟨heap, hheap, rfl⟩ := zoom_eq_ok.1 hinit
    obtain ⟨heap', hheap', hinv, hbuf⟩ := @heapInit_spec buffer s₂.heap
      (Nat.lt_of_le_of_lt hupper (by decide))
    obtain rfl : heap' = heap := by
      rw [hheap'] at hheap
      cases hheap
      rfl
    obtain ⟨-, rfl⟩ := kernelPhaseSet_eq_ok.1 hrun
    obtain ⟨dirty, hv₂⟩ := hv₁.of_nonCommit hnc
    have hcontext₁ : s₁.context = s.context := by rw [heq₁]
    have hcontext₂ : s₂.context = s₁.context := context_of_nonCommit hnc
    have hno₁ : NoProcess s₁ := by
      rw [heq₁]
      exact ⟨h.noProcess.processCount, h.noProcess.currentProcess, h.noProcess.rootProcess,
        h.noProcess.schedulerQueue, h.noProcess.freedContext⟩
    have hno₂ := hno₁.of_nonCommit hnc
    refine ⟨rfl, ⟨buffer, hinv, hbuf⟩, { v with isPageDirectoryDirty := dirty, head }, rs₁,
      { heapOk := ⟨⟨_, _, hinv⟩, hbuf ▸ habove, fun b hb => ?_⟩
        noProcess := ⟨hno₂.processCount, hno₂.currentProcess, hno₂.rootProcess,
          hno₂.schedulerQueue, hno₂.freedContext⟩
        vmmOk := ?_
        same := ?_
        owned := fun b hb => ?_ }⟩
    · have hb₁ : s₁.objs b ≠ none := fun hnone => hb ((objs_none_of_nonCommit hnc).2 hnone)
      obtain ⟨h1, h2⟩ := hsalloc₁.objs b hb₁
      exact .inl ⟨h1, Nat.lt_of_lt_of_le h2 hsalloc₁.upper⟩
    · show VmmOk _ s₂.context _ _
      rw [hcontext₂, hcontext₁]
      exact hv₂.congr (d := dirty) hv₂.vmm fun _ _ => rfl
    · obtain ⟨d, hd⟩ := h.same
      exact ⟨dirty, by rw [hd]; rfl⟩
    · show b = s₂.context ∨ _
      have hb₁ : s₁.objs b ≠ none := fun hnone => hb ((objs_none_of_nonCommit hnc).2 hnone)
      rw [hcontext₂, hcontext₁]
      rcases howned₁ b hb₁ with ⟨hb₀, hmem⟩ | hmem
      · exact (h.owned b hb₀).imp id hmem
      · exact .inr hmem
  · rw [hflag] at hset
    cases hset

/-- After the calls of `kernel_main` up to `kmalloc_init` the heap is one free section, and there
are only the records of the kernel's own address spaces. -/
theorem kernelMainHeap_spec {info : BootLoaderInfo} {mem : Nat → Nat → Entry} {freshDirty : Bool}
    (hmain : kernelMainMemory info.files freshDirty (entryState info mem) = .ok ((), s))
    (hinit : kmallocInit s = .ok ((), s')) :
    s'.phase = .kmallocReady ∧
      (∃ buffer, HeapInv s'.heap [buffer] [buffer] [] ∧ s'.heap.buffer = buffer) ∧
      ∃ v rs, KernelReady s' v rs := by
  obtain ⟨v, rs, hmem⟩ := kernelMainMemory_spec hmain
  exact kmallocInit_spec hmem hinit

end MeghaOS
