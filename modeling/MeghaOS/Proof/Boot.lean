import MeghaOS.Boot
import MeghaOS.Proof.Pmm
import MeghaOS.Proof.Vmm

/-!
# Static memory at the start of the kernel

Before the heap is ready, records come from `salloc`, which hands out its memory in order
(`SallocOk`). `ksalloc_ok` and `ksalloc_refused` say what a call does where there is room and where
there is none, and `kscalloc_eq_ksalloc` that `kscalloc` rounds a size twice to no effect. The
reservations that are made before the heap is ready follow from that.
-/

namespace MeghaOS

open Exec KState

variable {s s' : KState} {m a va : Nat} {v : VMemoryManager} {rs : List VMemoryAddressSpace}

/-! ## Static allocation -/

/-- Every record lies in the part of the static memory that was handed out. -/
structure SallocOk (s : KState) : Prop where
  lower : memStartSalloc ≤ s.sallocNext
  upper : s.sallocNext ≤ memStartSalloc + memLenBytesSalloc
  objs : ∀ a, s.objs a ≠ none → memStartSalloc ≤ a ∧ a < s.sallocNext

/-- A size rounded up to the granularity of `salloc`. -/
def roundedSize (bytes : Nat) : Nat := (bytes + 7) / 8 * 8

theorem le_roundedSize {bytes : Nat} : bytes ≤ roundedSize bytes := by
  unfold roundedSize
  omega

theorem roundedSize_mod {bytes : Nat} : roundedSize bytes % 8 = 0 := Nat.mul_mod_left _ 8

/-- A rounded size is not rounded again. -/
@[simp] theorem roundedSize_roundedSize {bytes : Nat} :
    roundedSize (roundedSize bytes) = roundedSize bytes := by
  have hmod := @roundedSize_mod bytes
  rw [roundedSize]
  omega

/-- No size that fits in the region is rounded to one that does not. -/
theorem roundedSize_le_iff {bytes : Nat} :
    roundedSize bytes ≤ memLenBytesSalloc ↔ bytes ≤ memLenBytesSalloc := by
  simp only [roundedSize, memLenBytesSalloc]
  omega

/-- `ALIGN_UP` to the granularity of `salloc`. -/
theorem alignUp_salloc {bytes : Nat} (h : bytes ≤ memLenBytesSalloc) :
    alignUp bytes sallocGranuality = roundedSize bytes := by
  have hmask : bytes &&& (2 ^ 3 - 1) = bytes % 2 ^ 3 := Nat.and_two_pow_sub_one_eq_mod bytes 3
  have hal : isAligned bytes sallocGranuality = true ↔ bytes % 8 = 0 := by
    simp only [isAligned, sallocGranuality, beq_iff_eq]
    exact ⟨fun hn => hmask ▸ hn, fun hn => hmask.trans hn⟩
  simp only [memLenBytesSalloc] at h
  rw [alignUp, roundedSize]
  split
  · have := hal.1 ‹_›
    omega
  · have := mt hal.2 ‹_›
    simp only [u32, sallocGranuality]
    omega

/-- `kscalloc` rounds a size that `ksalloc` rounds again, which changes nothing. -/
theorem kscalloc_eq_ksalloc (bytes : Nat) : kscalloc bytes = ksalloc bytes := by
  funext s
  by_cases hphase : s.phase.check .sallocReady = true
  · have hvalid : kernelPhaseValidate .sallocReady s = .ok ((), s) :=
      kernelPhaseValidate_eq_ok.2 ⟨hphase, rfl⟩
    by_cases hbad : bytes = 0 ∨ bytes > memLenBytesSalloc
    · rw [kscalloc, bind_of_ok hvalid, if_pos hbad, ksalloc, bind_of_ok hvalid, if_pos hbad]
    · have hle : bytes ≤ memLenBytesSalloc := by omega
      have hrounded := roundedSize_le_iff.2 hle
      have hpos := @le_roundedSize bytes
      rw [kscalloc, bind_of_ok hvalid, if_neg hbad, alignUp_salloc hle, ksalloc, ksalloc,
        bind_of_ok hvalid, bind_of_ok hvalid, if_neg hbad, if_neg (by omega), alignUp_salloc hle,
        alignUp_salloc hrounded, roundedSize_roundedSize]
  · have hinvalid : kernelPhaseValidate .sallocReady s =
        .error (.panic "Assertion failed: Current state is not suitable") := by
      rw [kernelPhaseValidate, get_bind_apply, kAssert, if_neg hphase]
      rfl
    rw [kscalloc, bind_of_error hinvalid, ksalloc, bind_of_error hinvalid]

/-- `ksalloc` hands out the next bytes when there is room. -/
theorem ksalloc_ok (bytes size : Nat) (hphase : s.phase.check .sallocReady = true)
    (hpos : bytes ≠ 0) (hsize : roundedSize bytes = size) (hlower : memStartSalloc ≤ s.sallocNext)
    (hroom : s.sallocNext + size ≤ memStartSalloc + memLenBytesSalloc) :
    ksalloc bytes s = .ok (s.sallocNext, { s with sallocNext := s.sallocNext + size }) := by
  have hle : bytes ≤ memLenBytesSalloc := roundedSize_le_iff.1 (by omega)
  have hbytes : bytes ≤ size := hsize ▸ le_roundedSize
  rw [ksalloc, kernelPhaseValidate_bind_eq_ok]
  refine ⟨hphase, ?_⟩
  rw [if_neg (by omega), alignUp_salloc hle, hsize, get_bind_apply]
  simp only [memStartSalloc, memLenBytesSalloc] at hlower hroom
  have hspace : u32Sub (u32Sub s.sallocNext memStartSalloc + size) 1 < memLenBytesSalloc := by
    simp only [u32Sub, memStartSalloc, memLenBytesSalloc]
    omega
  have hnext : u32 (s.sallocNext + size) = s.sallocNext + size := Nat.mod_eq_of_lt (by omega)
  have hback : u32Sub (s.sallocNext + size) size = s.sallocNext := by
    unfold u32Sub
    omega
  rw [if_neg (by simpa using hspace), get_bind_apply, hnext, hback, modify_bind_apply, pure_apply]

/-- What `ksalloc` reports when it does not hand out so many bytes. -/
def sallocError (bytes : Nat) : KernelErrorCodes :=
  if bytes = 0 ∨ bytes > memLenBytesSalloc then .errInvalidRange else .errOutOfMem

/-- `ksalloc` reports an error when there is no room. -/
theorem ksalloc_refused (bytes : Nat) (hphase : s.phase.check .sallocReady = true)
    (hlower : memStartSalloc ≤ s.sallocNext)
    (hupper : s.sallocNext ≤ memStartSalloc + memLenBytesSalloc)
    (hroom : bytes ≠ 0 → memStartSalloc + memLenBytesSalloc < s.sallocNext + roundedSize bytes) :
    ksalloc bytes s = .ok (0, { s with errorNumber := sallocError bytes }) := by
  rw [ksalloc, kernelPhaseValidate_bind_eq_ok, sallocError]
  refine ⟨hphase, ?_⟩
  split
  · rfl
  · have hle : bytes ≤ memLenBytesSalloc := by omega
    have hrounded := roundedSize_le_iff.2 hle
    have hfull : ¬ u32Sub (u32Sub s.sallocNext memStartSalloc + roundedSize bytes) 1 <
        memLenBytesSalloc := by
      have hroom := hroom (by omega)
      simp only [u32Sub, memStartSalloc, memLenBytesSalloc] at *
      omega
    rw [alignUp_salloc hle, get_bind_apply, if_pos hfull]
    rfl

/-- `ksalloc` reports an error, or hands out the next bytes. -/
theorem ksalloc_spec {bytes : Nat} (hlower : memStartSalloc ≤ s.sallocNext)
    (hupper : s.sallocNext ≤ memStartSalloc + memLenBytesSalloc)
    (h : ksalloc bytes s = .ok (a, s')) :
    (a = 0 ∧ ∃ e, s' = { s with errorNumber := e }) ∨
      a = s.sallocNext ∧ ∃ next, s.sallocNext < next ∧ next ≤ memStartSalloc + memLenBytesSalloc ∧
        s' = { s with sallocNext := next } := by
  have hphase : s.phase.check .sallocReady = true := by
    rw [ksalloc, kernelPhaseValidate_bind_eq_ok] at h
    exact h.1
  by_cases hroom : bytes ≠ 0 ∧
      s.sallocNext + roundedSize bytes ≤ memStartSalloc + memLenBytesSalloc
  · have hpos := @le_roundedSize bytes
    rw [ksalloc_ok bytes _ hphase hroom.1 rfl hlower hroom.2] at h
    cases h
    exact .inr ⟨rfl, _, by omega, hroom.2, rfl⟩
  · have hfull : bytes ≠ 0 →
        memStartSalloc + memLenBytesSalloc < s.sallocNext + roundedSize bytes := by
      intro hpos
      exact Nat.lt_of_not_le fun hle => hroom ⟨hpos, hle⟩
    rw [ksalloc_refused bytes hphase hlower hupper hfull] at h
    cases h
    exact .inl ⟨rfl, _, rfl⟩

namespace SallocOk

/-- The next bytes hold no record. -/
theorem objs_next (hs : SallocOk s) : s.objs s.sallocNext = none := by
  by_contra hne
  exact absurd (hs.objs _ hne).2 (Nat.lt_irrefl _)

/-- Nothing else changes what was handed out. -/
theorem congr (hs : SallocOk s) (hnext : s'.sallocNext = s.sallocNext)
    (hobjs : ∀ a, s'.objs a ≠ none → s.objs a ≠ none) : SallocOk s' where
  lower := hnext ▸ hs.lower
  upper := hnext ▸ hs.upper
  objs a ha := by
    rw [hnext]
    exact hs.objs a (hobjs a ha)

/-- Handing out more. -/
theorem handOut (hs : SallocOk s) {next : Nat} (hlt : s.sallocNext < next)
    (hle : next ≤ memStartSalloc + memLenBytesSalloc) :
    SallocOk { s with sallocNext := next } where
  lower := Nat.le_trans hs.lower (Nat.le_of_lt hlt)
  upper := hle
  objs b hb := by
    obtain ⟨h1, h2⟩ := hs.objs b hb
    exact ⟨h1, Nat.lt_trans h2 hlt⟩

/-- Putting a record at bytes that were handed out. -/
theorem setObj (hs : SallocOk s) {o : Obj} (hlo : memStartSalloc ≤ a) (hhi : a < s.sallocNext) :
    SallocOk (s.setObj a o) where
  lower := hs.lower
  upper := hs.upper
  objs b hb := by
    by_cases hba : b = a
    · subst hba
      exact ⟨hlo, hhi⟩
    · exact hs.objs b (by simpa [KState.setObj, hba] using hb)

end SallocOk

/-- A new record in static memory. -/
theorem sallocObj_spec {alloc : Nat → K Nat} {o : Obj} (hs : SallocOk s)
    (halloc : ∀ {a s'}, alloc o.size s = .ok (a, s') →
      (a = 0 ∧ ∃ e, s' = { s with errorNumber := e }) ∨
      a = s.sallocNext ∧ ∃ next, s.sallocNext < next ∧ next ≤ memStartSalloc + memLenBytesSalloc ∧
        s' = { s with sallocNext := next })
    (h : sallocObj alloc o s = .ok (a, s')) :
    (a = 0 ∧ ∃ e, s' = { s with errorNumber := e }) ∨
      a = s.sallocNext ∧ a ≠ 0 ∧ SallocOk s' ∧
        ∃ next, s' = KState.setObj { s with sallocNext := next } a o := by
  obtain ⟨b, s₁, hcall, hrest⟩ := bind_eq_ok.1 h
  rcases halloc hcall with ⟨rfl, e, rfl⟩ | ⟨rfl, next, hlt, hle, rfl⟩
  · cases hrest
    exact .inl ⟨rfl, e, rfl⟩
  · have hlower := hs.lower
    have hne : s.sallocNext ≠ 0 := by
      simp only [memStartSalloc] at hlower
      omega
    rw [if_pos hne, modify_bind_apply] at hrest
    cases hrest
    exact .inr ⟨rfl, hne, (hs.handOut hlt hle).setObj hlower hlt, next, rfl⟩

/-! ## Reservations before the heap is ready -/

/-- The record that `createNewVirtAddrSpace` makes before the heap is ready. -/
def newStaticVas (startVm szBytes flags : Nat) : Obj := .vas ⟨true, flags, startVm, szBytes, 0⟩

theorem createNewVirtAddrSpace_static {szBytes flags : Nat} (hs : SallocOk s)
    (hphase : s.phase.check .kmallocReady = false)
    (h : createNewVirtAddrSpace va szBytes flags s = .ok (a, s')) :
    (a = 0 ∧ ∃ e, s' = { s with errorNumber := e }) ∨
      isAligned szBytes pageFrameSizeBytes = true ∧ a = s.sallocNext ∧ a ≠ 0 ∧ SallocOk s' ∧
        ∃ next, s' = KState.setObj { s with sallocNext := next } a
            (newStaticVas va szBytes flags) := by
  simp only [createNewVirtAddrSpace, get_bind_apply, hphase, Bool.false_eq_true, if_false] at h
  obtain ⟨new, s₁, hnew, hrest⟩ := bind_eq_ok.1 h
  rcases sallocObj_spec hs
      (fun h => ksalloc_spec hs.lower hs.upper (kscalloc_eq_ksalloc _ ▸ h)) hnew with
    ⟨rfl, e, rfl⟩ | ⟨rfl, hne, hs₁, next, rfl⟩
  · cases hrest
    exact .inl ⟨rfl, e, rfl⟩
  · rw [if_neg hne, kAssert_bind_eq_ok] at hrest
    obtain ⟨hal, hrest⟩ := hrest
    cases hrest
    exact .inr ⟨hal, rfl, hne, hs₁, next, rfl⟩

/-! ## Reservations that succeed -/

/-- `salloc` has room for a record of an address space. -/
def SallocRoom (s : KState) : Prop :=
  s.sallocNext + 48 ≤ memStartSalloc + memLenBytesSalloc

theorem createNewVirtAddrSpace_static_ok (va szBytes flags : Nat) (hs : SallocOk s)
    (hroom : SallocRoom s) (hphase : s.phase = .vmmReady)
    (hal : isAligned szBytes pageFrameSizeBytes = true) :
    createNewVirtAddrSpace va szBytes flags s = .ok (s.sallocNext,
      KState.setObj { s with sallocNext := s.sallocNext + 48 } s.sallocNext
        (newStaticVas va szBytes flags)) := by
  have hne : s.sallocNext ≠ 0 := by
    have hlower := hs.lower
    simp only [memStartSalloc] at hlower
    omega
  have hcheck : s.phase.check .kmallocReady = false := by rw [hphase]; rfl
  have hcall := ksalloc_ok sizeofVMemoryAddressSpace 48 (by rw [hphase]; rfl) (by decide)
    (by decide) hs.lower hroom
  rw [← kscalloc_eq_ksalloc] at hcall
  have hobj : sallocObj kscalloc (.vas ⟨true, flags, va, szBytes, 0⟩) s = .ok (s.sallocNext,
      KState.setObj { s with sallocNext := s.sallocNext + 48 } s.sallocNext
        (newStaticVas va szBytes flags)) := by
    rw [sallocObj, show (Obj.vas _).size = sizeofVMemoryAddressSpace from rfl,
      bind_of_ok hcall, if_pos hne]
    rfl
  rw [createNewVirtAddrSpace, get_bind_apply, hcheck]
  simp only [Bool.false_eq_true, if_false]
  rw [bind_of_ok hobj, if_neg hne, kAssert_bind_eq_ok]
  exact ⟨hal, rfl⟩

/-- An entry behind all the others is put at the end of the list. -/
theorem insertVas_last (new newStart newEnd : Nat) {l : List Nat}
    (hvas : List.Forall₂ (fun a r => s.objs a = some (.vas r)) l rs)
    (hbelow : ∀ r ∈ rs, ¬ r.startVm > newStart ∧ endPointsOverlap newStart newEnd r.startVm
      (u32Sub (r.startVm + r.allocationSzBytes) 1) = false) :
    insertVas new newStart newEnd l s = .ok (some (l ++ [new]), s) := by
  induction hvas with
  | nil => rfl
  | @cons a r l rs har _ ih =>
    obtain ⟨hle, hno⟩ := hbelow r (by simp)
    rw [insertVas, getVas_bind_eq_ok]
    refine ⟨r, har, ?_⟩
    rw [if_neg (by simp [hno]), if_neg hle, bind_of_ok (ih fun x hx => hbelow x (.tail _ hx))]
    rfl

/-- The number of bytes of a range of pages. -/
theorem pageframesToBytes_eq {szPages : Nat} (h : szPages * 4096 < 2 ^ 32) :
    pageframesToBytes szPages = szPages * 4096 := by
  rw [pageframesToBytes, u32, Nat.shiftLeft_eq, Nat.mod_eq_of_lt h]

/-- The records of a manager stay in place when a new record is put in static memory. -/
theorem VmmOk.of_salloc (hv : VmmOk s m v rs) (hs : SallocOk s) (next : Nat) (o : Obj) :
    VmmOk (KState.setObj { s with sallocNext := next } s.sallocNext o) m v rs := by
  have hkeep : ∀ b o', s.objs b = some o' →
      (KState.setObj { s with sallocNext := next } s.sallocNext o).objs b = some o' := by
    intro b o' hb
    have hne : b ≠ s.sallocNext := fun heq => by
      rw [heq, hs.objs_next] at hb
      cases hb
    simpa [KState.setObj, hne] using hb
  refine hv.congr (d := v.isPageDirectoryDirty) (hkeep _ _ hv.vmm) fun b hb => ?_
  obtain ⟨r, -, hr⟩ := hv.objs_head hb
  rw [hr]
  exact hkeep _ _ hr

/-- Before the heap is ready, a range behind all the entries of the list is reserved. -/
theorem kvmmMemmap_static_ok {szPages : Nat} (flags : Nat) (hs : SallocOk s) (hroom : SallocRoom s)
    (hphase : s.phase = .vmmReady) (hv : VmmOk s m v rs) (hva : va ≠ 0) (hal : va % 4096 = 0)
    (hlo : v.start ≤ va) (hpos : 0 < szPages) (hup : va + szPages * 4096 ≤ v.end_)
    (hbelow : ∀ r ∈ rs, r.startVm + r.allocationSzBytes ≤ va)
    (hflags : bitIsUnset flags vmmMemmapFlagImmcommit = true) :
    ∃ s', kvmmMemmap m va none szPages flags s = .ok ((va, none), s') ∧
      s' = { s with sallocNext := s.sallocNext + 48, objs := s'.objs } ∧ SallocOk s' ∧
      VmmOk s' m { v with head := v.head ++ [s.sallocNext] }
        (rs ++ [⟨true, flags, va, szPages * 4096, 0⟩]) ∧
      ∀ b, s'.objs b ≠ none → s.objs b ≠ none ∨ b = s.sallocNext := by
  have hend := hv.end_lt
  have hbytes : pageframesToBytes szPages = szPages * 4096 := pageframesToBytes_eq (by omega)
  have hszal : isAligned (szPages * 4096) pageFrameSizeBytes = true :=
    isAligned_page_iff.2 (by omega)
  have hsum : u32 (va + szPages * 4096) = va + szPages * 4096 := Nat.mod_eq_of_lt (by omega)
  have hlast : u32Sub (va + szPages * 4096) 1 = va + szPages * 4096 - 1 := by
    unfold u32Sub
    omega
  have hcreate := createNewVirtAddrSpace_static_ok va _ flags hs hroom hphase hszal
  obtain ⟨s₁, hs₁⟩ : ∃ s₁,
    s₁ = KState.setObj { s with sallocNext := s.sallocNext + 48 } s.sallocNext
      (newStaticVas va (szPages * 4096) flags) := ⟨_, rfl⟩
  have hv₁ : VmmOk s₁ m v rs := hs₁ ▸ hv.of_salloc hs _ _
  have hsalloc : SallocOk s₁ := by
    rw [hs₁]
    exact (hs.handOut (Nat.lt_add_of_pos_right (by decide)) hroom).setObj hs.lower
      (Nat.lt_add_of_pos_right (by decide))
  have hnew : s₁.objs s.sallocNext = some (.vas ⟨true, flags, va, szPages * 4096, 0⟩) := by
    simp [hs₁, KState.setObj, newStaticVas]
  have hfresh : s.sallocNext ∉ v.head := fun hmem => by
    obtain ⟨r, -, hr⟩ := hv.objs_head hmem
    rw [hs.objs_next] at hr
    cases hr
  rw [← hs₁] at hcreate
  have hinsert := insertVas_last s.sallocNext va (va + szPages * 4096 - 1) hv₁.vas fun r hr => by
      have hr1 := hbelow r hr
      have hr2 := hv.layout.pos r hr
      have hrEnd : u32Sub (r.startVm + r.allocationSzBytes) 1 =
          r.startVm + r.allocationSzBytes - 1 := by
        unfold u32Sub
        omega
      rw [hrEnd]
      refine ⟨by omega, ?_⟩
      rw [endPointsOverlap, decide_eq_false_iff_not]
      omega
  have henter : enterVas m s.sallocNext va (va + szPages * 4096 - 1) s₁ = .ok (s.sallocNext,
      s₁.setObj m (.vmm { v with head := v.head ++ [s.sallocNext] })) := by
    rw [enterVas, getVmm_bind_eq_ok]
    refine ⟨v, hv₁.vmm, ?_⟩
    rw [bind_of_ok hinsert, modifyVmm_bind_eq_ok]
    exact ⟨v, hv₁.vmm, rfl⟩
  have hne : s.sallocNext ≠ 0 := by
    have hlower := hs.lower
    simp only [memStartSalloc] at hlower
    omega
  have hadd : addNewVirtualAddressSpace m va szPages flags s = .ok (s.sallocNext,
      s₁.setObj m (.vmm { v with head := v.head ++ [s.sallocNext] })) := by
    rw [addNewVirtualAddressSpace, getVmm_bind_eq_ok]
    refine ⟨v, hv.vmm, ?_⟩
    rw [hbytes, hsum, hlast, if_neg (by simp [isAligned_page_iff, hal]), if_neg (by omega),
      bind_of_ok hcreate, if_neg hne, henter]
  have hm := hsalloc.objs m (by rw [hv₁.vmm]; simp)
  have hlayout : VasLayout v (rs ++ [⟨true, flags, va, szPages * 4096, 0⟩]) := by
    refine Layout.insert (by rw [List.append_nil]; exact hv.layout) hlo ?_ hup hbelow (by simp)
    exact Nat.mul_pos hpos (by decide)
  refine ⟨s₁.setObj m (.vmm { v with head := v.head ++ [s.sallocNext] }), ?_, by rw [hs₁]; rfl,
    hsalloc.setObj hm.1 hm.2, ?_, fun b hb => ?_⟩
  · rw [kvmmMemmap, memmapVa, if_neg hva, pure_bind, bind_of_ok hadd, if_neg hne, if_pos hflags]
    rfl
  · have hv₁' : VmmOk s₁ m v (rs ++ []) := by rwa [List.append_nil]
    exact hv₁'.insert (d := v.isPageDirectoryDirty) hnew hfresh (List.append_nil _).symm
      hv₁.vas.length_eq hlayout ⟨hal, Nat.mul_mod_left _ _⟩ rfl
  · by_cases hbm : b = m
    · exact .inl (by rw [hbm, hv.vmm]; simp)
    · by_cases hbs : b = s.sallocNext
      · exact .inr hbs
      · exact .inl (by simpa [KState.setObj, hbm, hs₁, hbs] using hb)

end MeghaOS
