import MeghaOS.Proof.Boot
import MeghaOS.Proof.Paging

/-!
# The higher half at boot

The loop of `s_initializeMemoryManagers` brings the page table of the first 2 MB and the address
spaces of the kernel in line with the PAB. `HigherHalfUpTo` is what holds when the loop has come to
a page: below it the three views agree, and from it on every page is still mapped and no address
space is reserved. The loop is walked forwards, so that the result also says that it ends without a
panic.
-/

namespace MeghaOS

open Exec KState

variable {s s' s₀ : KState} {f n : Nat} {v v₀ : VMemoryManager} {rs : List VMemoryAddressSpace}

/-! ## The states of the frames -/

/-- The virtual address of a page frame below the end of the higher half mapping. -/
abbrev higherHalfVa (f : Nat) : Nat := memStartKernelLowRegion + f * 4096

/-- `kpmm_getPageStatus` of a frame of the PAB. -/
theorem kpmmGetPageStatus_frame (hs : PabOk s) (hphase : s.phase.check .pmmReady = true)
    (hf : f < 16384) : kpmmGetPageStatus (f * 4096) s = .ok (s.frameState f, s) := by
  have hcap := hs.capacity
  have hframe : bytesToPageframesFloor (f * 4096) = f := by
    rw [startPageFrame_eq (by omega)]
    omega
  rw [kpmmGetPageStatus, kernelPhaseValidate_bind_eq_ok]
  refine ⟨hphase, ?_⟩
  rw [if_neg (by simp [isAligned_page_iff]), get_bind_apply, hframe, lift_eq_ok]
  exact ⟨bitmapGet_eq_ok.2 ⟨hs.packed.eight_mod, by omega, rfl⟩, rfl⟩

/-- The loop of `s_getPhysicalBlockPageCount` counts pages in the initial state, and it does not run
past the end of the region. -/
theorem blockPageCountFrom_spec {end_ : Nat} (initial fuel szPages : Nat) (hs : PabOk s)
    (hphase : s.phase.check .pmmReady = true)
    (hvalid : ∀ j < 16384, s.frameState j ≠ pmmStateInvalid)
    (hend : ∀ j, j * 4096 < end_ ↔ j < n) (hn : n ≤ 512) (hf : f ≤ n) (hfuel : n < f + fuel) :
    ∃ k, blockPageCountFrom initial end_ fuel (s.frameState f) (f * 4096) szPages s =
        .ok (szPages + k, s) ∧ f + k ≤ n ∧ (∀ j, f ≤ j → j < f + k → s.frameState j = initial) ∧
      (initial = s.frameState f → f < n → 0 < k) := by
  induction fuel generalizing f szPages with
  | zero => omega
  | succ fuel ih =>
    by_cases hgo : initial = s.frameState f ∧ f < n
    · have hnext : u32 (f * 4096 + pageFrameSizeBytes) = (f + 1) * 4096 := by
        unfold u32 pageFrameSizeBytes
        omega
      obtain ⟨k, hrun, hk, hstate, -⟩ := ih (szPages + 1) (show f + 1 ≤ n by omega)
        (by omega)
      refine ⟨k + 1, ?_, by omega, fun j h1 h2 => ?_, fun _ _ => by omega⟩
      · rw [blockPageCountFrom, if_pos ⟨hgo.1, (hend f).2 hgo.2⟩, hnext,
          bind_of_ok (kpmmGetPageStatus_frame hs hphase (by omega)),
          if_neg (hvalid (f + 1) (by omega)), show szPages + (k + 1) = szPages + 1 + k by omega]
        exact hrun
      · rcases Nat.eq_or_lt_of_le h1 with rfl | h1
        · exact hgo.1.symm
        · exact hstate j h1 (by omega)
    · refine ⟨0, ?_, hf, fun j h1 h2 => by omega, fun h1 h2 => absurd ⟨h1, h2⟩ hgo⟩
      rw [blockPageCountFrom, if_neg fun h => hgo ⟨h.1, (hend f).1 h.2⟩]
      rfl

/-- `s_getPhysicalBlockPageCount` of a page of the region. -/
theorem sGetPhysicalBlockPageCount_spec {end_ : Nat} (hs : PabOk s)
    (hphase : s.phase.check .pmmReady = true)
    (hvalid : ∀ j < 16384, s.frameState j ≠ pmmStateInvalid)
    (hend : ∀ j, j * 4096 < end_ ↔ j < n) (hn : n ≤ 512) (hf : f < n) :
    ∃ k, sGetPhysicalBlockPageCount (f * 4096) end_ s = .ok (k, s) ∧ 0 < k ∧ f + k ≤ n ∧
      ∀ j, f ≤ j → j < f + k → s.frameState j = s.frameState f := by
  obtain ⟨k, hrun, hk, hstate, hpos⟩ := blockPageCountFrom_spec (s.frameState f) 513 0 hs hphase
    hvalid hend hn (Nat.le_of_lt hf) (by omega)
  refine ⟨k, ?_, hpos rfl hf, hk, hstate⟩
  rw [sGetPhysicalBlockPageCount, bind_of_ok (kpmmGetPageStatus_frame hs hphase (by omega)), hrun,
    Nat.zero_add]

/-! ## The loop -/

/-- The state in which the loop of `s_initializeMemoryManagers` is entered: the PAB is complete, the
page table of the entry code maps the first 2 MB one to one, and the kernel has no address space. -/
structure HigherHalfReady (s : KState) (v : VMemoryManager) : Prop where
  phase : s.phase = .vmmReady
  pabOk : PabOk s
  valid : ∀ f < 16384, s.frameState f ≠ pmmStateInvalid
  tempInt : s.tempInt = none
  pde : s.entry s.cr3 kernelPdeIndex = entryOf kernelPageTableFrame
  pte : ∀ f < 512, s.entry kernelPageTableFrame f = entryOf f
  salloc : SallocOk s
  room : s.sallocNext + 48 * 512 ≤ memStartSalloc + memLenBytesSalloc
  vmm : s.objs s.context = some (.vmm v)
  start : v.start = memStartKernelLowRegion
  end_ : v.end_ = memEndKernelHighRegion
  head : v.head = []

/-- The address space contains an address. -/
def VMemoryAddressSpace.Covers (r : VMemoryAddressSpace) (va : Nat) : Prop :=
  r.startVm ≤ va ∧ va < r.startVm + r.allocationSzBytes

/-- The loop, entered in `s₀` with the manager `v₀`, has come to page `f`. -/
structure HigherHalfUpTo (s₀ : KState) (v₀ : VMemoryManager) (s : KState) (f : Nat)
    (v : VMemoryManager) (rs : List VMemoryAddressSpace) : Prop where
  eq : s = { s₀ with mem := s.mem, sallocNext := s.sallocNext, objs := s.objs }
  pde : s.entry s₀.cr3 kernelPdeIndex = entryOf kernelPageTableFrame
  done : ∀ j < f, (s.entry kernelPageTableFrame j).present = true ↔ s₀.frameState j ≠ pmmStateFree
  todo : ∀ j, f ≤ j → j < 512 → s.entry kernelPageTableFrame j = entryOf j
  salloc : SallocOk s
  room : s.sallocNext ≤ s₀.sallocNext + 48 * f
  vmmOk : VmmOk s s₀.context v rs
  same : v = { v₀ with head := v.head }
  below : ∀ r ∈ rs, r.startVm + r.allocationSzBytes ≤ higherHalfVa f
  covered : ∀ j < f, (∃ r ∈ rs, r.Covers (higherHalfVa j)) ↔ s₀.frameState j ≠ pmmStateFree
  owned : ∀ a, s.objs a ≠ none → s₀.objs a ≠ none ∨ a ∈ v.head

/-- At the first page nothing is reserved. -/
theorem HigherHalfReady.upTo (h : HigherHalfReady s v) : HigherHalfUpTo s v s 0 v [] where
  eq := rfl
  pde := h.pde
  done j hj := absurd hj (Nat.not_lt_zero j)
  todo j _ hj := h.pte j hj
  salloc := h.salloc
  room := Nat.le_refl _
  vmmOk :=
    { vmm := h.vmm
      vas := by rw [h.head]; exact .nil
      nodup := by rw [h.head]; exact .nil
      layout := .nil
      aligned := by simp
      share := by simp
      end_lt := by rw [h.end_]; decide }
  same := rfl
  below := by simp
  covered j hj := absurd hj (Nat.not_lt_zero j)
  owned _ ha := .inl ha

/-- The page table entry of a page of the higher half. -/
theorem higherHalfVa_indices (hf : f < 512) :
    pdeIndex (higherHalfVa f) = kernelPdeIndex ∧ pteIndex (higherHalfVa f) = f := by
  simp only [higherHalfVa, pdeIndex, pteIndex, memStartKernelLowRegion, kernelPdeIndex]
  omega

/-- The entries of the temporary mappings are not among the first 512. -/
theorem not_isTempSlot_higherHalf {t : Nat} (hf : f < 512) : ¬ IsTempSlot t f := by
  rintro ⟨-, hi | hi⟩
  · simp only [temporaryPteIndexExtern] at hi
    omega
  · simp only [temporaryPteIndexInternal] at hi
    omega

/-- A free page of the higher half is unmapped. -/
theorem kpgUnmap_higherHalf (hf : f < 512) (hint : s.tempInt = none)
    (hpde : s.entry s.cr3 kernelPdeIndex = entryOf kernelPageTableFrame)
    (hpte : s.entry kernelPageTableFrame f = entryOf f) :
    kpgUnmap kpgGetcurrentpd (higherHalfVa f) s =
      .ok (true, s.setEntry kernelPageTableFrame f { entryOf f with present := false }) := by
  obtain ⟨hpdeIndex, hpteIndex⟩ := higherHalfVa_indices hf
  have hd : kpgGetcurrentpd.At s.cr3 s := rfl
  have hal : isAligned (higherHalfVa f) pageFrameSizeBytes = true := by
    rw [isAligned_page_iff]
    simp only [higherHalfVa, memStartKernelLowRegion]
    omega
  have hslot : ¬ IsIntSlot kernelPageTableFrame f := by
    rintro ⟨-, hslot⟩
    simp only [temporaryPteIndexInternal] at hslot
    omega
  have htable : (entryOf kernelPageTableFrame).tableFrame = kernelPageTableFrame := rfl
  rw [kpgUnmap, kAssert_bind_eq_ok]
  refine ⟨by decide, ?_⟩
  rw [if_neg (by simp [hal]), readPde_bind hd, hpdeIndex, hpde, if_neg (by simp [entryOf]),
    openTable_bind_eq_ok]
  refine ⟨hint, ?_⟩
  rw [htable, readPte_bind rfl, hpteIndex, entry_tempInt hslot, hpte, if_neg (by simp [entryOf]),
    get_bind_apply]
  have hframe : (frameOf (some kernelPageTableFrame) : K Nat) = pure kernelPageTableFrame := rfl
  rw [hframe, pure_bind, modify_bind_apply, sInternalTemporaryUnmap_bind_eq_ok]
  refine ⟨?_, ?_⟩
  · rw [setEntry_mem (not_isTempSlot_higherHalf hf)]
    exact Option.some_ne_none _
  · rw [setEntry_tempInt hslot hint]
    rfl

namespace HigherHalfUpTo

/-- A page of the region that is free. -/
theorem free (h : HigherHalfUpTo s₀ v₀ s f v rs) (hready : HigherHalfReady s₀ v₀) (hf : f < 512)
    (hfree : s₀.frameState f = pmmStateFree) :
    ∃ s', kpgUnmap kpgGetcurrentpd (higherHalfVa f) s = .ok (true, s') ∧
      HigherHalfUpTo s₀ v₀ s' (f + 1) v rs := by
  have hcr3 : s.cr3 = s₀.cr3 := by rw [h.eq]
  have hint : s.tempInt = none := by
    rw [h.eq]
    exact hready.tempInt
  have hnot : ¬ IsTempSlot kernelPageTableFrame f := not_isTempSlot_higherHalf hf
  have hne : ¬ (s₀.cr3 = kernelPageTableFrame ∧ kernelPdeIndex = f) := by
    rintro ⟨-, hi⟩
    simp only [kernelPdeIndex] at hi
    omega
  refine ⟨_, kpgUnmap_higherHalf hf hint (hcr3 ▸ h.pde) (h.todo f (Nat.le_refl f) hf), ?_⟩
  have hmem := setEntry_mem (s := s) (e := { entryOf f with present := false }) hnot
  refine
    { eq := ?_, pde := ?_, done := fun j hj => ?_, todo := fun j h1 h2 => ?_, salloc := ?_,
      room := ?_, vmmOk := ?_, same := h.same, below := fun r hr => ?_,
      covered := fun j hj => ?_, owned := fun a ha => h.owned a (by rwa [hmem] at ha) }
  · rw [hmem, h.eq]
  · rw [entry_setEntry_of_ne hne, h.pde]
  · rcases Nat.lt_succ_iff_lt_or_eq.1 hj with hj | rfl
    · rw [entry_setEntry_of_ne (by omega)]
      exact h.done j hj
    · rw [entry_setEntry_self hnot]
      simp [hfree]
  · rw [entry_setEntry_of_ne (by omega)]
    exact h.todo j (by omega) h2
  · rw [hmem]
    exact h.salloc.congr rfl fun _ => id
  · rw [hmem]
    have hroom := h.room
    show s.sallocNext ≤ _
    omega
  · rw [hmem]
    exact h.vmmOk.congr (d := v.isPageDirectoryDirty) h.vmmOk.vmm fun _ _ => rfl
  · refine Nat.le_trans (h.below r hr) ?_
    simp only [higherHalfVa]
    omega
  · rcases Nat.lt_succ_iff_lt_or_eq.1 hj with hj | rfl
    · exact h.covered j hj
    · refine iff_of_false ?_ (by simp [hfree])
      rintro ⟨r, hr, -, hhi⟩
      have := h.below r hr
      omega

/-- A run of pages of the region that are not free. -/
theorem reserve (h : HigherHalfUpTo s₀ v₀ s f v rs) (hready : HigherHalfReady s₀ v₀) {k : Nat}
    (hk : 0 < k) (hfk : f + k ≤ 512)
    (hstate : ∀ j, f ≤ j → j < f + k → s₀.frameState j ≠ pmmStateFree) :
    ∃ s' v' rs', kvmmMemmap s₀.context (higherHalfVa f) none k committedKernelPage s =
        .ok ((higherHalfVa f, none), s') ∧ HigherHalfUpTo s₀ v₀ s' (f + k) v' rs' := by
  have hphase : s.phase = .vmmReady := by
    rw [h.eq]
    exact hready.phase
  have hroom : SallocRoom s := by
    have h1 := h.room
    have h2 := hready.room
    unfold SallocRoom
    omega
  have hva : higherHalfVa f ≠ 0 ∧ higherHalfVa f % 4096 = 0 ∧
      higherHalfVa f + k * 4096 ≤ memEndKernelHighRegion := by
    simp only [higherHalfVa, memStartKernelLowRegion, memEndKernelHighRegion]
    omega
  have hstart : v.start ≤ higherHalfVa f := by
    rw [h.same]
    show v₀.start ≤ _
    rw [hready.start]
    exact Nat.le_add_right _ _
  have hend : v.end_ = memEndKernelHighRegion := by
    rw [h.same]
    exact hready.end_
  obtain ⟨s', hrun, heq, hsalloc, hvmm, howned⟩ := kvmmMemmap_static_ok committedKernelPage
    h.salloc hroom hphase h.vmmOk hva.1 hva.2.1 hstart hk (hend ▸ hva.2.2) h.below rfl
  have hentry : ∀ i j, s'.entry i j = s.entry i j := fun i j => by
    rw [heq]
    rfl
  refine ⟨s', _, _, hrun,
    { eq := ?_, pde := ?_, done := fun j hj => ?_, todo := fun j h1 h2 => ?_, salloc := hsalloc,
      room := ?_, vmmOk := hvmm, same := ?_, below := fun r hr => ?_,
      covered := fun j hj => ?_, owned := fun a ha => ?_ }⟩
  · rw [heq, h.eq]
  · rw [hentry, h.pde]
  · rw [hentry]
    by_cases hjf : j < f
    · exact h.done j hjf
    · rw [h.todo j (by omega) (by omega)]
      simp [entryOf, hstate j (by omega) hj]
  · rw [hentry]
    exact h.todo j (by omega) h2
  · have h1 := h.room
    rw [heq]
    show s.sallocNext + 48 ≤ _
    omega
  · rw [h.same]
  · rcases List.mem_append.1 hr with hr | hr
    · refine Nat.le_trans (h.below r hr) ?_
      simp only [higherHalfVa]
      omega
    · rw [List.mem_singleton.1 hr]
      simp only [higherHalfVa]
      omega
  · by_cases hjf : j < f
    · rw [← h.covered j hjf]
      refine ⟨?_, fun ⟨r, hr, hc⟩ => ⟨r, List.mem_append_left _ hr, hc⟩⟩
      rintro ⟨r, hr, hlo, hhi⟩
      rcases List.mem_append.1 hr with hr | hr
      · exact ⟨r, hr, hlo, hhi⟩
      · rw [List.mem_singleton.1 hr] at hlo
        simp only [higherHalfVa] at hlo
        omega
    · refine iff_of_true ⟨_, List.mem_append_right _ (List.mem_singleton_self _), ?_, ?_⟩
        (hstate j (by omega) hj) <;> simp only [higherHalfVa] <;> omega
  · rcases howned a ha with ha | rfl
    · exact (h.owned a ha).imp id (List.mem_append_left _)
    · exact .inr (by simp)

end HigherHalfUpTo

/-- The loop of `s_initializeMemoryManagers` ends, and has then come to the end of the region. -/
theorem mapHigherHalfFrom_spec {end_ : Nat} (fuel : Nat) (hready : HigherHalfReady s₀ v₀)
    (hend : ∀ j, j * 4096 < end_ ↔ j < n) (hn : n ≤ 512) (hf : f ≤ n) (hfuel : n < f + fuel)
    (h : HigherHalfUpTo s₀ v₀ s f v rs) :
    ∃ s' v' rs', mapHigherHalfFrom end_ fuel (f * 4096) s = .ok ((), s') ∧
      HigherHalfUpTo s₀ v₀ s' n v' rs' := by
  induction fuel generalizing f s v rs with
  | zero => omega
  | succ fuel ih =>
    rcases Nat.eq_or_lt_of_le hf with rfl | hlt
    · refine ⟨s, v, rs, ?_, h⟩
      rw [mapHigherHalfFrom, if_neg fun hgo => Nat.lt_irrefl _ ((hend f).1 hgo)]
      rfl
    have hpabOk : PabOk s := by
      rw [h.eq]
      exact hready.pabOk.congr rfl
    have hphase : s.phase.check .pmmReady = true := by
      rw [h.eq]
      show s₀.phase.check .pmmReady = true
      rw [hready.phase]
      rfl
    have hstates : ∀ j, s.frameState j = s₀.frameState j := fun j => by
      rw [h.eq]
      rfl
    have hva : u32 (f * 4096 + memStartKernelLowRegion) = higherHalfVa f := by
      simp only [u32, higherHalfVa, memStartKernelLowRegion]
      omega
    have hcontext : s.context = s₀.context := by rw [h.eq]
    rw [mapHigherHalfFrom, if_pos ((hend f).2 hlt),
      bind_of_ok (kpmmGetPageStatus_frame hpabOk hphase (by omega)), hva]
    by_cases hfree : s.frameState f = pmmStateFree
    · obtain ⟨s₁, hrun, h₁⟩ := h.free hready (by omega) (hstates f ▸ hfree)
      have hnext : u32 (f * 4096 + pageFrameSizeBytes) = (f + 1) * 4096 := by
        unfold u32 pageFrameSizeBytes
        omega
      rw [if_pos hfree, bind_of_ok hrun, if_pos rfl, hnext]
      exact ih (by omega) (by omega) h₁
    · have hvalid : ∀ j < 16384, s.frameState j ≠ pmmStateInvalid := fun j hj =>
        hstates j ▸ hready.valid j hj
      have hlt4 : s.frameState f < 4 := by
        have := Bitmap.stateAt_lt s.pab f
        rwa [Bitmap.maxState, hpabOk.bitsPerState] at this
      have hused : s.frameState f = pmmStateUsed ∨ s.frameState f = pmmStateReserved := by
        have := hvalid f (by omega)
        simp only [pmmStateFree, pmmStateUsed, pmmStateReserved, pmmStateInvalid] at *
        omega
      obtain ⟨k, hcount, hk, hfk, hsame⟩ :=
        sGetPhysicalBlockPageCount_spec hpabOk hphase hvalid hend hn hlt
      obtain ⟨s₁, v₁, rs₁, hrun, h₁⟩ := h.reserve hready hk (by omega) fun j h1 h2 => by
        rw [← hstates j, hsame j h1 h2]
        exact hfree
      have hnext : u32 (f * 4096 + pageframesToBytes k) = (f + k) * 4096 := by
        rw [pageframesToBytes_eq (by omega), u32, ← Nat.add_mul]
        exact Nat.mod_eq_of_lt (by omega)
      have hne : higherHalfVa f ≠ 0 := by
        simp only [higherHalfVa, memStartKernelLowRegion]
        omega
      rw [if_neg hfree, if_pos hused, bind_of_ok hcount, get_bind_apply, hcontext, bind_of_ok hrun]
      simp only [if_neg hne]
      rw [hnext]
      exact ih hfk (by omega) h₁

/-! ## The three views of memory -/

/-- The end of the region that the loop brings in line. -/
def higherHalfEnd (s : KState) : Nat := min (kpmmGetUsableMemorySize s) endHigherHalfMap

/-- The address space at `a` is one of the manager at `m` and contains an address. -/
def KState.CoveredBy (s : KState) (m a va : Nat) : Prop :=
  ∃ v r, s.objs m = some (.vmm v) ∧ a ∈ v.head ∧ s.objs a = some (.vas r) ∧ r.Covers va

/-- The PAB, the current page directory and the address spaces of the kernel agree on the pages of
the higher half. -/
def HigherHalfAgrees (s : KState) : Prop :=
  ∀ f, f * 4096 < higherHalfEnd s →
    (s.frameState f = pmmStateUsed ∨ s.frameState f = pmmStateReserved →
      isMapped s (higherHalfVa f) = true ∧ ∃! a, s.CoveredBy s.context a (higherHalfVa f)) ∧
    (s.frameState f = pmmStateFree →
      isMapped s (higherHalfVa f) = false ∧ ∀ a, ¬ s.CoveredBy s.context a (higherHalfVa f))

/-- The address spaces of a manager that contain an address are those of its list. -/
theorem VmmOk.coveredBy_iff {m a va : Nat} (hv : VmmOk s m v rs) :
    s.CoveredBy m a va ↔ ∃ r, a ∈ v.head ∧ s.objs a = some (.vas r) ∧ r.Covers va := by
  constructor
  · rintro ⟨v', r, hv', hrest⟩
    rw [hv.vmm] at hv'
    cases hv'
    exact ⟨r, hrest⟩
  · rintro ⟨r, hrest⟩
    exact ⟨v, r, hv.vmm, hrest⟩

/-- An address space that contains an address is in the list. -/
theorem VmmOk.exists_coveredBy {m va : Nat} (hv : VmmOk s m v rs) :
    (∃ a, s.CoveredBy m a va) ↔ ∃ r ∈ rs, r.Covers va := by
  constructor
  · rintro ⟨a, ha⟩
    obtain ⟨r, hmem, hr, hc⟩ := hv.coveredBy_iff.1 ha
    obtain ⟨r', hr', heq⟩ := hv.objs_head hmem
    rw [hr] at heq
    cases heq
    exact ⟨r, hr', hc⟩
  · rintro ⟨r, hr, hc⟩
    obtain ⟨i, hi, rfl⟩ := List.getElem_of_mem hr
    have hlen := hv.vas.length_eq
    have hget := (List.forall₂_iff_get.1 hv.vas).2 i (by omega) hi
    exact ⟨_, hv.coveredBy_iff.2 ⟨_, List.getElem_mem _, hget, hc⟩⟩

/-- No two address spaces of a list contain the same address. -/
theorem VmmOk.coveredBy_unique {m a b va : Nat} (hv : VmmOk s m v rs) (ha : s.CoveredBy m a va)
    (hb : s.CoveredBy m b va) : a = b := by
  obtain ⟨r, hamem, har, haLo, haHi⟩ := hv.coveredBy_iff.1 ha
  obtain ⟨q, hbmem, hbq, hbLo, hbHi⟩ := hv.coveredBy_iff.1 hb
  obtain ⟨i, hi, rfl⟩ := List.getElem_of_mem hamem
  obtain ⟨j, hj, rfl⟩ := List.getElem_of_mem hbmem
  have hlen := hv.vas.length_eq
  have hget := fun k (hk : k < v.head.length) =>
    (List.forall₂_iff_get.1 hv.vas).2 k hk (by omega)
  have hri : rs[i] = r := by simpa [har] using (hget i hi).symm
  have hqj : rs[j] = q := by simpa [hbq] using (hget j hj).symm
  have hpair := List.pairwise_iff_getElem.1 hv.layout.pairwise
  rcases Nat.lt_trichotomy i j with hij | rfl | hij
  · have := hpair i j (by omega) (by omega) hij
    rw [hri, hqj] at this
    omega
  · rfl
  · have := hpair j i (by omega) (by omega) hij
    rw [hri, hqj] at this
    omega

/-- A loop that has come to the end of the region has brought the three views in line. -/
theorem HigherHalfUpTo.agrees (h : HigherHalfUpTo s₀ v₀ s n v rs) (hpab : s.pab = s₀.pab)
    (hcr3 : s.cr3 = s₀.cr3) (hcontext : s.context = s₀.context) (hn : n ≤ 512)
    (hend : ∀ j, j * 4096 < higherHalfEnd s → j < n) : HigherHalfAgrees s := by
  intro f hf
  have hfn := hend f hf
  obtain ⟨hpdeIndex, hpteIndex⟩ := higherHalfVa_indices (show f < 512 by omega)
  have hstate : s.frameState f = s₀.frameState f := by rw [frameState, hpab, frameState]
  have hmapped : isMapped s (higherHalfVa f) = (s.entry kernelPageTableFrame f).present := by
    rw [isMapped, hpdeIndex, hpteIndex, hcr3, h.pde]
    rfl
  rw [hmapped, hstate, hcontext]
  constructor
  · intro hused
    have hne : s₀.frameState f ≠ pmmStateFree := by
      simp only [pmmStateFree, pmmStateUsed, pmmStateReserved] at *
      omega
    obtain ⟨a, ha⟩ := h.vmmOk.exists_coveredBy.2 ((h.covered f hfn).2 hne)
    exact ⟨(h.done f hfn).2 hne, a, ha, fun b hb => h.vmmOk.coveredBy_unique hb ha⟩
  · intro hfree
    refine ⟨?_, fun a ha => ?_⟩
    · rw [← Bool.not_eq_true, h.done f hfn]
      exact fun hne => hne hfree
    · exact (h.covered f hfn).1 (h.vmmOk.exists_coveredBy.1 ⟨a, ha⟩) hfree

/-- From every PAB without invalid frames, the loop of `s_initializeMemoryManagers` ends without a
panic, and brings the page table and the address spaces in line with the PAB. -/
theorem mapHigherHalf_agrees (h : HigherHalfReady s v) :
    ∃ s', mapHigherHalfFrom (higherHalfEnd s) 513 0 s = .ok ((), s') ∧ s'.pab = s.pab ∧
      HigherHalfAgrees s' := by
  have hle : higherHalfEnd s ≤ 0x200000 := Nat.min_le_right _ _
  have hend : ∀ j, j * 4096 < higherHalfEnd s ↔ j < (higherHalfEnd s + 4095) / 4096 := by omega
  have hn : (higherHalfEnd s + 4095) / 4096 ≤ 512 := by omega
  obtain ⟨s', v', rs', hrun, h'⟩ := mapHigherHalfFrom_spec 513 h hend hn (Nat.zero_le _)
    (by omega) h.upTo
  rw [Nat.zero_mul] at hrun
  have heq := h'.eq
  have hsame : higherHalfEnd s' = higherHalfEnd s := by
    rw [heq]
    rfl
  refine ⟨s', hrun, by rw [heq], h'.agrees (by rw [heq]) (by rw [heq]) (by rw [heq]) hn ?_⟩
  rw [hsame]
  exact fun j => (hend j).1

/-- The first 2 MB of a machine, where the first 72 page frames are used, the next 8 reserved, and
the others free. -/
def twoMegabytes : KState :=
  { KState.static [⟨0, 0x200000, mmTypeFree⟩] (physicalToPageframe kernelPageDir)
      (gKernelEntry fun _ _ => Entry.zero) with
    pab := ⟨fun i => if i < 18 then 0x55 else if i < 20 then 0xAA else 0, 4096, 2⟩
    phase := .vmmReady
    sallocNext := memStartSalloc + 32
    context := memStartSalloc
    objs := fun a =>
      if a = memStartSalloc then some (.vmm ⟨memStartKernelLowRegion, memEndKernelHighRegion, true,
        kernelPageDir, false, .pmmRegionAny, []⟩)
      else none }

theorem twoMegabytes_ready : HigherHalfReady twoMegabytes ⟨memStartKernelLowRegion,
    memEndKernelHighRegion, true, kernelPageDir, false, .pmmRegionAny, []⟩ where
  phase := rfl
  pabOk := ⟨rfl, rfl⟩
  valid f _ := by
    have hpos : ∀ k < 4, ∀ byte ∈ [0x55, 0xAA, 0], byte >>> (k * 2) &&& 3 ≠ pmmStateInvalid := by
      decide
    refine hpos (f % 4) (Nat.mod_lt _ (by decide)) _ ?_
    show (if f / 4 < 18 then 0x55 else if f / 4 < 20 then 0xAA else 0) ∈ [0x55, 0xAA, 0]
    split_ifs <;> simp
  tempInt := rfl
  pde := by decide
  pte f hf := by
    rw [entry_mem (not_isTempSlot_higherHalf hf)]
    exact if_pos hf
  salloc :=
    { lower := by decide
      upper := by decide
      objs := fun a ha => by
        have heq : a = memStartSalloc := by
          by_contra hne
          exact ha (if_neg hne)
        subst heq
        decide }
  room := by decide
  vmm := rfl
  start := rfl
  end_ := rfl
  head := rfl

/-- A machine with two megabytes. -/
theorem mapHigherHalf_agrees_twoMegabytes :
    ∃ s', mapHigherHalfFrom (higherHalfEnd twoMegabytes) 513 0 twoMegabytes = .ok ((), s') ∧
      s'.pab = twoMegabytes.pab ∧ HigherHalfAgrees s' :=
  mapHigherHalf_agrees twoMegabytes_ready

end MeghaOS
