import MeghaOS.Proof.CommitPage
import MeghaOS.Proof.MapRange

/-!
# Committing a range

`commitVirtualPages` takes as many page frames in a row as the range has pages, and maps the pages
one after the other, each of which may need a page table. It succeeds when no page of the range is
mapped, and the page frames for the pages and for the missing page tables are there (`RangeReady`).
-/

namespace MeghaOS

open Exec KState

variable {s s' s₁ : KState} {pd : PageDirectory} {d k m n va pa flags : Nat} {v : VMemoryManager}

/-! ## Missing page tables -/

/-- The directory entries of the pages of a range that have no page table. -/
def missingTables (s : KState) (d va n : Nat) : Finset Nat :=
  ((Finset.range n).image fun i => pdeIndex (rangePage va i)).filter fun j =>
  (s.entry d j).present = false

theorem missingTables_congr (h : ∀ j, (s'.entry d j).present = (s.entry d j).present) :
    missingTables s' d va n = missingTables s d va n := by
  refine Finset.filter_congr fun j _ => ?_
  rw [h]

/-- A new page table is missing no more. -/
theorem card_missingTables_new (hk : k < n)
    (habsent : (s.pdeOf d (rangePage va k)).present = false)
    (h : ∀ j, (s'.entry d j).present =
      if j = pdeIndex (rangePage va k) then true else (s.entry d j).present) :
    (missingTables s' d va n).card + 1 = (missingTables s d va n).card := by
  have hmem : pdeIndex (rangePage va k) ∈ missingTables s d va n :=
    Finset.mem_filter.2 ⟨Finset.mem_image.2 ⟨k, Finset.mem_range.2 hk, rfl⟩, habsent⟩
  have herase : missingTables s' d va n = (missingTables s d va n).erase
      (pdeIndex (rangePage va k)) := by
    ext j
    rw [Finset.mem_erase, missingTables, missingTables, Finset.mem_filter, Finset.mem_filter, h]
    by_cases hj : j = pdeIndex (rangePage va k)
    · simp [hj]
    · simp [hj]
  rw [herase, Finset.card_erase_of_mem hmem]
  have := Finset.card_pos.2 ⟨_, hmem⟩
  omega

/-- Taking free page frames leaves all others. -/
theorem SetFrames.card_freeFrames {f count : Nat} (hset : SetFrames s s' f count pmmStateUsed)
    (hrun : s.FreeRun count f) : s.freeFrames.card ≤ s'.freeFrames.card + count := by
  have husable : kpmmGetUsableMemoryPagesCount s' = kpmmGetUsableMemoryPagesCount s := by
    rw [hset.eq]
    rfl
  have hcard : (s.freeIn (Finset.range (kpmmGetUsableMemoryPagesCount s))).card = _ :=
    card_freeIn_of_range
      (fun g (hg : g ∈ Finset.Ico f (f + count)) => hrun.free g (Finset.mem_Ico.1 hg).1
        (Finset.mem_Ico.1 hg).2)
      (b := s') fun g => by simp only [hset.frameState, Finset.mem_Ico]
  have hle : (Finset.Ico f (f + count) ∩ Finset.range (kpmmGetUsableMemoryPagesCount s)).card ≤
      count := by
    calc _ ≤ (Finset.Ico f (f + count)).card := Finset.card_le_card Finset.inter_subset_left
      _ = count := by simp
  rw [KState.freeFrames, KState.freeFrames, husable, hcard]
  omega

/-! ## One page -/

/-- What mapping an ordinary page does to the page frames and to the directory. -/
theorem kpgMap_frames (hi : DirectoryInv d s) (hd : pd.At d s) (hva : s.Ordinary d va)
    (hflags : bitIsUnset flags pgMapFlagNotPresent = true)
    (h : kpgMap pd va pa flags s = .ok (true, s')) :
    ((s.pdeOf d va).present = true ∧ (∀ j, s'.entry d j = s.entry d j) ∧ s'.pab = s.pab) ∨
      (s.pdeOf d va).present = false ∧ (∀ j, (s'.entry d j).present =
        if j = pdeIndex va then true else (s.entry d j).present) ∧
        ∃ t s₁, s.frameState t = pmmStateFree ∧ t < 2 ^ 14 ∧ SetFrames s s₁ t 1 pmmStateUsed ∧
          s'.pab = s₁.pab := by
  rcases kpgMap_spec hi.pabOk hd hi.dir hi.temp h with ⟨hb, -⟩ | ⟨-, hpde, -, rfl⟩ |
    ⟨-, hpde, t, s₁, hfree, ht, hset, rfl⟩
  · cases hb
  · refine .inl ⟨hpde, fun j => entry_setEntry_of_ne fun heq => ?_, setEntry_pab⟩
    exact (hi.tables _ hva.1 hpde).1 heq.1.symm
  · have htd : d ≠ t := by
      rintro rfl
      exact hi.dir.notFree hfree
    refine .inr ⟨hpde, fun j => ?_, t, s₁, hfree, ht, hset, ?_⟩
    · rw [entry_setEntry_of_ne fun heq => htd heq.1]
      by_cases hj : j = pdeIndex va
      · rw [if_pos hj, hj, withPageTable_dir hi.dir.not_isTempSlot]
        exact hflags
      · rw [if_neg hj, withPageTable_of_ne htd fun heq => hj heq.2, hset.entry_eq]
    · have hpab : (withPageTable s₁ d (pdeIndex va) t flags).pab = s₁.pab := setEntry_pab
      exact setEntry_pab.trans hpab

/-- The pages of a range from the `k`th on can be mapped in the open directory. -/
structure MapReady (d va n k : Nat) (s : KState) : Prop where
  directory : DirectoryInv d s
  ext : s.tempExt = some d
  phase : s.phase.check .pmmReady = true
  free : FreeUsable s
  ordinary : ∀ i < n, s.Ordinary d (rangePage va i)
  unmapped : ∀ i < n, k ≤ i → s.lookup .temp (rangePage va i) = none
  tables : (missingTables s d va n).card ≤ s.freeFrames.card

/-- The page frames that are free stay usable ones. -/
theorem SetFrames.freeUsable {f count : Nat} (hset : SetFrames s s' f count pmmStateUsed)
    (hfree : FreeUsable s) :
    FreeUsable s' := by
  intro g hg hgfree
  rw [hset.frameState] at hgfree
  split at hgfree
  · cases hgfree
  · rw [hset.eq]
    exact hfree g hg hgfree

theorem freeUsable_congr (hpab : s'.pab = s.pab) (hmap : s'.bootMemoryMap = s.bootMemoryMap)
    (h : FreeUsable s) :
    FreeUsable s' := by
  intro g hg hgfree
  rw [frameState, hpab] at hgfree
  have husable := h g hg hgfree
  rwa [kpmmGetUsableMemoryPagesCount, kpmmGetUsableMemorySize, hmap]

theorem freeFrames_congr (hpab : s'.pab = s.pab) (hmap : s'.bootMemoryMap = s.bootMemoryMap) :
    s'.freeFrames = s.freeFrames := by
  have husable : kpmmGetUsableMemoryPagesCount s' = kpmmGetUsableMemoryPagesCount s := by
    rw [kpmmGetUsableMemoryPagesCount, kpmmGetUsableMemorySize, hmap]
    rfl
  ext g
  rw [mem_freeFrames, mem_freeFrames, husable, frameState, frameState, hpab]

namespace MapReady

/-- The page table that the next page needs can be made. -/
theorem table (h : MapReady d va n k s) (hk : k < n) : ¬ NoTableFor d s (rangePage va k) := by
  rintro ⟨habsent, hnone⟩
  have hmem : pdeIndex (rangePage va k) ∈ missingTables s d va n :=
    Finset.mem_filter.2 ⟨Finset.mem_image.2 ⟨k, Finset.mem_range.2 hk, rfl⟩, habsent⟩
  have hfree : s.freeFrames.Nonempty := by
    rw [← Finset.card_pos]
    exact Nat.lt_of_lt_of_le (Finset.card_pos.2 ⟨_, hmem⟩) h.tables
  obtain ⟨f, s₁, halloc, -⟩ := kpmmAlloc_page .pmmRegionAny h.directory.pabOk h.phase h.free hfree
  exact hnone _ _ halloc

/-- Mapping the next page leaves the others ready. -/
theorem turn (h : MapReady d va n k s) (hk : k < n) (hal : va % 4096 = 0)
    (hfit : va + n * 4096 ≤ 2 ^ 32)
    (hpa : pa % 4096 = 0) (hflags : bitIsUnset flags pgMapFlagNotPresent = true) :
    ∃ s', kpgMap .temp (rangePage va k) (rangePage pa k) flags s = .ok (true, s') ∧
      MapReady d va n (k + 1) s' := by
  have hd : PageDirectory.temp.At d s := h.ext
  have hva := h.ordinary k hk
  have halk : rangePage va k % 4096 = 0 := rangePage_aligned hal
  obtain ⟨b, s', hrun⟩ := (kpgMap_returns_iff h.directory hd halk (rangePage_aligned hpa)).2
    (h.table hk)
  have hins := kpgMap_inserts h.directory hd hva halk (rangePage_aligned hpa)
    rangePage_lt hflags hrun
  obtain rfl : b = true := hins.success.2 (h.unmapped k hk (Nat.le_refl k))
  have hturn := kpgMap_turn h.directory hd hva halk (rangePage_aligned hpa) rangePage_lt hflags hrun
  have hnp : s'.nonPaging = s.nonPaging := kpgMap_fixes _ _ _ _ _ _ _ hrun
  have hphase : s'.phase = s.phase := by
    show s'.nonPaging.phase = s.nonPaging.phase
    rw [hnp]
  have hmap : s'.bootMemoryMap = s.bootMemoryMap := by
    show s'.nonPaging.bootMemoryMap = s.nonPaging.bootMemoryMap
    rw [hnp]
  -- the pages behind this one are others
  have hunmapped : ∀ i < n, k + 1 ≤ i → s'.lookup .temp (rangePage va i) = none := by
    intro i hin hki
    rw [hturn.others _ (h.ordinary i hin) ?_]
    · exact h.unmapped i hin (Nat.le_of_succ_le hki)
    · simp only [rangePage, u32, pageFrameSizeBytes]
      omega
  refine ⟨s', hrun, hturn.inv, hturn.at_, hphase ▸ h.phase, ?_, fun i hi => hturn.ordinary _
    (h.ordinary i hi),
    hunmapped, ?_⟩
  · rcases kpgMap_frames h.directory hd hva hflags hrun with ⟨-, -, hpab⟩ | ⟨-, -, t, s₁, -,
      -, hset, hpab⟩
    · exact freeUsable_congr hpab hmap h.free
    · refine freeUsable_congr hpab (hmap.trans ?_) (hset.freeUsable h.free)
      rw [hset.eq]
  · rcases kpgMap_frames h.directory hd hva hflags hrun with ⟨-, hentry, hpab⟩ |
      ⟨habsent, hentry, t, s₁, hfree, ht, hset, hpab⟩
    · have hmissing : missingTables s' d va n = missingTables s d va n :=
        missingTables_congr fun j => congrArg Entry.present (hentry j)
      rw [hmissing, freeFrames_congr hpab hmap]
      exact h.tables
    · -- one page frame less, for one page table less
      have hmissing := card_missingTables_new hk habsent hentry
      have hrun : s.FreeRun 1 t :=
        (freeRun_one_iff h.free).2 (mem_freeFrames.2 ⟨h.free t ht hfree, hfree⟩)
      have hframes := hset.card_freeFrames hrun
      have htables := h.tables
      have hmap₁ : s'.bootMemoryMap = s₁.bootMemoryMap := by
        rw [hmap, hset.eq]
      rw [freeFrames_congr hpab hmap₁]
      omega

end MapReady

/-! ## The call -/

/-- The pages of a range can be committed in the directory at frame `d`: the directory is in order,
no page of the range is mapped, and there are page frames in a row for the pages, and others for the
missing page tables. -/
structure RangeReady (s : KState) (d va n : Nat) : Prop where
  directory : DirectoryInv d s
  frame : d < 2 ^ 20
  ext : s.tempExt = none
  phase : s.phase.check .pmmReady = true
  free : FreeUsable s
  ordinary : ∀ i < n, s.Ordinary d (rangePage va i)
  unmapped : ∀ i < n, s.translate d (rangePage va i) = none
  frames : ∃ f, s.FreeRun n f
  tables : (missingTables s d va n).card + n ≤ s.freeFrames.card

/-- The directory is opened when the page frames are taken. -/
theorem RangeReady.opened {f : Nat} (h : RangeReady s d va n) (hrun : s.FreeRun n f)
    (hset : SetFrames s s₁ f n pmmStateUsed) : MapReady d va n 0 (s₁.opened d) := by
  have hint : (s₁.opened d).tempInt = none := by
    show s₁.tempInt = none
    rw [hset.eq]
    exact h.directory.int
  have hentry : ∀ j, (s₁.opened d).entry d j = s.entry d j := by
    intro j
    rw [entry_mem h.directory.dir.not_isTempSlot, entry_mem h.directory.dir.not_isTempSlot]
    show s₁.mem d j = _
    rw [hset.eq]
  have hinUse : ∀ g, s.frameState g ≠ pmmStateFree → (s₁.opened d).frameState g ≠ pmmStateFree := by
    intro g hg
    show s₁.frameState g ≠ _
    rw [hset.frameState]
    split
    · decide
    · exact hg
  have hdir : DirectoryInv d (s₁.opened d) :=
    h.directory.congr ((hset.pabOk h.directory.pabOk).congr rfl) hint (fun j _ => hentry j) hinUse
  have hord : ∀ i < n, (s₁.opened d).Ordinary d (rangePage va i) := by
    intro i hi
    rw [Ordinary, pdeOf, hentry]
    exact h.ordinary i hi
  refine ⟨hdir, rfl, ?_, freeUsable_congr rfl rfl (hset.freeUsable h.free), hord,
    fun i hi _ => ?_, ?_⟩
  · show s₁.phase.check .pmmReady = true
    rw [hset.eq]
    exact h.phase
  · rw [lookup_eq (show PageDirectory.temp.At d (s₁.opened d) from rfl) hint (hord i hi)]
    have hpde : (s₁.opened d).pdeOf d (rangePage va i) = s.pdeOf d (rangePage va i) := hentry _
    refine (translate_congr hpde fun hp => ?_).trans (h.unmapped i hi)
    have hslot := (h.ordinary i hi).2 hp
    rw [pteOf, hpde, entry_mem hslot, pteOf, entry_mem hslot]
    show s₁.mem _ _ = _
    rw [hset.eq]
  · have hmissing : missingTables (s₁.opened d) d va n = missingTables s d va n :=
      missingTables_congr fun j => congrArg Entry.present (hentry j)
    have hopened : (s₁.opened d).freeFrames = s₁.freeFrames := freeFrames_congr rfl rfl
    have hcard := hset.card_freeFrames hrun
    have htables := h.tables
    rw [hmissing, hopened]
    omega

/-- The pages of a range are mapped one after the other in the open directory. -/
theorem MapReady.mapContinous (h : MapReady d va n 0 s) (hpos : 0 < n) (hal : va % 4096 = 0)
    (hva : va < 2 ^ 32) (hfit : va + n * 4096 ≤ 2 ^ 32) (hpa : pa % 4096 = 0) (hlt : pa < 2 ^ 32)
    (hflags : bitIsUnset flags pgMapFlagNotPresent = true) :
    ∃ s', kpgMapContinous .temp va pa n flags s = .ok (true, s') ∧ s'.tempExt = some d := by
  have hturn : ∀ k s₁, k < 0 + n → MapReady d va n k s₁ →
      ∃ s₂, kpgMap .temp (rangePage va k) (rangePage pa k) flags s₁ = .ok (true, s₂) ∧
        MapReady d va n (k + 1) s₂ :=
    fun k s₁ hk hready => hready.turn (by omega) hal hfit hpa hflags
  obtain ⟨s', hrun, h'⟩ := runWhile_true hturn h
  refine ⟨s', ?_, h'.ext⟩
  have hmap : mapContinousFrom .temp flags n (rangePage va 0) (rangePage pa 0) = _ :=
    mapContinousFrom_eq
  rw [rangePage_zero hva, rangePage_zero hlt] at hmap
  rw [kpgMapContinous, if_neg (Nat.ne_of_gt hpos), hmap]
  exact hrun

/-- A range that is ready is committed. -/
theorem commitVirtualPages_of_ready (hvmm : s.objs m = some (.vmm v))
    (hpd : v.parentProcessPD = d * 4096)
    (h : RangeReady s d va n) (hpos : 0 < n) (hn : n < 2 ^ 20) (hal : va % 4096 = 0)
    (hva : va < 2 ^ 32)
    (hfit : va + n * 4096 ≤ 2 ^ 32) (flags : Nat) :
    ∃ pa s', commitVirtualPages m va none n flags s = .ok ((true, pa), s') := by
  have hget : getVmm m s = .ok (v, s) := getVmm_eq_ok.2 ⟨hvmm, rfl⟩
  rcases kpmmAlloc_returns v.physicalRegion h.directory.pabOk h.phase h.free hpos hn with
    ⟨f, s₁, halloc, hrun, -, hset⟩ | ⟨-, hnone⟩
  swap
  · obtain ⟨f, hf⟩ := h.frames
    exact absurd hf (hnone f)
  have hpages : pagesToCommit m none n s = .ok (some (f * 4096), s₁) :=
    (bind_of_ok hget).trans halloc
  have hvmm₁ : s₁.objs m = some (.vmm v) := by
    rw [hset.eq]
    exact hvmm
  have hext₁ : s₁.tempExt = none := by
    rw [hset.eq]
    exact h.ext
  have hget₁ : getVmm m s₁ = .ok (v, s₁) := getVmm_eq_ok.2 ⟨hvmm₁, rfl⟩
  have hopen : kpgTemporaryMap v.parentProcessPD s₁ = .ok (.temp, s₁.opened d) :=
    kpgTemporaryMap_opens h.frame hpd hext₁
  have hinside := hrun.inside
  obtain ⟨s₂, hmap, hext₂⟩ := (h.opened hrun hset).mapContinous hpos hal hva hfit
    (Nat.mul_mod_left f 4096)
    (by omega) (pgFlagsOf_bits flags).1
  have hvmm₂ : s₂.objs m = some (.vmm v) := by
    have hnp : s₂.nonPaging = (s₁.opened d).nonPaging := kpgMapContinous_fixes _ _ _ _ _ _ _ _ hmap
    show s₂.nonPaging.objs m = _
    rw [hnp]
    exact hvmm₁
  have hclose : kpgTemporaryUnmap s₂ = .ok ((), { s₂ with tempExt := none }) := by
    rw [kpgTemporaryUnmap, get_bind_apply, if_neg (by simp [hext₂])]
    rfl
  rw [commitVirtualPages, bind_of_ok hpages]
  dsimp only
  rw [bind_of_ok hget₁, bind_of_ok hopen, bind_of_ok hmap, if_pos rfl, bind_of_ok hclose, modifyVmm]
  exact ⟨_, _, modifyVmm_bind_eq_ok.2 ⟨v, hvmm₂, rfl⟩⟩

end MeghaOS
