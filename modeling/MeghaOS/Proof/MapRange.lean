import MeghaOS.Lib.Loop
import MeghaOS.Proof.PartialMap

/-!
# Ranges of pages

`kpg_mapContinous` and `kpg_unmapContinous` take the pages of a range one after the other and stop
at the first one that is refused. Nothing takes the changes before it back: the pages in front of
the refused one stay mapped, or unmapped, and every other page is mapped as before
(`continous_failure`). The refused page itself changes nothing, whatever the range covers.
-/

namespace MeghaOS

open Exec KState

variable {s s' s₁ : KState} {pd : PageDirectory} {d i k n va va' pa flags : Nat} {b : Bool}
  {page : Nat → Nat} {ready : Option Nat → Prop} {target : Nat → Nat → Option Nat}

/-! ## The loops -/

/-- The address of a page of a range, as a 32-bit word. -/
def rangePage (start i : Nat) : Nat := u32 (start + i * pageFrameSizeBytes)

/-- A range starts at its first page. -/
theorem rangePage_zero (hva : va < 2 ^ 32) : rangePage va 0 = va := by
  simp only [rangePage, u32]
  omega

/-- One page after the other. -/
theorem rangePage_succ : u32 (rangePage va i + pageFrameSizeBytes) = rangePage va (i + 1) := by
  simp only [rangePage, u32, pageFrameSizeBytes]
  omega

/-- The pages of a range whose first address is that of a page. -/
theorem rangePage_aligned (hva : va % 4096 = 0) : rangePage va i % 4096 = 0 := by
  simp only [rangePage, u32, pageFrameSizeBytes]
  omega

/-- A page of a range is an address. -/
theorem rangePage_lt : rangePage va i < 2 ^ 32 := Nat.mod_lt _ (Nat.two_pow_pos 32)

/-- The loop of `kpg_mapContinous`, page by page. -/
theorem mapContinousFrom_eq : mapContinousFrom pd flags n (rangePage va i) (rangePage pa i) =
    runWhile (fun i => kpgMap pd (rangePage va i) (rangePage pa i) flags) n i := by
  induction n generalizing i with
  | zero => rfl
  | succ n ih => rw [mapContinousFrom, rangePage_succ, rangePage_succ, ih, runWhile]

/-- The loop of `kpg_unmapContinous`, page by page. -/
theorem unmapContinousFrom_eq : unmapContinousFrom pd n (rangePage va i) =
    runWhile (fun i => kpgUnmap pd (rangePage va i)) n i := by
  induction n generalizing i with
  | zero => rfl
  | succ n ih => rw [unmapContinousFrom, rangePage_succ, ih, runWhile]

/-! ## A refused page -/

/-- Writing an entry that is absent does not move the directory behind a pointer. -/
theorem At_setEntry_absent {e : Entry} (hd : pd.At d s) (habsent : (s.entry k i).present = false) :
    pd.At d (s.setEntry k i e) := by
  cases pd with
  | null => exact hd
  | current => exact setEntry_cr3.trans hd
  | temp =>
    refine (setEntry_ext fun hslot => ?_).trans hd
    have hext : s.tempExt = some d := hd
    rw [entry_extSlot hslot, hext] at habsent
    cases habsent


/-- The frame of the directory and the one with the temporary mappings are in use. -/
structure DirectoryUsed (d : Nat) (s : KState) : Prop where
  pabOk : PabOk s
  dir : TakenFrame s d
  temp : s.frameState kernelPageTableFrame ≠ pmmStateFree

/-- A directory in order is one in use. -/
theorem DirectoryInv.used (hi : DirectoryInv d s) : DirectoryUsed d s := ⟨hi.pabOk, hi.dir, hi.temp⟩

namespace DirectoryUsed

/-- Only the frames in use matter. -/
theorem congr (hu : DirectoryUsed d s) (hpab : PabOk s')
    (hinUse : ∀ f, s.frameState f ≠ pmmStateFree → s'.frameState f ≠ pmmStateFree) :
    DirectoryUsed d s' :=
  ⟨hpab, ⟨hinUse _ hu.dir.notFree, hu.dir.notTemp⟩, hinUse _ hu.temp⟩

/-- Mapping a page, whatever page it is, leaves the directory in use and behind the same pointer. -/
theorem map (hu : DirectoryUsed d s) (hd : pd.At d s)
    (h : kpgMap pd va pa flags s = .ok (b, s')) : DirectoryUsed d s' ∧ pd.At d s' := by
  rcases kpgMap_spec hu.pabOk hd hu.dir hu.temp h with ⟨-, ⟨err, rfl⟩, -⟩ |
    ⟨-, -, hpte, rfl⟩ | ⟨-, -, t, s₁, hfree, -, hset, rfl⟩
  · exact ⟨hu.congr (hu.pabOk.congr rfl) fun _ hf => hf, hd⟩
  · refine ⟨hu.congr (hu.pabOk.congr setEntry_pab) fun f hf => by rwa [setEntry_frameState], ?_⟩
    exact At_setEntry_absent hd hpte
  · have htemp : t ≠ kernelPageTableFrame := by
      rintro rfl
      exact hu.temp hfree
    have hd₁ : pd.At d s₁ := by
      rw [hset.eq]
      exact hd
    refine ⟨hu.congr ?_ fun f hf => ?_, ?_⟩
    · have hpab : (withPageTable s₁ d (pdeIndex va) t flags).pab = s₁.pab := setEntry_pab
      exact (hset.pabOk hu.pabOk).congr (setEntry_pab.trans hpab)
    · rw [setEntry_frameState, withPageTable, setEntry_frameState]
      show s₁.frameState f ≠ pmmStateFree
      rw [hset.frameState]
      split
      · decide
      · exact hf
    · refine PageDirectory.At.setEntry ?_ fun h => htemp h.1
      exact PageDirectory.At.setEntry hd₁ hu.dir.not_isTempSlot

/-- A page that `kpg_map` refuses changes nothing. -/
theorem map_refused (hu : DirectoryUsed d s) (hd : pd.At d s)
    (h : kpgMap pd va pa flags s = .ok (false, s')) : OnlyErrorNumber s s' := by
  rcases kpgMap_spec hu.pabOk hd hu.dir hu.temp h with ⟨-, herr, -⟩ | ⟨hb, -⟩ | ⟨hb, -⟩
  · exact herr
  · cases hb
  · cases hb

/-- The directory stays where it is while pages are mapped. -/
theorem mapAll (hu : DirectoryUsed d s) (hd : pd.At d s)
    (h : runWhile (fun i => kpgMap pd (rangePage va i) (rangePage pa i) flags) k 0 s =
      .ok (true, s')) :
    DirectoryUsed d s' ∧ pd.At d s' := by
  induction k generalizing s' with
  | zero =>
    cases h
    exact ⟨hu, hd⟩
  | succ k ih =>
    obtain ⟨s₁, hrun, hlast⟩ := runWhile_succ h
    obtain ⟨hu₁, hd₁⟩ := ih hrun
    exact hu₁.map hd₁ hlast

end DirectoryUsed

/-- A page that `kpg_unmap` refuses changes nothing. -/
theorem kpgUnmap_refused (h : kpgUnmap pd va s = .ok (false, s')) : OnlyErrorNumber s s' := by
  have hat : ∀ d, pd.At d s → OnlyErrorNumber s s' := by
    intro d hd
    rcases kpgUnmap_spec hd h with ⟨-, herr, -⟩ | ⟨hb, -⟩
    · exact herr
    · cases hb
  obtain ⟨hnull, hcall⟩ := kAssert_bind_eq_ok.1 h
  rcases ite_eq_ok.1 hcall with ⟨-, hcall⟩ | ⟨-, hcall⟩
  · obtain ⟨-, rfl⟩ := returnError_eq_ok.1 hcall
    exact ⟨_, rfl⟩
  · obtain ⟨pde, s₁, hread, -⟩ := bind_eq_ok.1 hcall
    cases pd with
    | null => simp at hnull
    | current => exact hat s.cr3 rfl
    | temp =>
      cases hext : s.tempExt with
      | some d => exact hat d hext
      | none =>
        rw [readPde, get_bind_apply, PageDirectory.frame, bind_assoc, get_bind_apply, hext] at hread
        cases hread

/-! ## What the turns change -/

/-- The first `k` pages of a range, of which each was as `ready` says, are what `target` says, and
the other ordinary pages are as before. -/
structure PagesChanged (pd : PageDirectory) (d : Nat) (page : Nat → Nat) (ready : Option Nat → Prop)
    (target : Nat → Nat → Option Nat) (k : Nat) (s s' : KState) : Prop where
  before : ∀ i < k, ready (s.lookup pd (page i))
  after : ∀ i < k, ∀ off < 4096, s'.lookup pd (page i + off) = target i off
  others : ∀ va, s.Ordinary d va → (∀ i < k, va / 4096 ≠ page i / 4096) →
    s'.lookup pd va = s.lookup pd va

/-- One turn: the directory keeps its invariant, its ordinary pages stay ordinary, and the page is
changed. -/
structure PageTurn (pd : PageDirectory) (d va : Nat) (ready : Option Nat → Prop)
    (target : Nat → Option Nat) (s s' : KState) : Prop where
  inv : DirectoryInv d s'
  at_ : pd.At d s'
  ordinary : ∀ va, s.Ordinary d va → s'.Ordinary d va
  before : ready (s.lookup pd va)
  after : ∀ off < 4096, s'.lookup pd (va + off) = target off
  others : SameElsewhere pd d va s s'

/-- An address of an ordinary page. -/
theorem ordinary_add {off : Nat} (hva : s.Ordinary d va) (hal : va % 4096 = 0) (hoff : off < 4096) :
    s.Ordinary d (va + off) := by
  obtain ⟨hindex, hpte, -⟩ := pdeIndex_add hal hoff
  rw [Ordinary, pdeOf, hindex, hpte]
  exact hva

/-- A turn more: its page is none of those that were changed before, since it was still to be
changed. -/
theorem PagesChanged.turn (hal : ∀ i, page i % 4096 = 0) (htarget : ∀ i, ¬ ready (target i 0))
    (hc : PagesChanged pd d page ready target k s s₁)
    (hord : ∀ va, s.Ordinary d va → s₁.Ordinary d va)
    (hpages : ∀ i < k + 1, s.Ordinary d (page i))
    (ht : PageTurn pd d (page k) ready (target k) s₁ s') :
    PagesChanged pd d page ready target (k + 1) s s' := by
  have hnew : ∀ i < k, page k / 4096 ≠ page i / 4096 := by
    intro i hi heq
    have hsame : page i = page k := by
      have := hal i
      have := hal k
      omega
    refine htarget i ?_
    rw [← hc.after i hi 0 (by decide), Nat.add_zero, hsame]
    exact ht.before
  refine ⟨fun i hi => ?_, fun i hi off hoff => ?_, fun va hva hother => ?_⟩
  · rcases Nat.lt_succ_iff_lt_or_eq.1 hi with hi | rfl
    · exact hc.before i hi
    · rw [← hc.others _ (hpages i hi) hnew]
      exact ht.before
  · rcases Nat.lt_succ_iff_lt_or_eq.1 hi with hi' | rfl
    · have hva := ordinary_add (hpages i hi) (hal i) hoff
      have hne : (page i + off) / 4096 ≠ page k / 4096 := by
        have := hnew i hi'
        have := hal i
        omega
      rw [ht.others _ (hord _ hva) hne]
      exact hc.after i hi' off hoff
    · exact ht.after off hoff
  · rw [ht.others va (hord va hva) (hother k (Nat.lt_succ_self k))]
    exact hc.others va hva fun i hi => hother i (Nat.lt_succ_of_lt hi)

/-- What a loop changes whose turns succeed. -/
theorem runWhile_pages {op : Nat → K Bool} (hal : ∀ i, page i % 4096 = 0)
    (htarget : ∀ i, ¬ ready (target i 0))
    (hturn : ∀ i s s', DirectoryInv d s → pd.At d s → s.Ordinary d (page i) →
      op i s = .ok (true, s') → PageTurn pd d (page i) ready (target i) s s')
    (hi : DirectoryInv d s) (hd : pd.At d s) (hpages : ∀ i < k, s.Ordinary d (page i))
    (hrun : runWhile op k 0 s = .ok (true, s')) :
    DirectoryInv d s' ∧ pd.At d s' ∧ (∀ va, s.Ordinary d va → s'.Ordinary d va) ∧
      PagesChanged pd d page ready target k s s' := by
  induction k generalizing s' with
  | zero =>
    cases hrun
    exact ⟨hi, hd, fun _ => id, fun i hi => absurd hi (Nat.not_lt_zero i),
      fun i hi => absurd hi (Nat.not_lt_zero i), fun _ _ _ => rfl⟩
  | succ k ih =>
    obtain ⟨s₁, hfirst, hlast⟩ := runWhile_succ hrun
    obtain ⟨hi₁, hd₁, hord, hc⟩ := ih (fun i hi => hpages i (Nat.lt_succ_of_lt hi)) hfirst
    rw [Nat.zero_add] at hlast
    have ht := hturn k s₁ s' hi₁ hd₁ (hord _ (hpages k (Nat.lt_succ_self k))) hlast
    exact ⟨ht.inv, ht.at_, fun va hva => ht.ordinary va (hord va hva),
      hc.turn hal htarget hord hpages ht⟩

/-! ## The turns of the two functions -/

/-- Writing an entry of a page table leaves the ordinary pages ordinary. -/
theorem DirectoryInv.setPte_ordinary {e : Entry} (hi : DirectoryInv d s)
    (hlt : pdeIndex va < recursivePdeIndex) (hpde : (s.pdeOf d va).present = true)
    (hva : s.Ordinary d va') :
    (s.setEntry (s.pdeOf d va).tableFrame (pteIndex va) e).Ordinary d va' := by
  rw [Ordinary, hi.pdeOf_setPte hlt hpde]
  exact hva

/-- Mapping an ordinary page leaves the ordinary pages ordinary. -/
theorem kpgMap_ordinary (hi : DirectoryInv d s) (hd : pd.At d s) (hva : s.Ordinary d va)
    (h : kpgMap pd va pa flags s = .ok (b, s')) (hva' : s.Ordinary d va') : s'.Ordinary d va' := by
  rcases kpgMap_spec hi.pabOk hd hi.dir hi.temp h with ⟨-, ⟨err, rfl⟩, -⟩ |
    ⟨-, hpde, -, rfl⟩ | ⟨-, -, t, s₁, hfree, ht, hset, rfl⟩
  · exact hva'
  · exact hi.setPte_ordinary hva.1 hpde hva'
  · have hsame : ∀ e, ((withPageTable s₁ d (pdeIndex va) t flags).setEntry t (pteIndex va) e).pdeOf
      d va' =
        (withPageTable s₁ d (pdeIndex va) t flags).pdeOf d va' := fun e =>
      entry_setEntry_of_ne fun heq => hi.dir.notFree (heq.1.symm ▸ hfree)
    rw [Ordinary, hsame]
    exact (withPageTable_newTable hi.dir hi.temp hfree ht hset).ordinary hva'

/-- One turn of the loop maps one page. -/
theorem kpgMap_turn (hi : DirectoryInv d s) (hd : pd.At d s) (hva : s.Ordinary d va)
    (hal : va % 4096 = 0) (hpa : pa % 4096 = 0) (hlt : pa < 2 ^ 32)
    (hflags : bitIsUnset flags pgMapFlagNotPresent = true)
    (h : kpgMap pd va pa flags s = .ok (true, s')) :
    PageTurn pd d va (· = none) (fun off => some (pa + off)) s s' := by
  have hins := kpgMap_inserts hi hd hva hal hpa hlt hflags h
  exact ⟨hi.map hd hva.1 h, (hi.used.map hd h).2, fun _ => kpgMap_ordinary hi hd hva h,
    hins.success.1 rfl, hins.inserted rfl, hins.others⟩

/-- One turn of the loop unmaps one page. -/
theorem kpgUnmap_turn (hi : DirectoryInv d s) (hd : pd.At d s) (hva : s.Ordinary d va)
    (hal : va % 4096 = 0) (h : kpgUnmap pd va s = .ok (true, s')) :
    PageTurn pd d va (· ≠ none) (fun _ => none) s s' := by
  have hrem := kpgUnmap_removes hi hd hva hal h
  rcases kpgUnmap_spec hd h with ⟨hb, -⟩ | ⟨-, hpde, -, heq⟩
  · cases hb
  · refine ⟨hi.unmap hd hva.1 h, ?_, fun va' hva' => ?_, hrem.success.1 rfl, hrem.removed rfl,
      hrem.others⟩
    · rw [heq]
      exact hd.setEntry (hva.2 hpde)
    · rw [heq]
      exact hi.setPte_ordinary hva.1 hpde hva'

/-- With `PG_MAP_FLAG_NOT_PRESENT`, `kpg_map` makes no page appear. -/
theorem kpgMap_notPresent (hi : DirectoryInv d s) (hd : pd.At d s) (hva : s.Ordinary d va)
    (hflags : bitIsUnset flags pgMapFlagNotPresent = false)
    (h : kpgMap pd va pa flags s = .ok (b, s')) (hva' : s.Ordinary d va') :
    s'.lookup pd va' = s.lookup pd va' := by
  have habsent : (setupEntry pa flags).present = false := hflags
  rw [lookup_eq (hi.used.map hd h).2 (hi.map hd hva.1 h).int (kpgMap_ordinary hi hd hva h hva'),
    lookup_eq hd hi.int hva']
  rcases kpgMap_spec hi.pabOk hd hi.dir hi.temp h with ⟨-, ⟨err, rfl⟩, -⟩ |
    ⟨-, hpde, hpte, rfl⟩ | ⟨-, hpde, t, s₁, hfree, ht, hset, rfl⟩
  · rfl
  · by_cases hpage : va' / 4096 = va / 4096
    · have hindex : pdeIndex va' = pdeIndex va ∧ pteIndex va' = pteIndex va := by
        simp only [pdeIndex, pteIndex]
        omega
      have hpde' : (s.setEntry (s.pdeOf d va).tableFrame (pteIndex va) (setupEntry pa flags)).pdeOf
        d va' =
          s.pdeOf d va := by rw [hi.pdeOf_setPte hva.1 hpde, pdeOf, hindex.1, pdeOf]
      have hpte' : (s.setEntry (s.pdeOf d va).tableFrame (pteIndex va) (setupEntry pa flags)).pteOf
        d va' =
          setupEntry pa flags := by
        rw [pteOf, hpde', hindex.2]
        exact entry_setEntry_self (hva.2 hpde)
      have hnone : s.translate d va' = none := by
        refine translate_eq_none_iff.2 fun hp => ?_
        rw [pteOf, pdeOf, hindex.1, hindex.2, hpte] at hp
        cases hp.2
      rw [hnone]
      refine translate_eq_none_iff.2 fun hp => ?_
      have hp' := hp.2.symm.trans (congrArg Entry.present hpte')
      rw [habsent] at hp'
      cases hp'
    · exact hi.translate_setPte hva.1 hpde hva'.1 hpage
  · have hnew : (withPageTable s₁ d (pdeIndex va) t flags).translate d va' = s.translate d va' :=
      (hi.makesTable hpde hfree ht hset).2 va' hva'.1
    rw [← hnew]
    have htd : d ≠ t := by
      rintro rfl
      exact hi.dir.notFree hfree
    refine translate_congr (entry_setEntry_of_ne fun heq => htd heq.1) fun hp => ?_
    have hindex : pdeIndex va' ≠ pdeIndex va := by
      intro heq
      rw [pdeOf, heq, withPageTable_dir hi.dir.not_isTempSlot] at hp
      cases hp.symm.trans hflags
    have hother : (withPageTable s₁ d (pdeIndex va) t flags).pdeOf d va' = s.pdeOf d va' := by
      rw [pdeOf, withPageTable_of_ne htd fun heq => hindex heq.2, hset.entry_eq, pdeOf]
    have htable : (s.pdeOf d va').tableFrame ≠ t := fun heq =>
      (hi.tables _ hva'.1 (by rw [← pdeOf, ← hother]; exact hp)).2 (heq.symm ▸ hfree)
    have hpde' : ((withPageTable s₁ d (pdeIndex va) t flags).setEntry t (pteIndex va)
        (setupEntry pa flags)).pdeOf d va' = s.pdeOf d va' :=
      (entry_setEntry_of_ne fun heq => htd heq.1).trans hother
    rw [pteOf, pteOf, hpde', hother]
    exact entry_setEntry_of_ne fun heq => htable heq.1

/-- A loop of such calls makes none appear. -/
theorem mapAll_notPresent (hi : DirectoryInv d s) (hd : pd.At d s)
    (hflags : bitIsUnset flags pgMapFlagNotPresent = false)
    (hpages : ∀ i < k, s.Ordinary d (rangePage va i))
    (hrun : runWhile (fun i => kpgMap pd (rangePage va i) (rangePage pa i) flags) k 0 s =
      .ok (true, s')) :
    DirectoryInv d s' ∧ pd.At d s' ∧
      ∀ va', s.Ordinary d va' → s'.Ordinary d va' ∧ s'.lookup pd va' = s.lookup pd va' := by
  induction k generalizing s' with
  | zero =>
    cases hrun
    exact ⟨hi, hd, fun _ hva' => ⟨hva', rfl⟩⟩
  | succ k ih =>
    obtain ⟨s₁, hfirst, hlast⟩ := runWhile_succ hrun
    obtain ⟨hi₁, hd₁, hsame⟩ := ih (fun i hi => hpages i (Nat.lt_succ_of_lt hi)) hfirst
    rw [Nat.zero_add] at hlast
    have hord := (hsame _ (hpages k (Nat.lt_succ_self k))).1
    refine ⟨hi₁.map hd₁ hord.1 hlast, (hi₁.used.map hd₁ hlast).2, fun va' hva' => ?_⟩
    obtain ⟨hva₁, hlookup⟩ := hsame va' hva'
    exact ⟨kpgMap_ordinary hi₁ hd₁ hord hlast hva₁,
      (kpgMap_notPresent hi₁ hd₁ hord hflags hlast hva₁).trans hlookup⟩

/-! ## A failed call -/

/-- Only the mappings matter. -/
theorem PagesChanged.congr (hc : PagesChanged pd d page ready target k s s₁)
    (hsame : ∀ va, s'.lookup pd va = s₁.lookup pd va) :
    PagesChanged pd d page ready target k s s' :=
  ⟨hc.before, fun i hi off hoff => (hsame _).trans (hc.after i hi off hoff),
    fun va hva hother => (hsame va).trans (hc.others va hva hother)⟩

/-- Of no pages, nothing is changed. -/
theorem PagesChanged.zero : PagesChanged pd d page ready target 0 s s :=
  ⟨fun i hi => absurd hi (Nat.not_lt_zero i), fun i hi => absurd hi (Nat.not_lt_zero i),
    fun _ _ _ => rfl⟩

/-- A range of which a page was mapped starts at a page, in both address spaces. -/
theorem aligned_of_mapAll (hd : pd.At d s) (hva : va < 2 ^ 32) (hpa : pa < 2 ^ 32)
    (hrun : runWhile (fun i => kpgMap pd (rangePage va i) (rangePage pa i) flags) (k + 1) 0 s =
      .ok (true, s')) : va % 4096 = 0 ∧ pa % 4096 = 0 := by
  rcases runWhile_step hrun with ⟨hb, -⟩ | ⟨s₁, hfirst, -⟩
  · cases hb
  · rw [rangePage_zero hva, rangePage_zero hpa] at hfirst
    by_contra hal
    rw [kpgMap_unaligned hd (by omega)] at hfirst
    cases hfirst

/-- A range that is unmapped starts at a page. -/
theorem aligned_of_unmapAll (hd : pd.At d s) (hva : va < 2 ^ 32)
    (hrun : runWhile (fun i => kpgUnmap pd (rangePage va i)) (k + 1) 0 s = .ok (true, s')) :
    va % 4096 = 0 := by
  rcases runWhile_step hrun with ⟨hb, -⟩ | ⟨s₁, hfirst, -⟩
  · cases hb
  · rw [rangePage_zero hva] at hfirst
    by_contra hal
    rw [kpgUnmap_unaligned hd hal] at hfirst
    cases hfirst

/-- The pages that were mapped before the call failed. -/
theorem mapped_before_failure (hi : DirectoryInv d s) (hd : pd.At d s) (hva : va < 2 ^ 32)
    (hpa : pa < 2 ^ 32) (hpages : ∀ i < k, s.Ordinary d (rangePage va i))
    (hflags : bitIsUnset flags pgMapFlagNotPresent = true)
    (hrun : runWhile (fun i => kpgMap pd (rangePage va i) (rangePage pa i) flags) k 0 s =
      .ok (true, s₁)) (herr : OnlyErrorNumber s₁ s') :
    PagesChanged pd d (rangePage va) (· = none)
    (fun i off => some (rangePage pa i + off)) k s s' := by
  cases k with
  | zero =>
    cases hrun
    exact PagesChanged.zero.congr fun va' => herr.lookup hd hi.int va'
  | succ k =>
    obtain ⟨hal, hpal⟩ := aligned_of_mapAll hd hva hpa hrun
    obtain ⟨hi₁, hd₁, -, hc⟩ := runWhile_pages (fun i => rangePage_aligned hal) (fun i => by simp)
      (fun i s s' hi hd hpage h => kpgMap_turn hi hd hpage (rangePage_aligned hal)
        (rangePage_aligned hpal) rangePage_lt hflags h) hi hd hpages hrun
    exact hc.congr fun va' => herr.lookup hd₁ hi₁.int va'

/-- The pages that were unmapped before the call failed. -/
theorem unmapped_before_failure (hi : DirectoryInv d s) (hd : pd.At d s) (hva : va < 2 ^ 32)
    (hpages : ∀ i < k, s.Ordinary d (rangePage va i))
    (hrun : runWhile (fun i => kpgUnmap pd (rangePage va i)) k 0 s = .ok (true, s₁))
    (herr : OnlyErrorNumber s₁ s') :
    PagesChanged pd d (rangePage va) (· ≠ none) (fun _ _ => none) k s s' := by
  cases k with
  | zero =>
    cases hrun
    exact PagesChanged.zero.congr fun va' => herr.lookup hd hi.int va'
  | succ k =>
    have hal := aligned_of_unmapAll hd hva hrun
    obtain ⟨hi₁, hd₁, -, hc⟩ := runWhile_pages (fun i => rangePage_aligned hal) (fun i => by simp)
      (fun i s s' hi hd hpage h => kpgUnmap_turn hi hd hpage (rangePage_aligned hal) h) hi
        hd hpages hrun
    exact hc.congr fun va' => herr.lookup hd₁ hi₁.int va'

/-- A call for a range that fails does so at one page: the pages in front of it were mapped, or
unmapped, one after the other, and the refused page changes nothing but the error number. When those
in front are ordinary pages, they are mapped to the addresses that were asked for, or to none, and
every other ordinary page is mapped as before; with `PG_MAP_FLAG_NOT_PRESENT` this holds of all of
them. -/
theorem continous_failure (hi : DirectoryInv d s) (hd : pd.At d s) (hva : va < 2 ^ 32)
    (hpa : pa < 2 ^ 32) (hn : n ≠ 0) :
    (∀ s', kpgMapContinous pd va pa n flags s = .ok (false, s') →
      ∃ k < n, ∃ s₁, mapContinousFrom pd flags k va pa s = .ok (true, s₁) ∧
        kpgMap pd (rangePage va k) (rangePage pa k) flags s₁ = .ok (false, s') ∧
        OnlyErrorNumber s₁ s' ∧
        ((∀ i < k, s.Ordinary d (rangePage va i)) →
          (bitIsUnset flags pgMapFlagNotPresent = true →
            PagesChanged pd d (rangePage va) (· = none) (fun i off => some (rangePage pa i + off)) k
              s s') ∧
          (bitIsUnset flags pgMapFlagNotPresent = false →
            ∀ va', s.Ordinary d va' → s'.lookup pd va' = s.lookup pd va'))) ∧
    (∀ s', kpgUnmapContinous pd va n s = .ok (false, s') →
      ∃ k < n, ∃ s₁, unmapContinousFrom pd k va s = .ok (true, s₁) ∧
        kpgUnmap pd (rangePage va k) s₁ = .ok (false, s') ∧ OnlyErrorNumber s₁ s' ∧
        ((∀ i < k, s.Ordinary d (rangePage va i)) →
          PagesChanged pd d (rangePage va) (· ≠ none) (fun _ _ => none) k s s')) := by
  have hmap : ∀ k, mapContinousFrom pd flags k va pa =
      runWhile (fun i => kpgMap pd (rangePage va i) (rangePage pa i) flags) k 0 := fun k => by
    rw [← mapContinousFrom_eq, rangePage_zero hva, rangePage_zero hpa]
  have hunmap : ∀ k, unmapContinousFrom pd k va =
      runWhile (fun i => kpgUnmap pd (rangePage va i)) k 0 := fun k => by
    rw [← unmapContinousFrom_eq, rangePage_zero hva]
  constructor
  · intro s' h
    rw [kpgMapContinous, if_neg hn, hmap] at h
    obtain ⟨k, hk, s₁, hrun, hlast⟩ := runWhile_false h
    rw [Nat.zero_add] at hlast
    obtain ⟨hu₁, hd₁⟩ := hi.used.mapAll hd hrun
    have herr := hu₁.map_refused hd₁ hlast
    refine ⟨k, hk, s₁, by rw [hmap]; exact hrun, hlast, herr, fun hpages => ⟨fun hflags =>
      mapped_before_failure hi hd hva hpa hpages hflags hrun herr, fun hflags va' hva' => ?_⟩⟩
    obtain ⟨hi₁, -, hsame⟩ := mapAll_notPresent hi hd hflags hpages hrun
    rw [herr.lookup hd₁ hi₁.int]
    exact (hsame va' hva').2
  · intro s' h
    rw [kpgUnmapContinous, if_neg hn, hunmap] at h
    obtain ⟨k, hk, s₁, hrun, hlast⟩ := runWhile_false h
    rw [Nat.zero_add] at hlast
    have herr := kpgUnmap_refused hlast
    exact ⟨k, hk, s₁, by rw [hunmap]; exact hrun, hlast, herr, fun hpages =>
      unmapped_before_failure hi hd hva hpages hrun herr⟩

/-- `recursiveDirectory` with the page at `0x401000` mapped. -/
def secondPageMapped : KState := (kpgMap .current 0x401000 0x50000 6).finalState recursiveDirectory

/-- The second page of the range is mapped before. -/
theorem secondPageMapped_run : MapRun 0x23 secondPageMapped := by
  have hmap : kpgMap .current 0x401000 0x50000 6 recursiveDirectory =
    .ok (true, secondPageMapped) :=
    eq_ok_of_value (by decide +kernel)
  exact .map recursiveDirectory_run (show PageDirectory.current.At 0x23 recursiveDirectory from rfl)
    (by decide) hmap

/-- The second of two pages is mapped before, so that the call fails with the first one mapped. -/
theorem continous_failure_secondPage : ∃ k < 2, ∃ s',
    kpgMapContinous .current 0x400000 0x44000 2 6 secondPageMapped = .ok (false, s') ∧
      PagesChanged .current 0x23 (rangePage 0x400000) (· = none)
        (fun i off => some (rangePage 0x44000 i + off)) k secondPageMapped s' := by
  have hd : PageDirectory.current.At 0x23 secondPageMapped := rfl
  have hi := secondPageMapped_run.inv
  have hrun : kpgMapContinous .current 0x400000 0x44000 2 6 secondPageMapped = .ok (false, _) :=
    eq_ok_of_value (by decide +kernel)
  obtain ⟨k, hk, s₁, -, -, -, hchanged⟩ :=
    (continous_failure hi hd (by decide) (by decide) (by decide)).1 _ hrun
  refine ⟨k, hk, _, hrun, (hchanged fun i hik => hi.ordinary ?_).1 (by decide)⟩
  obtain rfl : i = 0 := by omega
  decide

/-- Mapping the pages at `0x400000` and `0x401000` fails and leaves the first one mapped, and
unmapping those at `0x401000` and `0x402000` fails and leaves the first one unmapped. -/
theorem continous_not_undone :
    MapRun 0x23 secondPageMapped ∧
    (∃ s', kpgMapContinous .current 0x400000 0x44000 2 6 secondPageMapped = .ok (false, s') ∧
      secondPageMapped.lookup .current 0x400000 = none ∧
      s'.lookup .current 0x400000 = some 0x44000) ∧
    ∃ s', kpgUnmapContinous .current 0x401000 2 secondPageMapped = .ok (false, s') ∧
      secondPageMapped.lookup .current 0x401000 = some 0x50000 ∧
      s'.lookup .current 0x401000 = none := by
  have hmap : kpgMapContinous .current 0x400000 0x44000 2 6 secondPageMapped = .ok (false, _) :=
    eq_ok_of_value (by decide +kernel)
  have hunmap : kpgUnmapContinous .current 0x401000 2 secondPageMapped = .ok (false, _) :=
    eq_ok_of_value (by decide +kernel)
  exact ⟨secondPageMapped_run, ⟨_, hmap, by decide +kernel, by decide +kernel⟩, _, hunmap,
    by decide +kernel, by decide +kernel⟩

end MeghaOS
