import MeghaOS.Proof.Rights
import MeghaOS.Proof.Slots

/-!
# A page directory as a partial map

`MapRun d s` says that calls of `kpg_map` and `kpg_unmap` on the page directory at frame `d` led
from an empty user half to the state `s`. In every such state the three functions are the insertion,
the removal and the lookup of a partial map from pages to addresses (`kpg_partial_map`), as long as
the page is an ordinary one: pages above the user half show the tables themselves, through the
recursive entry and through the temporary mappings, so that making a page table shows up there
(`recursive_page_appears`). Where `kpg_map` needs a page table and no page frame is left, it panics.
-/

namespace MeghaOS

open Exec KState

variable {s s₁ s' : KState} {pd : PageDirectory} {d t i va va' pa flags : Nat}
  {b : Bool} {e : Entry}

/-! ## Lookup -/

/-- The address that `kpg_doesMappingExists` reports. -/
def KState.lookup (s : KState) (pd : PageDirectory) (va : Nat) : Option Nat :=
  match kpgDoesMappingExists pd va s with
  | .ok (found, _) => found
  | .error _ => none

/-- The address behind an address, by the entries of the directory and of the page table. -/
def KState.translate (s : KState) (d va : Nat) : Option Nat :=
  if (s.pdeOf d va).present = true ∧ (s.pteOf d va).present = true then
    some (pageframesToBytes (s.pteOf d va).pageFrame ||| pageOffset va)
  else none

/-- The page is below the recursive mapping and is not that of a temporary mapping. -/
def KState.Ordinary (s : KState) (d va : Nat) : Prop :=
  pdeIndex va < recursivePdeIndex ∧
    ((s.pdeOf d va).present = true → ¬ IsTempSlot (s.pdeOf d va).tableFrame (pteIndex va))

/-- A pointer that leads to a directory is not `NULL`. -/
theorem PageDirectory.At.ne_null (hd : pd.At d s) : pd ≠ .null := by
  rintro rfl
  exact hd

/-- A page is not translated exactly when an entry on the way is absent. -/
theorem translate_eq_none_iff :
    s.translate d va = none ↔
      ¬ ((s.pdeOf d va).present = true ∧ (s.pteOf d va).present = true) := by
  unfold KState.translate
  split
  · rename_i h
    exact iff_of_false (by simp) (not_not_intro h)
  · rename_i h
    exact iff_of_true rfl h

/-- The two entries of a page decide. -/
theorem translate_congr (hpde : s'.pdeOf d va = s.pdeOf d va)
    (hpte : (s.pdeOf d va).present = true → s'.pteOf d va = s.pteOf d va) :
    s'.translate d va = s.translate d va := by
  by_cases hp : (s.pdeOf d va).present = true
  · simp only [KState.translate, hpde, hpte hp]
  · have hnone : s.translate d va = none := translate_eq_none_iff.2 fun h => hp h.1
    have hnone' : s'.translate d va = none := translate_eq_none_iff.2 fun h => hp (hpde ▸ h.1)
    rw [hnone, hnone']

/-- `kpg_doesMappingExists` returns, and changes nothing. -/
theorem kpgDoesMappingExists_eq (hd : pd.At d s) (hint : s.tempInt = none) (va : Nat) :
    kpgDoesMappingExists pd va s = .ok (
      (if (s.pdeOf d va).present = true then
        (let pte := ({ s with tempInt := some (s.pdeOf d va).tableFrame } : KState).entry
          (s.pdeOf d va).tableFrame (pteIndex va)
        if pte.present then some (pageframesToBytes pte.pageFrame ||| pageOffset va) else none)
      else none), s) := by
  refine kAssert_bind_eq_ok.2 ⟨by simpa using hd.ne_null, ?_⟩
  rw [readPde_bind hd]
  change (if (s.pdeOf d va).present = true then _ else _ : K (Option Nat)) s = _
  by_cases hp : (s.pdeOf d va).present = true
  · rw [if_pos hp, if_pos hp]
    refine openTable_bind_eq_ok.2 ?_
    refine ⟨hint, ?_⟩
    rw [readPte_bind rfl]
    refine sInternalTemporaryUnmap_bind_eq_ok.2 ⟨by simp, ?_⟩
    rw [← hint]
    rfl
  · rw [if_neg hp, if_neg hp]
    rfl

/-- `kpg_doesMappingExists` returns when no page table is open. -/
theorem kpgDoesMappingExists_run (hd : pd.At d s) (hint : s.tempInt = none) (va : Nat) :
    kpgDoesMappingExists pd va s = .ok (s.lookup pd va, s) := by
  rw [lookup, kpgDoesMappingExists_eq hd hint]

/-- What it reports of an ordinary page is what the entries say. -/
theorem lookup_eq (hd : pd.At d s) (hint : s.tempInt = none) (hva : s.Ordinary d va) :
    s.lookup pd va = s.translate d va := by
  rw [lookup, kpgDoesMappingExists_eq hd hint]
  dsimp only
  by_cases hp : (s.pdeOf d va).present = true
  · have hslot : ¬ IsIntSlot (s.pdeOf d va).tableFrame (pteIndex va) := fun h =>
      hva.2 hp ⟨h.1, .inr h.2⟩
    rw [if_pos hp, entry_tempInt hslot]
    simp only [KState.translate, pteOf, hp, true_and]
  · rw [if_neg hp]
    exact (translate_eq_none_iff.2 fun h => hp h.1).symm

/-! ## Runs -/

/-- A page directory whose user half is empty and whose kernel half has a page table of its own for
each entry, while no page table is open. -/
structure EmptyDirectory (d : Nat) (s : KState) : Prop extends EmptyUserHalf d s where
  int : s.tempInt = none
  kernel : ∀ i j, i < recursivePdeIndex → j < recursivePdeIndex → (s.entry d i).present = true →
    (s.entry d j).present = true → (s.entry d i).tableFrame = (s.entry d j).tableFrame → i = j

/-- Calls of `kpg_map` and `kpg_unmap` on the directory at frame `d`, between which the rest of the
kernel runs. -/
inductive MapRun (d : Nat) : KState → Prop
  | start {s : KState} : EmptyDirectory d s → MapRun d s
  | map {s s' : KState} {pd : PageDirectory} {va pa flags : Nat} {b : Bool} :
      MapRun d s → pd.At d s → pdeIndex va < recursivePdeIndex →
        kpgMap pd va pa flags s = .ok (b, s') → MapRun d s'
  | unmap {s s' : KState} {pd : PageDirectory} {va : Nat} {b : Bool} :
      MapRun d s → pd.At d s → pdeIndex va < recursivePdeIndex → kpgUnmap pd va s = .ok (b, s') →
        MapRun d s'
  | other {s s' : KState} : MapRun d s → DirKept d s s' → s'.tempInt = none → MapRun d s'

/-- Each entry below the recursive one has a page table of its own, in a frame in use; those of the
user half are not the page table with the temporary mappings. -/
structure DirectoryInv (d : Nat) (s : KState) : Prop where
  pabOk : PabOk s
  dir : TakenFrame s d
  temp : s.frameState kernelPageTableFrame ≠ pmmStateFree
  int : s.tempInt = none
  tables : ∀ i, i < recursivePdeIndex → (s.entry d i).present = true →
    (s.entry d i).tableFrame ≠ d ∧ s.frameState (s.entry d i).tableFrame ≠ pmmStateFree
  distinct : ∀ i j, i < recursivePdeIndex → j < recursivePdeIndex → (s.entry d i).present = true →
    (s.entry d j).present = true → (s.entry d i).tableFrame = (s.entry d j).tableFrame → i = j
  user : ∀ i, i < kernelPdeIndex → (s.entry d i).present = true →
    (s.entry d i).tableFrame ≠ kernelPageTableFrame

/-- The kernel half lies below the recursive entry. -/
theorem lt_recursive (h : i < kernelPdeIndex) : i < recursivePdeIndex :=
  Nat.lt_trans h (by decide)

namespace DirectoryInv

/-- Only the entries below the recursive one and the frames in use matter. -/
theorem congr (hi : DirectoryInv d s) (hpab : PabOk s') (hint : s'.tempInt = none)
    (hentries : ∀ i, i < recursivePdeIndex → s'.entry d i = s.entry d i)
    (hinUse : ∀ f, s.frameState f ≠ pmmStateFree → s'.frameState f ≠ pmmStateFree) :
    DirectoryInv d s' where
  pabOk := hpab
  dir := ⟨hinUse _ hi.dir.notFree, hi.dir.notTemp⟩
  temp := hinUse _ hi.temp
  int := hint
  tables i hlt hp := by
    rw [hentries i hlt] at hp ⊢
    exact ⟨(hi.tables i hlt hp).1, hinUse _ (hi.tables i hlt hp).2⟩
  distinct i j hlt hlt' hp hp' := by
    rw [hentries i hlt, hentries j hlt'] at *
    exact hi.distinct i j hlt hlt' hp hp'
  user i hlt hp := by
    rw [hentries i (lt_recursive hlt)] at hp ⊢
    exact hi.user i hlt hp

/-- Writing an entry of a page table changes no entry of the directory. -/
theorem pdeOf_setPte (hi : DirectoryInv d s) (hlt : pdeIndex va < recursivePdeIndex)
    (hpde : (s.pdeOf d va).present = true) (va' : Nat) :
    (s.setEntry (s.pdeOf d va).tableFrame (pteIndex va) e).pdeOf d va' = s.pdeOf d va' :=
  entry_setEntry_of_ne fun h => (hi.tables _ hlt hpde).1 h.1.symm

/-- Writing an entry outside the directory keeps the invariant. -/
theorem setEntry {frame : Nat} (hi : DirectoryInv d s) (hne : frame ≠ d)
    (hint : (s.setEntry frame i e).tempInt = none) : DirectoryInv d (s.setEntry frame i e) := by
  refine hi.congr (hi.pabOk.congr setEntry_pab) hint (fun j _ => ?_) fun f hf => ?_
  · exact entry_setEntry_of_ne fun h => hne h.1.symm
  · rw [setEntry_frameState]
    exact hf

/-- Writing the entry of a page changes nothing for another page, since no other directory entry
leads to the same page table. -/
theorem translate_setPte (hi : DirectoryInv d s) (hlt : pdeIndex va < recursivePdeIndex)
    (hpde : (s.pdeOf d va).present = true) (hlt' : pdeIndex va' < recursivePdeIndex)
    (hne : va' / 4096 ≠ va / 4096) :
    (s.setEntry (s.pdeOf d va).tableFrame (pteIndex va) e).translate d va' = s.translate d va' := by
  refine translate_congr (hi.pdeOf_setPte hlt hpde va') fun hpde' => ?_
  rw [pteOf, hi.pdeOf_setPte hlt hpde va']
  refine entry_setEntry_of_ne fun h => hne ?_
  have hindex : pdeIndex va' = pdeIndex va := hi.distinct _ _ hlt' hlt hpde' hpde h.1
  have hpte := h.2
  simp only [pdeIndex, pteIndex] at hindex hpte
  omega

/-- A new page table keeps the invariant. -/
theorem newTable (hi : DirectoryInv d s) (hpab : PabOk s') (hint : s'.tempInt = none)
    (hnew : NewTable d i t s s') : DirectoryInv d s' := by
  have htaken : ∀ j, j < recursivePdeIndex → (s.entry d j).present = true →
      (s.entry d j).tableFrame ≠ t := fun j hj hp => hnew.ne_of_inUse (hi.tables j hj hp).2
  refine ⟨hpab, hnew.takenFrame hi.dir, hnew.inUse hi.temp, hint, hnew.tables hi.tables, ?_, ?_⟩
  · intro j k hj hk hp hpk heq
    by_cases hji : j = i
    · by_cases hki : k = i
      · rw [hji, hki]
      · rw [hji, hnew.own, hnew.other k hki] at heq
        rw [hnew.other k hki] at hpk
        exact absurd heq.symm (htaken k hk hpk)
    · rw [hnew.other j hji] at hp heq
      by_cases hki : k = i
      · rw [hki, hnew.own] at heq
        exact absurd heq (htaken j hj hp)
      · rw [hnew.other k hki] at hpk heq
        exact hi.distinct j k hj hk hp hpk heq
  · intro j hj hp
    by_cases hji : j = i
    · rw [hji, hnew.own]
      exact hnew.ne_temp
    · rw [hnew.other j hji] at hp ⊢
      exact hi.user j hj hp

/-- The new page table changes nothing for any page. -/
theorem translate_newTable (hi : DirectoryInv d s) (hpde : (s.entry d i).present = false)
    (hnew : NewTable d i t s s') (hva : pdeIndex va < recursivePdeIndex) :
    s'.translate d va = s.translate d va := by
  by_cases hvi : pdeIndex va = i
  · have hnone : s.translate d va = none := by
      refine translate_eq_none_iff.2 fun h => ?_
      have hp : (s.entry d i).present = true := hvi ▸ h.1
      rw [hpde] at hp
      cases hp
    rw [hnone, translate_eq_none_iff, hnew.pteOf_new hvi]
    rintro ⟨-, hpte⟩
    cases hpte
  · refine translate_congr (hnew.other _ hvi) fun hp => ?_
    obtain ⟨hdir, hinUse⟩ := hi.tables _ hva hp
    exact hnew.pteOf hvi hdir hinUse

/-- `kpg_map` makes a new page table in a free frame. -/
theorem makesTable (hi : DirectoryInv d s) {s₁ : KState}
    (hpde : (s.entry d i).present = false) (hfree : s.frameState t = pmmStateFree)
    (ht : t < 2 ^ 14) (hset : SetFrames s s₁ t 1 pmmStateUsed) :
    DirectoryInv d (withPageTable s₁ d i t flags) ∧
      ∀ va, pdeIndex va < recursivePdeIndex →
        (withPageTable s₁ d i t flags).translate d va = s.translate d va := by
  have hnew : NewTable d i t s (withPageTable s₁ d i t flags) :=
    withPageTable_newTable hi.dir hi.temp hfree ht hset
  have hint : (withPageTable s₁ d i t flags).tempInt = none := by
    rw [withPageTable, setEntry_int fun h => hi.dir.notTemp h.1]
    exact (congrArg KState.tempInt hset.eq).trans hi.int
  have hpab : PabOk (withPageTable s₁ d i t flags) :=
    (hset.pabOk hi.pabOk).congr setEntry_pab
  exact ⟨hi.newTable hpab hint hnew, fun va => hi.translate_newTable hpde hnew⟩

/-- `kpg_map` keeps the invariant. -/
theorem map (hi : DirectoryInv d s) (hd : pd.At d s) (hlt : pdeIndex va < recursivePdeIndex)
    (h : kpgMap pd va pa flags s = .ok (b, s')) : DirectoryInv d s' := by
  have hint : s'.tempInt = none := kpgMap_keepsInt pd va pa flags s b s' h hi.int
  rcases kpgMap_spec hi.pabOk hd hi.dir hi.temp h with ⟨rfl, ⟨err, rfl⟩, -⟩ |
    ⟨rfl, hpde, -, rfl⟩ | ⟨rfl, hpde, t, s₁, hfree, ht, hset, rfl⟩
  · exact hi.congr (hi.pabOk.congr rfl) hint (fun _ _ => rfl) fun _ hf => hf
  · exact hi.setEntry (hi.tables _ hlt hpde).1 hint
  · refine (hi.makesTable hpde hfree ht hset).1.setEntry ?_ hint
    rintro rfl
    exact hi.dir.notFree hfree

/-- `kpg_unmap` keeps the invariant. -/
theorem unmap (hi : DirectoryInv d s) (hd : pd.At d s) (hlt : pdeIndex va < recursivePdeIndex)
    (h : kpgUnmap pd va s = .ok (b, s')) : DirectoryInv d s' := by
  have hint : s'.tempInt = none := (kpgUnmap_keepsSlots pd va s b s' h).int hi.int
  rcases kpgUnmap_spec hd h with ⟨rfl, ⟨err, rfl⟩, -⟩ | ⟨rfl, hpde, -, rfl⟩
  · exact hi.congr (hi.pabOk.congr rfl) hint (fun _ _ => rfl) fun _ hf => hf
  · exact hi.setEntry (hi.tables _ hlt hpde).1 hint

end DirectoryInv

/-- The invariant holds at the start of a run. -/
theorem EmptyDirectory.inv (h : EmptyDirectory d s) : DirectoryInv d s where
  pabOk := h.pabOk
  dir := h.dir
  temp := h.temp
  int := h.int
  tables := h.tables
  distinct := h.kernel
  user i hlt hp := by simp [h.empty i hlt] at hp

/-- Every page of the user half is an ordinary one. -/
theorem DirectoryInv.ordinary (hi : DirectoryInv d s) (hva : pdeIndex va < kernelPdeIndex) :
    s.Ordinary d va :=
  ⟨lt_recursive hva, fun hp hslot => hi.user _ hva hp hslot.1⟩

/-- The invariant holds at the end of every run. -/
theorem MapRun.inv (hr : MapRun d s) : DirectoryInv d s := by
  induction hr with
  | start hs => exact hs.inv
  | map _ hd hlt h ih => exact ih.map hd hlt h
  | unmap _ hd hlt h ih => exact ih.unmap hd hlt h
  | other _ hk hint ih => exact ih.congr hk.pabOk hint hk.entries hk.inUse

/-! ## The calls return -/

/-- `s_internal_temporaryMap` opens a frame when nothing is open. -/
theorem temporaryMap_bind {α : Type} {f : Bool → K α} {n : Nat} (hint : s.tempInt = none) :
    (sInternalTemporaryMap (pageframesToBytes n) >>= f) s =
      f true { s with tempInt := some (n % 2 ^ 20) } := by
  rw [sInternalTemporaryMap, if_neg (by simp [isAligned_pageframesToBytes]), bind_assoc,
    get_bind_apply, hint, physicalToPageframe_pageframesToBytes]
  rfl

/-- So a page table is opened by its entry. -/
theorem openTable_bind {α : Type} {f : Bool → K α} (hint : s.tempInt = none) :
    (sInternalTemporaryMap (pageframesToBytes e.pageFrame) >>= f) s =
      f true { s with tempInt := some e.tableFrame } := temporaryMap_bind hint

/-- `s_internal_temporaryUnmap` closes what is open. -/
theorem sInternalTemporaryUnmap_bind {α : Type} {f : Unit → K α} (hint : s.tempInt ≠ none) :
    (sInternalTemporaryUnmap >>= f) s = f () { s with tempInt := none } := by
  rw [sInternalTemporaryUnmap, bind_assoc, get_bind_apply, if_neg hint]
  rfl

/-- `s_setupPTE` writes an entry of the open page table. -/
theorem sSetupPte_bind {α : Type} {f : Unit → K α} (ht : s.tempInt = some t)
    (hpa : isAligned pa pageFrameSizeBytes = true) :
    (sSetupPte i pa flags >>= f) s = f () (s.setEntry t i (setupEntry pa flags)) := by
  rw [sSetupPte, kAssert, if_pos hpa, pure_bind, bind_assoc, get_bind_apply, ht]
  rfl

/-- `s_setupPDE` writes an entry of the directory. -/
theorem sSetupPde_run (hd : pd.At d s) (hpa : isAligned pa pageFrameSizeBytes = true) :
    sSetupPde pd i pa flags s = .ok ((), s.setEntry d i (setupEntry pa flags)) :=
  (sSetupPde_eq_ok hd).2 ⟨hpa, rfl⟩

/-- The entry of a page is written, or found to be there, whatever the page. -/
theorem mapInPageTable_returns (hd : pd.At d s) (hint : s.tempInt = none)
    (hpa : isAligned pa pageFrameSizeBytes = true) :
    ∃ b s', mapInPageTable pd va pa flags s = .ok (b, s') := by
  rw [mapInPageTable, readPde_bind hd, openTable_bind hint, readPte_bind rfl]
  generalize (s.entry d (pdeIndex va)) = pde
  by_cases hp : (({ s with tempInt := some pde.tableFrame } : KState).entry pde.tableFrame
      (pteIndex va)).present = true
  · rw [if_pos hp, sInternalTemporaryUnmap_bind (by simp)]
    exact ⟨_, _, rfl⟩
  · have hslot : ¬ IsIntSlot pde.tableFrame (pteIndex va) := by
      intro hslot
      rw [entry_intSlot hslot] at hp
      exact hp rfl
    have hopen : (KState.setEntry { s with tempInt := some pde.tableFrame } pde.tableFrame
        (pteIndex va) (setupEntry pa flags)).tempInt ≠ none := by
      rw [setEntry_int hslot]
      simp
    rw [if_neg hp]
    rw [sSetupPte_bind rfl hpa, sInternalTemporaryUnmap_bind hopen]
    exact ⟨_, _, rfl⟩

/-- A page table is made when there is a page frame for it. -/
theorem createPageTable_returns (hs : PabOk s) (hd : pd.At d s) (hint : s.tempInt = none) {a : Nat}
    {s₁ : KState} (halloc : kpmmAlloc 1 .pmmRegionAny s = .ok (some a, s₁)) :
    ∃ s', createPageTable pd va flags s = .ok ((), s') := by
  rcases kpmmAlloc_spec hs halloc with ⟨hnone, -⟩ | ⟨t, ha, hlt, hset, -⟩
  · cases hnone
  have heq := hset.eq
  have hd₁ : pd.At d s₁ := by
    rw [heq]
    exact hd
  have hint₁ : s₁.tempInt = none := by
    rw [heq]
    exact hint
  have haddr : a = pageframesToBytes (physicalToPageframe a) := (kpmmAlloc_address halloc).symm
  rw [createPageTable, bind_of_ok halloc]
  dsimp only
  rw [haddr]
  rw [temporaryMap_bind hint₁, zeroPage_bind rfl, sInternalTemporaryUnmap_bind (by simp)]
  exact ⟨_, sSetupPde_run (by exact hd₁) (isAligned_pageframesToBytes _)⟩

/-- The page table of a page is missing, and there is no page frame for it. -/
def NoTableFor (d : Nat) (s : KState) (va : Nat) : Prop :=
  (s.pdeOf d va).present = false ∧ ∀ a s₁, kpmmAlloc 1 .pmmRegionAny s ≠ .ok (some a, s₁)

/-- `kpg_map` returns unless there is no page frame for the page table that it needs. -/
theorem kpgMap_returns (hs : PabOk s) (hdir : TakenFrame s d) (hint : s.tempInt = none)
    (hd : pd.At d s) (hva : va % 4096 = 0) (hpa : pa % 4096 = 0) :
    (∃ b s', kpgMap pd va pa flags s = .ok (b, s')) ↔ ¬ NoTableFor d s va := by
  have hal : ¬ (isAligned va pageFrameSizeBytes = false ∨
      isAligned pa pageFrameSizeBytes = false) := by
    rw [isAligned_page_iff.2 hva, isAligned_page_iff.2 hpa]
    simp
  have hpa' : isAligned pa pageFrameSizeBytes = true := isAligned_page_iff.2 hpa
  have hopen : kpgMap pd va pa flags s = (do
      when ((s.pdeOf d va).present = false) (createPageTable pd va flags)
      mapInPageTable pd va pa flags : K Bool) s := by
    rw [kpgMap]
    have hnull : pd ≠ .null := hd.ne_null
    simp only [kAssert, hnull, ne_eq, not_false_eq_true, if_true, pure_bind, if_neg hal]
    exact readPde_bind hd _
  rw [hopen]
  cases hpde : (s.pdeOf d va).present with
  | true =>
    rw [when_false (by simp), pure_bind]
    exact iff_of_true (mapInPageTable_returns hd hint hpa') fun h => by simp [NoTableFor, hpde] at h
  | false =>
    rw [when_true rfl]
    constructor
    · rintro ⟨b, s', h⟩ ⟨-, hnone⟩
      obtain ⟨_, s₁, hnew, -⟩ := bind_eq_ok.1 h
      obtain ⟨a, s₂, halloc, -⟩ := createPageTable_eq hd hnew
      exact hnone a s₂ halloc
    · intro h
      have halloc : ∃ a s₁, kpmmAlloc 1 .pmmRegionAny s = .ok (some a, s₁) := by
        by_contra hnone
        exact h ⟨hpde, fun a s₁ heq => hnone ⟨a, s₁, heq⟩⟩
      obtain ⟨a, s₁, halloc⟩ := halloc
      obtain ⟨s₂, hnew⟩ : ∃ s₂, createPageTable pd va flags s = .ok ((), s₂) :=
        createPageTable_returns hs hd hint halloc
      have hd₂ : pd.At d s₂ := by
        obtain ⟨pa', s₃, -, hd₃, -, rfl⟩ := createPageTable_eq hd hnew
        rw [withPageTable, setEntry_mem hdir.not_isTempSlot]
        exact hd₃
      have hint₂ : s₂.tempInt = none := by
        obtain ⟨t, s₃, -, -, hset, -, rfl⟩ := createPageTable_spec hs hd hnew
        rw [withPageTable, setEntry_int fun h => hdir.notTemp h.1]
        exact (congrArg KState.tempInt hset.eq).trans hint
      rw [bind_of_ok hnew]
      exact mapInPageTable_returns hd₂ hint₂ hpa'

/-- `kpg_map` returns unless it has no frame for a page table it needs. -/
theorem kpgMap_returns_iff (hi : DirectoryInv d s) (hd : pd.At d s) (hva : va % 4096 = 0)
    (hpa : pa % 4096 = 0) :
    (∃ b s', kpgMap pd va pa flags s = .ok (b, s')) ↔ ¬ NoTableFor d s va :=
  kpgMap_returns hi.pabOk hi.dir hi.int hd hva hpa

/-! ## The operations of the partial map -/

/-- `s'` is `s` but for the number of the last error. -/
def OnlyErrorNumber (s s' : KState) : Prop := ∃ err, s' = { s with errorNumber := err }

/-- Every ordinary page other than that of `va` is looked up as before. -/
def SameElsewhere (pd : PageDirectory) (d va : Nat) (s s' : KState) : Prop :=
  ∀ va', s.Ordinary d va' → va' / 4096 ≠ va / 4096 → s'.lookup pd va' = s.lookup pd va'

/-- The insertion of the page of `va` with result `b`: it fails and changes nothing when the page is
in the map. -/
structure Inserts (pd : PageDirectory) (d va pa : Nat) (b : Bool) (s s' : KState) : Prop where
  success : b = true ↔ s.lookup pd va = none
  inserted : b = true → ∀ off, off < 4096 → s'.lookup pd (va + off) = some (pa + off)
  failed : b = false → OnlyErrorNumber s s'
  others : SameElsewhere pd d va s s'

/-- The removal of the page of `va` with result `b`: it fails and changes nothing when the page is
not in the map. -/
structure Removes (pd : PageDirectory) (d va : Nat) (b : Bool) (s s' : KState) : Prop where
  success : b = true ↔ s.lookup pd va ≠ none
  removed : b = true → ∀ off, off < 4096 → s'.lookup pd (va + off) = none
  failed : b = false → OnlyErrorNumber s s'
  others : SameElsewhere pd d va s s'

/-- The directory is where it was, unless a slot is written. -/
theorem PageDirectory.At.setEntry {frame : Nat} (hd : pd.At d s) (hslot : ¬ IsTempSlot frame i) :
    pd.At d (s.setEntry frame i e) := by
  rw [setEntry_mem hslot]
  exact hd

/-- The error number is no matter of the mappings. -/
theorem OnlyErrorNumber.lookup (h : OnlyErrorNumber s s') (hd : pd.At d s) (hint : s.tempInt = none)
    (va : Nat) : s'.lookup pd va = s.lookup pd va := by
  obtain ⟨err, rfl⟩ := h
  have hd' : pd.At d { s with errorNumber := err } := hd
  rw [KState.lookup, KState.lookup, kpgDoesMappingExists_eq hd hint,
    kpgDoesMappingExists_eq hd' hint]
  rfl

/-- The addresses of a page. -/
theorem pdeIndex_add {off : Nat} (hva : va % 4096 = 0) (hoff : off < 4096) :
    pdeIndex (va + off) = pdeIndex va ∧ pteIndex (va + off) = pteIndex va ∧
      pageOffset (va + off) = off := by
  simp only [pdeIndex, pteIndex, pageOffset]
  omega

/-- An address in a page is translated with the page. -/
theorem translate_add {off : Nat} (hva : va % 4096 = 0) (hoff : off < 4096) :
    s.translate d (va + off) =
      if (s.pdeOf d va).present = true ∧ (s.pteOf d va).present = true then
        some (pageframesToBytes (s.pteOf d va).pageFrame ||| off)
      else none := by
  obtain ⟨hpde, hpte, hoffset⟩ := pdeIndex_add hva hoff
  have hpde' : s.pdeOf d (va + off) = s.pdeOf d va := by rw [pdeOf, hpde, pdeOf]
  have hpte' : s.pteOf d (va + off) = s.pteOf d va := by rw [pteOf, hpde', hpte, pteOf]
  rw [KState.translate, hpde', hpte', hoffset]

/-- The address in the entry that is written for a page, joined with the offset. -/
theorem setupEntry_address {off : Nat} (hpa : pa % 4096 = 0) (hlt : pa < 2 ^ 32)
    (hoff : off < 4096) :
    pageframesToBytes (setupEntry pa flags).pageFrame ||| off = pa + off := by
  have haddr : pageframesToBytes (setupEntry pa flags).pageFrame = (pa / 4096) <<< 12 := by
    simp only [setupEntry, physicalToPageframe_eq, pageframesToBytes, u32, Nat.shiftLeft_eq]
    omega
  rw [haddr, ← Nat.shiftLeft_add_eq_or_of_lt hoff, Nat.shiftLeft_eq]
  omega

/-- Writing the entry of an ordinary page of a page table: what is looked up afterwards. -/
theorem DirectoryInv.lookup_setPte (hi : DirectoryInv d s) (hd : pd.At d s) (hva : s.Ordinary d va)
    (hal : va % 4096 = 0) (hpde : (s.pdeOf d va).present = true) :
    let s' := s.setEntry (s.pdeOf d va).tableFrame (pteIndex va) e
    (∀ off, off < 4096 → s'.lookup pd (va + off) =
      if e.present = true then some (pageframesToBytes e.pageFrame ||| off) else none) ∧
    SameElsewhere pd d va s s' := by
  intro s'
  have hslot := hva.2 hpde
  have hint : s'.tempInt = none := (setEntry_int fun h => hslot ⟨h.1, .inr h.2⟩).trans hi.int
  have hd' : pd.At d s' := hd.setEntry hslot
  have hpde' : ∀ va', s'.pdeOf d va' = s.pdeOf d va' := hi.pdeOf_setPte hva.1 hpde
  have hord : ∀ va', s.Ordinary d va' → s'.Ordinary d va' := by
    intro va' h
    rw [Ordinary, hpde' va']
    exact h
  constructor
  · intro off hoff
    obtain ⟨hindex, hpte, -⟩ := pdeIndex_add hal hoff
    have hva' : s.Ordinary d (va + off) := by
      rw [Ordinary, pdeOf, hindex, hpte]
      exact hva
    have hself : s'.pteOf d va = e := by
      rw [pteOf, hpde']
      exact entry_setEntry_self hslot
    rw [lookup_eq hd' hint (hord _ hva'), translate_add hal hoff, hself, hpde']
    simp only [hpde, true_and]
  · intro va' hva' hne
    rw [lookup_eq hd' hint (hord _ hva'), lookup_eq hd hi.int hva']
    exact hi.translate_setPte hva.1 hpde hva'.1 hne

/-- A new page table leaves the ordinary pages ordinary. -/
theorem NewTable.ordinary (h : NewTable d i t s s') (hva : s.Ordinary d va) : s'.Ordinary d va := by
  refine ⟨hva.1, fun hp => ?_⟩
  rw [pdeOf] at hp ⊢
  by_cases hindex : pdeIndex va = i
  · rw [hindex, h.own]
    exact fun hslot => h.ne_temp hslot.1
  · rw [h.other _ hindex] at hp ⊢
    exact hva.2 hp

/-- When it returns, `kpg_map` inserts. -/
theorem kpgMap_inserts (hi : DirectoryInv d s) (hd : pd.At d s) (hva : s.Ordinary d va)
    (hal : va % 4096 = 0) (hpa : pa % 4096 = 0) (hlt : pa < 2 ^ 32)
    (hflags : bitIsUnset flags pgMapFlagNotPresent = true)
    (h : kpgMap pd va pa flags s = .ok (b, s')) : Inserts pd d va pa b s s' := by
  have hlookup := lookup_eq hd hi.int hva
  rcases kpgMap_spec hi.pabOk hd hi.dir hi.temp h with ⟨rfl, herr, hfull⟩ |
    ⟨rfl, hpde, hpte, rfl⟩ | ⟨rfl, hpde, t, s₁, hfree, ht, hset, rfl⟩
  · obtain ⟨hpde, hpte⟩ := hfull hal hpa
    have hpresent : (s.pteOf d va).present = true :=
      hpte.resolve_right fun hslot => hva.2 hpde ⟨hslot.1, .inr hslot.2⟩
    refine ⟨iff_of_false (by simp) ?_, fun hb => (by cases hb), fun _ => herr,
      fun va' _ _ => OnlyErrorNumber.lookup herr hd hi.int va'⟩
    rw [hlookup, translate_eq_none_iff]
    exact not_not_intro ⟨hpde, hpresent⟩
  · obtain ⟨hself, hothers⟩ := hi.lookup_setPte (e := setupEntry pa flags) hd hva hal hpde
    refine ⟨iff_of_true rfl ?_, fun _ off hoff => ?_, fun hb => (by cases hb), hothers⟩
    · rw [hlookup, translate_eq_none_iff]
      rintro ⟨-, hpresent⟩
      rw [pteOf, pdeOf, hpte] at hpresent
      cases hpresent
    · refine (hself off hoff).trans ?_
      rw [if_pos (show (setupEntry pa flags).present = true from hflags),
        setupEntry_address hpa hlt hoff]
  · obtain ⟨hnew, hsame⟩ := hi.makesTable hpde hfree ht hset
    have htemp : t ≠ kernelPageTableFrame := by
      rintro rfl
      exact hi.temp hfree
    have htd : d ≠ t := by
      rintro rfl
      exact hi.dir.notFree hfree
    have hself : (withPageTable s₁ d (pdeIndex va) t flags).pdeOf d va =
        setupEntry (pageframesToBytes t) flags := withPageTable_dir hi.dir.not_isTempSlot
    have htable : ((withPageTable s₁ d (pdeIndex va) t flags).pdeOf d va).tableFrame = t := by
      rw [hself, setupEntry_tableFrame (by omega)]
    have hpresent : ((withPageTable s₁ d (pdeIndex va) t flags).pdeOf d va).present = true := by
      rw [hself]
      exact hflags
    have hord : ∀ va', s.Ordinary d va' →
      (withPageTable s₁ d (pdeIndex va) t flags).Ordinary d va' :=
      fun va' => (withPageTable_newTable hi.dir hi.temp hfree ht hset).ordinary
    have hd₂ : pd.At d (withPageTable s₁ d (pdeIndex va) t flags) := by
      refine PageDirectory.At.setEntry ?_ hi.dir.not_isTempSlot
      rw [hset.eq]
      exact hd
    have hkeep : ∀ va', s.Ordinary d va' →
        (withPageTable s₁ d (pdeIndex va) t flags).lookup pd va' = s.lookup pd va' := by
      intro va' hva'
      rw [lookup_eq hd₂ hnew.int (hord va' hva'), lookup_eq hd hi.int hva', hsame va' hva'.1]
    obtain ⟨hwritten, hothers⟩ := hnew.lookup_setPte (e := setupEntry pa flags) hd₂
      (hord va hva) hal
      hpresent
    rw [htable] at hwritten hothers
    refine ⟨iff_of_true rfl ?_, fun _ off hoff => ?_, fun hb => (by cases hb),
      fun va' hva' hne => ?_⟩
    · rw [hlookup, translate_eq_none_iff]
      rintro ⟨hp, -⟩
      rw [pdeOf, hpde] at hp
      cases hp
    · refine (hwritten off hoff).trans ?_
      rw [if_pos (show (setupEntry pa flags).present = true from hflags),
        setupEntry_address hpa hlt hoff]
    · rw [hothers va' (hord va' hva') hne, hkeep va' hva']

/-- When it returns, `kpg_unmap` removes. -/
theorem kpgUnmap_removes (hi : DirectoryInv d s) (hd : pd.At d s) (hva : s.Ordinary d va)
    (hal : va % 4096 = 0) (h : kpgUnmap pd va s = .ok (b, s')) : Removes pd d va b s s' := by
  have hlookup := lookup_eq hd hi.int hva
  rcases kpgUnmap_spec hd h with ⟨rfl, herr, hfull⟩ | ⟨rfl, hpde, hpte, rfl⟩
  · refine ⟨iff_of_false (by simp) ?_, fun hb => (by cases hb), fun _ => herr,
      fun va' _ _ => OnlyErrorNumber.lookup herr hd hi.int va'⟩
    rw [not_not, hlookup, translate_eq_none_iff]
    rintro ⟨hpde, hpte⟩
    have habsent := hfull hal hpde fun hslot => hva.2 hpde ⟨hslot.1, .inr hslot.2⟩
    exact absurd (hpte.symm.trans habsent) (by simp)
  · obtain ⟨hself, hothers⟩ :=
      hi.lookup_setPte (e := { s.pteOf d va with present := false }) hd hva hal
      hpde
    refine ⟨iff_of_true rfl ?_, fun _ off hoff => ?_, fun hb => (by cases hb), hothers⟩
    · rw [hlookup, ne_eq, translate_eq_none_iff]
      exact not_not_intro ⟨hpde, hpte⟩
    · exact (hself off hoff).trans (if_neg (by simp))

/-- `kpg_unmap` of an ordinary page returns. -/
theorem kpgUnmap_returns (hd : pd.At d s) (hint : s.tempInt = none) (hva : s.Ordinary d va)
    (hal : va % 4096 = 0) : ∃ b s', kpgUnmap pd va s = .ok (b, s') := by
  have hal' : ¬ isAligned va pageFrameSizeBytes = false := by
    rw [isAligned_page_iff.2 hal]
    simp
  have hnull : pd ≠ .null := hd.ne_null
  rw [kpgUnmap]
  simp only [kAssert, hnull, ne_eq, not_false_eq_true, if_true, pure_bind, if_neg hal']
  rw [readPde_bind hd, ← pdeOf]
  by_cases hpde : (s.pdeOf d va).present = false
  · rw [if_pos hpde]
    exact ⟨_, _, rfl⟩
  have hslot : ¬ IsIntSlot (s.pdeOf d va).tableFrame (pteIndex va) := fun hslot =>
    hva.2 (eq_true_of_ne_false hpde) ⟨hslot.1, .inr hslot.2⟩
  rw [if_neg hpde, openTable_bind hint, readPte_bind rfl]
  by_cases hpte : (({ s with tempInt := some (s.pdeOf d va).tableFrame } : KState).entry
      (s.pdeOf d va).tableFrame (pteIndex va)).present = false
  · rw [if_pos hpte, sInternalTemporaryUnmap_bind (by simp)]
    exact ⟨_, _, rfl⟩
  · have hframe : (frameOf (some (s.pdeOf d va).tableFrame) : K Nat) =
      pure (s.pdeOf d va).tableFrame :=
      rfl
    rw [if_neg hpte, get_bind_apply, hframe, pure_bind, modify_bind_apply,
      sInternalTemporaryUnmap_bind]
    · exact ⟨_, _, rfl⟩
    · rw [setEntry_int hslot]
      simp

/-- Addresses that are not those of pages are refused. -/
theorem kpgMap_unaligned (hd : pd.At d s) (h : va % 4096 ≠ 0 ∨ pa % 4096 ≠ 0) :
    kpgMap pd va pa flags s = .ok (false, { s with errorNumber := .errWrongAlignment }) := by
  have hal : isAligned va pageFrameSizeBytes = false ∨ isAligned pa pageFrameSizeBytes = false := by
    rcases h with h | h
    · exact .inl (eq_false_of_ne_true fun h' => h (isAligned_page_iff.1 h'))
    · exact .inr (eq_false_of_ne_true fun h' => h (isAligned_page_iff.1 h'))
  have hnull : pd ≠ .null := hd.ne_null
  rw [kpgMap]
  simp only [kAssert, hnull, ne_eq, not_false_eq_true, if_true, pure_bind, if_pos hal]
  rfl

/-- `kpg_unmap` refuses an address that is no page's. -/
theorem kpgUnmap_unaligned (hd : pd.At d s) (h : va % 4096 ≠ 0) :
    kpgUnmap pd va s = .ok (false, { s with errorNumber := .errWrongAlignment }) := by
  have hal : isAligned va pageFrameSizeBytes = false :=
    eq_false_of_ne_true fun h' => h (isAligned_page_iff.1 h')
  have hnull : pd ≠ .null := hd.ne_null
  rw [kpgUnmap]
  simp only [kAssert, hnull, ne_eq, not_false_eq_true, if_true, pure_bind, if_pos hal]
  rfl

/-- In every state that is reached from an empty user half, `kpg_doesMappingExists` looks up,
`kpg_map` inserts, unless the page frame for a page table is missing, and `kpg_unmap` removes; every
page of the user half is an ordinary one. -/
theorem kpg_partial_map (hr : MapRun d s) (hd : pd.At d s) :
    (∀ va, pdeIndex va < kernelPdeIndex → s.Ordinary d va) ∧
    (∀ va, kpgDoesMappingExists pd va s = .ok (s.lookup pd va, s)) ∧
    (∀ va pa flags, s.Ordinary d va → va % 4096 = 0 → pa % 4096 = 0 → pa < 2 ^ 32 →
      bitIsUnset flags pgMapFlagNotPresent = true →
      (∀ b s', kpgMap pd va pa flags s = .ok (b, s') → Inserts pd d va pa b s s') ∧
      ((∃ b s', kpgMap pd va pa flags s = .ok (b, s')) ↔ ¬ NoTableFor d s va)) ∧
    (∀ va, s.Ordinary d va → va % 4096 = 0 →
      ∃ b s', kpgUnmap pd va s = .ok (b, s') ∧ Removes pd d va b s s') ∧
    (∀ va pa flags, va % 4096 ≠ 0 ∨ pa % 4096 ≠ 0 →
      ∃ s', kpgMap pd va pa flags s = .ok (false, s') ∧ OnlyErrorNumber s s') ∧
    (∀ va, va % 4096 ≠ 0 → ∃ s', kpgUnmap pd va s = .ok (false, s') ∧ OnlyErrorNumber s s') := by
  have hi := hr.inv
  refine ⟨fun va => hi.ordinary, kpgDoesMappingExists_run hd hi.int,
    fun va pa flags hva hal hpa hlt hflags =>
      ⟨fun b s' h => kpgMap_inserts hi hd hva hal hpa hlt hflags h,
        kpgMap_returns_iff hi hd hal hpa⟩,
    fun va hva hal => ?_, fun va pa flags h => ⟨_, kpgMap_unaligned hd h, _, rfl⟩,
    fun va h => ⟨_, kpgUnmap_unaligned hd h, _, rfl⟩⟩
  obtain ⟨b, s', h⟩ := kpgUnmap_returns hd hi.int hva hal
  exact ⟨b, s', h, kpgUnmap_removes hi hd hva hal h⟩

/-- `emptyDirectory` with the recursive mapping, which shows each page table as a page. -/
def recursiveDirectory : KState :=
  emptyDirectory.setEntry 0x23 recursivePdeIndex ⟨true, true, false, false, false, 0x23⟩

/-- The same without a free page frame. -/
def fullDirectory : KState := { recursiveDirectory with pab.bitmap := fun _ => 0xAA }

/-- Below the recursive entry the directory is empty. -/
theorem recursiveDirectory_entry (hi : i < recursivePdeIndex) :
    recursiveDirectory.entry 0x23 i = Entry.zero :=
  entry_setEntry_of_ne fun h => absurd h.2 (Nat.ne_of_lt hi)

/-- It is one that a run may start from. -/
theorem recursiveDirectory_run : MapRun 0x23 recursiveDirectory := by
  have habsent : ∀ i, i < recursivePdeIndex → (recursiveDirectory.entry 0x23 i).present ≠ true := by
    intro i hi
    rw [recursiveDirectory_entry hi]
    simp [Entry.zero]
  exact .start ⟨⟨⟨rfl, rfl⟩, ⟨by decide, by decide⟩, by decide,
    fun i hi => by rw [recursiveDirectory_entry (lt_recursive hi)]; rfl,
    fun i hi hp => absurd hp (habsent i hi)⟩, rfl, fun i _ hi _ hp => absurd hp (habsent i hi)⟩

/-- So is that of a kernel without a free frame. -/
theorem fullDirectory_run : MapRun 0x23 fullDirectory := by
  have hentry : ∀ i, i < recursivePdeIndex → fullDirectory.entry 0x23 i = Entry.zero :=
    fun i hi => recursiveDirectory_entry hi
  have habsent : ∀ i, i < recursivePdeIndex → (fullDirectory.entry 0x23 i).present ≠ true := by
    intro i hi
    rw [hentry i hi]
    simp [Entry.zero]
  exact .start ⟨⟨⟨rfl, rfl⟩, ⟨by decide, by decide⟩, by decide,
    fun i hi => by rw [hentry i (lt_recursive hi)]; rfl,
    fun i hi hp => absurd hp (habsent i hi)⟩, rfl, fun i _ hi _ hp => absurd hp (habsent i hi)⟩

/-- A page is mapped in a directory with a recursive entry. -/
theorem kpg_partial_map_recursiveDirectory :
    ∃ b s', kpgMap .current 0x400000 0x44000 6 recursiveDirectory = .ok (b, s') ∧
      Inserts .current 0x23 0x400000 0x44000 b recursiveDirectory s' := by
  have hd : PageDirectory.current.At 0x23 recursiveDirectory := rfl
  have hmap : kpgMap .current 0x400000 0x44000 6 recursiveDirectory = .ok (true, _) :=
    eq_ok_of_value (by decide +kernel)
  obtain ⟨hord, -, hinserts, -⟩ := kpg_partial_map recursiveDirectory_run hd
  exact ⟨_, _, hmap, (hinserts 0x400000 0x44000 6 (hord _ (by decide)) (by decide) (by decide)
    (by decide) (by decide)).1 _ _ hmap⟩

/-- Mapping the page at 4 MB makes its page table appear in the recursive mapping, where nothing was
mapped; and without a free page frame the same call panics. -/
theorem recursive_page_appears :
    MapRun 0x23 recursiveDirectory ∧
    (∃ s', kpgMap .current 0x400000 0x44000 6 recursiveDirectory = .ok (true, s') ∧
      recursiveDirectory.lookup .current 0xFFC01000 = none ∧
      s'.lookup .current 0xFFC01000 = some 0x40000) ∧
    MapRun 0x23 fullDirectory ∧ fullDirectory.lookup .current 0x400000 = none ∧
    kpgMap .current 0x400000 0x44000 6 fullDirectory =
      .error (.panic "Memory allocation failed") := by
  have hmap : kpgMap .current 0x400000 0x44000 6 recursiveDirectory = .ok (true, _) :=
    eq_ok_of_value (by decide +kernel)
  have hpanic : (kpgMap .current 0x400000 0x44000 6 fullDirectory).map Prod.fst =
      .error (.panic "Memory allocation failed") := by
    decide +kernel
  refine ⟨recursiveDirectory_run, ⟨_, hmap, by decide +kernel, by decide +kernel⟩,
    fullDirectory_run,
    by decide +kernel, ?_⟩
  cases h : kpgMap .current 0x400000 0x44000 6 fullDirectory with
  | ok r => rw [h] at hpanic; cases hpanic
  | error e => rw [h] at hpanic; cases hpanic; rfl

end MeghaOS
