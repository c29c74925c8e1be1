import MeghaOS.Proof.FreeMemory
import MeghaOS.Proof.PartialMap
import MeghaOS.Proof.Booted

/-!
# The pages that `kvmm_free` releases

The loop of `kvmm_free` visits one page after another in the directory that is open through the
external temporary mapping. `freePage_cases` says what one turn does: nothing to a page
that is not mapped; and a page that is mapped leaves the map, and its page frame is freed, if the
address is that of the page and the frame is in use. `freePagesFrom_pagesFreed` is the same for the
pages of a list.
-/

namespace MeghaOS

open Exec KState

variable {s s' s₁ : KState} {d f i va va' n pa : Nat} {ok : Bool} {e : Entry} {l : List Nat}

/-! ## One page frame -/

/-- A call of `kpmm_free` that fails sets the error number. -/
theorem kpmmFree_errorNumber {count : Nat} (hs : PabOk s) (hpa : pa < 2 ^ 32)
    (h : kpmmFree pa count s = .ok (false, s')) : s'.errorNumber ≠ .errNone := by
  rw [kpmmFree, kernelPhaseValidate_bind_eq_ok] at h
  rcases ite_eq_ok.1 h.2 with ⟨-, h⟩ | ⟨-, h⟩
  · obtain ⟨-, rfl⟩ := returnError_eq_ok.1 h
    simp
  rw [get_bind_apply] at h
  rcases ite_eq_ok.1 h with ⟨-, h⟩ | ⟨-, h⟩
  · obtain ⟨-, rfl⟩ := returnError_eq_ok.1 h
    simp
  rcases ite_eq_ok.1 h with ⟨-, h⟩ | ⟨-, h⟩
  · obtain ⟨-, rfl⟩ := returnError_eq_ok.1 h
    simp
  · rw [startPageFrame_eq hpa] at h
    exact absurd (pabSetContinous_spec hs (by omega) h).1 (by simp)

/-- The page frame is in use and inside the usable memory. -/
def KState.Releasable (s : KState) (f : Nat) : Prop :=
  s.frameState f = pmmStateUsed ∧ f < kpmmGetUsableMemoryPagesCount s

instance : Decidable (s.Releasable f) := inferInstanceAs (Decidable (_ ∧ _))

/-- `kpmm_free` of one page frame succeeds if and only if the frame can be released. -/
theorem kpmmFree_page_iff (hs : PabOk s) (hphase : s.phase.check .pmmReady = true)
    (hf : f < 2 ^ 20) :
    (∃ s', kpmmFree (f * 4096) 1 s = .ok (true, s') ∧ SetFrames s s' f 1 pmmStateFree) ↔
      s.Releasable f := by
  have hlt : f * 4096 < 2 ^ 32 := by omega
  have hdiv : f * 4096 / 4096 = f := Nat.mul_div_cancel f (by decide)
  constructor
  · rintro ⟨s', h, hset⟩
    rcases kpmmFree_spec hs hlt h with ⟨hok, -⟩ | ⟨-, hset', hused⟩
    · cases hok
    rw [hdiv] at hset' hused
    have hend := PmmCall.le_usablePages (s := s) hlt Nat.one_pos (by rw [hdiv]; exact hset'.inside)
      (PmmCall.kpmmFree_end h)
    rw [hdiv] at hend
    exact ⟨hused f (Nat.le_refl f) (Nat.lt_succ_self f), hend⟩
  · rintro ⟨hused, husable⟩
    have hcap := hs.capacity
    have hle := usablePages_le s
    have hmax : pmmStateFree < s.pab.maxState := by
      rw [Bitmap.maxState, hs.bitsPerState]
      decide
    have hallowed : ∀ j, f ≤ j → j < f + 1 →
        sVerifyChange s j (s.pab.stateAt j) pmmStateFree = .ok true := by
      intro j h1 h2
      obtain rfl : j = f := by omega
      have hold : s.pab.stateAt j = pmmStateUsed := hused
      rw [hold, sVerifyChange, if_neg (by omega), if_neg (by decide), if_neg (by decide),
        if_neg (by simp), if_neg (by decide)]
    obtain ⟨pab, hset⟩ := bitmapSetContinous_of_allowed hs.packed hmax (by omega) Nat.one_pos
      (show f + 1 ≤ s.pab.capacity by omega) hallowed
    have hrun : pabSetContinous f 1 pmmStateFree s = .ok (true, { s with pab }) := by
      simp only [pabSetContinous, get_bind_apply, lift_bind_eq_ok, set_bind_apply, pure_apply]
      exact ⟨_, hset, rfl⟩
    have hsize : kpmmGetUsableMemoryPagesCount s = kpmmGetUsableMemorySize s / 4096 :=
      startPageFrame_eq (Nat.lt_of_le_of_lt (Nat.min_le_right _ _) (by decide))
    have hend : u32Sub (f * 4096 + u32 (1 * pageFrameSizeBytes)) 1 < kpmmGetUsableMemorySize s := by
      simp only [u32, u32Sub, pageFrameSizeBytes]
      omega
    refine ⟨_, ?_, (pabSetContinous_spec hs (by omega) hrun).2.1⟩
    refine kernelPhaseValidate_bind_eq_ok.2 ⟨hphase, ?_⟩
    rw [if_neg (by decide), get_bind_apply, if_neg (Nat.not_le_of_lt hend),
      if_neg (by rw [isAligned_page_iff.2 (by omega)]; decide), startPageFrame_eq hlt, hdiv]
    exact hrun

/-! ## The open directory -/

/-- The directory at frame `d` is open through the external temporary mapping. Its entries lead to
page tables of their own, apart from the directory, to which the last entry leads. -/
structure OpenDirectory (d : Nat) (s : KState) : Prop where
  pabOk : PabOk s
  phase : s.phase.check .pmmReady = true
  ext : s.tempExt = some d
  int : s.tempInt = none
  dir : d ≠ kernelPageTableFrame
  tables : ∀ i, i < recursivePdeIndex → (s.entry d i).present = true → (s.entry d i).tableFrame ≠ d
  distinct : ∀ i j, i < recursivePdeIndex → j < recursivePdeIndex → (s.entry d i).present = true →
    (s.entry d j).present = true → (s.entry d i).tableFrame = (s.entry d j).tableFrame → i = j
  recursive : (s.entry d recursivePdeIndex).present = true →
    (s.entry d recursivePdeIndex).tableFrame = d

/-- The entry of a page that is read while its page table is open. -/
def KState.seenPte (s : KState) (d va : Nat) : Entry :=
  KState.entry { s with tempInt := some (s.pdeOf d va).tableFrame }
    (s.pdeOf d va).tableFrame (pteIndex va)

/-- The state without the entry of a page. -/
def KState.dropPte (s : KState) (d va : Nat) : KState :=
  s.setEntry (s.pdeOf d va).tableFrame (pteIndex va) { s.pteOf d va with present := false }

/-- What `kpg_doesMappingExists` reports of any page of the open directory. -/
theorem lookup_opened (hext : s.tempExt = some d) (hint : s.tempInt = none) (va : Nat) :
    s.lookup .temp va = if (s.pdeOf d va).present = true ∧ (s.seenPte d va).present = true then
      some (pageframesToBytes (s.seenPte d va).pageFrame ||| pageOffset va) else none := by
  have hd : PageDirectory.temp.At d s := hext
  rw [lookup, kpgDoesMappingExists_eq hd hint]
  by_cases hp : (s.pdeOf d va).present = true
  · simp only [hp, if_true, true_and]
    rfl
  · simp [hp]

/-- A slot that is empty may be emptied. -/
theorem with_closed (h : s.tempInt = none) : ({ s with tempInt := none } : KState) = s := by
  rw [← h]

/-- What the open directory maps depends on the entries alone. -/
theorem lookup_congr (hext : s.tempExt = some d) (hint : s.tempInt = none)
    (hext' : s'.tempExt = some d)
    (hint' : s'.tempInt = none) (hmem : s'.mem = s.mem) :
    s'.lookup .temp va = s.lookup .temp va := by
  have hentry : ∀ (y : Option Nat) f j, ({ s' with tempInt := y } : KState).entry f j =
      ({ s with tempInt := y } : KState).entry f j := fun y f j =>
    entry_congr (congrFun (congrFun hmem f) j) (hext'.trans hext.symm) rfl
  have hpde : s'.pdeOf d va = s.pdeOf d va := by
    have heq := hentry none d (pdeIndex va)
    rw [with_closed hint', with_closed hint] at heq
    exact heq
  rw [lookup_opened hext hint, lookup_opened hext' hint', seenPte, hpde, hentry, seenPte]

/-- Whether an address is mapped depends on its page alone. -/
theorem lookup_page_none (hext : s.tempExt = some d) (hint : s.tempInt = none)
    (hpage : va' / 4096 = va / 4096) (hnone : s.lookup .temp va = none) :
      s.lookup .temp va' = none := by
  have hpde : pdeIndex va' = pdeIndex va := by
    unfold pdeIndex
    omega
  have hpte : pteIndex va' = pteIndex va := by
    unfold pteIndex
    omega
  rw [lookup_opened hext hint, ite_eq_right_iff] at hnone
  rw [lookup_opened hext hint, seenPte, pdeOf, hpde, hpte]
  refine if_neg fun hp => ?_
  cases hnone hp

namespace OpenDirectory

/-- The directory is the one that is open. -/
theorem at_temp (h : OpenDirectory d s) : PageDirectory.temp.At d s := h.ext

/-- The lookup in the open directory, by the entries it sees. -/
theorem lookup_temp (h : OpenDirectory d s) (va : Nat) :
    s.lookup .temp va = if (s.pdeOf d va).present = true ∧ (s.seenPte d va).present = true then
      some (pageframesToBytes (s.seenPte d va).pageFrame ||| pageOffset va) else none :=
  lookup_opened h.ext h.int va

/-- The addresses of one page are mapped together. -/
theorem lookup_none (h : OpenDirectory d s) (hpage : va' / 4096 = va / 4096)
    (hnone : s.lookup .temp va = none) : s.lookup .temp va' = none :=
  lookup_page_none h.ext h.int hpage hnone

/-- A page is mapped when both its entries are there. -/
theorem mapped_iff (h : OpenDirectory d s) :
    s.lookup .temp va ≠ none ↔ (s.pdeOf d va).present = true ∧ (s.seenPte d va).present = true := by
  rw [h.lookup_temp]
  split
  · rename_i hp
    exact iff_of_true (by simp) hp
  · rename_i hp
    exact iff_of_false (by simp) hp

/-- Outside the internal temporary mapping the entry is the one in the page table. -/
theorem seenPte_eq (hslot : ¬ IsIntSlot (s.pdeOf d va).tableFrame (pteIndex va)) :
    s.seenPte d va = s.pteOf d va := entry_tempInt hslot _

/-- The directory stays open when entries are taken away, outside the temporary mappings. -/
theorem congr (h : OpenDirectory d s) (hpab : PabOk s') (hphase : s'.phase = s.phase)
    (hext : s'.tempExt = s.tempExt) (hint : s'.tempInt = none)
    (hentries : ∀ i, s'.entry d i = s.entry d i ∨ (s'.entry d i).present = false) :
    OpenDirectory d s' where
  pabOk := hpab
  phase := hphase ▸ h.phase
  ext := hext.trans h.ext
  int := hint
  dir := h.dir
  tables i hi hp := by
    rcases hentries i with heq | habs
    · rw [heq] at hp ⊢
      exact h.tables i hi hp
    · rw [habs] at hp
      cases hp
  distinct i j hi hj hp hp' := by
    rcases hentries i with heq | habs
    · rcases hentries j with heq' | habs
      · rw [heq] at hp ⊢
        rw [heq'] at hp' ⊢
        exact h.distinct i j hi hj hp hp'
      · rw [habs] at hp'
        cases hp'
    · rw [habs] at hp
      cases hp
  recursive hp := by
    rcases hentries recursivePdeIndex with heq | habs
    · rw [heq] at hp ⊢
      exact h.recursive hp
    · rw [habs] at hp
      cases hp

end OpenDirectory

/-! ## One page -/

/-- Writing an entry changes only what the paging code may change. -/
theorem setEntry_nonPaging : (s.setEntry d i e).nonPaging = s.nonPaging := by
  rcases setEntry_cases s d i e with ⟨-, x, h⟩ | ⟨-, x, h⟩ | ⟨-, h⟩ <;> rw [h] <;> rfl

/-- It leaves the phase. -/
theorem setEntry_phase : (s.setEntry d i e).phase = s.phase := by
  show (s.setEntry d i e).nonPaging.phase = s.nonPaging.phase
  rw [setEntry_nonPaging]

/-- The page frames of the usable memory do not depend on the entries. -/
theorem usablePages_congr (h : s'.nonPaging = s.nonPaging) :
    kpmmGetUsableMemoryPagesCount s' = kpmmGetUsableMemoryPagesCount s := by
  have hmap : s'.bootMemoryMap = s.bootMemoryMap := by
    show s'.nonPaging.bootMemoryMap = s.nonPaging.bootMemoryMap
    rw [h]
  rw [kpmmGetUsableMemoryPagesCount, kpmmGetUsableMemorySize, hmap]
  rfl

/-- Dropping an entry changes no frame. -/
theorem releasable_dropPte : (s.dropPte d va).Releasable f ↔ s.Releasable f := by
  rw [Releasable, dropPte, setEntry_frameState, usablePages_congr setEntry_nonPaging, Releasable]

/-- A mapped page leaves the map and its page frame is freed. -/
structure PageFreed (d va f : Nat) (s s' : KState) : Prop where
  aligned : va % 4096 = 0
  mapped : s.lookup .temp va = some (f * 4096)
  present : (s.pdeOf d va).present = true ∧ (s.pteOf d va).present = true
  releasable : s.Releasable f
  set : SetFrames (s.dropPte d va) s' f 1 pmmStateFree

/-- A call of `kpg_unmap` that fails sets the error number. -/
theorem kpgUnmap_errorNumber {pd : PageDirectory} (hd : pd.At d s)
    (h : kpgUnmap pd va s = .ok (false, s')) : s'.errorNumber ≠ .errNone := by
  rw [kpgUnmap, kAssert_bind_eq_ok] at h
  rcases ite_eq_ok.1 h.2 with ⟨-, h⟩ | ⟨-, h⟩
  · obtain ⟨-, rfl⟩ := returnError_eq_ok.1 h
    simp
  rw [readPde_bind hd] at h
  rcases ite_eq_ok.1 h with ⟨-, h⟩ | ⟨-, h⟩
  · obtain ⟨-, rfl⟩ := returnError_eq_ok.1 h
    simp
  obtain ⟨-, h⟩ := openTable_bind_eq_ok.1 h
  rw [readPte_bind rfl] at h
  generalize (s.entry d (pdeIndex va)).tableFrame = t at h
  rcases ite_eq_ok.1 h with ⟨-, h⟩ | ⟨-, h⟩
  · obtain ⟨-, h⟩ := sInternalTemporaryUnmap_bind_eq_ok.1 h
    obtain ⟨-, rfl⟩ := returnError_eq_ok.1 h
    simp
  · have hframe : (frameOf (some t) : K Nat) = pure t := rfl
    rw [get_bind_apply, hframe, pure_bind, modify_bind_apply] at h
    obtain ⟨-, h⟩ := sInternalTemporaryUnmap_bind_eq_ok.1 h
    cases h

/-- The address behind a page is that of the frame in its entry. -/
theorem pageframesToBytes_or_zero (n : Nat) : pageframesToBytes n ||| 0 = n % 2 ^ 20 * 4096 := by
  rw [Nat.or_zero, pageframesToBytes, u32, Nat.shiftLeft_eq]
  omega

/-- A turn of the loop of `kvmm_free` finds the page not mapped, or frees it. -/
theorem freePage_cases (h : OpenDirectory d s) (hrun : freePage .temp 0 va s = .ok ((), s')) :
    (s.lookup .temp va = none ∧ s' = s) ∨ ∃ f, PageFreed d va f s s' := by
  rw [freePage, bind_of_ok (kpgDoesMappingExists_run h.at_temp h.int va)] at hrun
  cases hlookup : s.lookup .temp va with
  | none =>
    rw [hlookup] at hrun
    cases hrun
    exact .inl ⟨rfl, rfl⟩
  | some pa =>
    rw [hlookup] at hrun
    dsimp only at hrun
    obtain ⟨unmapped, s₁, hunmap, hrun⟩ := bind_eq_ok.1 hrun
    cases unmapped with
    | false =>
      rw [when_true rfl] at hrun
      exact absurd (kPanicOnError_bind_eq_ok.1 hrun).1 (kpgUnmap_errorNumber h.at_temp hunmap)
    | true =>
      have hal := kpgUnmap_aligned hunmap
      rcases kpgUnmap_spec h.at_temp hunmap with ⟨hno, -⟩ | ⟨-, hpde, hpte, rfl⟩
      · cases hno
      change (s.pdeOf d va).present = true at hpde
      change (s.pteOf d va).present = true at hpte
      have hslot : ¬ IsIntSlot (s.pdeOf d va).tableFrame (pteIndex va) := fun hslot => by
        rw [pteOf, entry_intSlot hslot, h.int] at hpte
        cases hpte
      have hoffset : pageOffset va = 0 := hal
      obtain rfl : pa = (s.pteOf d va).pageFrame % 2 ^ 20 * 4096 := by
        have hlook := h.lookup_temp va
        rw [OpenDirectory.seenPte_eq hslot, if_pos ⟨hpde, hpte⟩, hoffset, pageframesToBytes_or_zero,
          hlookup] at hlook
        exact Option.some.inj hlook
      have hlt : (s.pteOf d va).pageFrame % 2 ^ 20 < 2 ^ 20 := Nat.mod_lt _ (by decide)
      generalize (s.pteOf d va).pageFrame % 2 ^ 20 = f at hlookup hrun hlt
      have hpab : PabOk (s.dropPte d va) := h.pabOk.congr setEntry_pab
      rw [when_false (by simp), pure_bind] at hrun
      have howns : ownsFrames 0 (s.dropPte d va) = .ok (true, s.dropPte d va) := rfl
      change (ownsFrames 0 >>= _) (s.dropPte d va) = _ at hrun
      rw [bind_of_ok howns, if_pos rfl] at hrun
      obtain ⟨freed, s₂, hfree, hrun⟩ := bind_eq_ok.1 hrun
      cases freed with
      | false =>
        rw [when_true rfl, ← bind_pure kPanicOnError] at hrun
        exact absurd (kPanicOnError_bind_eq_ok.1 hrun).1
          (kpmmFree_errorNumber hpab (by omega) hfree)
      | true =>
        rw [when_false (by simp)] at hrun
        cases hrun
        rcases kpmmFree_spec hpab (by omega) hfree with ⟨hno, -⟩ | ⟨-, hset, -⟩
        · cases hno
        rw [Nat.mul_div_cancel f (by decide)] at hset
        have hrel := (kpmmFree_page_iff hpab (setEntry_phase.symm ▸ h.phase) hlt).1 ⟨_, hfree, hset⟩
        exact .inr ⟨f, hal, hlookup, ⟨hpde, hpte⟩, releasable_dropPte.1 hrel, hset⟩

/-! ## The entry that is dropped -/

/-- The entry `i` of the page table at frame `t` is not present any more, and no other one
changed. -/
structure EntryDropped (t i : Nat) (s s' : KState) : Prop where
  slot : ¬ IsTempSlot t i
  mem : ∀ f j, ¬ (f = t ∧ j = i) → s'.mem f j = s.mem f j
  absent : (s'.mem t i).present = false
  ext : s'.tempExt = s.tempExt

namespace EntryDropped

/-- Another entry is read as before, whatever page table is open. -/
theorem entry_of_ne {f j : Nat} (h : EntryDropped t i s s') (hne : ¬ (f = t ∧ j = i))
    (x : Option Nat) :
    ({ s' with tempInt := x } : KState).entry f j = ({ s with tempInt := x } : KState).entry f j :=
  entry_congr (h.mem f j hne) h.ext rfl

/-- The entry that was dropped is gone. -/
theorem entry_self (h : EntryDropped t i s s') (x : Option Nat) :
    (({ s' with tempInt := x } : KState).entry t i).present = false := by
  rw [entry_mem h.slot]
  exact h.absent

/-- An entry that is still present is read as before. -/
theorem entry_eq {f j : Nat} {x : Option Nat} (h : EntryDropped t i s s')
    (hp : (({ s' with tempInt := x } : KState).entry f j).present = true) :
    ({ s' with tempInt := x } : KState).entry f j =
    ({ s with tempInt := x } : KState).entry f j := by
  refine h.entry_of_ne (fun heq => ?_) x
  obtain ⟨rfl, rfl⟩ := heq
  rw [h.entry_self x] at hp
  cases hp

/-- A page that is still mapped is mapped as before. -/
theorem lookup_eq (h : EntryDropped t i s s') (hs : OpenDirectory d s) (hs' : OpenDirectory d s')
    (hmapped : s'.lookup .temp va ≠ none) : s'.lookup .temp va = s.lookup .temp va := by
  obtain ⟨hpde, hpte⟩ := hs'.mapped_iff.1 hmapped
  have hpdeEq : s'.pdeOf d va = s.pdeOf d va := by
    have heq : ({ s' with tempInt := none } : KState).entry d (pdeIndex va) =
        ({ s with tempInt := none } : KState).entry d (pdeIndex va) :=
      h.entry_eq (by rw [with_closed hs'.int]; exact hpde)
    rw [with_closed hs'.int, with_closed hs.int] at heq
    exact heq
  have hpteEq : s'.seenPte d va = s.seenPte d va := by
    have heq := h.entry_eq hpte
    rw [seenPte, heq, hpdeEq, seenPte]
  rw [hs.lookup_temp, hs'.lookup_temp, hpteEq, hpdeEq]

end EntryDropped

/-- The turn took the entry of its page away, if the external mapping is still open behind it. -/
theorem PageFreed.entryDropped (h : PageFreed d va f s s') (hs : OpenDirectory d s)
    (hext : s'.tempExt ≠ none) :
    EntryDropped (s.pdeOf d va).tableFrame (pteIndex va) s s' := by
  have heq := h.set.eq
  have hslot : ¬ IsTempSlot (s.pdeOf d va).tableFrame (pteIndex va) := by
    rintro ⟨ht, hi | hi⟩
    · refine hext ?_
      rw [heq, dropPte]
      exact (setEntry_extSlot ⟨ht, hi⟩).trans (if_neg (by simp))
    · have hpte := h.present.2
      rw [pteOf, entry_intSlot ⟨ht, hi⟩, hs.int] at hpte
      cases hpte
  have hmem : s'.mem = (s.dropPte d va).mem := by rw [heq]
  refine ⟨hslot, fun g j hne => ?_, ?_, ?_⟩
  · rw [hmem, dropPte, setEntry_mem hslot]
    exact if_neg hne
  · rw [hmem, dropPte, setEntry_mem hslot]
    simp
  · rw [heq, dropPte, setEntry_mem hslot]

/-- The directory is still open behind a turn that left the external mapping open. -/
theorem PageFreed.openDirectory (h : PageFreed d va f s s') (hs : OpenDirectory d s)
    (hext : s'.tempExt ≠ none) : OpenDirectory d s' := by
  have hdrop := h.entryDropped hs hext
  have heq := h.set.eq
  have hint : s'.tempInt = none := by
    rw [heq, dropPte, setEntry_mem hdrop.slot]
    exact hs.int
  have hphase : s'.phase = s.phase := by
    rw [heq, dropPte]
    exact setEntry_phase
  refine hs.congr (h.set.pabOk (hs.pabOk.congr setEntry_pab)) hphase hdrop.ext hint fun i => ?_
  by_cases hself : d = (s.pdeOf d va).tableFrame ∧ i = pteIndex va
  · refine .inr ?_
    have habs := hdrop.entry_self s'.tempInt
    rw [← hself.1, ← hself.2] at habs
    exact habs
  · refine .inl ?_
    have hkeep := hdrop.entry_of_ne hself none
    rw [with_closed hint, with_closed hs.int] at hkeep
    exact hkeep

/-- A page that the turn frees is not mapped behind it, nor is another address in it. -/
theorem PageFreed.lookup_self (h : PageFreed d va f s s') (hs : OpenDirectory d s)
    (hext : s'.tempExt ≠ none) (hpage : va' / 4096 = va / 4096) : s'.lookup .temp va' = none := by
  have hdrop := h.entryDropped hs hext
  have hs' := h.openDirectory hs hext
  have hpde : pdeIndex va' = pdeIndex va := by
    unfold pdeIndex
    omega
  have hpte : pteIndex va' = pteIndex va := by
    unfold pteIndex
    omega
  by_contra hmapped
  have hsame := hdrop.lookup_eq hs hs' hmapped
  obtain ⟨h1, h2⟩ := hs'.mapped_iff.1 hmapped
  have hpdeEq : s'.pdeOf d va' = s.pdeOf d va := by
    have hentry := hdrop.entry_eq (x := none) (f := d) (j := pdeIndex va')
    rw [with_closed hs'.int, with_closed hs.int, hpde] at hentry
    rw [pdeOf, hpde, pdeOf]
    exact hentry (by rw [← hpde]; exact h1)
  rw [seenPte, hpdeEq, hpte, hdrop.entry_self] at h2
  cases h2

/-- Below the recursive mapping, the turn changes no entry of the directory. -/
theorem PageFreed.pdeOf_eq (h : PageFreed d va f s s') (hs : OpenDirectory d s)
    (hext : s'.tempExt ≠ none) (hlt : pdeIndex va < recursivePdeIndex) (va' : Nat) :
    s'.pdeOf d va' = s.pdeOf d va' := by
  have hkeep := (h.entryDropped hs hext).entry_of_ne (f := d) (j := pdeIndex va')
    (fun heq => hs.tables _ hlt h.present.1 heq.1.symm) none
  rw [with_closed (h.openDirectory hs hext).int, with_closed hs.int] at hkeep
  exact hkeep

/-- Below the recursive mapping, the pages other than that of the turn are mapped as before. -/
theorem PageFreed.lookup_of_ne (h : PageFreed d va f s s') (hs : OpenDirectory d s)
    (hext : s'.tempExt ≠ none) (hlt : pdeIndex va < recursivePdeIndex) (hva' : va' < 2 ^ 32)
    (hne : va' / 4096 ≠ va / 4096) : s'.lookup .temp va' = s.lookup .temp va' := by
  have hdrop := h.entryDropped hs hext
  have hs' := h.openDirectory hs hext
  have htable := hs.tables _ hlt h.present.1
  have hpdeEq := h.pdeOf_eq hs hext hlt va'
  by_cases hp : (s.pdeOf d va').present = true
  · have hpteEq : s'.seenPte d va' = s.seenPte d va' := by
      rw [seenPte, seenPte, hpdeEq]
      refine hdrop.entry_of_ne (fun heq => ?_) _
      obtain ⟨hframe, hindex⟩ := heq
      by_cases hlt' : pdeIndex va' < recursivePdeIndex
      · have hsame := hs.distinct _ _ hlt' hlt hp h.present.1 hframe
        unfold pdeIndex at hsame
        unfold pteIndex at hindex
        omega
      · have hrec : pdeIndex va' = recursivePdeIndex := by
          unfold pdeIndex at hlt' ⊢
          simp only [recursivePdeIndex] at hlt' ⊢
          omega
        rw [pdeOf, hrec] at hp hframe
        exact htable (hframe.symm.trans (hs.recursive hp))
    rw [hs.lookup_temp, hs'.lookup_temp, hpteEq, hpdeEq]
  · rw [hs.lookup_temp, hs'.lookup_temp, if_neg fun hm => hp (hpdeEq ▸ hm.1),
      if_neg fun hm => hp hm.1]

/-! ## A turn -/

/-- A turn can free the page of the address, or finds it not mapped. -/
def KState.Freeable (s : KState) (d va : Nat) : Prop :=
  ∀ pa, s.lookup .temp va = some pa →
    va % 4096 = 0 ∧ ¬ IsTempSlot (s.pdeOf d va).tableFrame (pteIndex va) ∧ s.Releasable (pa / 4096)

/-- A turn that returns with the external mapping open found the page freeable. -/
theorem freeable_of_freePage (h : OpenDirectory d s) (hrun : freePage .temp 0 va s = .ok ((), s'))
    (hext : s'.tempExt ≠ none) : s.Freeable d va := by
  intro pa hpa
  rcases freePage_cases h hrun with ⟨hnone, -⟩ | ⟨f, hf⟩
  · rw [hnone] at hpa
    cases hpa
  · obtain rfl : f * 4096 = pa := Option.some.inj (hf.mapped.symm.trans hpa)
    rw [Nat.mul_div_cancel f (by decide)]
    exact ⟨hf.aligned, (hf.entryDropped h hext).slot, hf.releasable⟩

/-- A turn returns when the page is freeable, and leaves the external mapping open. -/
theorem freePage_returns (h : OpenDirectory d s)
    (hlt : s.lookup .temp va ≠ none → pdeIndex va < recursivePdeIndex) (hva : s.Freeable d va) :
    ∃ s', freePage .temp 0 va s = .ok ((), s') ∧ s'.tempExt ≠ none := by
  have hopen : s.tempExt ≠ none := by
    rw [h.ext]
    simp
  rw [freePage, bind_of_ok (kpgDoesMappingExists_run h.at_temp h.int va)]
  cases hlookup : s.lookup .temp va with
  | none => exact ⟨s, rfl, hopen⟩
  | some pa =>
    obtain ⟨hal, hslot, hrel⟩ := hva pa hlookup
    have hord : s.Ordinary d va := ⟨hlt (by simp [hlookup]), fun _ => hslot⟩
    have htrans : s.translate d va = some pa := (lookup_eq h.at_temp h.int hord).symm.trans hlookup
    obtain ⟨hpde, hpte⟩ : (s.pdeOf d va).present = true ∧ (s.pteOf d va).present = true := by
      by_contra hno
      rw [translate_eq_none_iff.2 hno] at htrans
      cases htrans
    obtain ⟨unmapped, s₁, hunmap⟩ := kpgUnmap_returns h.at_temp h.int hord hal
    rcases kpgUnmap_spec h.at_temp hunmap with ⟨-, -, hfull⟩ | ⟨rfl, -, -, rfl⟩
    · have habs := hfull hal hpde fun hint => hslot ⟨hint.1, .inr hint.2⟩
      exact absurd (hpte.symm.trans habs) (by simp)
    change kpgUnmap .temp va s = .ok (true, s.dropPte d va) at hunmap
    have hf : pa = (s.pteOf d va).pageFrame % 2 ^ 20 * 4096 := by
      rw [KState.translate, if_pos ⟨hpde, hpte⟩, show pageOffset va = 0 from hal,
        pageframesToBytes_or_zero]
        at htrans
      exact (Option.some.inj htrans).symm
    have hlt20 : (s.pteOf d va).pageFrame % 2 ^ 20 < 2 ^ 20 := Nat.mod_lt _ (by decide)
    generalize (s.pteOf d va).pageFrame % 2 ^ 20 = f at hf hlt20
    subst hf
    rw [Nat.mul_div_cancel f (by decide)] at hrel
    have hpab : PabOk (s.dropPte d va) := h.pabOk.congr setEntry_pab
    obtain ⟨s₂, hfree, hset⟩ := (kpmmFree_page_iff hpab (setEntry_phase.symm ▸ h.phase) hlt20).2
      (releasable_dropPte.2 hrel)
    have howns : ownsFrames 0 (s.dropPte d va) = .ok (true, s.dropPte d va) := rfl
    dsimp only
    rw [bind_of_ok hunmap, when_false (by simp), pure_bind, bind_of_ok howns, if_pos rfl,
      bind_of_ok hfree, when_false (by simp)]
    refine ⟨s₂, rfl, ?_⟩
    rw [hset.eq, dropPte, setEntry_mem hslot]
    exact hopen

/-! ## The loop -/

/-- The addresses that the loop of `kvmm_free` visits. -/
def visitedAddresses : Nat → Nat → List Nat
  | 0, _ => []
  | n + 1, va => va :: visitedAddresses n (u32 (va + pageFrameSizeBytes))

/-- The pages of the addresses are not mapped any more, and their page frames are free; nothing else
changed. -/
structure PagesFreed (d : Nat) (l : List Nat) (s s' : KState) : Prop where
  openDirectory : OpenDirectory d s'
  nonPaging : s'.nonPaging = s.nonPaging
  pdeOf : ∀ va, s'.pdeOf d va = s.pdeOf d va
  self : ∀ va ∈ l, ∀ va', va' / 4096 = va / 4096 → s'.lookup .temp va' = none
  others : ∀ va', va' < 2 ^ 32 → (∀ va ∈ l, va' / 4096 ≠ va / 4096) →
    s'.lookup .temp va' = s.lookup .temp va'
  frameState : ∀ f, s'.frameState f =
    if ∃ va ∈ l, s.lookup .temp va = some (f * 4096) then pmmStateFree else s.frameState f

/-- The loop can free the pages of the addresses. -/
structure KState.AllFreeable (s : KState) (d : Nat) (l : List Nat) : Prop where
  each : ∀ va ∈ l, s.Freeable d va
  distinct : l.Pairwise fun va va' => s.lookup .temp va ≠ none → s.lookup .temp va ≠
    s.lookup .temp va'

/-- The address behind a page is that of a page frame. -/
theorem OpenDirectory.lookup_aligned (h : OpenDirectory d s) (hal : va % 4096 = 0)
    (hpa : s.lookup .temp va = some pa) : pa % 4096 = 0 := by
  rw [h.lookup_temp] at hpa
  split at hpa
  · rw [show pageOffset va = 0 from hal, pageframesToBytes_or_zero] at hpa
    cases hpa
    exact Nat.mul_mod_left _ _
  · cases hpa

/-- What a turn does, at a page below the recursive mapping. -/
theorem freePage_pagesFreed (h : OpenDirectory d s)
    (hlt : s.lookup .temp va ≠ none → pdeIndex va < recursivePdeIndex)
    (hrun : freePage .temp 0 va s = .ok ((), s')) (hext : s'.tempExt ≠ none) :
    PagesFreed d [va] s s' := by
  rcases freePage_cases h hrun with ⟨hnone, rfl⟩ | ⟨f, hf⟩
  · refine ⟨h, rfl, fun _ => rfl, fun x hx va' hpage => ?_, fun _ _ _ => rfl, fun f => ?_⟩
    · obtain rfl := List.mem_singleton.1 hx
      exact h.lookup_none hpage hnone
    · rw [if_neg]
      rintro ⟨x, hx, hmapped⟩
      obtain rfl := List.mem_singleton.1 hx
      rw [hnone] at hmapped
      cases hmapped
  · have hlt' := hlt (by rw [hf.mapped]; simp)
    refine ⟨hf.openDirectory h hext, freePage_fixes _ _ _ _ _ _ hrun, hf.pdeOf_eq h hext hlt',
      fun x hx va' hpage => ?_,
      fun va' hva' hne => hf.lookup_of_ne h hext hlt' hva' (hne va (List.mem_singleton_self va)),
      fun g => ?_⟩
    · obtain rfl := List.mem_singleton.1 hx
      exact hf.lookup_self h hext hpage
    · rw [hf.set.frameState g, dropPte, setEntry_frameState]
      refine if_congr ?_ rfl rfl
      constructor
      · intro hg
        obtain rfl : g = f := by omega
        exact ⟨va, List.mem_singleton_self va, hf.mapped⟩
      · rintro ⟨x, hx, hmapped⟩
        obtain rfl := List.mem_singleton.1 hx
        have hfg := Option.some.inj (hf.mapped.symm.trans hmapped)
        omega

/-- The addresses lie in different pages, those of the pages that are mapped below the recursive
mapping. -/
structure KState.Walk (s : KState) (l : List Nat) : Prop where
  lt : ∀ va ∈ l, va < 2 ^ 32
  pages : l.Pairwise fun va va' => va' / 4096 ≠ va / 4096
  below : ∀ va ∈ l, s.lookup .temp va ≠ none → pdeIndex va < recursivePdeIndex

namespace PagesFreed

/-- The first page of a walk, and the others. -/
theorem cons (h₁ : PagesFreed d [va] s s₁) (h₂ : PagesFreed d l s₁ s') (hw : s.Walk (va :: l)) :
    PagesFreed d (va :: l) s s' where
  openDirectory := h₂.openDirectory
  nonPaging := h₂.nonPaging.trans h₁.nonPaging
  pdeOf va' := (h₂.pdeOf va').trans (h₁.pdeOf va')
  self x hx va' hpage := by
    rcases List.mem_cons.1 hx with rfl | hx
    · have hlt := hw.lt x (by simp)
      by_cases hin : ∃ y ∈ l, va' / 4096 = y / 4096
      · obtain ⟨y, hy, heq⟩ := hin
        exact h₂.self y hy va' heq
      · rw [h₂.others va' (by omega) fun y hy heq => hin ⟨y, hy, heq⟩]
        exact h₁.self x (by simp) va' hpage
    · exact h₂.self x hx va' hpage
  others va' hlt hne := by
    rw [h₂.others va' hlt fun x hx => hne x (.tail _ hx), h₁.others va' hlt fun x hx => hne x ?_]
    rw [List.mem_singleton.1 hx]
    exact List.mem_cons_self
  frameState f := by
    have hkeep : ∀ x ∈ l, s₁.lookup .temp x = s.lookup .temp x := fun x hx => by
      refine h₁.others x (hw.lt x (.tail _ hx)) fun y hy => ?_
      obtain rfl := List.mem_singleton.1 hy
      exact (List.pairwise_cons.1 hw.pages).1 x hx
    rw [h₂.frameState, h₁.frameState]
    by_cases htail : ∃ x ∈ l, s.lookup .temp x = some (f * 4096)
    · obtain ⟨x, hx, hmapped⟩ := htail
      rw [if_pos ⟨x, hx, (hkeep x hx).trans hmapped⟩, if_pos ⟨x, .tail _ hx, hmapped⟩]
    · rw [if_neg fun ⟨x, hx, hmapped⟩ => htail ⟨x, hx, (hkeep x hx).symm.trans hmapped⟩]
      refine if_congr ?_ rfl rfl
      constructor
      · rintro ⟨x, hx, hmapped⟩
        obtain rfl := List.mem_singleton.1 hx
        exact ⟨x, List.mem_cons_self, hmapped⟩
      · rintro ⟨x, hx, hmapped⟩
        rcases List.mem_cons.1 hx with rfl | hx
        · exact ⟨x, List.mem_singleton_self x, hmapped⟩
        · exact absurd ⟨x, hx, hmapped⟩ htail

/-- A frame is still in use behind a turn that did not free it. -/
theorem releasable_iff (h : PagesFreed d [va] s s₁) :
    s₁.Releasable f ↔ s.Releasable f ∧ s.lookup .temp va ≠ some (f * 4096) := by
  have hmem : (∃ x ∈ [va], s.lookup .temp x = some (f * 4096)) ↔
      s.lookup .temp va = some (f * 4096) := by simp
  rw [Releasable, Releasable, h.frameState, usablePages_congr h.nonPaging, if_congr hmem rfl rfl]
  by_cases hf : s.lookup .temp va = some (f * 4096)
  · rw [if_pos hf]
    exact iff_of_false (fun hfree => absurd hfree.1 (by decide)) fun hno => hno.2 hf
  · rw [if_neg hf]
    exact ⟨fun hrel => ⟨hrel, hf⟩, And.left⟩

/-- The pages behind the first one can be freed behind it if and only if they could be before, and
their page frames are not that of the first one. -/
theorem freeable_iff {x : Nat} (h : PagesFreed d [va] s s₁) (hs : OpenDirectory d s)
    (hx : x < 2 ^ 32)
    (hne : x / 4096 ≠ va / 4096) :
    s₁.Freeable d x ↔ s.Freeable d x ∧
      (s.lookup .temp va ≠ none → s.lookup .temp va ≠ s.lookup .temp x) := by
  have hkeep : s₁.lookup .temp x = s.lookup .temp x := h.others x hx fun y hy => by
    rw [List.mem_singleton.1 hy]
    exact hne
  rw [Freeable, Freeable, hkeep, h.pdeOf]
  constructor
  · intro hfree
    refine ⟨fun pa hpa => ?_, fun hmapped heq => ?_⟩
    · obtain ⟨hal, hslot, hrel⟩ := hfree pa hpa
      exact ⟨hal, hslot, (h.releasable_iff.1 hrel).1⟩
    · obtain ⟨pa, hpa⟩ := Option.ne_none_iff_exists'.1 hmapped
      obtain ⟨hal, -, hrel⟩ := hfree pa (heq ▸ hpa)
      have hmod := hs.lookup_aligned hal (heq ▸ hpa)
      refine (h.releasable_iff.1 hrel).2 (hpa.trans (congrArg some ?_))
      omega
  · rintro ⟨hfree, hdistinct⟩ pa hpa
    obtain ⟨hal, hslot, hrel⟩ := hfree pa hpa
    refine ⟨hal, hslot, h.releasable_iff.2 ⟨hrel, fun heq => ?_⟩⟩
    have hmod := hs.lookup_aligned hal hpa
    refine hdistinct (by rw [heq]; simp) (heq.trans (hpa.symm ▸ congrArg some ?_))
    omega

end PagesFreed

/-- The tail of a walk, behind its first page. -/
theorem KState.Walk.tail (hw : s.Walk (va :: l)) (h : PagesFreed d [va] s s₁) : s₁.Walk l where
  lt x hx := hw.lt x (.tail _ hx)
  pages := (List.pairwise_cons.1 hw.pages).2
  below x hx hmapped := by
    refine hw.below x (.tail _ hx) ?_
    rwa [h.others x (hw.lt x (.tail _ hx)) fun y hy => ?_] at hmapped
    rw [List.mem_singleton.1 hy]
    exact (List.pairwise_cons.1 hw.pages).1 x hx

/-- The first page can be freed, and then the others. -/
theorem allFreeable_cons (h : PagesFreed d [va] s s₁) (hs : OpenDirectory d s)
    (hw : s.Walk (va :: l)) :
    s.AllFreeable d (va :: l) ↔ s.Freeable d va ∧ s₁.AllFreeable d l := by
  have hpages := (List.pairwise_cons.1 hw.pages).1
  have hkeep : ∀ x ∈ l, s₁.lookup .temp x = s.lookup .temp x := fun x hx =>
    h.others x (hw.lt x (.tail _ hx)) fun y hy => by
      rw [List.mem_singleton.1 hy]
      exact hpages x hx
  have hiff : ∀ x ∈ l, s₁.Freeable d x ↔ s.Freeable d x ∧
      (s.lookup .temp va ≠ none → s.lookup .temp va ≠ s.lookup .temp x) := fun x hx =>
    h.freeable_iff hs (hw.lt x (.tail _ hx)) (hpages x hx)
  have htail : (l.Pairwise fun x y => s₁.lookup .temp x ≠ none → s₁.lookup .temp x ≠
    s₁.lookup .temp y) ↔
      l.Pairwise fun x y => s.lookup .temp x ≠ none → s.lookup .temp x ≠ s.lookup .temp y :=
    List.Pairwise.iff_of_mem fun hx hy => by rw [hkeep _ hx, hkeep _ hy]
  constructor
  · rintro ⟨heach, hdistinct⟩
    obtain ⟨hhead, hrest⟩ := List.pairwise_cons.1 hdistinct
    exact ⟨heach va List.mem_cons_self, fun x hx =>
      (hiff x hx).2 ⟨heach x (.tail _ hx), hhead x hx⟩,
      htail.2 hrest⟩
  · rintro ⟨hva, heach, hdistinct⟩
    refine ⟨fun x hx => ?_, List.pairwise_cons.2 ⟨fun x hx => ((hiff x hx).1 (heach x hx)).2,
      htail.1 hdistinct⟩⟩
    rcases List.mem_cons.1 hx with rfl | hx
    · exact hva
    · exact ((hiff x hx).1 (heach x hx)).1

/-- The loop leaves the external mapping open only if each turn does. -/
theorem freePagesFrom_ext (hrun : freePagesFrom .temp 0 n va s = .ok ((), s'))
    (hext : s'.tempExt ≠ none) : s.tempExt ≠ none := fun hnone =>
  hext ((freePagesFrom_keepsSlots _ _ _ _ _ _ _ hrun).ext hnone)

/-- A loop that returns with the external mapping open frees its pages, which it can. -/
theorem freePagesFrom_pagesFreed (h : OpenDirectory d s) (hw : s.Walk (visitedAddresses n va))
    (hrun : freePagesFrom .temp 0 n va s = .ok ((), s')) (hext : s'.tempExt ≠ none) :
    s.AllFreeable d (visitedAddresses n va) ∧ PagesFreed d (visitedAddresses n va) s s' := by
  induction n generalizing va s with
  | zero =>
    cases hrun
    exact ⟨⟨by simp [visitedAddresses], .nil⟩, h, rfl, fun _ => rfl, by simp [visitedAddresses],
      fun _ _ _ => rfl, by simp [visitedAddresses]⟩
  | succ n ih =>
    obtain ⟨_, s₁, hpage, hrest⟩ := bind_eq_ok.1 hrun
    have hext₁ := freePagesFrom_ext hrest hext
    have hfreed := freePage_pagesFreed h (hw.below va List.mem_cons_self) hpage hext₁
    obtain ⟨hall, hrestFreed⟩ := ih hfreed.openDirectory (hw.tail hfreed) hrest
    exact ⟨(allFreeable_cons hfreed h hw).2 ⟨freeable_of_freePage h hpage hext₁, hall⟩,
      hfreed.cons hrestFreed hw⟩

/-- A loop that can free its pages returns with the external mapping open. -/
theorem freePagesFrom_returns (h : OpenDirectory d s) (hw : s.Walk (visitedAddresses n va))
    (hall : s.AllFreeable d (visitedAddresses n va)) :
    ∃ s', freePagesFrom .temp 0 n va s = .ok ((), s') ∧ s'.tempExt ≠ none := by
  induction n generalizing va s with
  | zero => exact ⟨s, rfl, by rw [h.ext]; simp⟩
  | succ n ih =>
    obtain ⟨s₁, hpage, hext₁⟩ := freePage_returns h (hw.below va List.mem_cons_self)
      (hall.each va List.mem_cons_self)
    have hfreed := freePage_pagesFreed h (hw.below va List.mem_cons_self) hpage hext₁
    obtain ⟨s', hrest, hext⟩ := ih hfreed.openDirectory (hw.tail hfreed)
      ((allFreeable_cons hfreed h hw).1 hall).2
    exact ⟨s', (bind_of_ok hpage).trans hrest, hext⟩

/-- The loop takes entries away and makes none: a page that is not mapped is not mapped behind it,
and none of the pages it visits is. -/
theorem freePagesFrom_clears (h : OpenDirectory d s)
    (hrun : freePagesFrom .temp 0 n va s = .ok ((), s')) (hext : s'.tempExt ≠ none) :
    OpenDirectory d s' ∧ (∀ va', s'.lookup .temp va' ≠ none → s'.lookup .temp va' =
      s.lookup .temp va') ∧
      ∀ x ∈ visitedAddresses n va, s'.lookup .temp x = none := by
  induction n generalizing va s with
  | zero =>
    cases hrun
    exact ⟨h, fun _ _ => rfl, by simp [visitedAddresses]⟩
  | succ n ih =>
    obtain ⟨_, s₁, hpage, hrest⟩ := bind_eq_ok.1 hrun
    have hext₁ := freePagesFrom_ext hrest hext
    have hturn : OpenDirectory d s₁ ∧
        (∀ va', s₁.lookup .temp va' ≠ none → s₁.lookup .temp va' = s.lookup .temp va') ∧
        s₁.lookup .temp va = none := by
      rcases freePage_cases h hpage with ⟨hnone, rfl⟩ | ⟨f, hf⟩
      · exact ⟨h, fun _ _ => rfl, hnone⟩
      · have hopen := hf.openDirectory h hext₁
        exact ⟨hopen, fun va' => (hf.entryDropped h hext₁).lookup_eq h hopen,
          hf.lookup_self h hext₁ rfl⟩
    obtain ⟨hopen₁, hsub₁, hself⟩ := hturn
    obtain ⟨hopen, hsub, hvisited⟩ := ih hopen₁ hrest
    have hsub' : ∀ va', s'.lookup .temp va' ≠ none → s'.lookup .temp va' = s.lookup .temp va' :=
      fun va' hm => (hsub va' hm).trans (hsub₁ va' (hsub va' hm ▸ hm))
    refine ⟨hopen, hsub', fun x hx => ?_⟩
    rcases List.mem_cons.1 hx with rfl | hx
    · by_contra hm
      exact hm ((hsub x hm).trans hself)
    · exact hvisited x hx

end MeghaOS
