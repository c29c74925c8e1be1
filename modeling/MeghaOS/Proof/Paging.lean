import MeghaOS.Proof.Frame
import MeghaOS.Proof.Pmm

/-!
# Mapping and unmapping pages

What one call of `kpg_map` or `kpg_unmap` does to the entries of a page directory and its page
tables: `kpgMap_spec` and `kpgUnmap_spec`. The entries of the temporary mappings are read and
written like any other one, but lie elsewhere (`setEntry_cases`), so most lemmas are about the
entries that are not theirs.
-/

namespace MeghaOS

open Exec KState

variable {s s' : KState} {pd : PageDirectory} {d t i va pa flags : Nat} {b : Bool} {e : Entry}

/-! ## Addresses and frames -/

/-- The frame of the page table that a directory entry refers to. -/
def Entry.tableFrame (e : Entry) : Nat := e.pageFrame % 2 ^ 20

/-- A frame starts at a multiple of the page size. -/
theorem isAligned_pageframesToBytes (f : Nat) :
    isAligned (pageframesToBytes f) pageFrameSizeBytes = true := by
  have h : u32 (f <<< 12) % 2 ^ 12 = 0 := by
    rw [u32, Nat.shiftLeft_eq]
    omega
  rw [isAligned, beq_iff_eq]
  exact (Nat.and_two_pow_sub_one_eq_mod (u32 (f <<< 12)) 12).trans h

/-- The frame of an address. -/
theorem physicalToPageframe_eq (n : Nat) : physicalToPageframe n = n / 4096 % 2 ^ 20 :=
  Nat.and_two_pow_sub_one_eq_mod (n / 4096) 20

/-- A frame is that of its own first address. -/
@[simp] theorem physicalToPageframe_pageframesToBytes (f : Nat) :
    physicalToPageframe (pageframesToBytes f) = f % 2 ^ 20 := by
  rw [physicalToPageframe_eq, pageframesToBytes, u32, Nat.shiftLeft_eq]
  omega

/-! ## Entries -/

/-- The entry is that of the internal temporary mapping. -/
def IsIntSlot (frame i : Nat) : Prop := frame = kernelPageTableFrame ∧ i = temporaryPteIndexInternal

/-- The entry is that of one of the temporary mappings. -/
def IsTempSlot (frame i : Nat) : Prop :=
  frame = kernelPageTableFrame ∧ (i = temporaryPteIndexExtern ∨ i = temporaryPteIndexInternal)

/-- The entries of a frame are those of memory and of the temporary mappings. -/
theorem entry_congr {f i : Nat} (hmem : s'.mem f i = s.mem f i) (hext : s'.tempExt = s.tempExt)
    (hint : s'.tempInt = s.tempInt) : s'.entry f i = s.entry f i := by
  simp only [entry, hmem, hext, hint]

/-- The slot of the paging code is seen at its own entry only. -/
theorem entry_tempInt {f i : Nat} (h : ¬ IsIntSlot f i) (x : Option Nat) :
    ({ s with tempInt := x } : KState).entry f i = s.entry f i := by
  unfold entry
  split_ifs with h1 h2
  · rfl
  · exact absurd h2 h
  · rfl

/-- The entry of the slot shows what the slot holds. -/
theorem entry_intSlot (h : IsIntSlot d i) : s.entry d i = tempEntry s.tempInt := by
  obtain ⟨rfl, rfl⟩ := h
  rfl

/-- The other entries are in memory. -/
theorem entry_mem (h : ¬ IsTempSlot d i) : s.entry d i = s.mem d i := by
  unfold entry
  split_ifs with h1 h2
  · exact absurd ⟨h1.1, .inl h1.2⟩ h
  · exact absurd ⟨h2.1, .inr h2.2⟩ h
  · rfl

/-- What writing an entry changes. -/
theorem setEntry_cases (s : KState) (d i : Nat) (e : Entry) :
    ((d = kernelPageTableFrame ∧ i = temporaryPteIndexExtern) ∧
      ∃ x, s.setEntry d i e = { s with tempExt := x }) ∨
    (IsIntSlot d i ∧ ∃ x, s.setEntry d i e = { s with tempInt := x }) ∨
    (¬ IsTempSlot d i ∧
      s.setEntry d i e = { s with mem := fun f j => if f = d ∧ j = i then e else s.mem f j }) := by
  by_cases h1 : d = kernelPageTableFrame ∧ i = temporaryPteIndexExtern
  · exact .inl ⟨h1, _, if_pos h1⟩
  by_cases h2 : IsIntSlot d i
  · exact .inr (.inl ⟨h2, _, (if_neg h1).trans (if_pos h2)⟩)
  · refine .inr (.inr ⟨?_, (if_neg h1).trans (if_neg h2)⟩)
    rintro ⟨hd, hi | hi⟩
    · exact h1 ⟨hd, hi⟩
    · exact h2 ⟨hd, hi⟩

/-- Writing one of those changes the memory only. -/
theorem setEntry_mem (h : ¬ IsTempSlot d i) :
    s.setEntry d i e = { s with mem := fun f j => if f = d ∧ j = i then e else s.mem f j } := by
  rcases setEntry_cases s d i e with ⟨h1, -⟩ | ⟨h1, -⟩ | ⟨-, h1⟩
  · exact absurd ⟨h1.1, .inl h1.2⟩ h
  · exact absurd ⟨h1.1, .inr h1.2⟩ h
  · exact h1

/-- Writing an entry changes the state of no frame. -/
@[simp] theorem setEntry_pab : (s.setEntry d i e).pab = s.pab := by
  rcases setEntry_cases s d i e with ⟨-, x, h⟩ | ⟨-, x, h⟩ | ⟨-, h⟩ <;> rw [h]

@[simp] theorem setEntry_cr3 : (s.setEntry d i e).cr3 = s.cr3 := by
  rcases setEntry_cases s d i e with ⟨-, x, h⟩ | ⟨-, x, h⟩ | ⟨-, h⟩ <;> rw [h]

@[simp] theorem setEntry_frameState (f : Nat) : (s.setEntry d i e).frameState f =
    s.frameState f := by
  rw [frameState, setEntry_pab, frameState]

/-- Writing an entry changes no other one. -/
theorem entry_setEntry_of_ne {f j : Nat} (hne : ¬ (f = d ∧ j = i)) :
    (s.setEntry d i e).entry f j = s.entry f j := by
  rcases setEntry_cases s d i e with ⟨hslot, x, h⟩ | ⟨hslot, x, h⟩ | ⟨-, h⟩
  · rw [h]
    unfold entry
    split_ifs with h3
    · exact absurd ⟨h3.1.trans hslot.1.symm, h3.2.trans hslot.2.symm⟩ hne
    · rfl
    · rfl
  · rw [h]
    exact entry_tempInt (fun h3 => hne ⟨h3.1.trans hslot.1.symm, h3.2.trans hslot.2.symm⟩) x
  · rw [h]
    exact entry_congr (if_neg hne) rfl rfl

/-- Writing an entry commutes with opening and closing the internal temporary mapping. -/
theorem setEntry_tempInt {x : Option Nat} (hslot : ¬ IsIntSlot d i) (hint : s.tempInt = none) :
    ({ KState.setEntry { s with tempInt := x } d i e with tempInt := none } : KState) =
      s.setEntry d i e := by
  unfold setEntry
  by_cases h1 : d = kernelPageTableFrame ∧ i = temporaryPteIndexExtern
  · simp only [if_pos h1, ← hint]
  · simp only [if_neg h1, if_neg (show ¬ (d = kernelPageTableFrame ∧ i = temporaryPteIndexInternal)
      from hslot), ← hint]

/-- An entry that is written outside the temporary mappings is the one that is read. -/
theorem entry_setEntry_self (h : ¬ IsTempSlot d i) : (s.setEntry d i e).entry d i = e := by
  rw [entry_mem h, setEntry_mem h]
  simp

/-! ## The steps of the two functions -/

/-- The pointer leads to the page directory at frame `d`. -/
def PageDirectory.At (pd : PageDirectory) (d : Nat) (s : KState) : Prop :=
  match pd with
  | null => False
  | temp => s.tempExt = some d
  | current => s.cr3 = d

/-- The frame of a directory is found. -/
theorem PageDirectory.At.frame (h : pd.At d s) : pd.frame s = .ok (d, s) := by
  cases pd with
  | null => exact h.elim
  | temp =>
    rw [PageDirectory.frame, get_bind_apply, show s.tempExt = some d from h]
    rfl
  | current =>
    obtain rfl : s.cr3 = d := h
    rfl

section

variable {α : Type} {r : α × KState}

/-- A program goes on after `s_internal_temporaryMap` when nothing was open. -/
theorem sInternalTemporaryMap_bind_eq_ok {f : Bool → K α} {n : Nat} :
    (sInternalTemporaryMap (pageframesToBytes n) >>= f) s = .ok r ↔
      s.tempInt = none ∧ f true { s with tempInt := some (n % 2 ^ 20) } = .ok r := by
  rw [sInternalTemporaryMap, if_neg (by simp [isAligned_pageframesToBytes]), bind_assoc,
    get_bind_apply]
  cases hint : s.tempInt with
  | none =>
    simp only [Option.isSome_none, Bool.false_eq_true, if_false, bind_assoc,
      modify_bind_apply, pure_bind, physicalToPageframe_pageframesToBytes, true_and]
  | some x =>
    simp [kPanic]

/-- Opening the page table of a directory entry. -/
theorem openTable_bind_eq_ok {f : Bool → K α} :
    (sInternalTemporaryMap (pageframesToBytes e.pageFrame) >>= f) s = .ok r ↔
      s.tempInt = none ∧ f true { s with tempInt := some e.tableFrame } = .ok r :=
  sInternalTemporaryMap_bind_eq_ok

/-- It goes on after `s_internal_temporaryUnmap` when something was. -/
theorem sInternalTemporaryUnmap_bind_eq_ok {f : Unit → K α} :
    (sInternalTemporaryUnmap >>= f) s = .ok r ↔
      s.tempInt ≠ none ∧ f () { s with tempInt := none } = .ok r := by
  rw [sInternalTemporaryUnmap, bind_assoc, get_bind_apply]
  cases hint : s.tempInt with
  | none => simp [kPanic]
  | some x => simp

/-- An entry of the directory is read. -/
theorem readPde_bind {f : Entry → K α} (hd : pd.At d s) (i : Nat) :
    (readPde pd i >>= f) s = f (s.entry d i) s := by
  have hread : readPde pd i s = .ok (s.entry d i, s) := by
    rw [readPde, get_bind_apply, bind_of_ok hd.frame]
    rfl
  exact bind_of_ok hread

/-- So is one of the open page table. -/
theorem readPte_bind {f : Entry → K α} (ht : s.tempInt = some t) (i : Nat) :
    (readPte i >>= f) s = f (s.entry t i) s := by
  have hread : readPte i s = .ok (s.entry t i, s) := by
    rw [readPte, get_bind_apply, get_bind_apply, ht]
    rfl
  exact bind_of_ok hread

/-- `s_setupPDE` writes the entry. -/
theorem sSetupPde_eq_ok {u : Unit} (hd : pd.At d s) :
    sSetupPde pd i pa flags s = .ok (u, s') ↔
      isAligned pa pageFrameSizeBytes = true ∧ s' = s.setEntry d i (setupEntry pa flags) := by
  rw [sSetupPde, kAssert_bind_eq_ok, bind_of_ok hd.frame, modify_apply]
  simp only [Except.ok.injEq, Prod.mk.injEq, true_and, @eq_comm _ s']

/-- `s_setupPTE` writes the entry. -/
theorem sSetupPte_bind_eq_ok {f : Unit → K α} (ht : s.tempInt = some t) :
    (sSetupPte i pa flags >>= f) s = .ok r ↔
      isAligned pa pageFrameSizeBytes = true ∧
        f () (s.setEntry t i (setupEntry pa flags)) = .ok r := by
  rw [sSetupPte, bind_assoc, kAssert_bind_eq_ok, bind_assoc, get_bind_apply, ht]
  rfl

/-- `k_memset` of the page behind the internal temporary mapping. -/
theorem zeroPage_bind {f : Unit → K α} (ht : s.tempInt = some t) :
    (zeroPage >>= f) s =
      f () { s with mem := fun g j => if g = t then Entry.zero else s.mem g j } := by
  have hframe : frameOf s.tempInt = pure t := by rw [ht, frameOf]
  rw [zeroPage, bind_assoc, get_bind_apply, hframe]
  rfl

end

/-! ## One call -/

/-- The frame is neither free nor that of the page table with the temporary mappings. -/
structure TakenFrame (s : KState) (f : Nat) : Prop where
  notFree : s.frameState f ≠ pmmStateFree
  notTemp : f ≠ kernelPageTableFrame

/-- The entries of such a frame are in memory. -/
theorem TakenFrame.not_isTempSlot (h : TakenFrame s d) : ¬ IsTempSlot d i :=
    fun hs => h.notTemp hs.1

/-- The state after `kpg_map` made the page table at frame `t` for entry `i` of the directory. -/
def withPageTable (s : KState) (d i t flags : Nat) : KState :=
  KState.setEntry { s with mem := fun g j => if g = t then Entry.zero else s.mem g j }
    d i (setupEntry (pageframesToBytes t) flags)

/-- The directory leads to the new page table. -/
theorem withPageTable_dir (hd : ¬ IsTempSlot d i) :
    (withPageTable s d i t flags).entry d i = setupEntry (pageframesToBytes t) flags :=
  entry_setEntry_self hd

/-- The new page table is empty. -/
theorem withPageTable_new {j : Nat} (ht : ¬ IsTempSlot t j) (hne : t ≠ d) :
    (withPageTable s d i t flags).entry t j = Entry.zero := by
  have hread : (withPageTable s d i t flags).entry t j = _ :=
    entry_setEntry_of_ne fun h => hne h.1
  rw [hread, entry_mem ht]
  exact if_pos rfl

/-- Nothing else changes with a new page table. -/
theorem withPageTable_of_ne {f j : Nat} (ht : f ≠ t) (hd : ¬ (f = d ∧ j = i)) :
    (withPageTable s d i t flags).entry f j = s.entry f j := by
  have hread : (withPageTable s d i t flags).entry f j = _ := entry_setEntry_of_ne hd
  rw [hread]
  exact entry_congr (if_neg ht) rfl rfl

/-- Marking frames changes no entry. -/
theorem SetFrames.entry_eq {start count state f j : Nat} (h : SetFrames s s' start count state) :
    s'.entry f j = s.entry f j := by
  rw [h.eq]
  exact entry_congr rfl rfl rfl

/-- A new page table is the first free frame. -/
theorem createPageTable_spec (hs : PabOk s) (hd : pd.At d s)
    (h : createPageTable pd va flags s = .ok ((), s')) :
    ∃ t s₁, s.frameState t = pmmStateFree ∧ t < 2 ^ 14 ∧ SetFrames s s₁ t 1 pmmStateUsed ∧
      s.tempInt = none ∧ s' = withPageTable s₁ d (pdeIndex va) t flags := by
  obtain ⟨found, s₁, halloc, h⟩ := bind_eq_ok.1 h
  rcases kpmmAlloc_spec hs halloc with ⟨rfl, -⟩ | ⟨t, rfl, hlt, hset, hfree⟩
  · cases h
  have htlt : t < 2 ^ 14 := Nat.lt_of_lt_of_le hlt (usablePages_le s)
  have haddr : t * 4096 = pageframesToBytes t := by
    rw [pageframesToBytes, u32, Nat.shiftLeft_eq, Nat.mod_eq_of_lt (by omega)]
  rw [haddr] at h
  have hmod : t % 2 ^ 20 = t := Nat.mod_eq_of_lt (by omega)
  have heq := hset.eq
  have hd₁ : pd.At d s₁ := by
    rw [heq]
    exact hd
  obtain ⟨hint, h⟩ := sInternalTemporaryMap_bind_eq_ok.1 h
  rw [zeroPage_bind rfl] at h
  obtain ⟨-, h⟩ := sInternalTemporaryUnmap_bind_eq_ok.1 h
  obtain ⟨-, rfl⟩ := (sSetupPde_eq_ok (by exact hd₁)).1 h
  refine ⟨t, s₁, hfree t (Nat.le_refl t) (Nat.lt_succ_self t), htlt, hset, ?_, ?_⟩
  · rw [heq] at hint
    exact hint
  · simp only [hmod, withPageTable, ← hint]

/-- The entry of the page table is written, unless there is one already. -/
theorem mapInPageTable_spec (hd : pd.At d s)
    (h : mapInPageTable pd va pa flags s = .ok (b, s')) :
    s.tempInt = none ∧
    ((b = false ∧ (∃ err, s' = { s with errorNumber := err }) ∧
      ((s.entry (s.entry d (pdeIndex va)).tableFrame (pteIndex va)).present = true ∨
        IsIntSlot (s.entry d (pdeIndex va)).tableFrame (pteIndex va))) ∨
    (b = true ∧ (s.entry (s.entry d (pdeIndex va)).tableFrame (pteIndex va)).present = false ∧
      ¬ IsIntSlot (s.entry d (pdeIndex va)).tableFrame (pteIndex va) ∧
      s' = s.setEntry (s.entry d (pdeIndex va)).tableFrame (pteIndex va)
          (setupEntry pa flags))) := by
  rw [mapInPageTable, readPde_bind hd, openTable_bind_eq_ok] at h
  obtain ⟨hint, h⟩ := h
  refine ⟨hint, ?_⟩
  rw [readPte_bind rfl] at h
  generalize (s.entry d (pdeIndex va)).tableFrame = t at *
  rcases ite_eq_ok.1 h with ⟨hpresent, h⟩ | ⟨hpresent, h⟩
  · obtain ⟨-, h⟩ := sInternalTemporaryUnmap_bind_eq_ok.1 h
    obtain ⟨rfl, rfl⟩ := returnError_eq_ok.1 h
    refine .inl ⟨rfl, ⟨_, by rw [← hint]⟩, ?_⟩
    by_cases hslot : IsIntSlot t (pteIndex va)
    · exact .inr hslot
    · exact .inl (entry_tempInt hslot (some t) ▸ hpresent)
  · have hslot : ¬ IsIntSlot t (pteIndex va) := by
      intro hslot
      rw [entry_intSlot hslot] at hpresent
      exact hpresent rfl
    rw [entry_tempInt hslot, Bool.not_eq_true] at hpresent
    obtain ⟨-, h⟩ := (sSetupPte_bind_eq_ok rfl).1 h
    obtain ⟨-, h⟩ := sInternalTemporaryUnmap_bind_eq_ok.1 h
    cases h
    exact .inr ⟨rfl, hpresent, hslot, setEntry_tempInt hslot hint⟩

/-- An entry that is written for a frame leads to that frame. -/
theorem setupEntry_tableFrame (ht : t < 2 ^ 20) :
    (setupEntry (pageframesToBytes t) flags).tableFrame = t := by
  have hmod : t % 2 ^ 20 = t := Nat.mod_eq_of_lt ht
  simp only [Entry.tableFrame, setupEntry, physicalToPageframe_pageframesToBytes, hmod]

/-- `kpg_map` reports an error, or writes the entry of the page in the page table, which it makes
first when there is none. -/
theorem kpgMap_spec (hs : PabOk s) (hd : pd.At d s) (hdir : TakenFrame s d)
    (htemp : s.frameState kernelPageTableFrame ≠ pmmStateFree)
    (h : kpgMap pd va pa flags s = .ok (b, s')) :
    (b = false ∧ (∃ err, s' = { s with errorNumber := err }) ∧
      (va % 4096 = 0 → pa % 4096 = 0 → (s.entry d (pdeIndex va)).present = true ∧
        ((s.entry (s.entry d (pdeIndex va)).tableFrame (pteIndex va)).present = true ∨
          IsIntSlot (s.entry d (pdeIndex va)).tableFrame (pteIndex va)))) ∨
    (b = true ∧ (s.entry d (pdeIndex va)).present = true ∧
      (s.entry (s.entry d (pdeIndex va)).tableFrame (pteIndex va)).present = false ∧
      s' = s.setEntry (s.entry d (pdeIndex va)).tableFrame (pteIndex va) (setupEntry pa flags)) ∨
    (b = true ∧ (s.entry d (pdeIndex va)).present = false ∧
      ∃ t s₁, s.frameState t = pmmStateFree ∧ t < 2 ^ 14 ∧ SetFrames s s₁ t 1 pmmStateUsed ∧
        s' = (withPageTable s₁ d (pdeIndex va) t flags).setEntry t (pteIndex va)
          (setupEntry pa flags)) := by
  rw [kpgMap, kAssert_bind_eq_ok] at h
  rcases ite_eq_ok.1 h.2 with ⟨hal, h⟩ | ⟨-, h⟩
  · obtain ⟨rfl, rfl⟩ := returnError_eq_ok.1 h
    refine .inl ⟨rfl, ⟨_, rfl⟩, fun hva hpa => ?_⟩
    rw [isAligned_page_iff.2 hva, isAligned_page_iff.2 hpa] at hal
    simp at hal
  rw [readPde_bind hd] at h
  cases hpresent : (s.entry d (pdeIndex va)).present with
  | true =>
    rw [when_false (by simp [hpresent]), pure_bind] at h
    obtain ⟨-, ⟨rfl, hs', hfull⟩ | ⟨rfl, hfree, -, rfl⟩⟩ := mapInPageTable_spec hd h
    · exact .inl ⟨rfl, hs', fun _ _ => ⟨rfl, hfull⟩⟩
    · exact .inr (.inl ⟨rfl, rfl, hfree, rfl⟩)
  | false =>
    rw [when_true (by simp [hpresent])] at h
    obtain ⟨_, s₂, hnew, h⟩ := bind_eq_ok.1 h
    obtain ⟨t, s₁, hfree, hlt, hset, -, rfl⟩ := createPageTable_spec hs hd hnew
    have hne : t ≠ d := by
      rintro rfl
      exact hdir.notFree hfree
    have hslot : ¬ IsTempSlot t (pteIndex va) := by
      rintro ⟨rfl, -⟩
      exact htemp hfree
    have hd₂ : pd.At d (withPageTable s₁ d (pdeIndex va) t flags) := by
      rw [withPageTable, setEntry_mem hdir.not_isTempSlot, hset.eq]
      exact hd
    have htable : ((withPageTable s₁ d (pdeIndex va) t flags).entry d (pdeIndex va)).tableFrame =
        t := by
      rw [withPageTable_dir hdir.not_isTempSlot, setupEntry_tableFrame (by omega)]
    obtain ⟨-, hcases⟩ := mapInPageTable_spec hd₂ h
    rw [htable, withPageTable_new hslot hne] at hcases
    rcases hcases with ⟨-, -, hpresent | hint⟩ | ⟨rfl, -, -, rfl⟩
    · cases hpresent
    · exact absurd ⟨hint.1, .inr hint.2⟩ hslot
    · exact .inr (.inr ⟨rfl, rfl, t, s₁, hfree, hlt, hset, rfl⟩)

/-- `kpg_map` maps nothing at an address that is not that of a page. -/
theorem kpgMap_aligned (h : kpgMap pd va pa flags s = .ok (true, s')) : va % 4096 = 0 := by
  rw [kpgMap, kAssert_bind_eq_ok] at h
  rcases ite_eq_ok.1 h.2 with ⟨-, h⟩ | ⟨hal, -⟩
  · cases (returnError_eq_ok.1 h).1
  · rw [not_or, Bool.not_eq_false] at hal
    exact isAligned_page_iff.1 hal.1

/-- `kpg_unmap` unmaps nothing at an address that is not that of a page. -/
theorem kpgUnmap_aligned (h : kpgUnmap pd va s = .ok (true, s')) : va % 4096 = 0 := by
  rw [kpgUnmap, kAssert_bind_eq_ok] at h
  rcases ite_eq_ok.1 h.2 with ⟨-, h⟩ | ⟨hal, -⟩
  · cases (returnError_eq_ok.1 h).1
  · rw [Bool.not_eq_false] at hal
    exact isAligned_page_iff.1 hal

/-- `kpg_unmap` reports an error, or takes the entry of a page away. -/
theorem kpgUnmap_spec (hd : pd.At d s) (h : kpgUnmap pd va s = .ok (b, s')) :
    (b = false ∧ (∃ err, s' = { s with errorNumber := err }) ∧
      (va % 4096 = 0 → (s.entry d (pdeIndex va)).present = true →
        ¬ IsIntSlot (s.entry d (pdeIndex va)).tableFrame (pteIndex va) →
        (s.entry (s.entry d (pdeIndex va)).tableFrame (pteIndex va)).present = false)) ∨
    (b = true ∧ (s.entry d (pdeIndex va)).present = true ∧
      (s.entry (s.entry d (pdeIndex va)).tableFrame (pteIndex va)).present = true ∧
      s' = s.setEntry (s.entry d (pdeIndex va)).tableFrame (pteIndex va)
        { s.entry (s.entry d (pdeIndex va)).tableFrame (pteIndex va) with present := false }) := by
  rw [kpgUnmap, kAssert_bind_eq_ok] at h
  rcases ite_eq_ok.1 h.2 with ⟨hal, h⟩ | ⟨-, h⟩
  · obtain ⟨rfl, rfl⟩ := returnError_eq_ok.1 h
    refine .inl ⟨rfl, ⟨_, rfl⟩, fun hva => ?_⟩
    rw [isAligned_page_iff.2 hva] at hal
    cases hal
  rw [readPde_bind hd] at h
  rcases ite_eq_ok.1 h with ⟨hpde, h⟩ | ⟨hpde, h⟩
  · obtain ⟨rfl, rfl⟩ := returnError_eq_ok.1 h
    refine .inl ⟨rfl, ⟨_, rfl⟩, fun _ hp => ?_⟩
    rw [hpde] at hp
    cases hp
  rw [openTable_bind_eq_ok] at h
  obtain ⟨hint, h⟩ := h
  rw [readPte_bind rfl] at h
  generalize (s.entry d (pdeIndex va)).tableFrame = t at *
  rcases ite_eq_ok.1 h with ⟨hpte, h⟩ | ⟨hpte, h⟩
  · obtain ⟨-, h⟩ := sInternalTemporaryUnmap_bind_eq_ok.1 h
    obtain ⟨rfl, rfl⟩ := returnError_eq_ok.1 h
    refine .inl ⟨rfl, ⟨_, by rw [← hint]⟩, fun _ _ hslot => ?_⟩
    rw [← entry_tempInt hslot (some t)]
    exact hpte
  · have hframe : (frameOf (some t) : K Nat) = pure t := rfl
    rw [get_bind_apply, hframe, pure_bind, modify_bind_apply] at h
    obtain ⟨hopen, h⟩ := sInternalTemporaryUnmap_bind_eq_ok.1 h
    have hslot : ¬ IsIntSlot t (pteIndex va) := by
      intro hslot
      refine hopen ?_
      have hext : ¬ (t = kernelPageTableFrame ∧ pteIndex va = temporaryPteIndexExtern) := by
        rintro ⟨-, hi⟩
        exact absurd (hi.symm.trans hslot.2) (by decide)
      exact congrArg KState.tempInt ((if_neg hext).trans (if_pos hslot))
    rw [entry_tempInt hslot] at h hpte
    cases h
    rw [Bool.not_eq_false] at hpte hpde
    exact .inr ⟨rfl, hpde, hpte, setEntry_tempInt hslot hint⟩

end MeghaOS
