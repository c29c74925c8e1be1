import MeghaOS.Proof.Paging

/-!
# The rights of mapped pages

`PgRun d P s mapped` says that calls of `kpg_map` and `kpg_unmap` on the page directory at frame
`d`, all of which satisfy `P`, led from an empty user half to the state `s`, and that `mapped` are
the flags with which each page that is mapped was mapped. A directory entry takes its rights from
the first page that is mapped in its 4 MB, so a page that is mapped there later with more rights
does not get them (`rights_lost`). When no call asks for more rights than an existing directory
entry gives, every page has exactly the rights its call asked for (`pg_run_rights`).
-/

namespace MeghaOS

open Exec KState

variable {s s' : KState} {pd : PageDirectory} {d t i va pa flags : Nat} {b : Bool}
  {mapped mapped' : Nat → Option Nat}

/-! ## Pages of a directory -/

/-- The directory entry of an address. -/
def KState.pdeOf (s : KState) (d va : Nat) : Entry := s.entry d (pdeIndex va)

/-- The page table entry of an address. -/
def KState.pteOf (s : KState) (d va : Nat) :
    Entry := s.entry (s.pdeOf d va).tableFrame (pteIndex va)

/-- The page of an address is mapped. -/
def KState.PageMapped (s : KState) (d va : Nat) : Prop :=
  (s.pdeOf d va).present = true ∧ (s.pteOf d va).present = true

/-- The page of an address can be written, by the rule that rights are combined by AND. -/
def KState.effWritable (s : KState) (d va : Nat) : Bool :=
  (s.pdeOf d va).writeAllowed && (s.pteOf d va).writeAllowed

/-- The page of an address can be accessed in user mode. -/
def KState.effUser (s : KState) (d va : Nat) : Bool :=
  (s.pdeOf d va).userAccessable && (s.pteOf d va).userAccessable

/-- Every mapped page of the user half has the rights its own call asked for. -/
def HasOwnRights (s : KState) (d : Nat) (mapped : Nat → Option Nat) : Prop :=
  ∀ va, va % 4096 = 0 → pdeIndex va < kernelPdeIndex → s.PageMapped d va →
    ∃ flags, mapped va = some flags ∧
      (s.effWritable d va = true ↔ bitIsSet flags pgMapFlagWritable = true) ∧
      (s.effUser d va = true ↔ bitIsUnset flags pgMapFlagKernel = true)

/-! ## Runs -/

/-- A page directory whose user half is empty. Its frame, and those of the page tables of the kernel
half, are in use. -/
structure EmptyUserHalf (d : Nat) (s : KState) : Prop where
  pabOk : PabOk s
  dir : TakenFrame s d
  temp : s.frameState kernelPageTableFrame ≠ pmmStateFree
  empty : ∀ i, i < kernelPdeIndex → (s.entry d i).present = false
  tables : ∀ i, i < recursivePdeIndex → (s.entry d i).present = true →
    (s.entry d i).tableFrame ≠ d ∧ s.frameState (s.entry d i).tableFrame ≠ pmmStateFree

/-- The rest of the kernel ran: the directory and the page tables of its user half stay, and so do
the frames in use. -/
structure DirKept (d : Nat) (s s' : KState) : Prop where
  pabOk : PabOk s'
  entries : ∀ i, i < recursivePdeIndex → s'.entry d i = s.entry d i
  tables : ∀ i, i < kernelPdeIndex → (s.entry d i).present = true →
    ∀ j, s'.entry (s.entry d i).tableFrame j = s.entry (s.entry d i).tableFrame j
  inUse : ∀ f, s.frameState f ≠ pmmStateFree → s'.frameState f ≠ pmmStateFree

/-- The calls on the directory at frame `d` that satisfy `P`, with the flags of the mapped pages. -/
inductive PgRun (d : Nat) (P : KState → Nat → Nat → Prop) : KState → (Nat → Option Nat) → Prop
  | start {s : KState} : EmptyUserHalf d s → PgRun d P s fun _ => none
  | map {s s' : KState} {mapped : Nat → Option Nat} {pd : PageDirectory} {va pa flags : Nat}
      {b : Bool} :
      PgRun d P s mapped → pd.At d s → pdeIndex va < recursivePdeIndex →
        bitIsUnset flags pgMapFlagNotPresent = true → P s va flags →
        kpgMap pd va pa flags s = .ok (b, s') →
        PgRun d P s' (if b = true then Function.update mapped va (some flags) else mapped)
  | unmap {s s' : KState} {mapped : Nat → Option Nat} {pd : PageDirectory} {va : Nat} {b : Bool} :
      PgRun d P s mapped → pd.At d s → pdeIndex va < recursivePdeIndex →
        kpgUnmap pd va s = .ok (b, s') →
        PgRun d P s' (if b = true then Function.update mapped va none else mapped)
  | other {s s' : KState} {mapped : Nat → Option Nat} :
      PgRun d P s mapped → DirKept d s s' → PgRun d P s' mapped

/-- The call asks for no right that the directory entry of its page, if there is one, lacks. -/
def AsksNoMore (d : Nat) (s : KState) (va flags : Nat) : Prop :=
  (s.pdeOf d va).present = true →
    (bitIsSet flags pgMapFlagWritable = true → (s.pdeOf d va).writeAllowed = true) ∧
    (bitIsUnset flags pgMapFlagKernel = true → (s.pdeOf d va).userAccessable = true)

/-! ## A new page table -/

/-- From `s` to `s'` the free frame `t` became the empty page table of entry `i` of the directory at
frame `d`, and nothing else changed. -/
structure NewTable (d i t : Nat) (s s' : KState) : Prop where
  free : s.frameState t = pmmStateFree
  ne_dir : t ≠ d
  ne_temp : t ≠ kernelPageTableFrame
  frameState : ∀ f, s'.frameState f = if f = t then pmmStateUsed else s.frameState f
  own : (s'.entry d i).tableFrame = t
  other : ∀ j, j ≠ i → s'.entry d j = s.entry d j
  empty : ∀ j, s'.entry t j = Entry.zero
  kept : ∀ f j, f ≠ t → f ≠ d → s'.entry f j = s.entry f j

theorem withPageTable_newTable {s₁ : KState} (hdir : TakenFrame s d)
    (htemp : s.frameState kernelPageTableFrame ≠ pmmStateFree)
    (hfree : s.frameState t = pmmStateFree) (ht : t < 2 ^ 14)
    (hset : SetFrames s s₁ t 1 pmmStateUsed) : NewTable d i t s (withPageTable s₁ d i t flags) := by
  have hd : t ≠ d := by
    rintro rfl
    exact hdir.notFree hfree
  have hslot : t ≠ kernelPageTableFrame := by
    rintro rfl
    exact htemp hfree
  refine ⟨hfree, hd, hslot, fun f => ?_, ?_, fun j hj => ?_, fun j => ?_, fun f j hf hfd => ?_⟩
  · rw [withPageTable, setEntry_frameState]
    refine (hset.frameState f).trans ?_
    by_cases hft : f = t
    · rw [if_pos (by omega), if_pos hft]
    · rw [if_neg (by omega), if_neg hft]
  · rw [withPageTable_dir hdir.not_isTempSlot, setupEntry_tableFrame (by omega)]
  · rw [withPageTable_of_ne hd.symm fun h => hj h.2, hset.entry_eq]
  · exact withPageTable_new (fun h => hslot h.1) hd
  · rw [withPageTable_of_ne hf fun h => hfd h.1, hset.entry_eq]

namespace NewTable

/-- No frame is freed. -/
theorem inUse (h : NewTable d i t s s') {f : Nat} (hf : s.frameState f ≠ pmmStateFree) :
    s'.frameState f ≠ pmmStateFree := by
  rw [h.frameState]
  split
  · decide
  · exact hf

/-- A frame in use is not that of the new page table. -/
theorem ne_of_inUse (h : NewTable d i t s s') {f : Nat} (hf : s.frameState f ≠ pmmStateFree) :
    f ≠ t := by
  rintro rfl
  exact hf h.free

theorem takenFrame (h : NewTable d i t s s') {f : Nat} (hf : TakenFrame s f) : TakenFrame s' f :=
  ⟨h.inUse hf.notFree, hf.notTemp⟩

/-- The page tables of the directory are still in frames of their own. -/
theorem tables (h : NewTable d i t s s')
    (htables : ∀ j, j < recursivePdeIndex → (s.entry d j).present = true →
      (s.entry d j).tableFrame ≠ d ∧ s.frameState (s.entry d j).tableFrame ≠ pmmStateFree) :
    ∀ j, j < recursivePdeIndex → (s'.entry d j).present = true →
      (s'.entry d j).tableFrame ≠ d ∧ s'.frameState (s'.entry d j).tableFrame ≠ pmmStateFree := by
  intro j hj hp
  by_cases hji : j = i
  · rw [hji, h.own, h.frameState, if_pos rfl]
    exact ⟨h.ne_dir, by decide⟩
  · rw [h.other j hji] at hp ⊢
    exact ⟨(htables j hj hp).1, h.inUse (htables j hj hp).2⟩

/-- A page of another entry is mapped as before. -/
theorem pteOf (h : NewTable d i t s s') {va : Nat} (hva : pdeIndex va ≠ i)
    (htable : (s.pdeOf d va).tableFrame ≠ d)
    (hinUse : s.frameState (s.pdeOf d va).tableFrame ≠ pmmStateFree) :
    s'.pteOf d va = s.pteOf d va := by
  rw [KState.pteOf, KState.pdeOf, h.other _ hva]
  exact h.kept _ _ (h.ne_of_inUse hinUse) htable

/-- No page of the new page table is mapped. -/
theorem pteOf_new (h : NewTable d i t s s') {va : Nat} (hva : pdeIndex va = i) :
    s'.pteOf d va = Entry.zero := by
  rw [KState.pteOf, KState.pdeOf, hva, h.own]
  exact h.empty _

end NewTable

/-! ## The invariant -/

/-- The rights of an entry are those that `flags` ask for. -/
def Entry.Grants (e : Entry) (flags : Nat) : Prop :=
  e.writeAllowed = bitIsSet flags pgMapFlagWritable ∧
    e.userAccessable = bitIsUnset flags pgMapFlagKernel

/-- An entry lacks none of the rights that `flags` ask for. -/
def Entry.Permits (e : Entry) (flags : Nat) : Prop :=
  (bitIsSet flags pgMapFlagWritable = true → e.writeAllowed = true) ∧
    (bitIsUnset flags pgMapFlagKernel = true → e.userAccessable = true)

/-- The page tables of the user half belong to one directory entry each, and every mapped page has
the rights of its call. -/
structure RightsInv (d : Nat) (s : KState) (mapped : Nat → Option Nat) : Prop where
  pabOk : PabOk s
  dir : TakenFrame s d
  temp : s.frameState kernelPageTableFrame ≠ pmmStateFree
  tables : ∀ i, i < recursivePdeIndex → (s.entry d i).present = true →
    (s.entry d i).tableFrame ≠ d ∧ s.frameState (s.entry d i).tableFrame ≠ pmmStateFree
  own : ∀ i, i < kernelPdeIndex → (s.entry d i).present = true →
    (s.entry d i).tableFrame ≠ kernelPageTableFrame ∧
      ∀ j, j < recursivePdeIndex → j ≠ i → (s.entry d j).present = true →
        (s.entry d j).tableFrame ≠ (s.entry d i).tableFrame
  pages : ∀ va, va % 4096 = 0 → pdeIndex va < kernelPdeIndex → s.PageMapped d va →
    ∃ flags, mapped va = some flags ∧ (s.pteOf d va).Grants flags ∧ (s.pdeOf d va).Permits flags

namespace RightsInv

/-- Rights that are combined by AND are those of the page when the directory permits them. -/
theorem hasOwnRights (hi : RightsInv d s mapped) : HasOwnRights s d mapped := by
  intro va hal hva hm
  obtain ⟨flags, hflags, ⟨hw, hu⟩, hpw, hpu⟩ := hi.pages va hal hva hm
  refine ⟨flags, hflags, ?_, ?_⟩
  · rw [effWritable, Bool.and_eq_true, hw]
    exact ⟨fun h => h.2, fun h => ⟨hpw h, h⟩⟩
  · rw [effUser, Bool.and_eq_true, hu]
    exact ⟨fun h => h.2, fun h => ⟨hpu h, h⟩⟩

/-- The rest of the kernel keeps the invariant. -/
theorem kept (hi : RightsInv d s mapped) (hk : DirKept d s s') : RightsInv d s' mapped := by
  have hpde : ∀ va, pdeIndex va < kernelPdeIndex → s'.pdeOf d va = s.pdeOf d va :=
    fun va hva => hk.entries _ (by simp only [kernelPdeIndex, recursivePdeIndex] at *; omega)
  refine ⟨hk.pabOk, ⟨hk.inUse _ hi.dir.notFree, hi.dir.notTemp⟩, hk.inUse _ hi.temp, ?_, ?_, ?_⟩
  · intro i hlt hp
    rw [hk.entries i hlt] at hp ⊢
    exact ⟨(hi.tables i hlt hp).1, hk.inUse _ (hi.tables i hlt hp).2⟩
  · intro i hlt hp
    have hlt' : i < recursivePdeIndex := by
      simp only [kernelPdeIndex, recursivePdeIndex] at *
      omega
    rw [hk.entries i hlt'] at hp ⊢
    refine ⟨(hi.own i hlt hp).1, fun j hj hne hpj => ?_⟩
    rw [hk.entries j hj] at hpj ⊢
    exact (hi.own i hlt hp).2 j hj hne hpj
  · intro va hal hva hm
    have hpte : s.PageMapped d va ∧ s'.pteOf d va = s.pteOf d va := by
      have hread := hm.1
      rw [hpde va hva] at hread
      have hpte : s'.pteOf d va = s.pteOf d va := by
        rw [pteOf, hpde va hva]
        exact hk.tables _ hva hread _
      exact ⟨⟨hread, hpte ▸ hm.2⟩, hpte⟩
    rw [hpte.2, hpde va hva]
    exact hi.pages va hal hva hpte.1

/-- Two pages with the same page table and the same entry in it are the same page. -/
theorem page_ext (hi : RightsInv d s mapped) {va' : Nat} (hal : va % 4096 = 0)
    (hal' : va' % 4096 = 0) (hlt : pdeIndex va < recursivePdeIndex)
    (hpde : (s.pdeOf d va).present = true) (hva' : pdeIndex va' < kernelPdeIndex)
    (hpde' : (s.pdeOf d va').present = true)
    (htable : (s.pdeOf d va').tableFrame = (s.pdeOf d va).tableFrame)
    (hpte : pteIndex va' = pteIndex va) : va' = va := by
  have hindex : pdeIndex va = pdeIndex va' := by
    by_contra hne
    exact (hi.own _ hva' hpde').2 _ hlt hne hpde htable.symm
  simp only [pdeIndex, pteIndex] at *
  omega

/-- Writing an entry of a page table keeps the invariant when the entry is absent or has the rights
of the flags that are noted for its page. -/
theorem writePte (hi : RightsInv d s mapped) {e : Entry} (hal : va % 4096 = 0)
    (hlt : pdeIndex va < recursivePdeIndex) (hpde : (s.pdeOf d va).present = true)
    (hmapped : ∀ va', va' ≠ va → mapped' va' = mapped va')
    (hentry : pdeIndex va < kernelPdeIndex → e.present = true →
      ∃ flags, mapped' va = some flags ∧ e.Grants flags ∧ (s.pdeOf d va).Permits flags) :
    RightsInv d (s.setEntry (s.pdeOf d va).tableFrame (pteIndex va) e) mapped' := by
  have hdir : ∀ i, (s.setEntry (s.pdeOf d va).tableFrame (pteIndex va) e).entry d i = s.entry d i :=
    fun i => entry_setEntry_of_ne fun h => (hi.tables _ hlt hpde).1 h.1.symm
  refine ⟨hi.pabOk.congr setEntry_pab, ⟨?_, hi.dir.notTemp⟩, ?_, ?_, ?_, ?_⟩
  · rw [setEntry_frameState]
    exact hi.dir.notFree
  · rw [setEntry_frameState]
    exact hi.temp
  · intro i hi' hp
    rw [hdir] at hp ⊢
    rw [setEntry_frameState]
    exact hi.tables i hi' hp
  · intro i hi' hp
    rw [hdir] at hp ⊢
    refine ⟨(hi.own i hi' hp).1, fun j hj hne hpj => ?_⟩
    rw [hdir] at hpj ⊢
    exact (hi.own i hi' hp).2 j hj hne hpj
  · intro va' hal' hva' hm
    have hpde' : ∀ va', (s.setEntry (s.pdeOf d va).tableFrame (pteIndex va) e).pdeOf d va' =
        s.pdeOf d va' := fun va' => hdir _
    rw [PageMapped, pteOf, hpde'] at hm
    rw [pteOf, hpde']
    by_cases hsame : (s.pdeOf d va').tableFrame = (s.pdeOf d va).tableFrame ∧
        pteIndex va' = pteIndex va
    · obtain rfl := hi.page_ext hal hal' hlt hpde hva' hm.1 hsame.1 hsame.2
      have hslot : ¬ IsTempSlot (s.pdeOf d va').tableFrame (pteIndex va') :=
        fun h => (hi.own _ hva' hpde).1 h.1
      rw [entry_setEntry_self hslot] at hm ⊢
      exact hentry hva' hm.2
    · rw [entry_setEntry_of_ne hsame] at hm ⊢
      have hne : va' ≠ va := by
        rintro rfl
        exact hsame ⟨rfl, rfl⟩
      rw [hmapped va' hne]
      exact hi.pages va' hal' hva' hm

/-- A new page table keeps the invariant. -/
theorem newTable (hi : RightsInv d s mapped) (hpab : PabOk s') (hnew : NewTable d i t s s') :
    RightsInv d s' mapped := by
  have htaken : ∀ j, j < recursivePdeIndex → (s.entry d j).present = true →
      (s.entry d j).tableFrame ≠ t := fun j hj hp => hnew.ne_of_inUse (hi.tables j hj hp).2
  refine ⟨hpab, hnew.takenFrame hi.dir, hnew.inUse hi.temp, hnew.tables hi.tables, ?_, ?_⟩
  · intro j hj hp
    by_cases hji : j = i
    · subst hji
      rw [hnew.own]
      refine ⟨hnew.ne_temp, fun k hk hne hpk => ?_⟩
      rw [hnew.other k hne] at hpk ⊢
      exact htaken k hk hpk
    · rw [hnew.other j hji] at hp ⊢
      refine ⟨(hi.own j hj hp).1, fun k hk hne hpk => ?_⟩
      by_cases hki : k = i
      · rw [hki, hnew.own]
        exact (htaken j (Nat.lt_trans hj (by decide)) hp).symm
      · rw [hnew.other k hki] at hpk ⊢
        exact (hi.own j hj hp).2 k hk hne hpk
  · intro va hal hva hm
    by_cases hvi : pdeIndex va = i
    · have hp := hm.2
      rw [hnew.pteOf_new hvi] at hp
      cases hp
    · have hpde : s'.pdeOf d va = s.pdeOf d va := hnew.other _ hvi
      have hp : (s.pdeOf d va).present = true := hpde ▸ hm.1
      obtain ⟨hdir, hinUse⟩ := hi.tables _ (Nat.lt_trans hva (by decide)) hp
      have hpte := hnew.pteOf hvi hdir hinUse
      rw [PageMapped, hpde, hpte] at hm
      rw [hpde, hpte]
      exact hi.pages va hal hva hm

end RightsInv

/-- The entry that is written for a page has the rights its flags ask for. -/
theorem setupEntry_grants : (setupEntry pa flags).Grants flags := ⟨rfl, rfl⟩

/-- So has the directory entry that is written for the first page of its 4 MB. -/
theorem setupEntry_permits : (setupEntry pa flags).Permits flags := ⟨id, id⟩

/-- `kpg_map` keeps the invariant when it asks for no more than the directory entry gives. -/
theorem RightsInv.map (hi : RightsInv d s mapped) (hd : pd.At d s)
    (hlt : pdeIndex va < recursivePdeIndex) (hflags : bitIsUnset flags pgMapFlagNotPresent = true)
    (hasks : AsksNoMore d s va flags) (h : kpgMap pd va pa flags s = .ok (b, s')) :
    RightsInv d s' (if b = true then Function.update mapped va (some flags) else mapped) := by
  have hupdate : ∀ va', va' ≠ va → Function.update mapped va (some flags) va' = mapped va' :=
    fun va' hne => Function.update_of_ne hne _ _
  rcases kpgMap_spec hi.pabOk hd hi.dir hi.temp h with ⟨rfl, ⟨err, rfl⟩, -⟩ |
    ⟨rfl, hpde, -, rfl⟩ | ⟨rfl, hpde, t, s₁, hfree, ht, hset, rfl⟩
  · exact hi.kept ⟨hi.pabOk.congr rfl, fun _ _ => rfl, fun _ _ _ _ => rfl, fun _ hf => hf⟩
  · exact hi.writePte (kpgMap_aligned h) hlt hpde hupdate fun _ _ =>
      ⟨flags, Function.update_self _ _ _, setupEntry_grants, hasks hpde⟩
  · have hnew : RightsInv d (withPageTable s₁ d (pdeIndex va) t flags) mapped :=
      hi.newTable ((hset.pabOk hi.pabOk).congr setEntry_pab)
        (withPageTable_newTable hi.dir hi.temp hfree ht hset)
    have hself : (withPageTable s₁ d (pdeIndex va) t flags).pdeOf d va =
        setupEntry (pageframesToBytes t) flags := withPageTable_dir hi.dir.not_isTempSlot
    have hpresent : ((withPageTable s₁ d (pdeIndex va) t flags).pdeOf d va).present = true := by
      rw [hself]
      exact hflags
    have hentry : (setupEntry pa flags).Grants flags ∧
        ((withPageTable s₁ d (pdeIndex va) t flags).pdeOf d va).Permits flags :=
      ⟨setupEntry_grants, hself ▸ setupEntry_permits⟩
    have hwrite := hnew.writePte (kpgMap_aligned h) hlt hpresent hupdate fun _ _ =>
      ⟨flags, Function.update_self _ _ _, hentry⟩
    rw [hself, setupEntry_tableFrame (by omega)] at hwrite
    exact hwrite

/-- `kpg_unmap` keeps the invariant. -/
theorem RightsInv.unmap (hi : RightsInv d s mapped) (hd : pd.At d s)
    (hlt : pdeIndex va < recursivePdeIndex) (h : kpgUnmap pd va s = .ok (b, s')) :
    RightsInv d s' (if b = true then Function.update mapped va none else mapped) := by
  rcases kpgUnmap_spec hd h with ⟨rfl, ⟨err, rfl⟩, -⟩ | ⟨rfl, hpde, -, rfl⟩
  · exact hi.kept ⟨hi.pabOk.congr rfl, fun _ _ => rfl, fun _ _ _ _ => rfl, fun _ hf => hf⟩
  · have hupdate : ∀ va', va' ≠ va → Function.update mapped va none va' = mapped va' :=
      fun va' hne => Function.update_of_ne hne _ _
    exact hi.writePte (kpgUnmap_aligned h) hlt hpde hupdate fun _ hp => by cases hp

theorem EmptyUserHalf.inv (h : EmptyUserHalf d s) : RightsInv d s fun _ => none where
  pabOk := h.pabOk
  dir := h.dir
  temp := h.temp
  tables := h.tables
  own i hi hp := by simp [h.empty i hi] at hp
  pages va _ hva hm := by
    have hp := h.empty _ hva
    rw [PageMapped, pdeOf, hp] at hm
    simp at hm

/-- The invariant holds at the end of every run whose calls ask for no more than the directory
entries give. -/
theorem PgRun.inv (hr : PgRun d (AsksNoMore d) s mapped) : RightsInv d s mapped := by
  induction hr with
  | start hs => exact hs.inv
  | map _ hd hlt hflags hasks h ih => exact ih.map hd hlt hflags hasks h
  | unmap _ hd hlt h ih => exact ih.unmap hd hlt h
  | other _ hk ih => exact ih.kept hk

/-- After every run whose calls ask for no more than the directory entries give, every mapped page
has exactly the rights its own call asked for. -/
theorem pg_run_rights (hr : PgRun d (AsksNoMore d) s mapped) : HasOwnRights s d mapped :=
  hr.inv.hasOwnRights

/-- A kernel with an empty page directory at frame `0x23`, in which the frames from `0x40` to `0x43`
are free and the others reserved. -/
def emptyDirectory : KState where
  __ := KState.static [⟨0, 0x50000, mmTypeFree⟩] 0x23 fun _ _ => Entry.zero
  pab := ⟨fun i => if i = 16 then 0 else 0xAA, pabSizeBytes, pabBitsPerState⟩
  phase := .pmmReady

theorem emptyDirectory_empty : EmptyUserHalf 0x23 emptyDirectory where
  pabOk := ⟨rfl, rfl⟩
  dir := ⟨by decide, by decide⟩
  temp := by decide
  empty _ _ := rfl
  tables _ _ hp := by cases hp

/-- The page at 4 MB is mapped first, with these flags. -/
def firstMapped (flags : Nat) : KState :=
  (kpgMap .current 0x400000 0x44000 flags).finalState emptyDirectory

/-- The next page is mapped too, without `PG_MAP_FLAG_WRITABLE`. -/
def secondMapped : KState :=
  (kpgMap .current 0x401000 0x45000 2).finalState (firstMapped 6)

/-- Two pages of one page table, with different rights. -/
theorem pg_run_rights_secondMapped :
    secondMapped.effWritable 0x23 0x400000 = true ∧
      secondMapped.effWritable 0x23 0x401000 = false ∧
      HasOwnRights secondMapped 0x23
        (Function.update (Function.update (fun _ => none) 0x400000 (some 6)) 0x401000
          (some 2)) := by
  have hasks : AsksNoMore 0x23 emptyDirectory 0x400000 6 := by
    intro hp
    cases hp
  have hasks' : AsksNoMore 0x23 (firstMapped 6) 0x401000 2 :=
    show _ → (_ → _) ∧ (_ → _) by decide +kernel
  have hat : PageDirectory.current.At 0x23 emptyDirectory := rfl
  have hat' : PageDirectory.current.At 0x23 (firstMapped 6) :=
    show (firstMapped 6).cr3 = 0x23 by decide +kernel
  have hfirst : kpgMap .current 0x400000 0x44000 6 emptyDirectory = .ok (true, firstMapped 6) :=
    eq_ok_of_value (by decide +kernel)
  have hsecond : kpgMap .current 0x401000 0x45000 2 (firstMapped 6) = .ok (true, secondMapped) :=
    eq_ok_of_value (by decide +kernel)
  have hrun := ((PgRun.start emptyDirectory_empty).map hat (by decide) (by decide) hasks
    hfirst).map hat' (by decide) (by decide) hasks' hsecond
  exact ⟨by decide +kernel, by decide +kernel, pg_run_rights hrun⟩

/-- The next page, mapped with `PG_MAP_FLAG_WRITABLE` after a page without it, cannot be written. -/
theorem rights_lost :
    ¬ ∀ d s mapped, PgRun d (fun _ _ _ => True) s mapped → HasOwnRights s d mapped := by
  intro hall
  have hfirst : kpgMap .current 0x400000 0x44000 2 emptyDirectory = .ok (true, firstMapped 2) :=
    eq_ok_of_value (by decide +kernel)
  have hsecond : kpgMap .current 0x401000 0x45000 6 (firstMapped 2) = .ok (true, _) :=
    eq_ok_of_value (by decide +kernel)
  have hat : PageDirectory.current.At 0x23 emptyDirectory := rfl
  have hat' : PageDirectory.current.At 0x23 (firstMapped 2) :=
    show (firstMapped 2).cr3 = 0x23 by decide +kernel
  have hstart : PgRun 0x23 (fun _ _ _ => True) emptyDirectory fun _ => none :=
    .start emptyDirectory_empty
  have hrun := (hstart.map hat (by decide) (by decide) trivial hfirst).map hat' (by decide)
    (by decide) trivial hsecond
  obtain ⟨flags, hflags, hwrite, -⟩ := hall _ _ _ hrun 0x401000 (by decide) (by decide)
    ⟨by decide +kernel, by decide +kernel⟩
  obtain rfl : 6 = flags := Option.some.inj hflags
  exact absurd (hwrite.2 (by decide)) (by decide +kernel)

end MeghaOS
