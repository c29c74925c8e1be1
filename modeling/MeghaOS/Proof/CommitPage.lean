import MeghaOS.Proof.FreeAddress
import MeghaOS.Proof.Reentry

/-!
# Committing a page

`kvmm_commitPage` takes a page frame before it looks at the page. `kvmmCommitPage_exact` says when
it does what a page fault needs: the first address space that is found must be one whose pages are
committed on access, the page must not be mapped already, or else the page frame that was taken is
lost, and when the page needs a page table there must be a second free page frame for it.
-/

namespace MeghaOS

open Exec KState Bitmap

variable {s s' s₁ : KState} {d f i m a va n pa flags : Nat} {ok : Bool} {v : VMemoryManager}
  {r : VMemoryAddressSpace} {rs : List VMemoryAddressSpace} {l : List Nat} {b : Bitmap}

/-! ## The first free page frame -/

/-- A free frame is one that `kpmm_alloc` may return. -/
theorem mem_freeFrames :
    f ∈ s.freeFrames ↔ f < kpmmGetUsableMemoryPagesCount s ∧ s.frameState f = pmmStateFree := by
  rw [KState.freeFrames, KState.freeIn, Finset.mem_filter, Finset.mem_range]

/-- A run of one frame. -/
theorem freeRun_one_iff (hfree : FreeUsable s) : s.FreeRun 1 f ↔ f ∈ s.freeFrames := by
  have husable := usablePages_le s
  rw [mem_freeFrames]
  constructor
  · intro h
    have hstate := h.free f (Nat.le_refl f) (Nat.lt_succ_self f)
    exact ⟨hfree f h.inside hstate, hstate⟩
  · rintro ⟨hlt, hstate⟩
    refine ⟨by omega, fun j h1 h2 => ?_⟩
    obtain rfl : j = f := by omega
    exact hstate

/-- One page frame is handed out if there is a free one. -/
theorem kpmmAlloc_page (reg : KernelPhysicalMemoryRegions) (hs : PabOk s)
    (hphase : s.phase.check .pmmReady = true) (hfree : FreeUsable s) (hne : s.freeFrames.Nonempty) :
    ∃ f s₁, kpmmAlloc 1 reg s = .ok (some (f * 4096), s₁) ∧
      f ∈ s.freeFrames ∧ SetFrames s s₁ f 1 pmmStateUsed := by
  rcases kpmmAlloc_returns reg hs hphase hfree Nat.one_pos (by decide) with
    ⟨f, s₁, hrun, hfreeRun, -, hset⟩ | ⟨-, hnone⟩
  · exact ⟨f, s₁, hrun, (freeRun_one_iff hfree).1 hfreeRun, hset⟩
  · obtain ⟨g, hg⟩ := hne
    exact absurd ((freeRun_one_iff hfree).2 hg) (hnone g)

/-- No page frame is handed out if there is no free one. -/
theorem kpmmAlloc_none (reg : KernelPhysicalMemoryRegions) (hs : PabOk s)
    (hphase : s.phase.check .pmmReady = true) (hfree : FreeUsable s)
    (hempty : ¬ s.freeFrames.Nonempty) :
    kpmmAlloc 1 reg s = .ok (none, { s with errorNumber := .errOutOfMem }) := by
  rcases kpmmAlloc_returns reg hs hphase hfree Nat.one_pos (by decide) with
    ⟨f, s₁, -, hfreeRun, -⟩ | ⟨hrun, -⟩
  · exact absurd ⟨f, (freeRun_one_iff hfree).1 hfreeRun⟩ hempty
  · exact hrun

/-! ## The address space -/

/-- The address space that the loop of `find_vas` finds for an address. -/
def firstVas (rs : List VMemoryAddressSpace) (va : Nat) : Option VMemoryAddressSpace :=
  rs.find? fun r => r.startVm ≤ va ∧ va < u32 (r.startVm + r.allocationSzBytes)

/-- An address space that is found contains the address. -/
theorem firstVas_covers (h : firstVas rs va = some r) : r ∈ rs ∧ r.Covers va := by
  have hin : r.startVm ≤ va ∧ va < u32 (r.startVm + r.allocationSzBytes) := by
    simpa using List.find?_some h
  exact ⟨List.mem_of_find?_eq_some h, hin.1, Nat.lt_of_lt_of_le hin.2 (Nat.mod_le _ _)⟩

/-- The loop of `find_vas` returns the record of the first address space that it takes to contain
the address. -/
theorem findVasFrom_run (hvas : List.Forall₂ (fun a r => s.objs a = some (.vas r)) l rs)
    (va : Nat) :
    ∃ found, findVasFrom va l s = .ok (found, s) ∧
      Option.Rel (fun a r => s.objs a = some (.vas r)) found (firstVas rs va) := by
  induction hvas with
  | nil => exact ⟨none, rfl, .none⟩
  | @cons a r l rs har _ ih =>
    obtain ⟨found, hrun, hrel⟩ := ih
    have hget : getVas a s = .ok (r, s) := getVas_eq_ok.2 ⟨har, rfl⟩
    rw [findVasFrom, bind_of_ok hget]
    by_cases hin : va ≥ r.startVm ∧ va < u32 (r.startVm + r.allocationSzBytes)
    · rw [if_pos hin]
      refine ⟨some a, rfl, ?_⟩
      rw [firstVas, List.find?_cons_of_pos (by simpa using hin)]
      exact .some har
    · rw [if_neg hin]
      refine ⟨found, hrun, ?_⟩
      rw [firstVas, List.find?_cons_of_neg (by simpa using hin)]
      exact hrel

/-- `find_vas` finds the first entry that covers the address. -/
theorem findVas_run (hm : Manages s m v rs) (va : Nat) :
    ∃ found, findVas m va s = .ok (found, s) ∧
      Option.Rel (fun a r => s.objs a = some (.vas r)) found (firstVas rs va) := by
  have hget : getVmm m s = .ok (v, s) := getVmm_eq_ok.2 ⟨hm.vmm, rfl⟩
  obtain ⟨found, hrun, hrel⟩ := findVasFrom_run hm.vas va
  exact ⟨found, (bind_of_ok hget).trans hrun, hrel⟩

/-- The paging flags of an address space ask for a present page with the rights of the address
space. -/
theorem pgFlagsOf_bits (flags : Nat) :
    bitIsUnset (pgFlagsOf flags) pgMapFlagNotPresent = true ∧
      bitIsSet (pgFlagsOf flags) pgMapFlagWritable = bitIsUnset flags vmmMemmapFlagReadonly ∧
      bitIsUnset (pgFlagsOf flags) pgMapFlagKernel = bitIsUnset flags vmmMemmapFlagKernelPage := by
  unfold pgFlagsOf bitIsUnset
  generalize bitIsSet flags vmmMemmapFlagKernelPage = k
  generalize bitIsSet flags vmmMemmapFlagReadonly = r
  cases k <;> cases r <;> decide

/-! ## The call -/

/-- The state of a page fault: the page frames are managed, the temporary mappings are closed, and
the page directory of the manager is the one at frame `d`, in a frame that is in use. -/
structure CommitReady (s : KState) (m : Nat) (v : VMemoryManager) (rs : List VMemoryAddressSpace)
    (d : Nat) : Prop where
  pabOk : PabOk s
  phase : s.phase.check .pmmReady = true
  free : FreeUsable s
  manages : Manages s m v rs
  frame : d < 2 ^ 20
  pd : v.parentProcessPD = d * 4096
  ext : s.tempExt = none
  int : s.tempInt = none
  dir : TakenFrame s d
  temp : s.frameState kernelPageTableFrame ≠ pmmStateFree

/-- The rest of `kvmm_commitPage` when the page frame is taken and the page directory is open. -/
def mapPage (m page pa flags : Nat) : K Bool := do
  let mapped ← kpgMap .temp page pa flags
  kpgTemporaryUnmap
  if mapped then
    modifyVmm m fun v => { v with isPageDirectoryDirty := true }
    return true
  else return false

/-- The address of the page of an address. -/
theorem alignDown_page (va : Nat) : alignDown va pageFrameSizeBytes = va / 4096 * 4096 := by
  unfold alignDown
  split
  · rename_i hal
    have := isAligned_page_iff.1 hal
    omega
  · rfl

/-- An address in no address space, or in one whose pages are not committed on access, is
refused. -/
theorem kvmmCommitPage_refused (h : CommitReady s m v rs d)
    (hno : ∀ r, firstVas rs va = some r → ¬ r.Lazy) :
    ∃ e, kvmmCommitPage m va s = .ok (false, { s with errorNumber := e }) := by
  obtain ⟨found, hfind, hrel⟩ := findVas_run h.manages va
  rw [kvmmCommitPage, bind_of_ok hfind]
  generalize hfirst : firstVas rs va = first at hrel
  cases hrel with
  | none => exact ⟨_, rfl⟩
  | @some a r har =>
    have hlazy := hno r hfirst
    have hget : getVas a s = .ok (r, s) := getVas_eq_ok.2 ⟨har, rfl⟩
    dsimp only
    rw [bind_of_ok hget]
    by_cases hcommitted : bitIsSet r.flags vmmMemmapFlagImmcommit = true ∨
        bitIsSet r.flags vmmMemmapFlagCommitted = true
    · rw [if_pos hcommitted]
      exact ⟨_, rfl⟩
    · rw [not_or, Bool.not_eq_true, Bool.not_eq_true] at hcommitted
      have hnull : bitIsSet r.flags vmmMemmapFlagNullpage = true := by
        by_contra hnull
        exact hlazy ⟨hcommitted.1, hcommitted.2, Bool.not_eq_true _ ▸ hnull⟩
      rw [if_neg (by simp [hcommitted]), if_pos hnull]
      exact ⟨_, rfl⟩

/-- An address in an address space whose pages are committed on access. -/
theorem kvmmCommitPage_lazy (h : CommitReady s m v rs d) (hfirst : firstVas rs va = some r)
    (hlazy : r.Lazy) :
    kvmmCommitPage m va s = (do
      let (done, _) ← commitVirtualPages m (va / 4096 * 4096) none 1 r.flags
      return done : K Bool) s := by
  obtain ⟨found, hfind, hrel⟩ := findVas_run h.manages va
  rw [kvmmCommitPage, bind_of_ok hfind]
  rw [hfirst] at hrel
  cases hrel with
  | @some a _ har =>
    have hget : getVas a s = .ok (r, s) := getVas_eq_ok.2 ⟨har, rfl⟩
    obtain ⟨himm, hcom, hnull⟩ := hlazy
    dsimp only
    rw [bind_of_ok hget, if_neg (by simp [himm, hcom]), if_neg (by simp [hnull]), alignDown_page]

/-- Without a free page frame the call fails. -/
theorem kvmmCommitPage_outOfMem (h : CommitReady s m v rs d) (hfirst : firstVas rs va = some r)
    (hlazy : r.Lazy) (hempty : ¬ s.freeFrames.Nonempty) :
    kvmmCommitPage m va s = .ok (false, { s with errorNumber := .errOutOfMem }) := by
  have hget : getVmm m s = .ok (v, s) := getVmm_eq_ok.2 ⟨h.manages.vmm, rfl⟩
  have halloc := kpmmAlloc_none v.physicalRegion h.pabOk h.phase h.free hempty
  have hpages : pagesToCommit m none 1 s = .ok (none, { s with errorNumber := .errOutOfMem }) :=
    (bind_of_ok hget).trans halloc
  rw [kvmmCommitPage_lazy h hfirst hlazy, commitVirtualPages, bind_assoc, bind_of_ok hpages]
  rfl

/-- With one, it is mapped. -/
theorem kvmmCommitPage_taken (h : CommitReady s m v rs d) (hfirst : firstVas rs va = some r)
    (hlazy : r.Lazy) (halloc : kpmmAlloc 1 v.physicalRegion s = .ok (some (f * 4096), s₁))
    (hset : SetFrames s s₁ f 1 pmmStateUsed) :
    kvmmCommitPage m va s =
      mapPage m (va / 4096 * 4096) (f * 4096) (pgFlagsOf r.flags) (s₁.opened d) := by
  have hget : getVmm m s = .ok (v, s) := getVmm_eq_ok.2 ⟨h.manages.vmm, rfl⟩
  have hpages : pagesToCommit m none 1 s = .ok (some (f * 4096), s₁) :=
    (bind_of_ok hget).trans halloc
  have hobjs : s₁.objs m = some (.vmm v) := by
    rw [hset.eq]
    exact h.manages.vmm
  have hext : s₁.tempExt = none := by
    rw [hset.eq]
    exact h.ext
  have hget₁ : getVmm m s₁ = .ok (v, s₁) := getVmm_eq_ok.2 ⟨hobjs, rfl⟩
  have hmap : kpgTemporaryMap v.parentProcessPD s₁ = .ok (.temp, s₁.opened d) :=
    kpgTemporaryMap_opens h.frame h.pd hext
  rw [kvmmCommitPage_lazy h hfirst hlazy, commitVirtualPages, bind_assoc, bind_of_ok hpages]
  dsimp only
  rw [bind_assoc, bind_of_ok hget₁, bind_assoc, bind_of_ok hmap, kpgMapContinous,
    if_neg (by decide),
    mapContinousFrom, mapPage]
  simp only [bind_assoc]
  cases hrun : kpgMap .temp (va / 4096 * 4096) (f * 4096) (pgFlagsOf r.flags) (s₁.opened d) with
  | error e => rw [bind_of_error hrun, bind_of_error hrun]
  | ok p =>
    obtain ⟨b, s₂⟩ := p
    rw [bind_of_ok hrun, bind_of_ok hrun]
    cases b <;> simp [mapContinousFrom]

/-! ## The page -/

/-- The page of an address is seen to be mapped in the open directory when its entries are present,
or when it is that of the internal temporary mapping. -/
theorem mapped_opened_iff (va : Nat) (hext : s.tempExt = some d) (hint : s.tempInt = none) :
    s.lookup .temp va ≠ none ↔ (s.pdeOf d va).present = true ∧
      ((s.pteOf d va).present = true ∨ IsIntSlot (s.pdeOf d va).tableFrame (pteIndex va)) := by
  have hseen : (s.seenPte d va).present = true ↔
      ((s.pteOf d va).present = true ∨ IsIntSlot (s.pdeOf d va).tableFrame (pteIndex va)) := by
    by_cases hslot : IsIntSlot (s.pdeOf d va).tableFrame (pteIndex va)
    · rw [seenPte, entry_intSlot hslot]
      exact iff_of_true rfl (.inr hslot)
    · rw [OpenDirectory.seenPte_eq hslot]
      exact ⟨.inl, fun h => h.resolve_right hslot⟩
  rw [lookup_opened hext hint, ← hseen]
  by_cases hp : (s.pdeOf d va).present = true ∧ (s.seenPte d va).present = true
  · rw [if_pos hp]
    exact iff_of_true (by simp) hp
  · rw [if_neg hp]
    exact iff_of_false (by simp) hp

/-- The entry of the page is the one that `kpg_map` writes, and can be read. -/
structure PageWritten (d va pa flags : Nat) (s : KState) : Prop where
  ext : s.tempExt = some d
  int : s.tempInt = none
  present : (s.pdeOf d va).present = true
  slot : ¬ IsTempSlot (s.pdeOf d va).tableFrame (pteIndex va)
  pte : s.pteOf d va = setupEntry pa flags

/-- The page is mapped to the frame. -/
theorem PageWritten.lookup (h : PageWritten d va (f * 4096) flags s) (hf : f < 2 ^ 20)
    (hva : va % 4096 = 0) (hflags : bitIsUnset flags pgMapFlagNotPresent = true) :
    s.lookup .temp va = some (f * 4096) := by
  have hseen : s.seenPte d va = setupEntry (f * 4096) flags := by
    rw [OpenDirectory.seenPte_eq fun hint => h.slot ⟨hint.1, .inr hint.2⟩, h.pte]
  have hframe : (setupEntry (f * 4096) flags).pageFrame % 2 ^ 20 = f := by
    have heq : (setupEntry (f * 4096) flags).pageFrame = f := by
      rw [setupEntry, physicalToPageframe_eq, Nat.mul_div_cancel f (by decide), Nat.mod_eq_of_lt hf]
    rw [heq, Nat.mod_eq_of_lt hf]
  rw [lookup_opened h.ext h.int, hseen, if_pos ⟨h.present, hflags⟩, show pageOffset va = 0 from hva,
    pageframesToBytes_or_zero, hframe]

/-- What `kpg_map` of a page does in the open directory: it reports that the page is mapped, or it
writes the entry of a page that is not. -/
theorem kpgMap_opened {o o₂ : KState} {b : Bool} (hext : o.tempExt = some d)
    (hint : o.tempInt = none)
    (hpab : PabOk o) (hdir : TakenFrame o d)
    (htemp : o.frameState kernelPageTableFrame ≠ pmmStateFree)
    (hva : va % 4096 = 0) (hpa : pa % 4096 = 0)
    (hflags : bitIsUnset flags pgMapFlagNotPresent = true)
    (hrun : kpgMap .temp va pa flags o = .ok (b, o₂)) :
    (b = false ∧ o.lookup .temp va ≠ none ∧ ∃ e, o₂ = { o with errorNumber := e }) ∨
      (b = true ∧ o.lookup .temp va = none ∧ (o.pdeOf d va).present = true ∧
        ¬ IsTempSlot (o.pdeOf d va).tableFrame (pteIndex va) ∧ (o.pteOf d va).present = false ∧
        o₂ = o.setEntry (o.pdeOf d va).tableFrame (pteIndex va) (setupEntry pa flags)) ∨
      (b = true ∧ o.lookup .temp va = none ∧ (o.pdeOf d va).present = false ∧
        ∃ t o₁, o.frameState t = pmmStateFree ∧ t < 2 ^ 14 ∧ SetFrames o o₁ t 1 pmmStateUsed ∧
          o₂ = (withPageTable o₁ d (pdeIndex va) t flags).setEntry t (pteIndex va)
              (setupEntry pa flags)) := by
  have hd : PageDirectory.temp.At d o := hext
  have hclosed := kpgMap_keepsInt _ _ _ _ _ _ _ hrun hint
  have hmapped := mapped_opened_iff va hext hint
  rcases kpgMap_spec hpab hd hdir htemp hrun with ⟨rfl, herr, hfull⟩ | ⟨rfl, hpde, hfree, rfl⟩ |
    ⟨rfl, hpde, hnew⟩
  · exact .inl ⟨rfl, hmapped.2 (hfull hva hpa), herr⟩
  · change (o.pdeOf d va).present = true at hpde
    change (o.pteOf d va).present = false at hfree
    change (o.setEntry (o.pdeOf d va).tableFrame (pteIndex va) (setupEntry pa flags)).tempInt =
      none at hclosed
    have hslot : ¬ IsTempSlot (o.pdeOf d va).tableFrame (pteIndex va) := by
      rintro ⟨ht, hi | hi⟩
      · rw [pteOf, entry_extSlot ⟨ht, hi⟩, hext] at hfree
        cases hfree
      · rw [setEntry_intSlot ⟨ht, hi⟩, setupEntry, if_pos hflags] at hclosed
        cases hclosed
    refine .inr (.inl ⟨rfl, ?_, hpde, hslot, hfree, rfl⟩)
    by_contra hno
    rcases (hmapped.1 hno).2 with hp | hint'
    · exact absurd (hp.symm.trans hfree) (by simp)
    · exact hslot ⟨hint'.1, .inr hint'.2⟩
  · change (o.pdeOf d va).present = false at hpde
    refine .inr (.inr ⟨rfl, ?_, hpde, hnew⟩)
    by_contra hno
    exact absurd ((hmapped.1 hno).1.symm.trans hpde) (by simp)

/-- The page frame `f` was free and is in use, and the page of the address is mapped to it with the
rights of the address space. No other page frame changed, but for that of a new page table. -/
structure PageCommitted (d va f : Nat) (r : VMemoryAddressSpace) (s s' : KState) : Prop where
  free : s.frameState f = pmmStateFree
  used : s'.frameState f = pmmStateUsed
  frames : ∀ g, g ≠ f → (s.pdeOf d va).present = true ∨ g ≠ (s'.pdeOf d va).tableFrame →
    s'.frameState g = s.frameState g
  mapped : s'.mapping d (va / 4096 * 4096) = some (f * 4096)
  writable : s'.effWritable d va = bitIsUnset r.flags vmmMemmapFlagReadonly
  user : s'.effUser d va = bitIsUnset r.flags vmmMemmapFlagKernelPage

/-- The entries and the page frames are those of a state with the page directory open, which is
closed. -/
structure ClosedFrom (o s : KState) : Prop where
  mem : s.mem = o.mem
  pab : s.pab = o.pab
  int : s.tempInt = o.tempInt
  ext : s.tempExt = none

/-- What the call does when `kpg_map` returned and left the page directory open. -/
theorem mapPage_of_map {page : Nat} {o o₂ : KState}
    (hrun : kpgMap .temp page pa flags o = .ok (ok, o₂))
    (hext : o₂.tempExt ≠ none) (hvmm : o₂.objs m = some (.vmm v)) :
    ∃ s', mapPage m page pa flags o = .ok (ok, s') ∧ ClosedFrom o₂ s' := by
  have hunmap : kpgTemporaryUnmap o₂ = .ok ((), { o₂ with tempExt := none }) := by
    rw [kpgTemporaryUnmap, get_bind_apply, if_neg hext]
    rfl
  rw [mapPage, bind_of_ok hrun, bind_of_ok hunmap]
  cases ok with
  | false => exact ⟨_, rfl, rfl, rfl, rfl, rfl⟩
  | true =>
    refine ⟨KState.setObj { o₂ with tempExt := none } m
      (.vmm { v with isPageDirectoryDirty := true }), ?_,
      rfl, rfl, rfl, rfl⟩
    rw [if_pos rfl, modifyVmm_bind_eq_ok]
    exact ⟨v, hvmm, rfl⟩

/-- What `kpg_map` leaves behind: the entry is written, the page frame `f` is in use, and no other
page frame changed, but for that of a new page table, which is entered with the flags of the
page. -/
structure PageMade (d va f flags : Nat) (s o : KState) : Prop where
  written : PageWritten d va (f * 4096) flags o
  used : o.frameState f = pmmStateUsed
  frames : ∀ g, g ≠ f → (s.pdeOf d va).present = true ∨ g ≠ (o.pdeOf d va).tableFrame →
    o.frameState g = s.frameState g
  old : (s.pdeOf d va).present = true → o.pdeOf d va = s.pdeOf d va
  new : (s.pdeOf d va).present = false → ∃ pa, o.pdeOf d va = setupEntry pa flags

namespace CommitReady

section

variable (h : CommitReady s m v rs d) (hset : SetFrames s s₁ f 1 pmmStateUsed)

include h hset

/-- What is left of the readiness when the page frame is taken and the directory is open. -/
theorem opened : PabOk (s₁.opened d) ∧ TakenFrame (s₁.opened d) d ∧
    (s₁.opened d).frameState kernelPageTableFrame ≠ pmmStateFree := by
  have hkeep : ∀ g, s.frameState g ≠ pmmStateFree → (s₁.opened d).frameState g ≠ pmmStateFree := by
    intro g hg
    show s₁.frameState g ≠ _
    rw [hset.frameState]
    split
    · decide
    · exact hg
  exact ⟨(hset.pabOk h.pabOk).congr rfl, ⟨hkeep d h.dir.notFree, h.dir.notTemp⟩, hkeep _ h.temp⟩

/-- While the directory is open the slot of the paging code is empty. -/
theorem opened_int : (s₁.opened d).tempInt = none := by
  show s₁.tempInt = none
  rw [hset.eq]
  exact h.int

/-- The directory is the same. -/
theorem opened_pdeOf (va : Nat) : (s₁.opened d).pdeOf d va = s.pdeOf d va := by
  rw [pdeOf, entry_mem h.dir.not_isTempSlot, pdeOf, entry_mem h.dir.not_isTempSlot]
  show s₁.mem d (pdeIndex va) = _
  rw [hset.eq]

/-- The lookup in the open directory is the mapping. -/
theorem opened_lookup (va : Nat) : (s₁.opened d).lookup .temp va = s.mapping d va := by
  refine lookup_congr rfl h.int rfl (h.opened_int hset) ?_
  show s₁.mem = s.mem
  rw [hset.eq]

/-- A page that is mapped is not mapped again. -/
theorem kpgMap_of_mapped (hva : va % 4096 = 0) (hpa : pa % 4096 = 0)
    (hflags : bitIsUnset flags pgMapFlagNotPresent = true) (hmapped : s.mapping d va ≠ none) :
    ∃ e, kpgMap .temp va pa flags (s₁.opened d) =
      .ok (false, { s₁.opened d with errorNumber := e }) := by
  obtain ⟨hpab, hdir, htemp⟩ := h.opened hset
  have hint := h.opened_int hset
  rw [← h.opened_lookup hset] at hmapped
  have htable : ¬ NoTableFor d (s₁.opened d) va := fun hno => by
    have hpde := ((mapped_opened_iff va rfl hint).1 hmapped).1
    exact absurd (hpde.symm.trans hno.1) (by simp)
  have hd : PageDirectory.temp.At d (s₁.opened d) := rfl
  obtain ⟨b, o₂, hrun⟩ := (kpgMap_returns hpab hdir hint hd hva hpa).2 htable
  rcases kpgMap_opened rfl hint hpab hdir htemp hva hpa hflags hrun with ⟨rfl, -, e, rfl⟩ |
    ⟨-, hnone, -⟩ | ⟨-, hnone, -⟩
  · exact ⟨e, hrun⟩
  · exact absurd hnone hmapped
  · exact absurd hnone hmapped

/-- A page that is not mapped is mapped, when the page table that it needs can be made. -/
theorem kpgMap_of_unmapped (hva : va % 4096 = 0) (hf : f < 16384)
    (hflags : bitIsUnset flags pgMapFlagNotPresent = true)
    (hmapped : s.mapping d va = none) {b : Bool}
    {o₂ : KState} (hrun : kpgMap .temp va (f * 4096) flags (s₁.opened d) = .ok (b, o₂)) :
    b = true ∧ PageMade d va f flags s o₂ ∧ o₂.objs = s.objs := by
  obtain ⟨hpab, hdir, htemp⟩ := h.opened hset
  have hint := h.opened_int hset
  have hpdeEq := h.opened_pdeOf hset va
  have hframes : ∀ g, (s₁.opened d).frameState g = if g = f then
      pmmStateUsed else s.frameState g := by
    intro g
    show s₁.frameState g = _
    rw [hset.frameState]
    refine if_congr ?_ rfl rfl
    omega
  have hobjs : (s₁.opened d).objs = s.objs := by
    show s₁.objs = s.objs
    rw [hset.eq]
  have hext : (s₁.opened d).tempExt = some d := rfl
  rw [← h.opened_lookup hset] at hmapped
  generalize s₁.opened d = o at *
  rcases kpgMap_opened hext hint hpab hdir htemp hva (Nat.mul_mod_left f 4096) hflags hrun with
    ⟨-, hsome, -⟩ | ⟨rfl, -, hpde, hslot, hfree, rfl⟩ | ⟨rfl, -, hpde, t, o₁, htfree,
      htlt, hset', rfl⟩
  · exact absurd hmapped hsome
  · refine ⟨rfl, ?_, ?_⟩
    · have hne : ¬ (d = (o.pdeOf d va).tableFrame ∧ pdeIndex va = pteIndex va) := by
        rintro ⟨h1, h2⟩
        rw [pteOf, ← h1, ← h2] at hfree
        exact absurd (hpde.symm.trans hfree) (by simp)
      have hpde' : (o.setEntry (o.pdeOf d va).tableFrame (pteIndex va)
          (setupEntry (f * 4096) flags)).pdeOf d va = o.pdeOf d va := entry_setEntry_of_ne hne
      refine ⟨⟨?_, ?_, ?_, ?_, ?_⟩, ?_, fun g hg _ => ?_, fun _ => hpde'.trans hpdeEq,
        fun habs => ?_⟩
      · rw [setEntry_mem hslot]
        exact hext
      · rw [setEntry_mem hslot]
        exact hint
      · rw [hpde']
        exact hpde
      · rw [hpde']
        exact hslot
      · rw [pteOf, hpde', entry_setEntry_self hslot]
      · rw [setEntry_frameState, hframes, if_pos rfl]
      · rw [setEntry_frameState, hframes, if_neg hg]
      · rw [← hpdeEq, hpde] at habs
        cases habs
    · rw [setEntry_mem hslot]
      exact hobjs
  · have hmade : NewTable d (pdeIndex va) t _ (withPageTable o₁ d (pdeIndex va) t flags) :=
      withPageTable_newTable hdir htemp htfree htlt hset'
    have hslot : ¬ IsTempSlot t (pteIndex va) := fun hs => hmade.ne_temp hs.1
    have htf : t ≠ f := by
      rintro rfl
      rw [hframes, if_pos rfl] at htfree
      cases htfree
    have hstate : ∀ g, ((withPageTable o₁ d (pdeIndex va) t flags).setEntry t (pteIndex va)
        (setupEntry (f * 4096) flags)).frameState g = if g = t then
            pmmStateUsed else o.frameState g := by
      intro g
      rw [setEntry_frameState]
      exact hmade.frameState g
    have hnew : ((withPageTable o₁ d (pdeIndex va) t flags).setEntry t (pteIndex va)
        (setupEntry (f * 4096) flags)).pdeOf d va = setupEntry (pageframesToBytes t) flags := by
      have hkeep : ((withPageTable o₁ d (pdeIndex va) t flags).setEntry t (pteIndex va)
          (setupEntry (f * 4096) flags)).pdeOf d va =
            (withPageTable o₁ d (pdeIndex va) t flags).entry d (pdeIndex va) :=
        entry_setEntry_of_ne fun heq => hmade.ne_dir heq.1.symm
      rw [hkeep, withPageTable_dir hdir.not_isTempSlot]
    have htable : (setupEntry (pageframesToBytes t) flags).tableFrame = t :=
      setupEntry_tableFrame (by omega)
    refine ⟨rfl, ⟨⟨?_, ?_, ?_, ?_, ?_⟩, ?_, fun g hg hgt => ?_, fun hp => ?_, fun _ => ⟨_, hnew⟩⟩,
      ?_⟩
    · rw [setEntry_mem hslot, withPageTable, setEntry_mem hdir.not_isTempSlot, hset'.eq]
      exact hext
    · rw [setEntry_mem hslot, withPageTable, setEntry_mem hdir.not_isTempSlot, hset'.eq]
      exact hint
    · rw [hnew]
      exact hflags
    · rw [hnew, htable]
      exact hslot
    · rw [pteOf, hnew, htable, entry_setEntry_self hslot]
    · rw [hstate, if_neg htf.symm, hframes, if_pos rfl]
    · rw [hnew, htable, ← hpdeEq, hpde] at hgt
      rw [hstate, if_neg (hgt.resolve_left (by simp)), hframes, if_neg hg]
    · rw [← hpdeEq, hpde] at hp
      cases hp
    · rw [setEntry_mem hslot, withPageTable, setEntry_mem hdir.not_isTempSlot, hset'.eq]
      exact hobjs

/-- Making the page table that a page needs takes a second free page frame. -/
theorem kpgMap_returns_iff (flags : Nat) (hva : va % 4096 = 0) (hfree : f ∈ s.freeFrames) :
    (∃ b o₂, kpgMap .temp va (f * 4096) flags (s₁.opened d) = .ok (b, o₂)) ↔
      ((s.pdeOf d va).present = false → 1 < s.freeFrames.card) := by
  obtain ⟨hpab, hdir, -⟩ := h.opened hset
  have hd : PageDirectory.temp.At d (s₁.opened d) := rfl
  have husable : kpmmGetUsableMemoryPagesCount (s₁.opened d) = kpmmGetUsableMemoryPagesCount s := by
    rw [hset.eq]
    rfl
  have hframes : ∀ g, (s₁.opened d).frameState g = if g = f then
      pmmStateUsed else s.frameState g := by
    intro g
    show s₁.frameState g = _
    rw [hset.frameState]
    refine if_congr ?_ rfl rfl
    omega
  have hphase : (s₁.opened d).phase.check .pmmReady = true := by
    show s₁.phase.check .pmmReady = true
    rw [hset.eq]
    exact h.phase
  have hmem : ∀ g, g ∈ (s₁.opened d).freeFrames ↔ g ≠ f ∧ g ∈ s.freeFrames := by
    intro g
    rw [mem_freeFrames, mem_freeFrames, husable, hframes]
    by_cases hg : g = f
    · rw [if_pos hg]
      exact iff_of_false (fun hno => absurd hno.2 (by decide)) fun hno => hno.1 hg
    · rw [if_neg hg]
      exact ⟨fun hm => ⟨hg, hm⟩, And.right⟩
  have husables : FreeUsable (s₁.opened d) := fun g hg hgfree => by
    rw [hframes] at hgfree
    rw [husable]
    split at hgfree
    · cases hgfree
    · exact h.free g hg hgfree
  have hcard : (s₁.opened d).freeFrames.Nonempty ↔ 1 < s.freeFrames.card := by
    constructor
    · rintro ⟨g, hg⟩
      obtain ⟨hgf, hgs⟩ := (hmem g).1 hg
      exact Finset.one_lt_card.2 ⟨g, hgs, f, hfree, hgf⟩
    · intro hlt
      obtain ⟨g, hgs, hgf⟩ := Finset.exists_mem_ne hlt f
      exact ⟨g, (hmem g).2 ⟨hgf, hgs⟩⟩
  rw [kpgMap_returns hpab hdir (h.opened_int hset) hd hva (Nat.mul_mod_left f 4096), NoTableFor,
    h.opened_pdeOf hset, not_and, ← hcard]
  refine imp_congr_right fun _ => ?_
  constructor
  · intro hno
    by_contra hempty
    refine hno fun a s₂ halloc => ?_
    rw [kpmmAlloc_none .pmmRegionAny hpab hphase husables hempty] at halloc
    cases halloc
  · intro hne hno
    obtain ⟨g, s₂, halloc, -⟩ := kpmmAlloc_page .pmmRegionAny hpab hphase husables hne
    exact hno _ _ halloc

end

end CommitReady

/-- The directory entry of an address is that of its page. -/
theorem pdeOf_page (s : KState) (d va : Nat) : s.pdeOf d (va / 4096 * 4096) = s.pdeOf d va := by
  have hindex : pdeIndex (va / 4096 * 4096) = pdeIndex va := by
    unfold pdeIndex
    omega
  rw [pdeOf, hindex, pdeOf]

/-- The entries of the page behind the call. -/
theorem PageMade.entries {o : KState} (h : CommitReady s m v rs d)
    (hmade : PageMade d (va / 4096 * 4096) f flags s o) (hclosed : ClosedFrom o s') :
    s'.pdeOf d va = o.pdeOf d (va / 4096 * 4096) ∧ s'.pteOf d va = setupEntry (f * 4096) flags := by
  have hpde : s'.pdeOf d va = o.pdeOf d (va / 4096 * 4096) := by
    rw [pdeOf_page, pdeOf, entry_mem h.dir.not_isTempSlot, hclosed.mem, pdeOf,
      entry_mem h.dir.not_isTempSlot]
  have hpteIndex : pteIndex (va / 4096 * 4096) = pteIndex va := by
    unfold pteIndex
    omega
  have hslot := hmade.written.slot
  have hpte := hmade.written.pte
  refine ⟨hpde, ?_⟩
  rw [pteOf, entry_mem hslot] at hpte
  rw [pteOf, hpde, ← hpteIndex, entry_mem hslot, hclosed.mem]
  exact hpte

/-- The page has the rights of the address space if and only if the directory entry, where there was
one, permits them. -/
theorem PageMade.rights_iff {o : KState} (h : CommitReady s m v rs d)
    (hmade : PageMade d (va / 4096 * 4096) f (pgFlagsOf r.flags) s o) (hclosed : ClosedFrom o s') :
    (s'.effWritable d va = bitIsUnset r.flags vmmMemmapFlagReadonly ∧
      s'.effUser d va = bitIsUnset r.flags vmmMemmapFlagKernelPage) ↔
      ((s.pdeOf d va).present = true → (s.pdeOf d va).Permits (pgFlagsOf r.flags)) := by
  obtain ⟨hpde, hpte⟩ := hmade.entries h hclosed
  obtain ⟨-, hwrite, huser⟩ := pgFlagsOf_bits r.flags
  have hold := hmade.old
  have hnew := hmade.new
  rw [pdeOf_page s] at hold hnew
  rw [effWritable, effUser, hpde, hpte, ← hwrite, ← huser, Entry.Permits]
  cases hp : (s.pdeOf d va).present with
  | true =>
    rw [hold hp]
    simp [setupEntry]
  | false =>
    obtain ⟨pa, heq⟩ := hnew hp
    rw [heq]
    simp [setupEntry]

/-- The page is committed when it has the rights. -/
theorem PageMade.pageCommitted {o : KState} (h : CommitReady s m v rs d)
    (hmade : PageMade d (va / 4096 * 4096) f (pgFlagsOf r.flags) s o) (hclosed : ClosedFrom o s')
    (hf : f < 16384) (hfree : s.frameState f = pmmStateFree)
    (hpermits : (s.pdeOf d va).present = true → (s.pdeOf d va).Permits (pgFlagsOf r.flags)) :
    PageCommitted d va f r s s' := by
  have hstate : ∀ g, s'.frameState g = o.frameState g := fun g => by
    rw [frameState, hclosed.pab, frameState]
  obtain ⟨hwritable, huser⟩ := (hmade.rights_iff h hclosed).2 hpermits
  refine ⟨hfree, (hstate f).trans hmade.used, fun g hg hgt => ?_, ?_, hwritable, huser⟩
  · rw [(hmade.entries h hclosed).1, ← pdeOf_page s] at hgt
    exact (hstate g).trans (hmade.frames g hg hgt)
  · have hlookup := hmade.written.lookup (by omega) (Nat.mul_mod_left _ 4096)
      (pgFlagsOf_bits r.flags).1
    rw [mapping, ← hlookup]
    exact lookup_congr hmade.written.ext hmade.written.int rfl
      (hclosed.int.trans hmade.written.int) hclosed.mem

/-! ## What the call is for -/

/-- A page fault at the address can be resolved: the address lies in an address space whose pages
are committed on access, its page is not mapped, and there is a free page frame. -/
def Committable (s : KState) (d : Nat) (rs : List VMemoryAddressSpace) (va : Nat) : Prop :=
  (∃ r ∈ rs, r.Covers va ∧ r.Lazy) ∧ s.mapping d va = none ∧ s.freeFrames.Nonempty

/-- The call succeeds if and only if the page fault can be resolved. It then commits the page with
the rights of the address space, and else it leaves the page frames and the mappings as they are. -/
def CommitsPage (s : KState) (m d : Nat) (rs : List VMemoryAddressSpace) (va : Nat) : Prop :=
  ∃ ok s', kvmmCommitPage m va s = .ok (ok, s') ∧ (ok = true ↔ Committable s d rs va) ∧
    (ok = true → ∃ r f, firstVas rs va = some r ∧ PageCommitted d va f r s s') ∧
    (ok = false → s'.pab = s.pab ∧ ∀ va', s'.mapping d va' = s.mapping d va')

/-- The page is not mapped; the directory entry, where there is one, permits the rights of the
address space, and where there is none, there is a second free page frame for the page table. -/
structure PageReady (s : KState) (d va : Nat) (r : VMemoryAddressSpace) : Prop where
  unmapped : s.mapping d va = none
  permits : (s.pdeOf d va).present = true → (s.pdeOf d va).Permits (pgFlagsOf r.flags)
  table : (s.pdeOf d va).present = false → 1 < s.freeFrames.card

/-- The call fails without a trace. -/
theorem commitsPage_of_error (h : CommitReady s m v rs d) {e : KernelErrorCodes}
    (hrun : kvmmCommitPage m va s = .ok (false, { s with errorNumber := e })) :
    CommitsPage s m d rs va ↔ ¬ Committable s d rs va := by
  constructor
  · rintro ⟨ok, s', hrun', hiff, -⟩
    obtain rfl : ok = false := (Prod.mk.inj (Except.ok.inj (hrun'.symm.trans hrun))).1
    exact fun hcom => absurd (hiff.2 hcom) (by simp)
  · refine fun hno => ⟨false, _, hrun, iff_of_false (by simp) hno, fun hok => (by cases hok),
      fun _ => ⟨rfl, ?_⟩⟩
    exact fun va' => lookup_congr rfl h.int rfl h.int rfl

/-- `kvmm_commitPage` does what a page fault needs if and only if the first address space that it
finds is one whose pages are committed on access and the page is ready, or there is no free page
frame, or it finds no such address space and there is none. -/
theorem kvmmCommitPage_exact (h : CommitReady s m v rs d) :
    CommitsPage s m d rs va ↔
      (∀ r, firstVas rs va = some r → r.Lazy → s.freeFrames.Nonempty → PageReady s d va r) ∧
      ((∀ r, firstVas rs va = some r → ¬ r.Lazy) → ¬ Committable s d rs va) := by
  by_cases hfound : ∃ r, firstVas rs va = some r ∧ r.Lazy
  swap
  · have hno : ∀ r, firstVas rs va = some r → ¬ r.Lazy := fun r hr hlazy => hfound ⟨r, hr, hlazy⟩
    obtain ⟨e, hrun⟩ := kvmmCommitPage_refused h hno
    rw [commitsPage_of_error h hrun]
    exact ⟨fun hnot => ⟨fun r hr hlazy => absurd hlazy (hno r hr), fun _ => hnot⟩,
      fun hcond => hcond.2 hno⟩
  obtain ⟨r, hfirst, hlazy⟩ := hfound
  obtain ⟨hr, hcovers⟩ := firstVas_covers hfirst
  have hcond : ((∀ r, firstVas rs va = some r → r.Lazy → s.freeFrames.Nonempty →
    PageReady s d va r) ∧
      ((∀ r, firstVas rs va = some r → ¬ r.Lazy) → ¬ Committable s d rs va)) ↔
      (s.freeFrames.Nonempty → PageReady s d va r) := by
    constructor
    · exact fun hc => hc.1 r hfirst hlazy
    · refine fun hc => ⟨fun r' hr' _ hne => ?_, fun hno => absurd hlazy (hno r hfirst)⟩
      obtain rfl : r = r' := Option.some.inj (hfirst.symm.trans hr')
      exact hc hne
  rw [hcond]
  by_cases hne : s.freeFrames.Nonempty
  swap
  · have hrun := kvmmCommitPage_outOfMem h hfirst hlazy hne
    rw [commitsPage_of_error h hrun]
    exact iff_of_true (fun hcom => hne hcom.2.2) fun hne' => absurd hne' hne
  obtain ⟨f, s₁, halloc, hfree, hset⟩ := kpmmAlloc_page v.physicalRegion h.pabOk h.phase h.free hne
  obtain ⟨hfusable, hffree⟩ := mem_freeFrames.1 hfree
  have hf : f < 16384 := Nat.lt_of_lt_of_le hfusable (usablePages_le s)
  have hcall := kvmmCommitPage_taken h hfirst hlazy halloc hset
  have hflags := (pgFlagsOf_bits r.flags).1
  have hpage : va / 4096 * 4096 % 4096 = 0 := Nat.mul_mod_left _ 4096
  have hmapping : s.mapping d (va / 4096 * 4096) = none ↔ s.mapping d va = none :=
    ⟨lookup_page_none rfl h.int (by omega), lookup_page_none rfl h.int (by omega)⟩
  have hobjs : (s₁.opened d).objs m = some (.vmm v) := by
    show s₁.objs m = _
    rw [hset.eq]
    exact h.manages.vmm
  by_cases hmapped : s.mapping d va = none
  swap
  · -- the page frame that was taken is lost
    obtain ⟨e, hmap⟩ := h.kpgMap_of_mapped hset hpage (Nat.mul_mod_left f 4096) hflags
      fun hnone => hmapped (hmapping.1 hnone)
    obtain ⟨s', hrun, hclosed⟩ := mapPage_of_map hmap (by simp [KState.opened]) hobjs
    refine iff_of_false ?_ fun hready => hmapped (hready hne).unmapped
    rintro ⟨ok, s₂, hrun', -, -, hkeep⟩
    obtain ⟨rfl, rfl⟩ := Prod.mk.inj (Except.ok.inj (hrun'.symm.trans (hcall.trans hrun)))
    have hpab : s₂.pab = s₁.pab := hclosed.pab
    have hused : s₂.frameState f = pmmStateUsed := by
      rw [frameState, hpab, ← frameState, hset.frameState,
        if_pos ⟨Nat.le_refl f, Nat.lt_succ_self f⟩]
    rw [frameState, (hkeep rfl).1, ← frameState, hffree] at hused
    cases hused
  have hreturns := h.kpgMap_returns_iff hset (pgFlagsOf r.flags) hpage hfree
  rw [pdeOf_page] at hreturns
  by_cases htable : (s.pdeOf d va).present = false → 1 < s.freeFrames.card
  swap
  · refine iff_of_false ?_ fun hready => htable (hready hne).table
    rintro ⟨ok, s', hrun, -⟩
    obtain ⟨b, o₂, hmap, -⟩ := bind_eq_ok.1 (hcall.symm.trans hrun)
    exact htable (hreturns.1 ⟨b, o₂, hmap⟩)
  obtain ⟨b, o₂, hmap⟩ := hreturns.2 htable
  obtain ⟨rfl, hmade, hobjs₂⟩ := h.kpgMap_of_unmapped hset hpage hf hflags (hmapping.2 hmapped) hmap
  obtain ⟨s', hrun, hclosed⟩ := mapPage_of_map hmap (by simp [hmade.written.ext])
    (by rw [hobjs₂]; exact h.manages.vmm)
  constructor
  · rintro ⟨ok, s₂, hrun', -, hsuccess, -⟩ -
    obtain ⟨rfl, rfl⟩ := Prod.mk.inj (Except.ok.inj (hrun'.symm.trans (hcall.trans hrun)))
    obtain ⟨r', g, hr', hcommitted⟩ := hsuccess rfl
    obtain rfl : r = r' := Option.some.inj (hfirst.symm.trans hr')
    exact ⟨hmapped, (hmade.rights_iff h hclosed).1 ⟨hcommitted.writable, hcommitted.user⟩, htable⟩
  · intro hready
    refine ⟨true, s', hcall.trans hrun, iff_of_true rfl ⟨⟨r, hr, hcovers, hlazy⟩, hmapped, hne⟩,
      fun _ => ⟨r, f, hfirst, ?_⟩, fun hok => (by cases hok)⟩
    exact hmade.pageCommitted h hclosed hf hffree (hready hne).permits

/-! ## Two pages of a small kernel -/

/-- Two pages at 4 MB, committed on access. -/
def lazyPages : VMemoryAddressSpace := ⟨true, 0, 0x400000, 0x2000, 0⟩

/-- A manager with that address space, over an empty page directory. -/
def lazyKernel : KState :=
  { emptyDirectory with
    objs := fun a =>
      if a = 0x1000 then
        some (.vmm ⟨0x100000, 0x800000, true, 0x23000, false, .pmmRegionAny, [0x2000]⟩)
      else if a = 0x2000 then some (.vas lazyPages)
      else none }

/-- Four frames are free. -/
theorem emptyDirectory_frameState (f : Nat) :
    emptyDirectory.frameState f = if f / 4 = 16 then pmmStateFree else pmmStateReserved := by
  have hbit : ∀ k, k < 4 → (0xAA >>> (k * 2)) &&& 3 = pmmStateReserved := by decide
  have hstate : emptyDirectory.frameState f =
      (if f / 4 = 16 then 0 else 0xAA) >>> (f % 4 * 2) &&& 3 := rfl
  rw [hstate]
  split
  · rw [Nat.zero_shiftRight, Nat.zero_and]
  · exact hbit (f % 4) (Nat.mod_lt f (by decide))

/-- The kernel is ready to commit a page. -/
theorem lazyKernel_ready : CommitReady lazyKernel 0x1000
    ⟨0x100000, 0x800000, true, 0x23000, false, .pmmRegionAny, [0x2000]⟩ [lazyPages] 0x23 where
  pabOk := ⟨rfl, rfl⟩
  phase := rfl
  free f _ hfree := by
    have hstate : lazyKernel.frameState f = _ := emptyDirectory_frameState f
    rw [hstate] at hfree
    have husable : kpmmGetUsableMemoryPagesCount lazyKernel = 0x50 := by decide
    rw [husable]
    split at hfree
    · omega
    · cases hfree
  manages := ⟨rfl, .cons rfl .nil⟩
  frame := by decide
  pd := rfl
  ext := rfl
  int := rfl
  dir := ⟨by decide, by decide⟩
  temp := by decide

/-- An access to the first page commits it. -/
theorem kvmmCommitPage_exact_lazyKernel :
    CommitsPage lazyKernel 0x1000 0x23 [lazyPages] 0x400123 := by
  refine (kvmmCommitPage_exact lazyKernel_ready).2 ⟨fun r hr _ _ => ?_, fun hno => ?_⟩
  · obtain rfl : lazyPages = r := Option.some.inj (hr ▸ rfl)
    exact ⟨by decide +kernel, fun hp => (by cases hp), fun _ => by decide +kernel⟩
  · exact absurd ⟨rfl, rfl, rfl⟩ (hno lazyPages rfl)

/-- The kernel with the first of the two pages mapped. -/
def mappedKernel : KState :=
  { lazyKernel with
    mem := fun f i =>
      if f = 0x23 ∧ i = 1 then
        entryOf 0x30 else if f = 0x30 ∧ i = 0 then entryOf 0x31 else Entry.zero }

/-- An access to a page that is mapped fails, and takes a page frame that is not given back. -/
theorem kvmmCommitPage_loses_frame :
    ¬ ∀ s m v rs d va, CommitReady s m v rs d → CommitsPage s m d rs va := by
  intro hall
  have hready : CommitReady mappedKernel 0x1000
      ⟨0x100000, 0x800000, true, 0x23000, false, .pmmRegionAny, [0x2000]⟩ [lazyPages] 0x23 :=
    { lazyKernel_ready with
      pabOk := ⟨rfl, rfl⟩
      manages := ⟨rfl, .cons rfl .nil⟩
      dir := ⟨by decide, by decide⟩ }
  obtain ⟨ok, s', hrun, -, -, hkeep⟩ := hall _ _ _ _ _ 0x400000 hready
  have hcall := eq_ok_of_value (x := kvmmCommitPage 0x1000 0x400000)
    (s := mappedKernel) (a := false)
    (by decide +kernel)
  obtain ⟨rfl, rfl⟩ := Prod.mk.inj (Except.ok.inj (hrun.symm.trans hcall))
  have hused : ((kvmmCommitPage 0x1000 0x400000).finalState mappedKernel).frameState 0x40 =
      pmmStateUsed := by
    decide +kernel
  rw [frameState, (hkeep rfl).1] at hused
  exact absurd hused (by decide)

end MeghaOS
