import MeghaOS.Vmm
import MeghaOS.Proof.Frame
import MeghaOS.Proof.Rights

/-!
# The temporary mappings are closed again

A temporary mapping that is left open makes the next attempt to open it panic. `KeepsSlots` says
that a run leaves each of the two closed if it found it closed. Everything that opens the external
one closes it before it returns; the internal one is open inside a single function of the paging
code at a time, and `kpg_deletePageDirectory` has a return from inside. `kpg_map` opens the external
one when it is asked to map the very page that the mapping is for.
-/

namespace MeghaOS

open Exec KState

/-- A run leaves each temporary mapping closed that it found closed. -/
structure KeepsSlots (s s' : KState) : Prop where
  int : s.tempInt = none → s'.tempInt = none
  ext : s.tempExt = none → s'.tempExt = none

/-- A run leaves the internal temporary mapping closed if it found it closed. -/
def KeepsInt (s s' : KState) : Prop := s.tempInt = none → s'.tempInt = none

instance : IsPreorder KState KeepsSlots where
  refl _ := ⟨id, id⟩
  trans _ _ _ h h' := ⟨h'.int ∘ h.int, h'.ext ∘ h.ext⟩

instance : IsPreorder KState KeepsInt where
  refl _ := id
  trans _ _ _ h h' := h' ∘ h

variable {α β : Type} {s s' : KState} {pd : PageDirectory} {d i va pa flags : Nat} {b : Bool}
  {e : Entry}

/-- The two temporary mappings. -/
def KState.slots (s : KState) : Option Nat × Option Nat := (s.tempInt, s.tempExt)

/-- A step that does not touch the slots keeps them. -/
theorem KeepsSlots.of_slots (h : s'.slots = s.slots) : KeepsSlots s s' :=
  ⟨(congrArg Prod.fst h).trans, (congrArg Prod.snd h).trans⟩

namespace Exec

/-- So does a program that does not touch them. -/
theorem Fixes.keepsSlots {x : K α} (h : Fixes slots x) : Ensures KeepsSlots x :=
  fun s a s' hx => .of_slots (h s a s' hx)

/-- A program that keeps both slots keeps that of the paging code. -/
theorem Ensures.keepsInt {x : K α} (h : Ensures KeepsSlots x) : Ensures KeepsInt x :=
  fun s a s' hx => (h s a s' hx).int

end Exec

open Fixes

/-- An update outside the slots. -/
theorem modify_keepsSlots {f : KState → KState} (h : ∀ s, (f s).slots = s.slots) :
    Ensures KeepsSlots (modify f : K Unit) :=
  (Fixes.modify h).keepsSlots

/-! ## Programs that do not touch the mappings -/

/-- Setting the error number. -/
theorem returnError_slots (errno : KernelErrorCodes) (v : α) : Fixes slots (returnError errno v) :=
  .bind (.modify fun _ => rfl) fun _ => .pure _

/-- `bitmap_setContinous` on the PAB. -/
theorem pabSetContinous_slots (start count state : Nat) :
    Fixes slots (pabSetContinous start count state) := by
  rintro s ok s' h
  simp only [pabSetContinous, get_bind_apply, lift_bind_eq_ok, set_bind_apply, pure_apply,
    Except.ok.injEq, Prod.mk.injEq] at h
  obtain ⟨_, -, -, rfl⟩ := h
  rfl

/-- `kpmm_alloc`. -/
theorem kpmmAlloc_slots (count : Nat) (reg : KernelPhysicalMemoryRegions) :
    Fixes slots (kpmmAlloc count reg) := by
  refine .bind (.kernelPhaseValidate _) fun _ => .ite (returnError_slots _ _) ?_
  refine .bind .get fun _ => .bind (.lift _) fun found => ?_
  cases found with
  | none => exact returnError_slots _ _
  | some frame =>
    refine .bind .get fun _ => .bind (.kAssert _ _) fun _ => .bind (pabSetContinous_slots _ _ _) ?_
    exact fun _ => .ite (.bind (.kAssert _ _) fun _ => .pure _) (.kPanic _)

/-- `kpmm_free`. -/
theorem kpmmFree_slots (start count : Nat) : Fixes slots (kpmmFree start count) := by
  refine .bind (.kernelPhaseValidate _) fun _ => .ite (returnError_slots _ _) ?_
  refine .bind .get fun _ => .ite (returnError_slots _ _) (.ite (returnError_slots _ _) ?_)
  exact pabSetContinous_slots _ _ _

/-- Writing a record. -/
theorem setObj_slots (a : Nat) (o : Obj) : Fixes slots (modify (·.setObj a o) : K Unit) :=
  .modify fun _ => rfl

/-- Writing a `VMemoryManager`. -/
theorem modifyVmm_slots (vmm : Nat) (f : VMemoryManager → VMemoryManager) :
    Fixes slots (modifyVmm vmm f) := by
  intro s _ s' h
  obtain ⟨v, -, rfl⟩ := modifyVmm_eq_ok.1 h
  rfl

/-- The choice of the page frames in `commit_virtual_pages`. -/
theorem pagesToCommit_slots (vmm : Nat) (pa : Option Nat) (n : Nat) :
    Fixes slots (pagesToCommit vmm pa n) := by
  cases pa with
  | none => exact .bind (.getVmm _) fun _ => kpmmAlloc_slots _ _
  | some pa => exact .pure _

/-- `kprocess_getCurrentContext`. -/
theorem kprocessGetCurrentContext_slots : Fixes slots kprocessGetCurrentContext := by
  refine .bind .get fun s => .ite (.pure _) ?_
  split
  · exact .pure _
  · exact .pure _

/-- A program of the heap. -/
theorem onHeap_slots (x : Exec KHeap α) : Fixes slots (onHeap x) := by
  intro s a s' h
  obtain ⟨heap, -, rfl⟩ := zoom_eq_ok.1 h
  rfl

/-! ## The internal mapping -/

/-- Reading a directory entry goes through a pointer that leads somewhere. -/
theorem readPde_bind_eq_ok {f : Entry → K α} {r : α × KState} :
    (readPde pd i >>= f) s = .ok r ↔ ∃ d, pd.At d s ∧ f (s.entry d i) s = .ok r := by
  constructor
  · intro h
    obtain ⟨e, s₁, hread, h⟩ := bind_eq_ok.1 h
    rw [readPde, get_bind_apply] at hread
    obtain ⟨d, s₂, hframe, hread⟩ := bind_eq_ok.1 hread
    have hat : pd.At d s := by
      cases pd with
      | null => cases hframe
      | temp =>
        rw [PageDirectory.frame, get_bind_apply] at hframe
        cases hext : s.tempExt with
        | none => rw [hext] at hframe; cases hframe
        | some f => rw [hext] at hframe; cases hframe; exact hext
      | current => cases hframe; exact rfl
    rw [hat.frame] at hframe
    cases hframe
    cases hread
    exact ⟨d, hat, h⟩
  · rintro ⟨d, hat, h⟩
    rw [readPde_bind hat]
    exact h

/-- The entry of the external temporary mapping. -/
def IsExtSlot (frame i : Nat) : Prop := frame = kernelPageTableFrame ∧ i = temporaryPteIndexExtern

/-- An entry that is not the slot of the paging code leaves that slot. -/
theorem setEntry_int (h : ¬ IsIntSlot d i) : (s.setEntry d i e).tempInt = s.tempInt := by
  rcases setEntry_cases s d i e with ⟨-, x, heq⟩ | ⟨hslot, -⟩ | ⟨-, heq⟩
  · rw [heq]
  · exact absurd hslot h
  · rw [heq]

/-- An entry that is not the other slot leaves that one. -/
theorem setEntry_ext (h : ¬ IsExtSlot d i) : (s.setEntry d i e).tempExt = s.tempExt := by
  rcases setEntry_cases s d i e with ⟨hslot, -⟩ | ⟨-, x, heq⟩ | ⟨-, heq⟩
  · exact absurd hslot h
  · rw [heq]
  · rw [heq]

/-- The slot of the callers is an entry, and is filled and emptied by writing it. -/
theorem setEntry_extSlot (h : IsExtSlot d i) :
    (s.setEntry d i e).tempExt = if e.present then some e.pageFrame else none :=
  congrArg KState.tempExt (if_pos h)

/-- The entry of the slot shows what the slot holds. -/
theorem entry_extSlot (h : IsExtSlot d i) : s.entry d i = tempEntry s.tempExt := if_pos h

/-- The same for the slot of the paging code. -/
theorem setEntry_intSlot (h : IsIntSlot d i) :
    (s.setEntry d i e).tempInt = if e.present then some e.pageFrame else none := by
  have hext : ¬ IsExtSlot d i := fun h' => absurd (h'.2.symm.trans h.2) (by decide)
  exact congrArg KState.tempInt ((if_neg hext).trans (if_pos h))

/-- There are two slots. -/
theorem not_isTempSlot (hext : ¬ IsExtSlot d i) (hint : ¬ IsIntSlot d i) : ¬ IsTempSlot d i := by
  rintro ⟨hd, hi | hi⟩
  · exact hext ⟨hd, hi⟩
  · exact hint ⟨hd, hi⟩

/-- The two slots are different entries. -/
theorem not_isIntSlot (h : IsExtSlot d i) : ¬ IsIntSlot d i := fun h' =>
  absurd (h.2.symm.trans h'.2) (by decide)

/-- An entry that is not present opens no mapping. -/
theorem keepsSlots_setEntry (h : e.present = false ∨ ¬ IsTempSlot d i) :
    KeepsSlots s (s.setEntry d i e) := by
  rcases h with hp | hslot
  · unfold setEntry
    simp only [hp, Bool.false_eq_true, if_false]
    split_ifs
    · exact ⟨id, fun _ => rfl⟩
    · exact ⟨fun _ => rfl, id⟩
    · exact ⟨id, id⟩
  · rw [setEntry_mem hslot]
    exact ⟨id, id⟩

/-- `kpg_unmap` closes the slot it opened. -/
theorem kpgUnmap_keepsSlots (pd : PageDirectory) (va : Nat) :
    Ensures KeepsSlots (kpgUnmap pd va) := by
  intro s b s' h
  have hrun := h
  rw [kpgUnmap, kAssert_bind_eq_ok] at h
  rcases ite_eq_ok.1 h.2 with ⟨-, h⟩ | ⟨-, h⟩
  · exact .of_slots (returnError_slots _ _ _ _ _ h)
  obtain ⟨d, hd, -⟩ := readPde_bind_eq_ok.1 h
  rcases kpgUnmap_spec hd hrun with ⟨-, ⟨err, rfl⟩, -⟩ | ⟨-, -, -, rfl⟩
  · exact ⟨id, id⟩
  · exact keepsSlots_setEntry (.inl rfl)

/-- So does `kpg_doesMappingExists`. -/
theorem kpgDoesMappingExists_keepsSlots (pd : PageDirectory) (va : Nat) :
    Ensures KeepsSlots (kpgDoesMappingExists pd va) := by
  intro s found s' h
  rw [kpgDoesMappingExists, kAssert_bind_eq_ok] at h
  obtain ⟨d, hd, h⟩ := readPde_bind_eq_ok.1 h.2
  rcases ite_eq_ok.1 h with ⟨-, h⟩ | ⟨-, h⟩
  · obtain ⟨hint, h⟩ := openTable_bind_eq_ok.1 h
    rw [readPte_bind rfl] at h
    obtain ⟨-, h⟩ := sInternalTemporaryUnmap_bind_eq_ok.1 h
    cases h
    exact ⟨fun _ => rfl, id⟩
  · cases h
    exact ⟨id, id⟩

/-- Writing the entry of a page leaves the internal mapping closed. -/
theorem mapInPageTable_int (h : mapInPageTable pd va pa flags s = .ok (b, s')) :
    s'.tempInt = none := by
  have hrun := h
  rw [mapInPageTable] at h
  obtain ⟨d, hd, -⟩ := readPde_bind_eq_ok.1 h
  obtain ⟨hint, ⟨-, ⟨err, rfl⟩, -⟩ | ⟨-, -, hslot, rfl⟩⟩ := mapInPageTable_spec hd hrun
  · exact hint
  · exact (setEntry_int hslot).trans hint

/-- `kpg_map` keeps the slot of the paging code, also when it maps a page at the other one. -/
theorem kpgMap_keepsInt (pd : PageDirectory) (va pa flags : Nat) :
    Ensures KeepsInt (kpgMap pd va pa flags) := by
  intro s b s' h hint
  rw [kpgMap, kAssert_bind_eq_ok] at h
  rcases ite_eq_ok.1 h.2 with ⟨-, h⟩ | ⟨-, h⟩
  · exact (KeepsSlots.of_slots (returnError_slots _ _ _ _ _ h)).int hint
  · obtain ⟨d, -, h⟩ := readPde_bind_eq_ok.1 h
    obtain ⟨_, s₁, -, h⟩ := bind_eq_ok.1 h
    exact mapInPageTable_int h

/-- The loop of `kpg_mapContinous`. -/
theorem mapContinousFrom_keepsInt (pd : PageDirectory) (flags n va pa : Nat) :
    Ensures KeepsInt (mapContinousFrom pd flags n va pa) := by
  induction n generalizing va pa with
  | zero => exact .pure _
  | succ n ih => exact .bind (kpgMap_keepsInt _ _ _ _) fun _ => .ite (ih _ _) (.pure _)

/-- `kpg_mapContinous`. -/
theorem kpgMapContinous_keepsInt (pd : PageDirectory) (va pa n flags : Nat) :
    Ensures KeepsInt (kpgMapContinous pd va pa n flags) :=
  .ite (returnError_slots _ _).keepsSlots.keepsInt (mapContinousFrom_keepsInt _ _ _ _ _)

/-! ## The external mapping -/

/-- Where the external mapping is closed again, nothing is left of what was done through it. -/
theorem kpgTemporaryUnmap_closes {u : Unit} (h : kpgTemporaryUnmap s = .ok (u, s')) :
    s'.tempExt = none ∧ s'.tempInt = s.tempInt := by
  rw [kpgTemporaryUnmap, get_bind_apply] at h
  rcases ite_eq_ok.1 h with ⟨-, h⟩ | ⟨-, h⟩
  · cases h
  · cases h
    exact ⟨rfl, rfl⟩

/-- `kpg_temporaryMap` fills the other slot. -/
theorem kpgTemporaryMap_keepsInt (pa : Nat) : Ensures KeepsInt (kpgTemporaryMap pa) := by
  refine .ite (returnError_slots _ _).keepsSlots.keepsInt (.bind .get fun _ => .ite (.halt _) ?_)
  exact .bind (fun _ _ _ h => by cases h; exact id) fun _ => .pure _

/-- A run that ends with the external mapping closed, and leaves the internal one closed. -/
def Closes (s s' : KState) : Prop := s'.tempExt = none ∧ KeepsInt s s'

/-- What closes the external mapping at its end may do anything with it before. -/
theorem Exec.Ensures.bind_closes {x : K α} {f : α → K β} (hx : Ensures KeepsInt x)
    (hf : ∀ a, Ensures Closes (f a)) : Ensures Closes (x >>= f) := by
  intro s b s' h
  obtain ⟨a, s₁, h1, h2⟩ := bind_eq_ok.1 h
  have hclose := hf a _ _ _ h2
  exact ⟨hclose.1, fun hint => hclose.2 (hx _ _ _ h1 hint)⟩

/-- What follows the closing of the external mapping leaves the mappings closed. -/
theorem closes_kpgTemporaryUnmap_bind {f : Unit → K α} (hf : Ensures KeepsSlots (f ())) :
    Ensures Closes (kpgTemporaryUnmap >>= f) := by
  intro s a s' h
  obtain ⟨_, s₁, h1, h2⟩ := bind_eq_ok.1 h
  obtain ⟨hext, hint⟩ := kpgTemporaryUnmap_closes h1
  have hkeeps := hf _ _ _ h2
  exact ⟨hkeeps.ext hext, fun h => hkeeps.int (hint.trans h)⟩

/-- A program that opens the slot of the callers and closes it again keeps both. -/
theorem Exec.Ensures.keepsSlots_of_closes {x : K α} (hx : Ensures Closes x) :
    Ensures KeepsSlots x :=
  fun _ _ _ h => ⟨(hx _ _ _ h).2, fun _ => (hx _ _ _ h).1⟩

/-! ## Committing pages -/

/-- `commit_virtual_pages` closes the page directory it opened. -/
theorem commitVirtualPages_keepsSlots (vmm vaStart : Nat) (pa : Option Nat) (n flags : Nat) :
    Ensures KeepsSlots (commitVirtualPages vmm vaStart pa n flags) := by
  refine .bind (pagesToCommit_slots _ _ _).keepsSlots fun found => ?_
  cases found with
  | none => exact .pure _
  | some lPaStart =>
    refine .bind (Fixes.getVmm _).keepsSlots fun _ => .keepsSlots_of_closes ?_
    refine .bind_closes (kpgTemporaryMap_keepsInt _) fun _ => ?_
    refine .bind_closes (kpgMapContinous_keepsInt _ _ _ _ _) fun _ => .ite ?_ ?_
    · exact closes_kpgTemporaryUnmap_bind
        (.bind (modifyVmm_slots _ _).keepsSlots fun _ => .pure _)
    · exact closes_kpgTemporaryUnmap_bind (.pure _)

/-- So does `kvmm_commitPage`. -/
theorem kvmmCommitPage_keepsSlots (vmm va : Nat) : Ensures KeepsSlots (kvmmCommitPage vmm va) := by
  refine .bind (findVas_fixes (f := slots) _ _).keepsSlots fun found => ?_
  cases found with
  | none => exact (returnError_slots _ _).keepsSlots
  | some a =>
    refine .bind (Fixes.getVas _).keepsSlots fun _ => .ite (returnError_slots _ _).keepsSlots ?_
    refine .ite (returnError_slots _ _).keepsSlots ?_
    exact .bind (commitVirtualPages_keepsSlots _ _ _ _ _) fun _ => .pure _

/-! ## Page directories -/

/-- `s_internal_temporaryMap` leaves the external mapping alone. -/
theorem sInternalTemporaryMap_ext (pa : Nat) : Fixes KState.tempExt (sInternalTemporaryMap pa) := by
  refine .ite (.comp Prod.snd (returnError_slots _ _)) (.bind .get fun _ => .ite (.kPanic _) ?_)
  exact .bind (.modify fun _ => rfl) fun _ => .pure _

/-- Clearing the page behind the slot. -/
theorem zeroPage_slots : Fixes slots zeroPage :=
  .bind .get fun s => .bind (by cases s.tempInt <;> [exact .halt _; exact .pure _])
    fun _ => .modify fun _ => rfl

/-- `kpg_setupPageDirectory` opens the slot of the paging code only. -/
theorem openPd_ext (pd flags : Nat) : Fixes KState.tempExt (openPd pd flags) := by
  refine .ite ?_ (.bind (sInternalTemporaryMap_ext _) fun _ => .pure _)
  refine .bind (.comp Prod.snd (kpmmAlloc_slots _ _)) fun found => ?_
  cases found with
  | none => exact .pure _
  | some pd =>
    refine .bind (sInternalTemporaryMap_ext _) fun _ => ?_
    exact .bind (.comp Prod.snd zeroPage_slots) fun _ => .pure _

/-- Without a page for a new directory, nothing is opened. -/
theorem openPd_none (h : openPd d flags s = .ok (none, s')) : s'.slots = s.slots := by
  rcases ite_eq_ok.1 h with ⟨-, h⟩ | ⟨-, h⟩
  · obtain ⟨found, s₁, halloc, h⟩ := bind_eq_ok.1 h
    cases found with
    | none =>
      cases h
      exact kpmmAlloc_slots _ _ _ _ _ halloc
    | some pd =>
      obtain ⟨_, s₂, -, h⟩ := bind_eq_ok.1 h
      obtain ⟨_, s₃, -, h⟩ := bind_eq_ok.1 h
      cases h
  · obtain ⟨_, s₁, -, h⟩ := bind_eq_ok.1 h
    cases h

/-- The copy of the kernel's entries closes what it opened. -/
theorem copyKernelPages_keepsSlots (kernelPD : Option Nat) :
    Ensures KeepsSlots (copyKernelPages kernelPD) := by
  cases kernelPD with
  | none => exact .halt _
  | some kernelPD =>
    refine .keepsSlots_of_closes (.bind_closes (kpgTemporaryMap_keepsInt _) fun pd => ?_)
    refine .bind_closes (fun s f s' h => ?_) fun k => ?_
    · cases pd with
      | null => cases h
      | temp =>
        rw [PageDirectory.frame, get_bind_apply] at h
        cases hext : s.tempExt with
        | none => rw [hext] at h; cases h
        | some f => rw [hext] at h; cases h; exact id
      | current => cases h; exact id
    · refine .bind_closes .get fun s => .bind_closes ?_ fun d => ?_
      · cases s.tempInt
        · exact .halt _
        · exact .pure _
      · refine .bind_closes (fun _ _ _ h => by cases h; exact id) fun _ s a s' h => ?_
        obtain ⟨hext, hint⟩ := kpgTemporaryUnmap_closes h
        exact ⟨hext, hint.trans⟩

/-- The entry for the recursive mapping is no entry of the external one. -/
theorem recursiveMap_ext (pd : Nat) : Fixes KState.tempExt (recursiveMap pd) := by
  refine .bind .get fun s => .bind ?_ fun d => .modify fun s => setEntry_ext ?_
  · cases s.tempInt
    · exact .halt _
    · exact .pure _
  · exact fun h => absurd h.2 (by decide)

/-- `kpg_setupPageDirectory`. -/
theorem kpgSetupPageDirectory_keepsSlots (pd flags : Nat) (kernelPD : Option Nat) :
    Ensures KeepsSlots (kpgSetupPageDirectory pd flags kernelPD) := by
  intro s found s' h
  obtain ⟨opened, s₁, hopen, h⟩ := bind_eq_ok.1 h
  have hext₁ := openPd_ext _ _ _ _ _ hopen
  cases opened with
  | none =>
    cases h
    exact .of_slots (openPd_none hopen)
  | some pd =>
    obtain ⟨_, s₂, hcopy, h⟩ := bind_eq_ok.1 h
    obtain ⟨_, s₃, hrec, h⟩ := bind_eq_ok.1 h
    obtain ⟨-, h⟩ := sInternalTemporaryUnmap_bind_eq_ok.1 h
    cases h
    have hext₂ : s₁.tempExt = none → s₂.tempExt = none :=
      (Ensures.when (copyKernelPages_keepsSlots _) _ _ _ hcopy).ext
    have hext₃ := Fixes.when (recursiveMap_ext _) _ _ _ hrec
    exact ⟨fun _ => rfl, fun hext => hext₃.trans (hext₂ (hext₁.trans hext))⟩

/-! ## Page faults -/

/-- The loop of `kprocess_sync_pd`. -/
theorem syncQueue_keepsSlots (kernelPD : Nat) (queue : List Nat) :
    Ensures KeepsSlots (syncQueue kernelPD queue) := by
  induction queue with
  | nil => exact .pure _
  | cons p queue ih =>
    refine .bind (Fixes.getProc _).keepsSlots fun _ => .bind (Fixes.follow _).keepsSlots fun _ => ?_
    refine .bind (.bind (Fixes.getVmm _).keepsSlots fun _ => .pure _) fun _ => ?_
    refine .bind (kpgSetupPageDirectory_keepsSlots _ _ _) fun found => ?_
    cases found with
    | none => exact .halt _
    | some _ => exact ih

/-- `kprocess_sync_pd`. -/
theorem kprocessSyncPD_keepsSlots : Ensures KeepsSlots kprocessSyncPD := by
  refine .bind .get fun _ => .ite (.bind .get fun _ => ?_) (.pure _)
  refine .bind (.bind (Fixes.getVmm _).keepsSlots fun _ => .pure _) fun _ => ?_
  exact .bind .get fun _ => syncQueue_keepsSlots _ _

/-- The page fault handler, when there is a context to commit the page in. -/
theorem commitFault_keepsSlots (context addr : Nat) (present : Bool) :
    Ensures KeepsSlots (commitFault context addr present) := by
  refine .ite (.bind (kvmmCommitPage_keepsSlots _ _) fun _ => .ite ?_ (.halt _)) (.halt _)
  exact .bind .get fun _ => .ite kprocessSyncPD_keepsSlots (.pure _)

/-- `page_fault_handler`, when it returns. -/
theorem pageFaultHandler_keepsSlots (addr : Nat) (present : Bool) :
    Ensures KeepsSlots (pageFaultHandler addr present) := by
  refine .bind kprocessGetCurrentContext_slots.keepsSlots fun _ => .bind .get fun _ => ?_
  refine .bind (.bind (Fixes.getVmm _).keepsSlots fun _ => .pure _) fun _ => .ite ?_ ?_
  · refine .bind (.bind (Fixes.getVmm _).keepsSlots fun _ => ?_) fun _ => ?_
    · exact .bind (modifyVmm_slots _ _).keepsSlots fun _ => .pure _
    · exact .ite kprocessSyncPD_keepsSlots (commitFault_keepsSlots _ _ _)
  · exact .bind (Fixes.follow _).keepsSlots fun _ => commitFault_keepsSlots _ _ _

/-- Accesses that may fault. -/
theorem touchFrom_keepsSlots (va n : Nat) : Ensures KeepsSlots (touchFrom va n) := by
  induction n with
  | zero => exact .halt _
  | succ n ih =>
    exact .bind .get fun _ => .ite (.pure _) (.bind (pageFaultHandler_keepsSlots _ _) fun _ => ih)

/-- Accesses to a number of pages. -/
theorem touchPages_keepsSlots (n page : Nat) : Ensures KeepsSlots (touchPages n page) := by
  induction n generalizing page with
  | zero => exact .pure _
  | succ n ih => exact .bind (touchFrom_keepsSlots _ _) fun _ => ih _

/-! ## Address spaces -/

/-- Memory for a record, which may fault when it is cleared. -/
theorem kmallocObj_keepsSlots (o : Obj) : Ensures KeepsSlots (kmallocObj o) := by
  refine .bind (.bind (Fixes.kernelPhaseValidate _).keepsSlots fun _ => ?_) fun _ => ?_
  · refine .bind (onHeap_slots _).keepsSlots fun found => ?_
    cases found with
    | none => exact (returnError_slots _ _).keepsSlots
    | some node =>
      refine .bind (touchPages_keepsSlots _ _) fun _ => .bind (onHeap_slots _).keepsSlots fun _ =>
        ?_
      exact .bind (modify_keepsSlots fun _ => rfl) fun _ => .pure _
  · exact .ite (.bind (setObj_slots _ _).keepsSlots fun _ => .pure _) (.pure _)

/-- `ksalloc`. -/
theorem ksalloc_slots (bytes : Nat) : Fixes slots (ksalloc bytes) := by
  refine .bind (.kernelPhaseValidate _) fun _ => .ite (returnError_slots _ _)
    (.bind .get fun _ => ?_)
  exact .ite (returnError_slots _ _)
    (.bind .get fun _ => .bind (.modify fun _ => rfl) fun _ => .pure _)

/-- `create_new_virt_addr_space`. -/
theorem createNewVirtAddrSpace_keepsSlots (startVm allocatedBytes flags : Nat) :
    Ensures KeepsSlots (createNewVirtAddrSpace startVm allocatedBytes flags) := by
  have hend : ∀ new, Ensures KeepsSlots (if new = 0 then pure 0 else do
      kAssert (isAligned allocatedBytes pageFrameSizeBytes) "Size is not multiple of page size"
      pure new : K Nat) := fun new =>
    .ite (.pure _) (.bind (Fixes.kAssert _ _).keepsSlots fun _ => .pure _)
  refine .bind .get fun _ => .ite (.bind (kmallocObj_keepsSlots _) hend) (.bind ?_ hend)
  refine .bind (.bind (Fixes.kernelPhaseValidate _).keepsSlots fun _ => ?_) fun _ => ?_
  · exact .ite (returnError_slots _ _).keepsSlots (ksalloc_slots _).keepsSlots
  · exact .ite (.bind (setObj_slots _ _).keepsSlots fun _ => .pure _) (.pure _)

/-- The search for the place of a new entry. -/
theorem insertVas_slots (newVas newStart newEnd : Nat) (l : List Nat) :
    Fixes slots (insertVas newVas newStart newEnd l) := by
  induction l with
  | nil => exact .pure _
  | cons a l ih =>
    refine .bind (.getVas _) fun _ => .ite (returnError_slots _ _) (.ite (.pure _) ?_)
    refine .bind ih fun found => ?_
    cases found
    · exact .pure _
    · exact .pure _

/-- `add_new_virtual_address_space`. -/
theorem addNewVirtualAddressSpace_keepsSlots (vmm startVa szPages flags : Nat) :
    Ensures KeepsSlots (addNewVirtualAddressSpace vmm startVa szPages flags) := by
  refine .bind (Fixes.getVmm _).keepsSlots fun _ => .ite (returnError_slots _ _).keepsSlots ?_
  refine .ite (returnError_slots _ _).keepsSlots ?_
  refine .bind (createNewVirtAddrSpace_keepsSlots _ _ _) fun _ => .ite (.pure _) ?_
  refine .bind (Fixes.getVmm _).keepsSlots fun _ => .bind (insertVas_slots _ _ _ _).keepsSlots ?_
  rintro (_ | head)
  · exact .pure _
  · exact .bind (modifyVmm_slots _ _).keepsSlots fun _ => .pure _

/-- `kvmm_memmap`. -/
theorem kvmmMemmap_keepsSlots (vmm va : Nat) (pa : Option Nat) (szPages flags : Nat) :
    Ensures KeepsSlots (kvmmMemmap vmm va pa szPages flags) := by
  refine .bind (memmapVa_fixes (f := slots) _ _ _).keepsSlots fun _ => ?_
  refine .bind (addNewVirtualAddressSpace_keepsSlots _ _ _ _) fun _ => .ite (.pure _) ?_
  exact .ite (.pure _) (.bind (commitVirtualPages_keepsSlots _ _ _ _ _) fun _ => .pure _)

/-- The loop of `kvmm_free`. -/
theorem freePagesFrom_keepsSlots (pd : PageDirectory) (share n va : Nat) :
    Ensures KeepsSlots (freePagesFrom pd share n va) := by
  induction n generalizing va with
  | zero => exact .pure _
  | succ n ih =>
    refine .bind (.bind (kpgDoesMappingExists_keepsSlots _ _) fun found => ?_) fun _ => ih _
    cases found with
    | none => exact .pure _
    | some pa =>
      refine .bind (kpgUnmap_keepsSlots _ _) fun _ => ?_
      refine .bind (.when Fixes.kPanicOnError.keepsSlots) fun _ => ?_
      refine .bind (.ite (.pure _) (.bind (Fixes.getShare _).keepsSlots fun _ => .pure _)) fun _ =>
        ?_
      refine .ite (.bind (kpmmFree_slots _ _).keepsSlots fun _ => ?_) (.pure _)
      exact .when Fixes.kPanicOnError.keepsSlots

/-- `kvmm_free`. -/
theorem kvmmFree_keepsSlots (vmm startVa : Nat) : Ensures KeepsSlots (kvmmFree vmm startVa) := by
  refine .bind (Fixes.kAssert _ _).keepsSlots fun _ =>
    .bind (findVas_fixes (f := slots) _ _).keepsSlots ?_
  rintro (_ | a)
  · exact (returnError_slots _ _).keepsSlots
  refine .bind (Fixes.getVas _).keepsSlots fun vas => .ite (returnError_slots _ _).keepsSlots ?_
  have hdrop : Fixes slots (dropShare vas.share) := .bind (.getShare _) fun _ => setObj_slots _ _
  refine .bind (.when hdrop.keepsSlots) fun _ => .bind (Fixes.getVmm _).keepsSlots fun _ => ?_
  refine .keepsSlots_of_closes (.bind_closes (kpgTemporaryMap_keepsInt _) fun _ => ?_)
  refine .bind_closes (freePagesFrom_keepsSlots _ _ _ _).keepsInt fun _ => ?_
  refine closes_kpgTemporaryUnmap_bind (.bind (modifyVmm_slots _ _).keepsSlots fun _ => ?_)
  refine .bind (.bind (Fixes.kernelPhaseValidate _).keepsSlots fun _ => ?_) fun _ => .pure _
  refine .bind (onHeap_slots _).keepsSlots fun _ => .ite ?_ (returnError_slots _ _).keepsSlots
  exact .bind (modify_keepsSlots fun _ => rfl) fun _ => .pure _

/-! ## Deleting a page directory -/

/-- The last byte of a page frame is usable memory. -/
def InUsableMemory (s : KState) (frame : Nat) : Prop :=
  u32Sub (pageframesToBytes frame + pageFrameSizeBytes) 1 < kpmmGetUsableMemorySize s

/-- Whether `kpmm_free` of a single page succeeds depends on where it is; it changes only the
PAB. -/
theorem kpmmFree_page {f : Nat} (h : kpmmFree (pageframesToBytes f) 1 s = .ok (b, s')) :
    (b = true ↔ InUsableMemory s f) ∧ s'.slots = s.slots ∧ s'.mem = s.mem ∧
      s'.bootMemoryMap = s.bootMemoryMap := by
  rw [kpmmFree, kernelPhaseValidate_bind_eq_ok, if_neg (by decide), get_bind_apply] at h
  rcases ite_eq_ok.1 h.2 with ⟨hout, h⟩ | ⟨hin, h⟩
  · obtain ⟨rfl, rfl⟩ := returnError_eq_ok.1 h
    exact ⟨⟨fun h => (by cases h), fun hin => absurd hin (Nat.not_lt.2 hout)⟩, rfl, rfl, rfl⟩
  · rw [if_neg (by simp [isAligned_pageframesToBytes])] at h
    simp only [pabSetContinous, get_bind_apply, lift_bind_eq_ok, set_bind_apply, pure_apply,
      Except.ok.injEq, Prod.mk.injEq] at h
    obtain ⟨⟨ok, pab⟩, hset, rfl, rfl⟩ := h
    simp only [bitmapSetContinous, except_bind_eq_ok, kAssertE_eq_ok] at hset
    obtain ⟨_, -, _, -, _, -, _, -, hset⟩ := hset
    have hok : ok = true := bitmapSetFrom_true (sVerifyChange_ne_false s) hset
    exact ⟨⟨fun _ => Nat.not_le.1 hin, fun _ => hok⟩, rfl, rfl, rfl⟩

/-- The loop of `kpg_deletePageDirectory`. -/
theorem freePageTables_slots (n i : Nat) : Fixes slots (freePageTables n i) := by
  induction n generalizing i with
  | zero => exact .pure _
  | succ n ih =>
    have hread : Fixes slots (readPte i) :=
      .bind .get fun _ => .bind .get fun s =>
        .bind (by cases s.tempInt <;> [exact .halt _; exact .pure _])
        fun _ => .pure _
    exact .bind hread fun _ => .ite (.bind (kpmmFree_slots _ _) fun _ => .ite (ih _) (.pure _))
      (ih _)

/-- The loop of `kpg_deletePageDirectory` gives up at a page table outside usable memory. -/
theorem freePageTables_spec {n : Nat} (hd : s.tempInt = some d)
    (h : freePageTables n i s = .ok (b, s')) :
    b = true ↔ ∀ j, i ≤ j → j < i + n → (s.entry d j).present = true →
      InUsableMemory s (s.entry d j).pageFrame := by
  induction n generalizing s i with
  | zero =>
    cases h
    exact ⟨fun _ j h1 h2 => by omega, fun _ => rfl⟩
  | succ n ih =>
    rw [freePageTables, readPte_bind hd] at h
    have hsplit : (∀ j, i ≤ j → j < i + (n + 1) → (s.entry d j).present = true →
          InUsableMemory s (s.entry d j).pageFrame) ↔
        ((s.entry d i).present = true → InUsableMemory s (s.entry d i).pageFrame) ∧
          ∀ j, i + 1 ≤ j → j < i + 1 + n → (s.entry d j).present = true →
            InUsableMemory s (s.entry d j).pageFrame := by
      constructor
      · exact fun hall => ⟨hall i (Nat.le_refl i) (by omega), fun j h1 h2 =>
          hall j (by omega) (by omega)⟩
      · rintro ⟨hfirst, hrest⟩ j h1 h2
        rcases Nat.eq_or_lt_of_le h1 with rfl | hlt
        · exact hfirst
        · exact hrest j hlt (by omega)
    rw [hsplit]
    rcases ite_eq_ok.1 h with ⟨hp, h⟩ | ⟨hp, h⟩
    · obtain ⟨freed, s₁, hfree, h⟩ := bind_eq_ok.1 h
      obtain ⟨hiff, hslots, hmem, hboot⟩ := kpmmFree_page hfree
      rcases ite_eq_ok.1 h with ⟨hfreed, h⟩ | ⟨hfreed, h⟩
      · have hd₁ : s₁.tempInt = some d := (congrArg Prod.fst hslots).trans hd
        have hrest := ih hd₁ h
        have hentry : ∀ j, s₁.entry d j = s.entry d j := fun j =>
          entry_congr (by rw [hmem]) (congrArg Prod.snd hslots) (congrArg Prod.fst hslots)
        have husable : ∀ f, InUsableMemory s₁ f ↔ InUsableMemory s f := fun f => by
          rw [InUsableMemory, InUsableMemory, kpmmGetUsableMemorySize,
            kpmmGetUsableMemorySize, hboot]
        refine hrest.trans ?_
        simp only [hentry, husable]
        exact ⟨fun hall => ⟨fun _ => hiff.1 hfreed, hall⟩, fun hall => hall.2⟩
      · cases h
        exact ⟨fun h => (by cases h), fun hall => absurd (hiff.2 (hall.1 hp)) hfreed⟩
    · have hrest := ih hd h
      exact hrest.trans ⟨fun hall => ⟨fun hp' => absurd hp' hp, hall⟩, fun hall => hall.2⟩

/-- The entries that `kpg_deletePageDirectory` looks at, and it frees the page tables of those that
are present. -/
def delEndIndex (flags : Nat) : Nat :=
  if bitIsSet flags pgDelpdFlagKeepKernelPages then kernelPdeIndex else 1024

/-- Every page table of the directory that is deleted lies in usable memory. -/
def TablesUsable (s : KState) (pd flags : Nat) : Prop :=
  let opened := { s with tempInt := some (physicalToPageframe pd) }
  ∀ j, j < delEndIndex flags → (opened.entry (physicalToPageframe pd) j).present = true →
    InUsableMemory s (opened.entry (physicalToPageframe pd) j).pageFrame

/-- `kpg_deletePageDirectory` looks at one entry at least. -/
theorem delEndIndex_pos (flags : Nat) : 0 < delEndIndex flags := by
  unfold delEndIndex
  split <;> decide

/-- Without the page directory, the loop of `kpg_deletePageDirectory` reads through a null
pointer. -/
theorem freePageTables_fault {n : Nat} (hint : s.tempInt = none) (hn : 0 < n) :
    freePageTables n i s ≠ .ok (b, s') := by
  intro h
  obtain ⟨n, rfl⟩ := Nat.exists_eq_succ_of_ne_zero (Nat.ne_of_gt hn)
  obtain ⟨e, s₁, hread, -⟩ := bind_eq_ok.1 h
  rw [readPte, get_bind_apply, get_bind_apply, hint] at hread
  cases hread

/-- `kpg_deletePageDirectory` opens the slot of the paging code only. -/
theorem kpgDeletePageDirectory_ext (pd flags : Nat) :
    Fixes KState.tempExt (kpgDeletePageDirectory pd flags) := by
  refine .bind .get fun _ => .bind (.kAssert _ _) fun _ =>
    .bind (sInternalTemporaryMap_ext _) fun _ => ?_
  refine .bind (.comp Prod.snd (freePageTables_slots _ _)) fun _ =>
    .ite (.bind ?_ fun _ => ?_) (.pure _)
  · exact .bind .get fun _ => .ite (.kPanic _) (.modify fun _ => rfl)
  · exact .comp Prod.snd (kpmmFree_slots _ _)

/-- `kpg_deletePageDirectory` closes the internal mapping again exactly when it can free every page
table. -/
theorem kpgDeletePageDirectory_int {pd : Nat} (hint : s.tempInt = none)
    (h : kpgDeletePageDirectory pd flags s = .ok (b, s')) :
    s'.tempInt = none ↔ TablesUsable s pd flags := by
  rw [kpgDeletePageDirectory, get_bind_apply, kAssert_bind_eq_ok] at h
  obtain ⟨mapped, s₁, hmap, h⟩ := bind_eq_ok.1 h.2
  rw [sInternalTemporaryMap] at hmap
  rcases ite_eq_ok.1 hmap with ⟨-, hmap⟩ | ⟨-, hmap⟩
  · obtain ⟨-, rfl⟩ := returnError_eq_ok.1 hmap
    obtain ⟨freed, s₂, hfree, -⟩ := bind_eq_ok.1 h
    exact absurd hfree (freePageTables_fault hint (delEndIndex_pos flags))
  · rw [get_bind_apply, if_neg (by simp [hint])] at hmap
    cases hmap
    obtain ⟨freed, s₂, hfree, h⟩ := bind_eq_ok.1 h
    have hslots := freePageTables_slots _ _ _ _ _ hfree
    have hiff := freePageTables_spec rfl hfree
    have hall : freed = true ↔ TablesUsable s pd flags := by
      rw [hiff]
      exact ⟨fun hall j hj => hall j (Nat.zero_le j) (by rwa [Nat.zero_add]),
        fun hall j _ hj => hall j (by rwa [Nat.zero_add] at hj)⟩
    rcases ite_eq_ok.1 h with ⟨hfreed, h⟩ | ⟨hfreed, h⟩
    · obtain ⟨-, h⟩ := sInternalTemporaryUnmap_bind_eq_ok.1 h
      have hlast := kpmmFree_slots _ _ _ _ _ h
      exact ⟨fun _ => hall.1 hfreed, fun _ => congrArg Prod.fst hlast⟩
    · cases h
      refine ⟨fun hnone => ?_, fun htables => absurd (hall.2 htables) hfreed⟩
      exact absurd ((congrArg Prod.fst hslots).symm.trans hnone) (by simp [slots])

/-! ## Mapping the page of the external mapping -/

/-- The frame of the page table that `kpg_map` writes to for an address of the current directory. -/
def TableAt (s : KState) (va t : Nat) : Prop :=
  let pde := s.entry s.cr3 (pdeIndex va)
  if pde.present = true then pde.tableFrame = t
  else ∃ pa s₁, kpmmAlloc 1 .pmmRegionAny s = .ok (some pa, s₁) ∧ physicalToPageframe pa = t

/-- The call asks for a present entry where the entry of the external mapping is: in the page table
of the kernel, or in a page directory that is that page table and lacks the entry. -/
def MapsExtSlot (s : KState) (va pa flags : Nat) : Prop :=
  isAligned va pageFrameSizeBytes = true ∧ isAligned pa pageFrameSizeBytes = true ∧
    bitIsUnset flags pgMapFlagNotPresent = true ∧
    (TableAt s va kernelPageTableFrame ∧ pteIndex va = temporaryPteIndexExtern ∨
      IsExtSlot s.cr3 (pdeIndex va))

/-- The entry of a page is written over that of the closed external mapping only where that is asked
for. -/
theorem mapInPageTable_ext (hd : pd.At d s) (hext : s.tempExt = none)
    (h : mapInPageTable pd va pa flags s = .ok (b, s')) :
    s'.tempExt = none ↔ ¬ (bitIsUnset flags pgMapFlagNotPresent = true ∧
      IsExtSlot (s.entry d (pdeIndex va)).tableFrame (pteIndex va)) := by
  obtain ⟨-, ⟨-, ⟨err, rfl⟩, hpresent⟩ | ⟨-, -, -, rfl⟩⟩ := mapInPageTable_spec hd h
  · refine ⟨fun _ hbad => ?_, fun _ => hext⟩
    rcases hpresent with hpresent | hslot
    · rw [entry_extSlot hbad.2, hext] at hpresent
      cases hpresent
    · exact not_isIntSlot hbad.2 hslot
  · by_cases hslot : IsExtSlot (s.entry d (pdeIndex va)).tableFrame (pteIndex va)
    · rw [setEntry_extSlot hslot]
      show (if bitIsUnset flags pgMapFlagNotPresent = true then some _ else none) = none ↔ _
      by_cases hflag : bitIsUnset flags pgMapFlagNotPresent = true <;> simp [hflag, hslot]
    · rw [setEntry_ext hslot]
      exact ⟨fun _ hbad => hslot hbad.2, fun _ => hext⟩

/-- An external mapping that is open stays open when the entry of a page is written. -/
theorem mapInPageTable_ext_open (hd : pd.At d s) (hext : s.tempExt ≠ none)
    (h : mapInPageTable pd va pa flags s = .ok (b, s')) : s'.tempExt ≠ none := by
  obtain ⟨-, ⟨-, ⟨err, rfl⟩, -⟩ | ⟨-, hfree, -, rfl⟩⟩ := mapInPageTable_spec hd h
  · exact hext
  · rw [setEntry_ext]
    · exact hext
    · intro hslot
      rw [entry_extSlot hslot] at hfree
      obtain ⟨f, hf⟩ := Option.ne_none_iff_exists'.1 hext
      rw [hf] at hfree
      cases hfree

/-- What `kpmm_alloc` hands out is the address of a page frame. -/
theorem kpmmAlloc_address {count : Nat} {reg : KernelPhysicalMemoryRegions} {addr : Nat}
    (h : kpmmAlloc count reg s = .ok (some addr, s')) :
    pageframesToBytes (physicalToPageframe addr) = addr := by
  rw [kpmmAlloc, kernelPhaseValidate_bind_eq_ok] at h
  rcases ite_eq_ok.1 h.2 with ⟨-, h⟩ | ⟨-, h⟩
  · cases (returnError_eq_ok.1 h).1
  rw [get_bind_apply, lift_bind_eq_ok] at h
  obtain ⟨found, -, h⟩ := h
  cases found with
  | none => cases (returnError_eq_ok.1 h).1
  | some frame =>
    dsimp only at h
    rw [get_bind_apply, kAssert_bind_eq_ok] at h
    obtain ⟨ok, s₁, -, h⟩ := bind_eq_ok.1 h.2
    rcases ite_eq_ok.1 h with ⟨-, h⟩ | ⟨-, h⟩
    · rw [kAssert_bind_eq_ok] at h
      cases h.2
      rw [physicalToPageframe_pageframesToBytes]
      simp only [pageframesToBytes, u32, Nat.shiftLeft_eq]
      omega
    · cases h

/-- The new page table is entered in the directory at the frame it was allocated in. -/
theorem createPageTable_eq (hd : pd.At d s) (h : createPageTable pd va flags s = .ok ((), s')) :
    ∃ pa s₁, kpmmAlloc 1 .pmmRegionAny s = .ok (some pa, s₁) ∧ pd.At d s₁ ∧ s₁.tempExt = s.tempExt ∧
      s' = withPageTable s₁ d (pdeIndex va) (physicalToPageframe pa) flags := by
  obtain ⟨found, s₁, halloc, h⟩ := bind_eq_ok.1 h
  cases found with
  | none => cases h
  | some pa =>
    have haddr := kpmmAlloc_address halloc
    have hslots := kpmmAlloc_slots _ _ _ _ _ halloc
    have hd₁ : pd.At d s₁ := by
      cases pd with
      | null => exact hd
      | temp => exact (congrArg Prod.snd hslots).trans hd
      | current => exact (congrArg KState.cr3 (kpmmAlloc_fixes _ _ _ _ _ halloc)).trans hd
    refine ⟨pa, s₁, halloc, hd₁, congrArg Prod.snd hslots, ?_⟩
    simp only at h
    rw [← haddr] at h
    obtain ⟨hint, h⟩ := sInternalTemporaryMap_bind_eq_ok.1 h
    rw [zeroPage_bind rfl] at h
    obtain ⟨-, h⟩ := sInternalTemporaryUnmap_bind_eq_ok.1 h
    obtain ⟨-, rfl⟩ := (sSetupPde_eq_ok (by exact hd₁)).1 h
    have hmod : physicalToPageframe pa % 2 ^ 20 = physicalToPageframe pa := by
      rw [physicalToPageframe_eq]
      omega
    simp only [hmod, withPageTable, ← hint]

/-- Reading back the entry of a new page table: it leads to that table, unless it went to a
temporary mapping. -/
theorem withPageTable_tableFrame {t : Nat} (ht : t < 2 ^ 20) (hd : ¬ IsTempSlot d i) :
    ((withPageTable s d i t flags).entry d i).tableFrame = t := by
  rw [withPageTable_dir hd, setupEntry_tableFrame ht]

/-- `kpg_map` leaves the external mapping closed unless it is asked to write its entry. -/
theorem kpgMap_ext (hext : s.tempExt = none) (h : kpgMap pd va pa flags s = .ok (b, s')) :
    s'.tempExt = none ↔ ¬ MapsExtSlot s va pa flags := by
  rw [kpgMap, kAssert_bind_eq_ok] at h
  rcases ite_eq_ok.1 h.2 with ⟨hal, h⟩ | ⟨hal, h⟩
  · obtain ⟨-, rfl⟩ := returnError_eq_ok.1 h
    refine ⟨fun _ hbad => ?_, fun _ => hext⟩
    rcases hal with hva | hpa
    · exact absurd (hbad.1.symm.trans hva) (by decide)
    · exact absurd (hbad.2.1.symm.trans hpa) (by decide)
  simp only [not_or, Bool.not_eq_false] at hal
  obtain ⟨d, hd, h⟩ := readPde_bind_eq_ok.1 h
  have hcurrent : pd = .current ∧ s.cr3 = d := by
    cases pd with
    | null => exact hd.elim
    | temp => exact absurd (hext.symm.trans hd) (by simp)
    | current => exact ⟨rfl, hd⟩
  obtain ⟨rfl, rfl⟩ := hcurrent
  have hslot : IsExtSlot s.cr3 (pdeIndex va) → (s.entry s.cr3 (pdeIndex va)).present = false := by
    intro hslot
    rw [entry_extSlot hslot, hext]
    rfl
  simp only [MapsExtSlot, hal.1, hal.2, true_and]
  cases hpresent : (s.entry s.cr3 (pdeIndex va)).present with
  | true =>
    rw [when_false (by simp [hpresent]), pure_bind] at h
    rw [mapInPageTable_ext hd hext h, TableAt, if_pos hpresent]
    have hne : ¬ IsExtSlot s.cr3 (pdeIndex va) := fun hs => by simp [hslot hs] at hpresent
    rw [or_iff_left hne]
    rfl
  | false =>
    rw [when_true (by simp [hpresent])] at h
    obtain ⟨_, s₂, hnew, h⟩ := bind_eq_ok.1 h
    obtain ⟨paNew, s₁, halloc, hd₁, hext₁, rfl⟩ := createPageTable_eq hd hnew
    have htable : TableAt s va kernelPageTableFrame ↔
        physicalToPageframe paNew = kernelPageTableFrame := by
      rw [TableAt, if_neg (by simp [hpresent])]
      refine ⟨fun htable => ?_, fun heq => ⟨paNew, s₁, halloc, heq⟩⟩
      obtain ⟨pa', s', h', heq⟩ := htable
      rw [halloc] at h'
      cases h'
      exact heq
    have ht : physicalToPageframe paNew < 2 ^ 20 := by
      rw [physicalToPageframe_eq]
      omega
    have hd₂ : PageDirectory.current.At s.cr3
        (withPageTable s₁ s.cr3 (pdeIndex va) (physicalToPageframe paNew) flags) :=
      setEntry_cr3.trans hd₁
    rw [htable]
    generalize physicalToPageframe paNew = t at *
    by_cases hflag : bitIsUnset flags pgMapFlagNotPresent = true
    · by_cases hdir : IsExtSlot s.cr3 (pdeIndex va)
      · have hopen : (withPageTable s₁ s.cr3 (pdeIndex va) t flags).tempExt ≠ none := by
          rw [withPageTable, setEntry_extSlot hdir]
          simp [setupEntry, hflag]
        exact iff_of_false (mapInPageTable_ext_open hd₂ hopen h) (by simp [hflag, hdir])
      · have hclosed : (withPageTable s₁ s.cr3 (pdeIndex va) t flags).tempExt = none :=
          (setEntry_ext hdir).trans (hext₁.trans hext)
        have hint : ¬ IsIntSlot s.cr3 (pdeIndex va) := fun hslot => by
          have hnone := (mapInPageTable_spec hd₂ h).1
          rw [withPageTable, setEntry_intSlot hslot] at hnone
          simp [setupEntry, hflag] at hnone
        have hread : ((withPageTable s₁ s.cr3 (pdeIndex va) t flags).entry s.cr3
          (pdeIndex va)).tableFrame =
            t := withPageTable_tableFrame ht (not_isTempSlot hdir hint)
        rw [mapInPageTable_ext hd₂ hclosed h, hread, or_iff_left hdir]
        rfl
    · have hclosed : (withPageTable s₁ s.cr3 (pdeIndex va) t flags).tempExt = none := by
        have hkeeps : KeepsSlots _ (withPageTable s₁ s.cr3 (pdeIndex va) t flags) :=
          keepsSlots_setEntry (.inl (Bool.not_eq_true _ ▸ hflag))
        exact hkeeps.ext (hext₁.trans hext)
      rw [mapInPageTable_ext hd₂ hclosed h]
      simp [hflag]

/-! ## The calls -/

/-- The calls that use the temporary mappings, with their arguments. -/
inductive PagingCall
  | map (pd : PageDirectory) (va pa flags : Nat)
  | unmap (pd : PageDirectory) (va : Nat)
  | doesMappingExists (pd : PageDirectory) (va : Nat)
  | setupPageDirectory (pd flags : Nat) (kernelPD : Option Nat)
  | deletePageDirectory (pd flags : Nat)
  | memmap (vmm va : Nat) (pa : Option Nat) (szPages flags : Nat)
  | commitPage (vmm va : Nat)
  | free (vmm startVa : Nat)

namespace PagingCall

/-- Make a call and drop its result. -/
def exec : PagingCall → K Unit
  | map pd va pa flags => do let _ ← kpgMap pd va pa flags
  | unmap pd va => do let _ ← kpgUnmap pd va
  | doesMappingExists pd va => do let _ ← kpgDoesMappingExists pd va
  | setupPageDirectory pd flags kernelPD => do let _ ← kpgSetupPageDirectory pd flags kernelPD
  | deletePageDirectory pd flags => do let _ ← kpgDeletePageDirectory pd flags
  | memmap vmm va pa szPages flags => do let _ ← kvmmMemmap vmm va pa szPages flags
  | commitPage vmm va => do let _ ← kvmmCommitPage vmm va
  | free vmm startVa => do let _ ← kvmmFree vmm startVa

/-- The call does not write the entry of a closed external mapping, and meets no page table that it
cannot free. -/
def ClosesSlots (s : KState) : PagingCall → Prop
  | map _ va pa flags => s.tempExt = none → ¬ MapsExtSlot s va pa flags
  | deletePageDirectory pd flags => s.tempInt = none → TablesUsable s pd flags
  | _ => True

end PagingCall

/-- A call whose result is dropped leads to the state it leads to. -/
theorem drop_eq_ok {x : K α} : (do let _ ← x : K Unit) s = .ok ((), s') ↔ ∃ a,
    x s = .ok (a, s') := by
  rw [bind_eq_ok]
  constructor
  · rintro ⟨a, s₁, hx, hend⟩
    cases hend
    exact ⟨a, hx⟩
  · rintro ⟨a, hx⟩
    exact ⟨a, s', hx, rfl⟩

/-- What always leaves the mappings closed does so without a condition. -/
theorem Exec.Ensures.drop_keepsSlots {x : K α} (hx : Ensures KeepsSlots x)
    (h : (do let _ ← x : K Unit) s = .ok ((), s')) : KeepsSlots s s' ↔ True := by
  obtain ⟨a, hrun⟩ := drop_eq_ok.1 h
  exact iff_of_true (hx _ _ _ hrun) trivial

/-- A call that returns leaves the temporary mappings closed that it found closed, exactly when it
does not write the entry of the external one and can free what it deletes. -/
theorem keepsSlots_iff (c : PagingCall) (h : c.exec s = .ok ((), s')) :
    KeepsSlots s s' ↔ c.ClosesSlots s := by
  cases c with
  | map pd va pa flags =>
    obtain ⟨b, hrun⟩ := drop_eq_ok.1 h
    constructor
    · exact fun hkeeps hext => (kpgMap_ext hext hrun).1 (hkeeps.ext hext)
    · exact fun hclose => ⟨kpgMap_keepsInt _ _ _ _ _ _ _ hrun,
        fun hext => (kpgMap_ext hext hrun).2 (hclose hext)⟩
  | deletePageDirectory pd flags =>
    obtain ⟨b, hrun⟩ := drop_eq_ok.1 h
    constructor
    · exact fun hkeeps hint => (kpgDeletePageDirectory_int hint hrun).1 (hkeeps.int hint)
    · exact fun hclose => ⟨fun hint => (kpgDeletePageDirectory_int hint hrun).2 (hclose hint),
        (kpgDeletePageDirectory_ext _ _ _ _ _ hrun).trans⟩
  | unmap pd va => exact (kpgUnmap_keepsSlots pd va).drop_keepsSlots h
  | doesMappingExists pd va => exact (kpgDoesMappingExists_keepsSlots pd va).drop_keepsSlots h
  | setupPageDirectory pd flags kernelPD =>
    exact (kpgSetupPageDirectory_keepsSlots pd flags kernelPD).drop_keepsSlots h
  | memmap vmm va pa szPages flags =>
    exact (kvmmMemmap_keepsSlots vmm va pa szPages flags).drop_keepsSlots h
  | commitPage vmm va => exact (kvmmCommitPage_keepsSlots vmm va).drop_keepsSlots h
  | free vmm startVa => exact (kvmmFree_keepsSlots vmm startVa).drop_keepsSlots h

/-- Mapping a page in an empty directory leaves the mappings closed. -/
theorem keepsSlots_firstMapped :
    (PagingCall.map .current 0x400000 0x44000 6).exec emptyDirectory = .ok ((), firstMapped 6) ∧
      KeepsSlots emptyDirectory (firstMapped 6) := by
  have hfirst : kpgMap .current 0x400000 0x44000 6 emptyDirectory = .ok (true, firstMapped 6) :=
    eq_ok_of_value (by decide +kernel)
  have hrun : (PagingCall.map .current 0x400000 0x44000 6).exec emptyDirectory =
      .ok ((), firstMapped 6) := drop_eq_ok.2 ⟨true, hfirst⟩
  refine ⟨hrun, (keepsSlots_iff _ hrun).2 fun _ hbad => ?_⟩
  obtain ⟨-, -, -, ⟨-, hi⟩ | ⟨hd, -⟩⟩ := hbad
  · exact absurd hi (by decide)
  · exact absurd hd (by decide)

/-- A page directory at frame `0x43` with an entry for a page table above the memory. -/
def strayTable : KState :=
  { emptyDirectory with
    mem := fun f i => if f = 0x43 ∧ i = 0 then
      ⟨true, true, true, false, false, 0xFFFFF⟩ else Entry.zero }

/-- Deleting it fails, and leaves the internal mapping open. -/
theorem slots_left_open :
    ¬ ∀ (c : PagingCall) (s s' : KState), c.exec s = .ok ((), s') → KeepsSlots s s' := by
  intro hall
  have hdelete : kpgDeletePageDirectory 0x43000 0 strayTable = .ok (false, _) :=
    eq_ok_of_value (by decide +kernel)
  have hkeeps := hall (.deletePageDirectory 0x43000 0) _ _ (drop_eq_ok.2 ⟨false, hdelete⟩)
  exact absurd (hkeeps.int rfl) (by decide +kernel)

end MeghaOS
