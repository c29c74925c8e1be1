import MeghaOS.Vmm

/-!
# What the memory code leaves alone

The programs of the physical memory manager and of the paging code change page frames, their states
and the temporary mappings, and nothing of the rest of the kernel (`KState.nonPaging`). Committing
pages, and with it every access that may fault, also changes the dirty flag of a `VMemoryManager`
(`KState.nonCommit`).
-/

namespace MeghaOS

open Exec Fixes

variable {α : Type}

/-- A record without the flag that committing pages changes. -/
def Obj.clean : Obj → Obj
  | vmm v => vmm { v with isPageDirectoryDirty := false }
  | o => o

namespace KState

/-- The state without the parts that the paging code changes. -/
def nonPaging (s : KState) : KState :=
  { s with
    pab := ⟨fun _ => 0, 0, 0⟩
    mem := fun _ _ => Entry.zero
    tempExt := none
    tempInt := none
    errorNumber := .errNone }

/-- The state without the parts that committing a page changes. -/
def nonCommit (s : KState) : KState :=
  { s.nonPaging with objs := fun a => (s.objs a).map Obj.clean }

/-- What the second view drops is dropped in addition to what the first one does. -/
def dropDirty (s : KState) : KState := { s with objs := fun a => (s.objs a).map Obj.clean }

/-- Writing a page table entry changes only what the paging code may change. -/
theorem nonPaging_setEntry (s : KState) (frame i : Nat) (e : Entry) :
    (s.setEntry frame i e).nonPaging = s.nonPaging := by
  unfold setEntry
  dsimp only
  split_ifs <;> rfl

end KState

open KState

/-! ## Primitive programs -/

namespace Exec.Fixes

variable {τ : Type} {f : KState → τ}

/-- A program that panics leaves no state to speak of. -/
theorem kPanic (m : String) : Fixes f (kPanic m : K α) := .halt _

/-- An assertion only looks. -/
theorem kAssert (t : Prop) [Decidable t] (e : String) : Fixes f (kAssert t e) :=
  .ite (.pure _) (.kPanic _)

/-- So does the check of the phase. -/
theorem kernelPhaseValidate (p : KernelPhase) : Fixes f (kernelPhaseValidate p) :=
  .bind .get fun _ => .kAssert _ _

/-- And the panic on a pending error. -/
theorem kPanicOnError : Fixes f kPanicOnError :=
  .bind .get fun _ => .ite (.kPanic _) (.pure _)

/-- Reading a record changes nothing: that of a process. -/
theorem getProc (a : Nat) : Fixes f (getProc a) := by
  refine .bind .get fun s => ?_
  split
  · exact .pure _
  · exact .halt _

/-- That of a `VMemoryManager`. -/
theorem getVmm (a : Nat) : Fixes f (getVmm a) := by
  refine .bind .get fun s => ?_
  split
  · exact .pure _
  · exact .halt _

/-- That of a `VirtualAddressSpace`. -/
theorem getVas (a : Nat) : Fixes f (getVas a) := by
  refine .bind .get fun s => ?_
  split
  · exact .pure _
  · exact .halt _

/-- That of a `VMemoryShare`. -/
theorem getShare (a : Nat) : Fixes f (getShare a) := by
  refine .bind .get fun s => ?_
  split
  · exact .pure _
  · exact .halt _

/-- Following a pointer changes nothing. -/
theorem follow (p : Ptr) : Fixes f p.follow := .pure _

end Exec.Fixes

/-! ## The paging code -/

/-- Setting the error number. -/
theorem returnError_fixes (errno : KernelErrorCodes) (v : α) :
    Fixes nonPaging (returnError errno v) :=
  .bind (.modify fun _ => rfl) fun _ => .pure _

/-- `bitmap_setContinous` on the PAB. -/
theorem pabSetContinous_fixes (start count state : Nat) :
    Fixes nonPaging (pabSetContinous start count state) := by
  rintro s ok s' h
  simp only [pabSetContinous, get_bind_apply, lift_bind_eq_ok, set_bind_apply, pure_apply,
    Except.ok.injEq, Prod.mk.injEq] at h
  obtain ⟨_, -, -, rfl⟩ := h
  rfl

/-- `kpmm_alloc` and `kpmm_allocAt` mark page frames. -/
theorem kpmmAlloc_fixes (count : Nat) (reg : KernelPhysicalMemoryRegions) :
    Fixes nonPaging (kpmmAlloc count reg) := by
  refine .bind (.kernelPhaseValidate _) fun _ => .ite (returnError_fixes _ _) ?_
  refine .bind .get fun _ => .bind (.lift _) fun found => ?_
  cases found with
  | none => exact returnError_fixes _ _
  | some frame =>
    refine .bind .get fun _ => .bind (.kAssert _ _) fun _ => .bind (pabSetContinous_fixes _ _ _) ?_
    exact fun _ => .ite (.bind (.kAssert _ _) fun _ => .pure _) (.kPanic _)

/-- `kpmm_free` unmarks them. -/
theorem kpmmFree_fixes (start count : Nat) : Fixes nonPaging (kpmmFree start count) := by
  refine .bind (.kernelPhaseValidate _) fun _ => .ite (returnError_fixes _ _) ?_
  refine .bind .get fun _ => .ite (returnError_fixes _ _) (.ite (returnError_fixes _ _) ?_)
  exact pabSetContinous_fixes _ _ _

/-- `kpmm_getPageStatus` looks at one. -/
theorem kpmmGetPageStatus_fixes (phy : Nat) : Fixes nonPaging (kpmmGetPageStatus phy) :=
  .bind (.kernelPhaseValidate _) fun _ => .ite (returnError_fixes _ _) (.bind .get fun _ => .lift _)

/-- `s_internal_temporaryMap` fills the slot of the paging code. -/
theorem sInternalTemporaryMap_fixes (pa : Nat) : Fixes nonPaging (sInternalTemporaryMap pa) := by
  refine .ite (returnError_fixes _ _) (.bind .get fun _ => .ite (.kPanic _) ?_)
  exact .bind (.modify fun _ => rfl) fun _ => .pure _

/-- `s_internal_temporaryUnmap` empties it. -/
theorem sInternalTemporaryUnmap_fixes : Fixes nonPaging sInternalTemporaryUnmap :=
  .bind .get fun _ => .ite (.kPanic _) (.modify fun _ => rfl)

/-- `kpg_temporaryMap` fills the other slot. -/
theorem kpgTemporaryMap_fixes (pa : Nat) : Fixes nonPaging (kpgTemporaryMap pa) := by
  refine .ite (returnError_fixes _ _) (.bind .get fun _ => .ite (.kPanic _) ?_)
  exact .bind (.modify fun _ => rfl) fun _ => .pure _

/-- `kpg_temporaryUnmap` empties it. -/
theorem kpgTemporaryUnmap_fixes : Fixes nonPaging kpgTemporaryUnmap :=
  .bind .get fun _ => .ite (.kPanic _) (.modify fun _ => rfl)

/-- Where a slot leads to. -/
theorem frameOf_fixes (slot : Option Nat) : Fixes nonPaging (frameOf slot) := by
  cases slot
  · exact .halt _
  · exact .pure _

/-- Where a page directory lies. -/
theorem frame_fixes (pd : PageDirectory) : Fixes nonPaging pd.frame := by
  cases pd
  · exact .halt _
  · exact .bind .get fun _ => frameOf_fixes _
  · exact .bind .get fun _ => .pure _

/-- Reading a page directory entry. -/
theorem readPde_fixes (pd : PageDirectory) (i : Nat) : Fixes nonPaging (readPde pd i) :=
  .bind .get fun _ => .bind (frame_fixes _) fun _ => .pure _

/-- Reading a page table entry. -/
theorem readPte_fixes (i : Nat) : Fixes nonPaging (readPte i) :=
  .bind .get fun _ => .bind .get fun _ => .bind (frameOf_fixes _) fun _ => .pure _

/-- `s_setupPDE`. -/
theorem sSetupPde_fixes (pd : PageDirectory) (i pa flags : Nat) :
    Fixes nonPaging (sSetupPde pd i pa flags) :=
  .bind (.kAssert _ _) fun _ => .bind (frame_fixes _) fun _ =>
    .modify fun _ => nonPaging_setEntry _ _ _ _

/-- `s_setupPTE`. -/
theorem sSetupPte_fixes (i pa flags : Nat) : Fixes nonPaging (sSetupPte i pa flags) :=
  .bind (.kAssert _ _) fun _ => .bind .get fun _ => .bind (frameOf_fixes _) fun _ =>
    .modify fun _ => nonPaging_setEntry _ _ _ _

/-- Clearing the page behind the slot. -/
theorem zeroPage_fixes : Fixes nonPaging zeroPage :=
  .bind .get fun _ => .bind (frameOf_fixes _) fun _ => .modify fun _ => rfl

/-- `kpg_unmap`. -/
theorem kpgUnmap_fixes (pd : PageDirectory) (va : Nat) : Fixes nonPaging (kpgUnmap pd va) := by
  refine .bind (.kAssert _ _) fun _ => .ite (returnError_fixes _ _) ?_
  refine .bind (readPde_fixes _ _) fun _ => .ite (returnError_fixes _ _) ?_
  refine .bind (sInternalTemporaryMap_fixes _) fun _ => .bind (readPte_fixes _) fun _ => .ite ?_ ?_
  · exact .bind sInternalTemporaryUnmap_fixes fun _ => returnError_fixes _ _
  · refine .bind .get fun _ => .bind (frameOf_fixes _) fun _ => ?_
    refine .bind (.modify fun _ => nonPaging_setEntry _ _ _ _) fun _ => ?_
    exact .bind sInternalTemporaryUnmap_fixes fun _ => .pure _

/-- The first part of `kpg_map`, which makes a page table. -/
theorem createPageTable_fixes (pd : PageDirectory) (va flags : Nat) :
    Fixes nonPaging (createPageTable pd va flags) := by
  refine .bind (kpmmAlloc_fixes _ _) fun found => ?_
  cases found with
  | none => exact .kPanic _
  | some paNew =>
    refine .bind (sInternalTemporaryMap_fixes _) fun _ => .bind zeroPage_fixes fun _ => ?_
    exact .bind sInternalTemporaryUnmap_fixes fun _ => sSetupPde_fixes _ _ _ _

/-- The second part of `kpg_map`, which writes the entry. -/
theorem mapInPageTable_fixes (pd : PageDirectory) (va pa flags : Nat) :
    Fixes nonPaging (mapInPageTable pd va pa flags) := by
  refine .bind (readPde_fixes _ _) fun _ => .bind (sInternalTemporaryMap_fixes _) fun _ => ?_
  refine .bind (readPte_fixes _) fun _ => .ite ?_ ?_
  · exact .bind sInternalTemporaryUnmap_fixes fun _ => returnError_fixes _ _
  · refine .bind (sSetupPte_fixes _ _ _) fun _ => ?_
    exact .bind sInternalTemporaryUnmap_fixes fun _ => .pure _

/-- `kpg_map`. -/
theorem kpgMap_fixes (pd : PageDirectory) (va pa flags : Nat) :
    Fixes nonPaging (kpgMap pd va pa flags) := by
  refine .bind (.kAssert _ _) fun _ => .ite (returnError_fixes _ _) ?_
  refine .bind (readPde_fixes _ _) fun _ => .bind (.when (createPageTable_fixes _ _ _)) fun _ => ?_
  exact mapInPageTable_fixes _ _ _ _

/-- The loop of `kpg_mapContinous`. -/
theorem mapContinousFrom_fixes (pd : PageDirectory) (flags n va pa : Nat) :
    Fixes nonPaging (mapContinousFrom pd flags n va pa) := by
  induction n generalizing va pa with
  | zero => exact .pure _
  | succ n ih => exact .bind (kpgMap_fixes _ _ _ _) fun _ => .ite (ih _ _) (.pure _)

/-- `kpg_mapContinous`. -/
theorem kpgMapContinous_fixes (pd : PageDirectory) (va pa n flags : Nat) :
    Fixes nonPaging (kpgMapContinous pd va pa n flags) :=
  .ite (returnError_fixes _ _) (mapContinousFrom_fixes _ _ _ _ _)

/-- `kpg_doesMappingExists`. -/
theorem kpgDoesMappingExists_fixes (pd : PageDirectory) (va : Nat) :
    Fixes nonPaging (kpgDoesMappingExists pd va) := by
  refine .bind (.kAssert _ _) fun _ => .bind (readPde_fixes _ _) fun _ => .ite ?_ (.pure _)
  refine .bind (sInternalTemporaryMap_fixes _) fun _ => .bind (readPte_fixes _) fun _ => ?_
  exact .bind sInternalTemporaryUnmap_fixes fun _ => .pure _

/-- The start of `kpg_setupPageDirectory`. -/
theorem openPd_fixes (pd flags : Nat) : Fixes nonPaging (openPd pd flags) := by
  refine .ite ?_ (.bind (sInternalTemporaryMap_fixes _) fun _ => .pure _)
  refine .bind (kpmmAlloc_fixes _ _) fun found => ?_
  cases found with
  | none => exact .pure _
  | some pd =>
    exact .bind (sInternalTemporaryMap_fixes _) fun _ => .bind zeroPage_fixes fun _ => .pure _

/-- The copy of the kernel's entries in `kpg_setupPageDirectory`. -/
theorem copyKernelPages_fixes (kernelPD : Option Nat) :
    Fixes nonPaging (copyKernelPages kernelPD) := by
  cases kernelPD with
  | none => exact .kPanic _
  | some kernelPD =>
    refine .bind (kpgTemporaryMap_fixes _) fun _ => .bind (frame_fixes _) fun _ => ?_
    refine .bind .get fun _ => .bind (frameOf_fixes _) fun _ => ?_
    exact .bind (.modify fun _ => rfl) fun _ => kpgTemporaryUnmap_fixes

/-- The recursive entry in `kpg_setupPageDirectory`. -/
theorem recursiveMap_fixes (pd : Nat) : Fixes nonPaging (recursiveMap pd) :=
  .bind .get fun _ => .bind (frameOf_fixes _) fun _ => .modify fun _ => nonPaging_setEntry _ _ _ _

/-- `kpg_setupPageDirectory`. -/
theorem kpgSetupPageDirectory_fixes (pd flags : Nat) (kernelPD : Option Nat) :
    Fixes nonPaging (kpgSetupPageDirectory pd flags kernelPD) := by
  refine .bind (openPd_fixes _ _) fun found => ?_
  cases found with
  | none => exact .pure _
  | some pd =>
    refine .bind (.when (copyKernelPages_fixes _)) fun _ => .bind (.when (recursiveMap_fixes _)) ?_
    exact fun _ => .bind sInternalTemporaryUnmap_fixes fun _ => .pure _

/-- The loop of `kpg_deletePageDirectory`. -/
theorem freePageTables_fixes (n i : Nat) : Fixes nonPaging (freePageTables n i) := by
  induction n generalizing i with
  | zero => exact .pure _
  | succ n ih =>
    refine .bind (readPte_fixes _) fun _ => .ite ?_ (ih _)
    exact .bind (kpmmFree_fixes _ _) fun _ => .ite (ih _) (.pure _)

/-- `kpg_deletePageDirectory`. -/
theorem kpgDeletePageDirectory_fixes (pd flags : Nat) :
    Fixes nonPaging (kpgDeletePageDirectory pd flags) := by
  refine .bind .get fun _ => .bind (.kAssert _ _) fun _ => ?_
  refine .bind (sInternalTemporaryMap_fixes _) fun _ => .bind (freePageTables_fixes _ _) fun _ => ?_
  exact .ite (.bind sInternalTemporaryUnmap_fixes fun _ => kpmmFree_fixes _ _) (.pure _)

/-- The question who owns the page frames of a shared region. -/
theorem ownsFrames_fixes (share : Nat) : Fixes nonPaging (ownsFrames share) :=
  .ite (.pure _) (.bind (.getShare _) fun _ => .pure _)

/-- One turn of the loop of `kvmm_free`. -/
theorem freePage_fixes (pd : PageDirectory) (share va : Nat) :
    Fixes nonPaging (freePage pd share va) := by
  refine .bind (kpgDoesMappingExists_fixes _ _) fun found => ?_
  cases found with
  | none => exact .pure _
  | some pa =>
    refine .bind (kpgUnmap_fixes _ _) fun _ => .bind (.when .kPanicOnError) fun _ => ?_
    refine .bind (ownsFrames_fixes _) fun _ => .ite ?_ (.pure _)
    exact .bind (kpmmFree_fixes _ _) fun _ => .when .kPanicOnError

/-- The loop of `kvmm_free`. -/
theorem freePagesFrom_fixes (pd : PageDirectory) (share n va : Nat) :
    Fixes nonPaging (freePagesFrom pd share n va) := by
  induction n generalizing va with
  | zero => exact .pure _
  | succ n ih => exact .bind (freePage_fixes _ _ _) fun _ => ih _

/-! ## Committing pages -/

/-- What the paging code leaves alone, committing leaves alone. -/
theorem Exec.Fixes.commit {x : K α} (h : Fixes nonPaging x) : Fixes nonCommit x :=
  h.comp dropDirty

/-- The dirty flag is what committing a page may change of a record. -/
theorem modifyVmm_dirty_fixes (vmm : Nat) (dirty : Bool) :
    Fixes nonCommit (modifyVmm vmm fun v => { v with isPageDirectoryDirty := dirty }) := by
  intro s _ s' h
  obtain ⟨v, hv, rfl⟩ := modifyVmm_eq_ok.1 h
  have hobjs : ∀ a, ((s.setObj vmm (.vmm { v with isPageDirectoryDirty := dirty })).objs a).map
      Obj.clean = (s.objs a).map Obj.clean := fun a => by
    by_cases ha : a = vmm
    · subst ha; simp [KState.setObj, hv, Obj.clean]
    · simp [KState.setObj, ha]
  exact congrArg (fun objs => { s.nonPaging with objs }) (funext hobjs)

/-! ## Searching the address spaces -/

section

variable {τ : Type} {f : KState → τ}

/-- The loop of `find_vas` changes nothing. -/
theorem findVasFrom_fixes (startVA : Nat) (l : List Nat) : Fixes f (findVasFrom startVA l) := by
  induction l with
  | nil => exact .pure _
  | cons a l ih => exact .bind (.getVas _) fun _ => .ite (.pure _) ih

/-- `find_vas` only looks. -/
theorem findVas_fixes (vmm startVA : Nat) : Fixes f (findVas vmm startVA) :=
  .bind (.getVmm _) fun _ => findVasFrom_fixes _ _

/-- The loop of `find_next_va` changes nothing. -/
theorem findNextVaFrom_fixes (v : VMemoryManager) (szBytes : Nat) (l : List Nat) :
    ∀ prev, Fixes f (findNextVaFrom v szBytes prev l) := by
  induction l with
  | nil =>
    rintro (_ | prev)
    · exact .kPanic _
    · exact .pure _
  | cons a l ih =>
    rintro (_ | prev)
    · exact .bind (.getVas _) fun _ => .bind (.pure _) fun _ => .ite (.pure _) (ih _)
    · refine .bind (.getVas _) fun _ => .bind (.kAssert _ _) fun _ => ?_
      exact .bind (.pure _) fun _ => .ite (.pure _) (ih _)

/-- `find_next_va` only looks. -/
theorem findNextVa_fixes (m szPages : Nat) : Fixes f (findNextVa m szPages) :=
  .bind (.getVmm _) fun _ => .ite (.pure _) (findNextVaFrom_fixes _ _ _ _)

/-- `kvmm_findFree` only looks. -/
theorem kvmmFindFree_fixes (m szPages : Nat) : Fixes f (kvmmFindFree m szPages) :=
  .bind (.kAssert _ _) fun _ => findNextVa_fixes _ _

/-- The choice of the address in `kvmm_memmap` only looks. -/
theorem memmapVa_fixes (m va szPages : Nat) : Fixes f (memmapVa m va szPages) :=
  .ite (findNextVa_fixes _ _) (.pure _)

end

/-! ## Committing -/

/-- The choice of the page frames in `commit_virtual_pages`. -/
theorem pagesToCommit_fixes (vmm : Nat) (pa : Option Nat) (n : Nat) :
    Fixes nonPaging (pagesToCommit vmm pa n) := by
  cases pa with
  | none => exact .bind (.getVmm _) fun _ => kpmmAlloc_fixes _ _
  | some pa => exact .pure _

/-- `commit_virtual_pages`. -/
theorem commitVirtualPages_fixes (vmm vaStart : Nat) (pa : Option Nat) (n flags : Nat) :
    Fixes nonCommit (commitVirtualPages vmm vaStart pa n flags) := by
  refine .bind (pagesToCommit_fixes _ _ _).commit fun found => ?_
  cases found with
  | none => exact .pure _
  | some lPaStart =>
    refine .bind (.getVmm _) fun _ => .bind (kpgTemporaryMap_fixes _).commit fun _ => ?_
    refine .bind (kpgMapContinous_fixes _ _ _ _ _).commit fun _ => .ite ?_ ?_
    · refine .bind kpgTemporaryUnmap_fixes.commit fun _ => ?_
      exact .bind (modifyVmm_dirty_fixes _ _) fun _ => .pure _
    · exact .bind kpgTemporaryUnmap_fixes.commit fun _ => .pure _

/-- `kvmm_commitPage`. -/
theorem kvmmCommitPage_fixes (vmm va : Nat) : Fixes nonCommit (kvmmCommitPage vmm va) := by
  refine .bind (findVas_fixes _ _) fun found => ?_
  cases found with
  | none => exact (returnError_fixes _ _).commit
  | some a =>
    refine .bind (.getVas _) fun _ => .ite (returnError_fixes _ _).commit ?_
    refine .ite (returnError_fixes _ _).commit ?_
    exact .bind (commitVirtualPages_fixes _ _ _ _ _) fun _ => .pure _

/-- The loop of `kprocess_sync_pd`. -/
theorem syncQueue_fixes (kernelPD : Nat) (queue : List Nat) :
    Fixes nonCommit (syncQueue kernelPD queue) := by
  induction queue with
  | nil => exact .pure _
  | cons p queue ih =>
    refine .bind (.getProc _) fun _ => .bind (.follow _) fun _ => .bind ?_ fun _ => ?_
    · exact .bind (.getVmm _) fun _ => .pure _
    · refine .bind (kpgSetupPageDirectory_fixes _ _ _).commit fun found => ?_
      cases found with
      | none => exact .kPanic _
      | some _ => exact ih

/-- `kprocess_sync_pd`. -/
theorem kprocessSyncPD_fixes : Fixes nonCommit kprocessSyncPD := by
  refine .bind .get fun _ => .ite ?_ (.pure _)
  refine .bind .get fun _ => .bind (.bind (.getVmm _) fun _ => .pure _) fun _ => ?_
  exact .bind .get fun _ => syncQueue_fixes _ _

/-- `kvmm_isPageDirectoryDirty`. -/
theorem kvmmIsPageDirectoryDirty_fixes (vmm : Nat) :
    Fixes nonCommit (kvmmIsPageDirectoryDirty vmm) :=
  .bind (.getVmm _) fun _ => .bind (modifyVmm_dirty_fixes _ _) fun _ => .pure _

/-- `kprocess_getCurrentContext`. -/
theorem kprocessGetCurrentContext_fixes : Fixes nonCommit kprocessGetCurrentContext := by
  refine .bind .get fun s => .ite (.pure _) ?_
  split
  · exact .pure _
  · exact .pure _

/-- The page fault handler, when there is a context to commit the page in. -/
theorem commitFault_fixes (context addr : Nat) (present : Bool) :
    Fixes nonCommit (commitFault context addr present) := by
  refine .ite (.bind (kvmmCommitPage_fixes _ _) fun _ => .ite ?_ (.kPanic _)) (.kPanic _)
  exact .bind .get fun _ => .ite kprocessSyncPD_fixes (.pure _)

/-- `page_fault_handler`, when it returns. -/
theorem pageFaultHandler_fixes (addr : Nat) (present : Bool) :
    Fixes nonCommit (pageFaultHandler addr present) := by
  refine .bind kprocessGetCurrentContext_fixes fun _ => .bind .get fun _ => ?_
  refine .bind (.bind (.getVmm _) fun _ => .pure _) fun _ => .ite ?_ ?_
  · refine .bind (kvmmIsPageDirectoryDirty_fixes _) fun _ => ?_
    exact .ite kprocessSyncPD_fixes (commitFault_fixes _ _ _)
  · exact .bind (.follow _) fun _ => commitFault_fixes _ _ _

/-- Accesses to some pages in turn. -/
theorem touchFrom_fixes (va n : Nat) : Fixes nonCommit (touchFrom va n) := by
  induction n with
  | zero => exact .halt _
  | succ n ih =>
    exact .bind .get fun _ => .ite (.pure _) (.bind (pageFaultHandler_fixes _ _) fun _ => ih)

/-- Accesses to a number of pages. -/
theorem touchPages_fixes (n page : Nat) : Fixes nonCommit (touchPages n page) := by
  induction n generalizing page with
  | zero => exact .pure _
  | succ n ih => exact .bind (touchFrom_fixes _ _) fun _ => ih _

/-- An access to a range of addresses. -/
theorem touchRange_fixes (addr len : Nat) : Fixes nonCommit (touchRange addr len) :=
  touchPages_fixes _ _

end MeghaOS
