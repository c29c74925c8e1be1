import MeghaOS.Proof.Frame
import MeghaOS.Proof.Processes
import MeghaOS.Proof.Rights

/-!
# Page faults under a copy

`k_memcpyToPhyMem` reads its source while the external temporary mapping is open, and the page fault
handler opens the same mapping to commit a page. `kMemcpyToPhyMem_cases` runs a copy: it returns
with the state as it was when every source page is mapped, and else it stops at the first page that
is not. What it stops with depends on whether there is a page to commit.
-/

namespace MeghaOS

open Exec KState

variable {α : Type} {s s' : KState} {c va src n page dest : Nat} {v k : VMemoryManager}

/-- The panic of a temporary mapping that is opened twice. -/
def reentry : Halt := .panic "Temporary mapping already present"

/-- The state with another external mapping. -/
def KState.withExt (x : Option Nat) (s : KState) : KState := { s with tempExt := x }

/-! ## Programs that do not look at the mapping -/

section Ignores

variable {x : Option Nat}

/-- A panic. -/
theorem kPanic_ignores (m : String) : Ignores (withExt x) (kPanic m : K α) := .halt _

/-- An assertion. -/
theorem kAssert_ignores (t : Prop) [Decidable t] (e : String) : Ignores (withExt x) (kAssert t e) :=
  .ite (.pure _) (.halt _)

/-- Setting the error number. -/
theorem returnError_ignores (errno : KernelErrorCodes) (a : α) :
    Ignores (withExt x) (returnError errno a) :=
  .bind (.modify fun _ => rfl) fun _ => .pure _

/-- The check of the phase. -/
theorem kernelPhaseValidate_ignores (p : KernelPhase) :
    Ignores (withExt x) (kernelPhaseValidate p) :=
  .get_bind (fun _ => rfl) fun _ => kAssert_ignores _ _

/-- Reading a `VMemoryManager`. -/
theorem getVmm_ignores (a : Nat) : Ignores (withExt x) (getVmm a) := by
  refine .get_bind (fun _ => rfl) fun s => ?_
  split
  · exact .pure _
  · exact .halt _

/-- Reading a `VirtualAddressSpace`. -/
theorem getVas_ignores (a : Nat) : Ignores (withExt x) (getVas a) := by
  refine .get_bind (fun _ => rfl) fun s => ?_
  split
  · exact .pure _
  · exact .halt _

/-- The loop of `find_vas`. -/
theorem findVasFrom_ignores (startVA : Nat) (l : List Nat) :
    Ignores (withExt x) (findVasFrom startVA l) := by
  induction l with
  | nil => exact .pure _
  | cons a l ih => exact .bind (getVas_ignores _) fun _ => .ite (.pure _) ih

/-- `find_vas`. -/
theorem findVas_ignores (vmm startVA : Nat) : Ignores (withExt x) (findVas vmm startVA) :=
  .bind (getVmm_ignores _) fun _ => findVasFrom_ignores _ _

/-- `kprocess_getCurrentContext`. -/
theorem kprocessGetCurrentContext_ignores : Ignores (withExt x) kprocessGetCurrentContext := by
  refine .get_bind (fun _ => rfl) fun s => .ite (.pure _) ?_
  split
  · exact .pure _
  · exact .pure _

/-- `bitmap_setContinous` on the PAB. -/
theorem pabSetContinous_ignores (start count state : Nat) :
    Ignores (withExt x) (pabSetContinous start count state) := by
  intro s
  unfold pabSetContinous
  rw [get_bind_apply, get_bind_apply]
  show (Exec.lift (bitmapSetContinous (sVerifyChange s) s.pab start count state) >>= _) _ = _
  cases bitmapSetContinous (sVerifyChange s) s.pab start count state <;> rfl

/-- `kpmm_alloc`. -/
theorem kpmmAlloc_ignores (count : Nat) (reg : KernelPhysicalMemoryRegions) :
    Ignores (withExt x) (kpmmAlloc count reg) := by
  refine .bind (kernelPhaseValidate_ignores _) fun _ => .ite (returnError_ignores _ _) ?_
  refine .get_bind (fun _ => rfl) fun _ => .bind (.lift _) fun found => ?_
  cases found with
  | none => exact returnError_ignores _ _
  | some frame =>
    refine .get_bind (fun _ => rfl) fun _ => .bind (kAssert_ignores _ _) fun _ => ?_
    refine .bind (pabSetContinous_ignores _ _ _) fun _ => .ite ?_ (kPanic_ignores _)
    exact .bind (kAssert_ignores _ _) fun _ => .pure _

end Ignores

/-! ## Why `kpmm_alloc` may stop -/

/-- A failed assertion has a message of its own. -/
theorem assertion_ne (e : String) : Halt.panic ("Assertion failed: " ++ e) ≠ reentry := by
  intro h
  have hhead := congrArg (fun s => s.toList.head?) (Halt.panic.inj h)
  simp [String.toList_append] at hhead

/-- An assertion fails with another message. -/
theorem kAssert_haltsIn (t : Prop) [Decidable t] (e : String) :
    HaltsIn (· ≠ reentry) (kAssert t e) :=
  .ite (.pure _) (.halt (assertion_ne e))

/-- Setting the error number does not stop. -/
theorem returnError_haltsIn (errno : KernelErrorCodes) (a : α) :
    HaltsIn (· ≠ reentry) (returnError errno a) :=
  .bind (fun _ _ h => by cases h) fun _ => .pure _

/-- A program of the bitmap stops only at assertions, and its callback. -/
def Avoids {α : Type} (x : Except Halt α) : Prop := ∀ e, x = .error e → e ≠ reentry

namespace Avoids

/-- Two steps in sequence. -/
theorem bind {β : Type} {x : Except Halt α} {f : α → Except Halt β} (hx : Avoids x)
    (hf : ∀ a, Avoids (f a)) : Avoids (x >>= f) := by
  intro e h
  cases x with
  | error e' => cases h; exact hx _ rfl
  | ok a => exact hf a e h

/-- A result. -/
theorem pure (a : α) : Avoids (Pure.pure a : Except Halt α) := fun _ h => by cases h

/-- Either branch of a conditional. -/
theorem ite {t : Prop} [Decidable t] {x y : Except Halt α} (hx : Avoids x) (hy : Avoids y) :
    Avoids (if t then x else y) := by
  split <;> assumption

/-- An assertion fails with another message. -/
theorem kAssertE (t : Prop) [Decidable t] (e : String) : Avoids (kAssertE t e) :=
  .ite (fun _ h => by cases h) fun _ h => by cases h; exact assertion_ne e

/-- `bitmap_get`. -/
theorem bitmapGet (b : Bitmap) (index : Nat) : Avoids (bitmapGet b index) :=
  .bind (.kAssertE _ _) fun _ => .bind (.kAssertE _ _) fun _ => .pure _

/-- `bitmap_findContinousAt`. -/
theorem bitmapFindContinousAt (b : Bitmap) (state len index : Nat) :
    Avoids (bitmapFindContinousAt b state len index) := by
  have hscan : ∀ len index, Avoids (bitmapScan b state len index) := by
    intro len
    induction len with
    | zero => exact fun _ => .pure _
    | succ len ih => exact fun _ => .bind (.bitmapGet _ _) fun _ => .ite (ih _) (.pure _)
  refine .bind (.kAssertE _ _) fun _ => .bind (.kAssertE _ _) fun _ =>
    .bind (.kAssertE _ _) fun _ => ?_
  exact .ite (.pure _) (hscan _ _)

/-- `bitmap_findContinous`. -/
theorem bitmapFindContinous (b : Bitmap) (state len : Nat) :
    Avoids (bitmapFindContinous b state len) := by
  have hfind : ∀ n index, Avoids (bitmapFindFrom b state len n index) := by
    intro n
    induction n with
    | zero => exact fun _ => .pure _
    | succ n ih =>
      exact fun _ => .bind (.bitmapFindContinousAt _ _ _ _) fun _ => .ite (.pure _) (ih _)
  refine .bind (.kAssertE _ _) fun _ => .bind (.kAssertE _ _) fun _ =>
    .bind (.kAssertE _ _) fun _ => ?_
  exact hfind _ _

/-- `s_verifyChange`. -/
theorem sVerifyChange (s : KState) (frame old new : Nat) :
    Avoids (sVerifyChange s frame old new) := by
  refine .ite ?_ (.ite ?_ (.ite ?_ (.ite ?_ (.ite ?_ (fun _ h => by cases h))))) <;>
    · rintro _ ⟨⟩
      decide

/-- `bitmap_setContinous`, when `allow` does not stop with this panic. -/
theorem bitmapSetContinous {allow : Nat → Nat → Nat → Except Halt Bool}
    (hallow : ∀ i old new, Avoids (allow i old new)) (b : Bitmap) (index len state : Nat) :
    Avoids (bitmapSetContinous allow b index len state) := by
  have hset : ∀ len index b, Avoids (bitmapSetFrom allow state len index b) := by
    intro len
    induction len with
    | zero => exact fun _ _ => .pure _
    | succ len ih =>
      exact fun _ _ => .bind (.bitmapGet _ _) fun _ => .bind (hallow _ _ _) fun _ =>
        .ite (ih _ _) (.pure _)
  refine .bind (.kAssertE _ _) fun _ => .bind (.kAssertE _ _) fun _ =>
    .bind (.kAssertE _ _) fun _ => ?_
  exact .bind (.kAssertE _ _) fun _ => hset _ _ _

end Avoids

/-- `kpmm_alloc` does not open a temporary mapping. -/
theorem kpmmAlloc_haltsIn (count : Nat) (reg : KernelPhysicalMemoryRegions) :
    HaltsIn (· ≠ reentry) (kpmmAlloc count reg) := by
  refine .bind (.bind .get fun _ => kAssert_haltsIn _ _) fun _ => .ite (returnError_haltsIn _ _) ?_
  refine .bind .get fun _ => .bind (.lift (Avoids.bitmapFindContinous _ _ _)) fun found => ?_
  cases found with
  | none => exact returnError_haltsIn _ _
  | some frame =>
    refine .bind .get fun _ => .bind (kAssert_haltsIn _ _) fun _ =>
      .bind (.bind .get fun s => ?_) ?_
    · refine .bind (.lift (Avoids.bitmapSetContinous (Avoids.sVerifyChange s) _ _ _ _)) fun _ => ?_
      exact .bind (fun _ _ h => by cases h) fun _ => .pure _
    · exact fun _ => .ite (.bind (kAssert_haltsIn _ _) fun _ => .pure _) (.halt (by decide))

/-! ## One page -/

/-- The page of an address, on 32-bit words. -/
def pageOf (a : Nat) : Nat := u32 (a / pageFrameSizeBytes * pageFrameSizeBytes)

/-- The address space is one whose pages are committed when they are first used. -/
def VMemoryAddressSpace.Lazy (vas : VMemoryAddressSpace) : Prop :=
  bitIsSet vas.flags vmmMemmapFlagImmcommit = false ∧
    bitIsSet vas.flags vmmMemmapFlagCommitted = false ∧
      bitIsSet vas.flags vmmMemmapFlagNullpage = false

/-- A page outside the range of the kernel that is reserved in the address space of the manager at
`c`: it is committed, or still lazily uncommitted. Its page table is not the one with the temporary
mappings. -/
structure ReservedPage (s : KState) (c : Nat) (k : VMemoryManager) (va : Nat) : Prop where
  user : ¬ (va ≥ k.start ∧ va < k.end_)
  dir : s.cr3 ≠ kernelPageTableFrame
  table : (s.entry s.cr3 (pdeIndex va)).pageFrame ≠ kernelPageTableFrame
  reserved : ∃ a vas, findVas c va s = .ok (some a, s) ∧ s.objs a = some (.vas vas) ∧
    (isMapped s va = true ∨ vas.Lazy)

/-- The current process runs in the address space of the manager at `c`, which is `v`; that of the
kernel is `k`. -/
structure RunsIn (s : KState) (c : Nat) (v k : VMemoryManager) : Prop where
  context : kprocessGetCurrentContext s = .ok (.addr c, s)
  vmm : s.objs c = some (.vmm v)
  pd : isAligned v.parentProcessPD pageFrameSizeBytes = true
  kernel : s.objs s.context = some (.vmm k)

/-- There is a page to commit for the manager. -/
def CanCommit (s : KState) (v : VMemoryManager) : Prop :=
  ∃ pa s₁, kpmmAlloc 1 v.physicalRegion s = .ok (some pa, s₁)

/-- The slot is an entry of its page table only. -/
theorem entry_withExt {x : Option Nat} {f i : Nat} (h : f ≠ kernelPageTableFrame) :
    (s.withExt x).entry f i = s.entry f i := by
  have hslot : ¬ IsTempSlot f i := fun hs => h hs.1
  rw [entry_mem hslot, entry_mem hslot]
  rfl

/-- A reserved page is mapped or not, whatever the slot holds. -/
theorem ReservedPage.isMapped_withExt (h : ReservedPage s c k va) (x : Option Nat) :
    isMapped (s.withExt x) va = isMapped s va := by
  unfold isMapped
  rw [show (s.withExt x).cr3 = s.cr3 from rfl, entry_withExt h.dir]
  dsimp only
  rw [entry_withExt h.table]

/-- A page that is there is read without a fault. -/
theorem touch_of_mapped (h : isMapped s va = true) : touch va s = .ok ((), s) := by
  rw [touch, touchFrom, get_bind_apply]
  exact (Exec.ite_apply _ _ _ _).trans (if_pos h)

/-- Committing a page while the external mapping is open ends in the panic, if there is a page to
commit. -/
theorem kvmmCommitPage_open (hr : RunsIn s c v k) (hp : ReservedPage s c k va)
    (hun : isMapped s va = false) (f : Nat) :
    (CanCommit s v ∧ kvmmCommitPage c va (s.withExt (some f)) = .error reentry) ∨
      (¬ CanCommit s v ∧ ((∃ s₁, kvmmCommitPage c va (s.withExt (some f)) = .ok (false, s₁)) ∨
        ∃ e, e ≠ reentry ∧ kvmmCommitPage c va (s.withExt (some f)) = .error e)) := by
  obtain ⟨a, vas, hfind, hvas, hmapped⟩ := hp.reserved
  obtain ⟨himm, hcom, hnull⟩ : vas.Lazy := hmapped.resolve_left (by simp [hun])
  have hget : getVas a (s.withExt (some f)) = .ok (vas, s.withExt (some f)) :=
    getVas_eq_ok.2 ⟨hvas, rfl⟩
  have hvmm : getVmm c (s.withExt (some f)) = .ok (v, s.withExt (some f)) :=
    getVmm_eq_ok.2 ⟨hr.vmm, rfl⟩
  have hpages : pagesToCommit c none 1 (s.withExt (some f)) =
      kpmmAlloc 1 v.physicalRegion (s.withExt (some f)) := bind_of_ok hvmm
  have hcommit : kvmmCommitPage c va (s.withExt (some f)) =
      (commitVirtualPages c (alignDown va pageFrameSizeBytes) none 1 vas.flags >>= fun r =>
        pure r.1) (s.withExt (some f)) := by
    rw [kvmmCommitPage, bind_of_ok ((findVas_ignores _ _).eq_ok hfind)]
    dsimp only
    rw [bind_of_ok hget, if_neg (by simp [himm, hcom]), if_neg (by simp [hnull])]
  rw [hcommit]
  cases halloc : kpmmAlloc 1 v.physicalRegion s with
  | error e =>
    have hno : ¬ CanCommit s v := fun ⟨_, _, h⟩ => by rw [halloc] at h; cases h
    refine .inr ⟨hno, .inr ⟨e, kpmmAlloc_haltsIn _ _ s e halloc, ?_⟩⟩
    have hopen : pagesToCommit c none 1 (s.withExt (some f)) = .error e := by
      rw [hpages, kpmmAlloc_ignores, halloc]
      rfl
    exact bind_of_error (bind_of_error hopen)
  | ok r =>
    obtain ⟨found, s₁⟩ := r
    have hopen : pagesToCommit c none 1 (s.withExt (some f)) = .ok (found, s₁.withExt (some f)) :=
      hpages.trans ((kpmmAlloc_ignores _ _).eq_ok halloc)
    cases found with
    | none =>
      have hno : ¬ CanCommit s v := fun ⟨_, _, h⟩ => by rw [halloc] at h; cases h
      refine .inr ⟨hno, .inl ⟨s₁.withExt (some f), ?_⟩⟩
      have hnone : commitVirtualPages c (alignDown va pageFrameSizeBytes) none 1 vas.flags
          (s.withExt (some f)) = .ok ((false, none), s₁.withExt (some f)) := by
        rw [commitVirtualPages, bind_of_ok hopen]
        rfl
      exact bind_of_ok hnone
    | some pa =>
      refine .inl ⟨⟨pa, s₁, halloc⟩, bind_of_error ?_⟩
      have hobjs : s₁.objs = s.objs := by
        show s₁.nonPaging.objs = s.nonPaging.objs
        rw [kpmmAlloc_fixes _ _ _ _ _ halloc]
      have hvmm₁ : getVmm c (s₁.withExt (some f)) = .ok (v, s₁.withExt (some f)) :=
        getVmm_eq_ok.2 ⟨(congrFun hobjs c).trans hr.vmm, rfl⟩
      rw [commitVirtualPages, bind_of_ok hopen]
      dsimp only
      rw [bind_of_ok hvmm₁, kpgTemporaryMap, if_neg (by simp [hr.pd])]
      rfl

/-- Reading a page that is not there while the external mapping is open stops the kernel, with the
panic of a second opening exactly when there is a page to commit. -/
theorem touch_of_unmapped (hr : RunsIn s c v k) (hp : ReservedPage s c k va)
    (hun : isMapped s va = false) (f : Nat) :
    ∃ e, touch va (s.withExt (some f)) = .error e ∧ (e = reentry ↔ CanCommit s v) := by
  have hcheck : kvmmCheckbounds s.context va (s.withExt (some f)) =
      .ok (false, s.withExt (some f)) := by
    have hget : getVmm s.context (s.withExt (some f)) = .ok (k, s.withExt (some f)) :=
      getVmm_eq_ok.2 ⟨hr.kernel, rfl⟩
    rw [kvmmCheckbounds, bind_of_ok hget]
    simp [hp.user]
  have hhandler : pageFaultHandler va false (s.withExt (some f)) =
      commitFault c va false (s.withExt (some f)) := by
    rw [pageFaultHandler, bind_of_ok (kprocessGetCurrentContext_ignores.eq_ok hr.context),
      get_bind_apply]
    rw [show (s.withExt (some f)).context = s.context from rfl, bind_of_ok hcheck]
    rfl
  have htouch : ∀ e, commitFault c va false (s.withExt (some f)) = .error e →
      touch va (s.withExt (some f)) = .error e := by
    intro e he
    rw [touch, touchFrom, get_bind_apply, if_neg (by simp [hp.isMapped_withExt, hun])]
    exact bind_of_error (hhandler.trans he)
  rcases kvmmCommitPage_open hr hp hun f with ⟨hcan, hrun⟩ | ⟨hno, ⟨s₁, hrun⟩ | ⟨e, hne, hrun⟩⟩
  · exact ⟨reentry, htouch _ (bind_of_error hrun), iff_of_true rfl hcan⟩
  · refine ⟨.panic "Page fault when accessing address", htouch _ ?_,
      iff_of_false (by decide) hno⟩
    exact bind_of_ok hrun
  · exact ⟨e, htouch _ (bind_of_error hrun), iff_of_false hne hno⟩

/-! ## A range of pages -/

/-- What reading some pages comes to: they are all there, and nothing happens, or one is not, and
the kernel stops. -/
def ReadsOr (s : KState) (v : VMemoryManager) (mapped : Prop) (x : Except Halt (α × KState))
    (r : α × KState) : Prop :=
  (mapped ∧ x = .ok r) ∨ (¬ mapped ∧ ∃ e, x = .error e ∧ (e = reentry ↔ CanCommit s v))

/-- Accesses to reserved pages go through when all are mapped; else they end in the panic. -/
theorem touchPages_cases (hr : RunsIn s c v k) (f : Nat) {m : Nat}
    (hp : ∀ i < m, ReservedPage s c k (u32 ((page + i) * pageFrameSizeBytes))) :
    ReadsOr s v (∀ i < m, isMapped s (u32 ((page + i) * pageFrameSizeBytes)) = true)
      (touchPages m page (s.withExt (some f))) ((), s.withExt (some f)) := by
  induction m generalizing page with
  | zero => exact .inl ⟨fun i hi => absurd hi (Nat.not_lt_zero i), rfl⟩
  | succ m ih =>
    have hfirst := hp 0 (Nat.succ_pos m)
    rw [Nat.add_zero] at hfirst
    have hshift : ∀ i, page + 1 + i = page + (i + 1) := fun i => by omega
    have hpages : ∀ i < m, ReservedPage s c k (u32 ((page + 1 + i) * pageFrameSizeBytes)) := by
      intro i hi
      rw [hshift]
      exact hp (i + 1) (Nat.succ_lt_succ hi)
    have hrest := ih hpages
    rw [touchPages]
    cases hmapped : isMapped s (u32 (page * pageFrameSizeBytes)) with
    | false =>
      obtain ⟨e, hrun, he⟩ := touch_of_unmapped hr hfirst hmapped f
      refine .inr ⟨fun hall => ?_, e, bind_of_error hrun, he⟩
      have h0 := hall 0 (Nat.succ_pos m)
      rw [Nat.add_zero, hmapped] at h0
      cases h0
    | true =>
      have htouch := touch_of_mapped ((hfirst.isMapped_withExt (some f)).trans hmapped)
      rw [bind_of_ok htouch]
      have hall : (∀ i < m + 1, isMapped s (u32 ((page + i) * pageFrameSizeBytes)) = true) ↔
          ∀ i < m, isMapped s (u32 ((page + 1 + i) * pageFrameSizeBytes)) = true := by
        constructor
        · intro h i hi
          rw [hshift]
          exact h (i + 1) (Nat.succ_lt_succ hi)
        · intro h i hi
          cases i with
          | zero => rwa [Nat.add_zero]
          | succ i => rw [← hshift]; exact h i (Nat.lt_of_succ_lt_succ hi)
      rwa [ReadsOr, hall]

/-- The pages that `touchRange` goes through are those of the bytes of the range. -/
theorem forall_page_iff {a len : Nat} (hlen : 0 < len) {P : Nat → Prop} :
    (∀ i < (a + len - 1) / pageFrameSizeBytes + 1 - a / pageFrameSizeBytes,
        P (a / pageFrameSizeBytes + i)) ↔
      ∀ b < len, P ((a + b) / pageFrameSizeBytes) := by
  simp only [pageFrameSizeBytes]
  constructor
  · intro h b hb
    have hpage := h ((a + b) / 4096 - a / 4096) (by omega)
    rwa [show a / 4096 + ((a + b) / 4096 - a / 4096) = (a + b) / 4096 by omega] at hpage
  · intro h i hi
    have hpage := h ((a / 4096 + i) * 4096 - a) (by omega)
    rwa [show (a + ((a / 4096 + i) * 4096 - a)) / 4096 = a / 4096 + i by omega] at hpage

/-- So does an access to a range. -/
theorem touchRange_cases {addr len : Nat} (hr : RunsIn s c v k) (f : Nat)
    (hp : ∀ b < len, ReservedPage s c k (pageOf (addr + b))) :
    ReadsOr s v (∀ b < len, isMapped s (pageOf (addr + b)) = true)
      (touchRange addr len (s.withExt (some f))) ((), s.withExt (some f)) := by
  unfold touchRange
  rcases Nat.eq_zero_or_pos len with rfl | hlen
  · exact .inl ⟨fun b hb => absurd hb (Nat.not_lt_zero b), rfl⟩
  · rw [if_neg (Nat.ne_of_gt hlen)]
    have hpages := forall_page_iff (a := addr) hlen
      (P := fun page => isMapped s (u32 (page * pageFrameSizeBytes)) = true)
    have hreserved := forall_page_iff (a := addr) hlen
      (P := fun page => ReservedPage s c k (u32 (page * pageFrameSizeBytes)))
    have hcases := touchPages_cases hr f (hreserved.2 hp)
    rwa [ReadsOr, hpages] at hcases

/-! ## The copy -/

/-- Emptying the slot gives back the state before it was filled. -/
theorem withExt_none (hext : s.tempExt = none) (x : Option Nat) :
    ((s.withExt x).withExt none : KState) = s := by
  simp only [withExt, ← hext]

/-- `kpg_temporaryMap` fills the slot when it is empty. -/
theorem kpgTemporaryMap_bind {f : PageDirectory → K α} (hal : dest % pageFrameSizeBytes = 0)
    (hext : s.tempExt = none) :
    (kpgTemporaryMap dest >>= f) s = f .temp (s.withExt (some (physicalToPageframe dest))) := by
  have hmap : kpgTemporaryMap dest s =
      .ok (.temp, s.withExt (some (physicalToPageframe dest))) := by
    rw [kpgTemporaryMap, if_neg (by simp [isAligned_page_iff.2 hal]), get_bind_apply,
      if_neg (by simp [hext])]
    rfl
  exact bind_of_ok hmap

/-- `kpg_temporaryUnmap` empties it. -/
theorem kpgTemporaryUnmap_bind {f : Unit → K α} (hext : s.tempExt = none) (x : Nat) :
    (kpgTemporaryUnmap >>= f) (s.withExt (some x)) = f () s := by
  have hunmap : kpgTemporaryUnmap (s.withExt (some x)) = .ok ((), s) := by
    rw [kpgTemporaryUnmap, get_bind_apply, if_neg (by simp [withExt])]
    exact congrArg (fun t => Except.ok ((), t)) (withExt_none hext (some x))
  exact bind_of_ok hunmap

/-- Only the position of a page in the 32-bit address space matters. -/
theorem pageOf_u32 (a b : Nat) : pageOf (u32 a + b) = pageOf (a + b) := by
  simp only [pageOf, u32, pageFrameSizeBytes]
  omega

/-- Copying a page and going on: the bytes of the page are read first. -/
theorem ReadsOr.bind {β : Type} {mapped mapped' : Prop} {x : K α} {f : α → K β} {a : α}
    {r : β × KState}
    (hx : ReadsOr s v mapped (x s') (a, s')) (hf : mapped → ReadsOr s v mapped' (f a s') r) :
    ReadsOr s v (mapped ∧ mapped') ((x >>= f) s') r := by
  rcases hx with ⟨hm, hrun⟩ | ⟨hm, e, hrun, he⟩
  · rw [bind_of_ok hrun]
    rcases hf hm with ⟨hm', hrun'⟩ | ⟨hm', e, hrun', he⟩
    · exact .inl ⟨⟨hm, hm'⟩, hrun'⟩
    · exact .inr ⟨fun h => hm' h.2, e, hrun', he⟩
  · exact .inr ⟨fun h => hm h.1, e, bind_of_error hrun, he⟩

/-- Reading the last bytes, and closing the mapping. -/
theorem ReadsOr.bind_ok {β : Type} {mapped : Prop} {x : K α} {f : α → K β} {a : α} {t : KState}
    {r : β × KState} (hx : ReadsOr s v mapped (x s') (a, t)) (hf : f a t = .ok r) :
    ReadsOr s v mapped ((x >>= f) s') r := by
  rcases hx with ⟨hm, hrun⟩ | ⟨hm, e, hrun, he⟩
  · exact .inl ⟨hm, (bind_of_ok hrun).trans hf⟩
  · exact .inr ⟨hm, e, bind_of_error hrun, he⟩

/-- The bytes of the first page, and the others. -/
theorem forall_byte_iff {P : Nat → Prop} {m n : Nat} :
    (∀ b < m + n, P b) ↔ (∀ b < m, P b) ∧ ∀ b < n, P (m + b) := by
  constructor
  · exact fun h => ⟨fun b hb => h b (by omega), fun b hb => h (m + b) (by omega)⟩
  · rintro ⟨h1, h2⟩ b hb
    by_cases hlt : b < m
    · exact h1 b hlt
    · have := h2 (b - m) (by omega)
      rwa [show m + (b - m) = b by omega] at this

/-- The loop of `k_memcpyToPhyMem`. -/
theorem memcpyPages_cases (hr : RunsIn s c v k) (hext : s.tempExt = none) {m : Nat}
    (hal : dest % pageFrameSizeBytes = 0)
    (hp : ∀ b < m * pageFrameSizeBytes, ReservedPage s c k (pageOf (src + b))) :
    ∃ dest' src', dest' % pageFrameSizeBytes = 0 ∧
      (∀ b, pageOf (src' + b) = pageOf (src + (m * pageFrameSizeBytes + b))) ∧
      ReadsOr s v (∀ b < m * pageFrameSizeBytes, isMapped s (pageOf (src + b)) = true)
        (memcpyPages m dest src 0 s) ((dest', src', 0), s) := by
  induction m generalizing dest src with
  | zero =>
    refine ⟨dest, src, hal, fun b => by rw [Nat.zero_mul, Nat.zero_add], .inl ⟨fun b hb => ?_, rfl⟩⟩
    rw [Nat.zero_mul] at hb
    exact absurd hb (Nat.not_lt_zero b)
  | succ m ih =>
    have hsize : (m + 1) * pageFrameSizeBytes = pageFrameSizeBytes + m * pageFrameSizeBytes := by
      rw [Nat.succ_mul, Nat.add_comm]
    rw [hsize] at hp ⊢
    have hnext : ∀ b, pageOf (u32 (src + pageFrameSizeBytes) + b) =
        pageOf (src + (pageFrameSizeBytes + b)) := fun b => by rw [pageOf_u32, Nat.add_assoc]
    obtain ⟨hp1, hp2⟩ := forall_byte_iff.1 hp
    have hal' : u32 (dest + pageFrameSizeBytes) % pageFrameSizeBytes = 0 := by
      simp only [u32, pageFrameSizeBytes] at hal ⊢
      omega
    have hpages : ∀ b < m * pageFrameSizeBytes,
        ReservedPage s c k (pageOf (u32 (src + pageFrameSizeBytes) + b)) := fun b hb => by
      rw [hnext]
      exact hp2 b hb
    obtain ⟨dest', src', hdest', hsrc', hrest⟩ := ih hal' hpages
    refine ⟨dest', src', hdest', fun b => ?_, ?_⟩
    · rw [hsrc', hnext, Nat.add_assoc pageFrameSizeBytes]
    · rw [memcpyPages, kpgTemporaryMap_bind hal hext]
      have hwindow : touchRange (memStartPagingExtTempMap + pageFrameSizeBytes) 0
          (s.withExt (some (physicalToPageframe dest))) =
          .ok ((), s.withExt (some (physicalToPageframe dest))) := rfl
      rw [bind_of_ok hwindow, forall_byte_iff]
      refine (touchRange_cases hr (physicalToPageframe dest) hp1).bind fun _ => ?_
      rw [kpgTemporaryUnmap_bind hext]
      simpa only [hnext] using hrest

/-- A copy from reserved pages returns with the state as it was when all of them are mapped. Else
the kernel stops. -/
theorem kMemcpyToPhyMem_cases (hr : RunsIn s c v k) (hext : s.tempExt = none)
    (hphase : s.phase.check .vmmReady = true) (hal : dest % pageFrameSizeBytes = 0)
    (hp : ∀ b < n, ReservedPage s c k (pageOf (src + b))) :
    ReadsOr s v (∀ b < n, isMapped s (pageOf (src + b)) = true)
      (kMemcpyToPhyMem dest src 0 0 n s) ((), s) := by
  have hvalid : kernelPhaseValidate .vmmReady s = .ok ((), s) :=
    kernelPhaseValidate_eq_ok.2 ⟨hphase, rfl⟩
  have hsplit : n = n / pageFrameSizeBytes * pageFrameSizeBytes + n % pageFrameSizeBytes := by
    rw [Nat.mul_comm]
    exact (Nat.div_add_mod _ _).symm
  rw [kMemcpyToPhyMem, bind_of_ok hvalid]
  rw [hsplit] at hp
  obtain ⟨hp1, hp2⟩ := forall_byte_iff.1 hp
  have hstart : ∀ b, pageOf (u32 (src + 0) + b) = pageOf (src + b) := fun b => pageOf_u32 _ _
  have hpages : ∀ b < n / pageFrameSizeBytes * pageFrameSizeBytes,
      ReservedPage s c k (pageOf (u32 (src + 0) + b)) := fun b hb => by
    rw [hstart]
    exact hp1 b hb
  obtain ⟨dest', src', hdest', hsrc', hloop⟩ := memcpyPages_cases hr hext hal hpages
  have hall : (∀ b < n, isMapped s (pageOf (src + b)) = true) ↔
      (∀ b < n / pageFrameSizeBytes * pageFrameSizeBytes,
        isMapped s (pageOf (u32 (src + 0) + b)) = true) ∧
        ∀ b < n % pageFrameSizeBytes, isMapped s (pageOf (src' + b)) = true := by
    conv_lhs => rw [hsplit]
    rw [forall_byte_iff]
    simp only [hstart, hsrc']
  rw [hall]
  refine hloop.bind fun _ => ?_
  dsimp only
  rw [kpgTemporaryMap_bind hdest' hext]
  have hwindow : touchRange (memStartPagingExtTempMap + pageFrameSizeBytes)
      (0 + n % pageFrameSizeBytes - pageFrameSizeBytes)
      (s.withExt (some (physicalToPageframe dest'))) =
      .ok ((), s.withExt (some (physicalToPageframe dest'))) := by
    have hlt : n % pageFrameSizeBytes < pageFrameSizeBytes := Nat.mod_lt _ (by decide)
    rw [Nat.zero_add, Nat.sub_eq_zero_of_le (Nat.le_of_lt hlt)]
    rfl
  rw [bind_of_ok hwindow]
  have hlast := touchRange_cases hr (physicalToPageframe dest') fun b hb => by
    rw [hsrc', hstart]
    exact hp2 b hb
  have hclose := kpgTemporaryUnmap_bind (f := pure) hext (physicalToPageframe dest')
  rw [bind_pure] at hclose
  exact hlast.bind_ok hclose

/-- A copy from pages that are reserved in the address space of the current process, each committed
or still lazily uncommitted, does not open the external mapping twice exactly when all of them are
committed, or no page is left to commit. -/
theorem kMemcpyToPhyMem_not_reentry_iff (hr : RunsIn s c v k) (hext : s.tempExt = none)
    (hphase : s.phase.check .vmmReady = true) (hal : dest % pageFrameSizeBytes = 0)
    (hp : ∀ b < n, ReservedPage s c k (pageOf (src + b))) :
    kMemcpyToPhyMem dest src 0 0 n s ≠ .error reentry ↔
      (∀ b < n, isMapped s (pageOf (src + b)) = true) ∨ ¬ CanCommit s v := by
  rcases kMemcpyToPhyMem_cases hr hext hphase hal hp with ⟨hm, hrun⟩ | ⟨hm, e, hrun, he⟩
  · exact iff_of_true (fun h => by rw [hrun] at h; cases h) (.inl hm)
  · rw [hrun, or_iff_right hm, ← he]
    exact ⟨fun h heq => h (congrArg _ heq), fun h heq => h (Except.error.inj heq)⟩

/-- A process at `0x2000` that reserved a page at 4 MB, in the directory at frame `0x23`; the page
may have been committed. -/
def reservedSource (committed : Bool) : KState where
  __ := emptyDirectory
  phase := .kernelReady
  mem := fun f i =>
    if committed ∧ f = 0x23 ∧ i = 1 then ⟨true, true, true, false, true, 0x40⟩
    else if committed ∧ f = 0x40 ∧ i = 0 then ⟨true, true, true, false, true, 0x41⟩
    else Entry.zero
  context := 0x1000
  currentProcess := 0x2000
  objs := fun a =>
    if a = 0x1000 then some (.vmm ⟨0xC0000000, 0xFFBFFFFF, true, 0x23000, false, .pmmRegionAny, []⟩)
    else if a = 0x2000 then some (.proc { noProcess with context := .addr 0x3000 })
    else if a = 0x3000 then
      some (.vmm ⟨0x1000, 0xBFFFFFFF, false, 0x23000, false, .pmmRegionAny, [0x4000]⟩)
    else if a = 0x4000 then some (.vas ⟨false, 0, 0x400000, 0x1000, 0⟩)
    else none

/-- The process runs in its own context. -/
theorem reservedSource_runsIn (committed : Bool) : RunsIn (reservedSource committed) 0x3000
    ⟨0x1000, 0xBFFFFFFF, false, 0x23000, false, .pmmRegionAny, [0x4000]⟩
    ⟨0xC0000000, 0xFFBFFFFF, true, 0x23000, false, .pmmRegionAny, []⟩ where
  context := rfl
  vmm := rfl
  pd := by decide
  kernel := rfl

/-- The source lies in one page. -/
theorem pageOf_source {b : Nat} (hb : b < 16) : pageOf (0x400000 + b) = 0x400000 := by
  simp only [pageOf, u32, pageFrameSizeBytes]
  omega

/-- The page of the source is reserved, committed or not. -/
theorem reservedSource_page (committed : Bool) :
    ReservedPage (reservedSource committed) 0x3000
      ⟨0xC0000000, 0xFFBFFFFF, true, 0x23000, false, .pmmRegionAny, []⟩ 0x400000 where
  user := by decide
  dir := show 0x23 ≠ kernelPageTableFrame by decide
  table := by cases committed <;> decide
  reserved := ⟨0x4000, ⟨false, 0, 0x400000, 0x1000, 0⟩, rfl, rfl,
    .inr ⟨by decide, by decide, by decide⟩⟩

/-- Copying from the page when it is committed. -/
theorem kMemcpyToPhyMem_committed :
    kMemcpyToPhyMem 0x43000 0x400000 0 0 16 (reservedSource true) ≠ .error reentry := by
  refine (kMemcpyToPhyMem_not_reentry_iff (reservedSource_runsIn true) rfl (by decide) (by decide)
    fun b hb => ?_).2 (.inl fun b hb => ?_)
  · rw [pageOf_source hb]
    exact reservedSource_page true
  · rw [pageOf_source hb]
    decide +kernel

/-- Copying from the page while it is not committed. -/
theorem kMemcpyToPhyMem_reenters :
    ¬ ∀ (s : KState) (c dest src n : Nat) (v k : VMemoryManager), RunsIn s c v k →
      s.tempExt = none →
      s.phase.check .vmmReady = true → dest % pageFrameSizeBytes = 0 →
      (∀ b < n, ReservedPage s c k (pageOf (src + b))) →
      kMemcpyToPhyMem dest src 0 0 n s ≠ .error reentry := by
  intro hall
  refine hall (reservedSource false) 0x3000 0x43000 0x400000 16 _ _
    (reservedSource_runsIn false) rfl
    (by decide) (by decide) (fun b hb => ?_) ?_
  · rw [pageOf_source hb]
    exact reservedSource_page false
  · have hstop : (kMemcpyToPhyMem 0x43000 0x400000 0 0 16 (reservedSource false)).map Prod.fst =
        .error reentry := by decide +kernel
    cases hrun : kMemcpyToPhyMem 0x43000 0x400000 0 0 16 (reservedSource false) with
    | error e => rw [hrun] at hstop; exact congrArg _ (Except.error.inj hstop)
    | ok r => rw [hrun] at hstop; cases hstop

end MeghaOS
