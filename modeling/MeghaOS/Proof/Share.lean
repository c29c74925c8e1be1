import MeghaOS.Proof.FreeAddress

/-!
# Address spaces over shared page frames

`kvmm_free` counts the address space down before its loop, and the loop frees page frames while the
count is one: those of the last address space but one, which the last one still maps. When that one
is freed the count is zero, and no frame is (`SharersLeft.last`). So no group of two address spaces
or more gives its frames back with the last of them.
-/

namespace MeghaOS

open Exec Fixes KState

variable {s s' : KState} {share n m a va : Nat} {α : Type}

/-! ## What does not change the states of page frames -/

section Pab

/-- Setting the error number. -/
theorem returnError_keepsPab (errno : KernelErrorCodes) (v : α) :
    Fixes KState.pab (returnError errno v) :=
  .bind (.modify fun _ => rfl) fun _ => .pure _

/-- `s_internal_temporaryMap`. -/
theorem sInternalTemporaryMap_keepsPab (pa : Nat) :
    Fixes KState.pab (sInternalTemporaryMap pa) := by
  refine .ite (returnError_keepsPab _ _) (.bind .get fun _ => .ite (.kPanic _) ?_)
  exact .bind (.modify fun _ => rfl) fun _ => .pure _

/-- `s_internal_temporaryUnmap`. -/
theorem sInternalTemporaryUnmap_keepsPab : Fixes KState.pab sInternalTemporaryUnmap :=
  .bind .get fun _ => .ite (.kPanic _) (.modify fun _ => rfl)

/-- `kpg_temporaryMap`. -/
theorem kpgTemporaryMap_keepsPab (pa : Nat) : Fixes KState.pab (kpgTemporaryMap pa) := by
  refine .ite (returnError_keepsPab _ _) (.bind .get fun _ => .ite (.kPanic _) ?_)
  exact .bind (.modify fun _ => rfl) fun _ => .pure _

/-- `kpg_temporaryUnmap`. -/
theorem kpgTemporaryUnmap_keepsPab : Fixes KState.pab kpgTemporaryUnmap :=
  .bind .get fun _ => .ite (.kPanic _) (.modify fun _ => rfl)

/-- Where a slot leads to. -/
theorem frameOf_keepsPab (slot : Option Nat) : Fixes KState.pab (frameOf slot) := by
  cases slot
  · exact .halt _
  · exact .pure _

/-- Where a page directory lies. -/
theorem frame_keepsPab (pd : PageDirectory) : Fixes KState.pab pd.frame := by
  cases pd
  · exact .halt _
  · exact .bind .get fun _ => frameOf_keepsPab _
  · exact .bind .get fun _ => .pure _

/-- Reading a page directory entry. -/
theorem readPde_keepsPab (pd : PageDirectory) (i : Nat) : Fixes KState.pab (readPde pd i) :=
  .bind .get fun _ => .bind (frame_keepsPab _) fun _ => .pure _

/-- Reading a page table entry. -/
theorem readPte_keepsPab (i : Nat) : Fixes KState.pab (readPte i) :=
  .bind .get fun _ => .bind .get fun _ => .bind (frameOf_keepsPab _) fun _ => .pure _

/-- Writing an entry changes the state of no frame. -/
theorem pab_setEntry (s : KState) (frame i : Nat) (e : Entry) :
    (s.setEntry frame i e).pab = s.pab := by
  unfold setEntry
  dsimp only
  split_ifs <;> rfl

/-- `kpg_unmap` frees no frame. -/
theorem kpgUnmap_keepsPab (pd : PageDirectory) (va : Nat) : Fixes KState.pab (kpgUnmap pd va) := by
  refine .bind (.kAssert _ _) fun _ => .ite (returnError_keepsPab _ _) ?_
  refine .bind (readPde_keepsPab _ _) fun _ => .ite (returnError_keepsPab _ _) ?_
  refine .bind (sInternalTemporaryMap_keepsPab _) fun _ => .bind (readPte_keepsPab _)
    fun _ => .ite ?_ ?_
  · exact .bind sInternalTemporaryUnmap_keepsPab fun _ => returnError_keepsPab _ _
  · refine .bind .get fun _ => .bind (frameOf_keepsPab _) fun _ => ?_
    refine .bind (.modify fun _ => pab_setEntry _ _ _ _) fun _ => ?_
    exact .bind sInternalTemporaryUnmap_keepsPab fun _ => .pure _

/-- `kpg_doesMappingExists`. -/
theorem kpgDoesMappingExists_keepsPab (pd : PageDirectory) (va : Nat) :
    Fixes KState.pab (kpgDoesMappingExists pd va) := by
  refine .bind (.kAssert _ _) fun _ => .bind (readPde_keepsPab _ _) fun _ => .ite ?_ (.pure _)
  refine .bind (sInternalTemporaryMap_keepsPab _) fun _ => .bind (readPte_keepsPab _) fun _ => ?_
  exact .bind sInternalTemporaryUnmap_keepsPab fun _ => .pure _

/-- `onHeap` changes nothing but the heap. -/
theorem onHeap_fixes {τ : Type} {f : KState → τ} (h : ∀ heap s, f { s with heap } = f s)
    (x : Exec KHeap α) : Fixes f (onHeap x) := by
  intro s v s' hrun
  obtain ⟨heap, -, rfl⟩ := zoom_eq_ok.1 hrun
  exact h heap s

/-- `kfree` is a matter of the heap. -/
theorem kfree_keepsPab (addr : Nat) : Fixes KState.pab (kfree addr) := by
  refine .bind (.kernelPhaseValidate _) fun _ => .bind (onHeap_fixes (fun _ _ => rfl) _)
    fun _ => .ite ?_ ?_
  · exact .bind (.modify fun _ => rfl) fun _ => .pure _
  · exact returnError_keepsPab _ _

end Pab

/-! ## One call -/

/-- `kfree` takes the record at the address away, or nothing. -/
theorem kfree_records {addr : Nat} {ok : Bool} (h : kfree addr s = .ok (ok, s')) :
    (∀ b, b ≠ addr → s'.objs b = s.objs b) ∧
      (s'.objs addr = none ∨ s'.objs addr = s.objs addr) := by
  rw [kfree, kernelPhaseValidate_bind_eq_ok] at h
  obtain ⟨freed, s₁, hheap, h⟩ := bind_eq_ok.1 h.2
  obtain ⟨heap, -, rfl⟩ := zoom_eq_ok.1 hheap
  cases freed with
  | false =>
    cases h
    exact ⟨fun _ _ => rfl, .inr rfl⟩
  | true =>
    cases h
    exact ⟨fun b hb => if_neg hb, .inl (if_pos rfl)⟩

/-- The paging code leaves the records alone. -/
theorem objs_of_nonPaging (h : s'.nonPaging = s.nonPaging) : s'.objs = s.objs := by
  show s'.nonPaging.objs = s.nonPaging.objs
  rw [h]

/-- While the count is not one, a page is only unmapped. -/
theorem freePage_keepsPab {pd : PageDirectory} (hshare : share ≠ 0)
    (hrecord : s.objs share = some (.share ⟨n⟩)) (hn : n ≠ 1)
    (h : freePage pd share va s = .ok ((), s')) : s'.pab = s.pab := by
  obtain ⟨found, s₁, hfound, hpage⟩ := bind_eq_ok.1 h
  have hpab₁ : s₁.pab = s.pab := kpgDoesMappingExists_keepsPab _ _ _ _ _ hfound
  have hnp₁ := kpgDoesMappingExists_fixes _ _ _ _ _ hfound
  cases found with
  | none =>
    cases hpage
    exact hpab₁
  | some pa =>
    obtain ⟨unmapped, s₂, hunmap, hrest⟩ := bind_eq_ok.1 hpage
    obtain ⟨_, s₃, hpanic, hfree⟩ := bind_eq_ok.1 hrest
    obtain rfl : s₃ = s₂ := (Fixes.when (f := id) Fixes.kPanicOnError) _ _ _ hpanic
    have hpab₂ : s₃.pab = s₁.pab := kpgUnmap_keepsPab _ _ _ _ _ hunmap
    have hrecord₂ : s₃.objs share = some (.share ⟨n⟩) := by
      rw [objs_of_nonPaging ((kpgUnmap_fixes _ _ _ _ _ hunmap).trans hnp₁)]
      exact hrecord
    have howns : ownsFrames share s₃ = .ok (false, s₃) := by
      rw [ownsFrames, if_neg hshare, getShare, bind_assoc, get_bind_apply, hrecord₂]
      simp [hn]
    rw [bind_of_ok howns] at hfree
    cases hfree
    exact hpab₂.trans hpab₁

/-- While the count is not one, the loop releases no page frame. -/
theorem freePagesFrom_keepsPab {pd : PageDirectory} {k : Nat} (hshare : share ≠ 0)
    (hrecord : s.objs share = some (.share ⟨n⟩)) (hn : n ≠ 1)
    (h : freePagesFrom pd share k va s = .ok ((), s')) : s'.pab = s.pab := by
  induction k generalizing va s with
  | zero =>
    cases h
    rfl
  | succ k ih =>
    obtain ⟨_, s₁, hpage, hrest⟩ := bind_eq_ok.1 h
    have hrecord₁ : s₁.objs share = some (.share ⟨n⟩) := by
      rw [objs_of_nonPaging (freePage_fixes _ _ _ _ _ _ hpage)]
      exact hrecord
    rw [ih hrecord₁ hrest, freePage_keepsPab hshare hrecord hn hpage]

/-- What a successful call does to the records: the count of the shared frames goes down by one, and
the address space leaves the list of its manager. -/
structure LeavesShare (share n m a : Nat) (s s' : KState) : Prop where
  count : s'.objs share = some (.share ⟨u32Sub n 1⟩)
  list : ∃ v, s.objs m = some (.vmm v) ∧ s'.objs m = some (.vmm { v with head := v.head.erase a })
  record : s'.objs a = none ∨ s'.objs a = s.objs a
  records : ∀ b, b ≠ share → b ≠ m → b ≠ a → s'.objs b = s.objs b

/-- A call for an address space that shares its frames. -/
theorem kvmmFree_shared {start : Nat} {r : VMemoryAddressSpace}
    (hfind : findVas m start s = .ok (some a, s)) (hrecord : s.objs a = some (.vas r))
    (hr : r.share = share) (hshare : share ≠ 0) (hcount : s.objs share = some (.share ⟨n⟩))
    (h : kvmmFree m start s = .ok (true, s')) :
    LeavesShare share n m a s s' ∧ (u32Sub n 1 ≠ 1 → s'.pab = s.pab) := by
  rw [kvmmFree, kAssert_bind_eq_ok, bind_of_ok hfind] at h
  obtain ⟨r', hr', h⟩ := getVas_bind_eq_ok.1 h.2
  obtain rfl : r = r' := Obj.vas.inj (Option.some.inj (hrecord.symm.trans hr'))
  rcases ite_eq_ok.1 h with ⟨-, h⟩ | ⟨-, h⟩
  · exact absurd (returnError_eq_ok.1 h).1 (by decide)
  rw [when_true (by rw [hr]; exact hshare), hr] at h
  obtain ⟨_, s₁, hdrop, h⟩ := bind_eq_ok.1 h
  obtain ⟨n', hn', hdrop⟩ := getShare_bind_eq_ok.1 hdrop
  obtain rfl : ⟨n⟩ = n' := Obj.share.inj (Option.some.inj (hcount.symm.trans hn'))
  cases hdrop
  obtain ⟨v, hv, h⟩ := getVmm_bind_eq_ok.1 h
  obtain ⟨pd, s₂, hopen, h⟩ := bind_eq_ok.1 h
  obtain ⟨_, s₃, hloop, h⟩ := bind_eq_ok.1 h
  obtain ⟨_, s₄, hclose, h⟩ := bind_eq_ok.1 h
  obtain ⟨v', hv', h⟩ := modifyVmm_bind_eq_ok.1 h
  obtain ⟨_, s₅, hfree, h⟩ := bind_eq_ok.1 h
  cases h
  obtain ⟨hothers, hself⟩ := kfree_records hfree
  -- up to the end of the loop, only the count changes among the records
  have hnp₂ := kpgTemporaryMap_fixes _ _ _ _ hopen
  have hobjs₂ := objs_of_nonPaging hnp₂
  have hobjs₄ := objs_of_nonPaging ((kpgTemporaryUnmap_fixes _ _ _ hclose).trans
    ((freePagesFrom_fixes _ _ _ _ _ _ _ hloop).trans hnp₂))
  have hcount₂ : s₂.objs share = some (.share ⟨u32Sub n 1⟩) := by
    rw [hobjs₂]
    exact objs_setObj_self _
  have hmshare : m ≠ share := by
    rintro rfl
    rw [hobjs₄, objs_setObj_self] at hv'
    cases hv'
  have hashare : a ≠ share := by
    rintro rfl
    rw [hcount] at hrecord
    cases hrecord
  have ham : a ≠ m := by
    rintro rfl
    rw [hobjs₄, objs_setObj_of_ne _ hashare, hrecord] at hv'
    cases hv'
  rw [hobjs₄, objs_setObj_of_ne _ hmshare] at hv'
  refine ⟨⟨?_, ⟨v', hv', ?_⟩, ?_, fun b hbs hbm hba => ?_⟩, fun hn => ?_⟩
  · rw [hothers _ hashare.symm, objs_setObj_of_ne _ hmshare.symm, hobjs₄]
    exact objs_setObj_self _
  · rw [hothers _ ham.symm]
    exact objs_setObj_self _
  · rw [objs_setObj_of_ne _ ham, hobjs₄, objs_setObj_of_ne _ hashare] at hself
    exact hself
  · rw [hothers _ hba, objs_setObj_of_ne _ hbm, hobjs₄, objs_setObj_of_ne _ hbs]
  · rw [kfree_keepsPab _ _ _ _ hfree]
    show s₄.pab = s.pab
    rw [kpgTemporaryUnmap_keepsPab _ _ _ hclose, freePagesFrom_keepsPab hshare hcount₂ hn hloop,
      kpgTemporaryMap_keepsPab _ _ _ _ hopen]
    rfl

/-! ## The address spaces that share -/

/-- An address space: its manager, its start and the address of its record. -/
structure Sharer where
  vmm : Nat
  start : Nat
  vas : Nat

/-- The address space is found from its start, and its record points to the share. -/
structure Sharer.Live (x : Sharer) (s : KState) (share : Nat) : Prop where
  found : findVas x.vmm x.start s = .ok (some x.vas, s)
  record : ∃ r, s.objs x.vas = some (.vas r) ∧ r.share = share ∧ r.isStaticAllocated = false ∧
    r.startVm = x.start

/-- The address space is in the list of the manager `m` once if that is its manager, and else
not. -/
def Sharer.ListedIn (x : Sharer) (s : KState) (m : Nat) : Prop :=
  ∀ v, s.objs m = some (.vmm v) → v.head.count x.vas = if m = x.vmm then 1 else 0

/-- The address space maps the page frames, in this order. -/
def Sharer.Maps (x : Sharer) (s : KState) (frames : List Nat) : Prop :=
  ∃ v r d, s.objs x.vmm = some (.vmm v) ∧ v.parentProcessPD = d * 4096 ∧
    s.objs x.vas = some (.vas r) ∧ r.allocationSzBytes = frames.length * 4096 ∧
    ∀ i f, frames[i]? = some f → s.mapping d (x.start + i * 4096) = some (f * 4096)

/-- These address spaces, as many as the count says, map the same page frames through one share. -/
structure SharedGroup (s : KState) (share : Nat) (frames : List Nat) (sharers : List Sharer) :
    Prop where
  nonNull : share ≠ 0
  count : s.objs share = some (.share ⟨sharers.length⟩)
  bound : sharers.length < 2 ^ 32
  distinct : (sharers.map Sharer.vas).Nodup
  live : ∀ x ∈ sharers, x.Live s share
  listed : ∀ x ∈ sharers, ∀ y ∈ sharers, x.ListedIn s y.vmm
  maps : ∀ x ∈ sharers, x.Maps s frames
  nonempty : frames ≠ []
  used : ∀ f ∈ frames, s.frameState f = pmmStateUsed

/-- `kvmm_free` is called for these address spaces, in this order, until one call fails. -/
def freeInTurn : List Sharer → K Bool
  | [] => return true
  | x :: order => do
    if ← kvmmFree x.vmm x.start then freeInTurn order
    else return false

/-- The calls in this order succeed, and the page frames are freed with the last address space:
while one is left, they stay used. -/
structure FreedByLast (s : KState) (frames : List Nat) (order : List Sharer) : Prop where
  kept : ∀ l, l <+: order → l ≠ order →
    ∃ s', freeInTurn l s = .ok (true, s') ∧ ∀ f ∈ frames, s'.frameState f = pmmStateUsed
  freed : ∃ s', freeInTurn order s = .ok (true, s') ∧ ∀ f ∈ frames, s'.frameState f = pmmStateFree

/-! ## The calls, one after the other -/

/-- The first sharer frees the region, then the others. -/
theorem freeInTurn_cons {x : Sharer} {order : List Sharer} :
    freeInTurn (x :: order) s = .ok (true, s') ↔
      ∃ s₁, kvmmFree x.vmm x.start s = .ok (true, s₁) ∧ freeInTurn order s₁ = .ok (true, s') := by
  rw [freeInTurn, bind_eq_ok]
  constructor
  · rintro ⟨freed, s₁, hfree, hrest⟩
    cases freed with
    | false => cases hrest
    | true => exact ⟨s₁, hfree, hrest⟩
  · rintro ⟨s₁, hfree, hrest⟩
    exact ⟨true, s₁, hfree, hrest⟩

/-- The search runs the same where the address space `a`, that it does not end at, is out of the
list. -/
theorem findVasFrom_erase {start b : Nat} {l : List Nat} (hba : b ≠ a) (hcount : l.count a ≤ 1)
    (hrecords : ∀ c r, c ≠ a → s.objs c = some (.vas r) → s'.objs c = some (.vas r))
    (h : findVasFrom start l s = .ok (some b, s)) :
    findVasFrom start (l.erase a) s' = .ok (some b, s') := by
  induction l with
  | nil => cases h
  | cons c l ih =>
    obtain ⟨r, hr, h⟩ := getVas_bind_eq_ok.1 h
    by_cases hca : c = a
    · subst hca
      have hmem : c ∉ l := by
        rw [List.count_cons_self] at hcount
        exact List.count_eq_zero.1 (by omega)
      rcases ite_eq_ok.1 h with ⟨-, h⟩ | ⟨-, h⟩
      · cases h
        exact absurd rfl hba
      · have hrest := ih (by rw [List.count_eq_zero.2 hmem]; decide) h
        rw [List.erase_of_not_mem hmem] at hrest
        rw [List.erase_cons_head]
        exact hrest
    · have hcount' : l.count a ≤ 1 := by
        rw [List.count_cons_of_ne hca] at hcount
        exact hcount
      rw [List.erase_cons_tail (by simpa using hca), findVasFrom, getVas_bind_eq_ok]
      refine ⟨r, hrecords c r hca hr, ?_⟩
      rcases ite_eq_ok.1 h with ⟨hin, h⟩ | ⟨hout, h⟩
      · cases h
        rw [if_pos hin]
        rfl
      · rw [if_neg hout]
        exact ih hcount' h

/-- The address spaces that are left, and the count. -/
structure SharersLeft (s : KState) (share : Nat) (sharers : List Sharer) : Prop where
  count : s.objs share = some (.share ⟨sharers.length⟩)
  bound : sharers.length < 2 ^ 32
  distinct : (sharers.map Sharer.vas).Nodup
  live : ∀ x ∈ sharers, x.Live s share
  listed : ∀ x ∈ sharers, ∀ y ∈ sharers, x.ListedIn s y.vmm

/-- The record of a manager behind a call: the address space is out of its list. -/
theorem LeavesShare.manager {x : Sharer} {v : VMemoryManager}
    (h : LeavesShare share n x.vmm x.vas s s')
    (hx : x.Live s share) (hcount : s.objs share = some (.share ⟨n⟩)) (hlisted : x.ListedIn s m)
    (hv : s.objs m = some (.vmm v)) :
      s'.objs m = some (.vmm { v with head := v.head.erase x.vas }) := by
  obtain ⟨w, hw, hw'⟩ := h.list
  by_cases hm : m = x.vmm
  · subst hm
    obtain rfl : w = v := Obj.vmm.inj (Option.some.inj (hw.symm.trans hv))
    exact hw'
  · have hmshare : m ≠ share := fun heq => by
      rw [heq, hcount] at hv
      cases hv
    have hmvas : m ≠ x.vas := fun heq => by
      obtain ⟨r, hr, -⟩ := hx.record
      rw [heq, hr] at hv
      cases hv
    have hout : x.vas ∉ v.head := by
      have hzero := hlisted v hv
      rw [if_neg hm] at hzero
      exact List.count_eq_zero.1 hzero
    rw [h.records m hmshare hm hmvas, List.erase_of_not_mem hout]
    exact hv

/-- One call leaves the others in place. -/
theorem SharersLeft.step {x : Sharer} {sharers : List Sharer}
    (h : SharersLeft s share (x :: sharers)) (hshare : share ≠ 0)
    (hfree : kvmmFree x.vmm x.start s = .ok (true, s')) :
    SharersLeft s' share sharers ∧ (sharers.length ≠ 1 → s'.pab = s.pab) := by
  have hmem : x ∈ x :: sharers := List.mem_cons_self ..
  have hx := h.live x hmem
  obtain ⟨r, hr, hrshare, -⟩ := hx.record
  have hbound := h.bound
  rw [List.length_cons] at hbound
  have hn : u32Sub (x :: sharers).length 1 = sharers.length := by
    rw [List.length_cons]
    simp only [u32Sub]
    omega
  obtain ⟨hleaves, hpab⟩ := kvmmFree_shared hx.found hr hrshare hshare h.count hfree
  have hcount := hleaves.count
  rw [hn] at hpab hcount
  obtain ⟨hnew, hdistinct⟩ := List.nodup_cons.1 h.distinct
  have hother : ∀ y ∈ sharers, y.vas ≠ x.vas := fun y hy heq => hnew (heq ▸ List.mem_map_of_mem hy)
  have hrecords : ∀ c r, c ≠ x.vas → s.objs c = some (.vas r) → s'.objs c = some (.vas r) := by
    intro c r hc hr
    have hcshare : c ≠ share := fun heq => by
      rw [heq, h.count] at hr
      cases hr
    have hcvmm : c ≠ x.vmm := fun heq => by
      obtain ⟨v, hv, -⟩ := hleaves.list
      rw [heq, hv] at hr
      cases hr
    rw [hleaves.records c hcshare hcvmm hc]
    exact hr
  -- the manager of each of the others is still there, without `x` in its list
  have hmanager : ∀ y ∈ sharers, ∃ v, s.objs y.vmm = some (.vmm v) ∧
      findVasFrom y.start v.head s = .ok (some y.vas, s) ∧
      s'.objs y.vmm = some (.vmm { v with head := v.head.erase x.vas }) := by
    intro y hy
    obtain ⟨v, hv, hfound⟩ := getVmm_bind_eq_ok.1 (h.live y (List.mem_cons_of_mem _ hy)).found
    exact ⟨v, hv, hfound, hleaves.manager hx h.count (h.listed x hmem y (List.mem_cons_of_mem _ hy))
      hv⟩
  refine ⟨⟨hcount, by omega, hdistinct, fun y hy => ⟨?_, ?_⟩, fun z hz y hy v' hv' => ?_⟩, hpab⟩
  · obtain ⟨v, hv, hfound, hv'⟩ := hmanager y hy
    refine getVmm_bind_eq_ok.2 ⟨_, hv', findVasFrom_erase (hother y hy) ?_ hrecords hfound⟩
    rw [h.listed x hmem y (List.mem_cons_of_mem _ hy) v hv]
    split <;> decide
  · obtain ⟨r', hr', hrest⟩ := (h.live y (List.mem_cons_of_mem _ hy)).record
    exact ⟨r', hrecords _ _ (hother y hy) hr', hrest⟩
  · obtain ⟨v, hv, -, hnext⟩ := hmanager y hy
    obtain rfl : _ = v' := Obj.vmm.inj (Option.some.inj (hnext.symm.trans hv'))
    rw [List.count_erase_of_ne (hother z hz)]
    exact h.listed z (List.mem_cons_of_mem _ hz) y (List.mem_cons_of_mem _ hy) v hv

/-- The calls release no page frame in the end: the last one finds the count at zero. -/
theorem SharersLeft.last {sharers : List Sharer} {x : Sharer}
    (h : SharersLeft s share (sharers ++ [x])) (hshare : share ≠ 0)
    (hrun : freeInTurn (sharers ++ [x]) s = .ok (true, s')) :
    ∃ s₁, freeInTurn sharers s = .ok (true, s₁) ∧ s'.pab = s₁.pab := by
  induction sharers generalizing s with
  | nil =>
    obtain ⟨s₁, hfree, hrest⟩ := freeInTurn_cons.1 hrun
    cases hrest
    exact ⟨s, rfl, (h.step hshare hfree).2 (by decide)⟩
  | cons y sharers ih =>
    obtain ⟨s₁, hfree, hrest⟩ := freeInTurn_cons.1 hrun
    obtain ⟨s₂, hrun₂, hpab⟩ := ih (h.step hshare hfree).1 hrest
    exact ⟨s₂, freeInTurn_cons.2 ⟨s₁, hfree, hrun₂⟩, hpab⟩

/-- The page frames of a group of two address spaces or more are never freed with the last of them,
in whatever order they are freed. -/
theorem not_freedByLast {frames : List Nat} {sharers order : List Sharer}
    (h : SharedGroup s share frames sharers) (horder : order.Perm sharers)
    (htwo : 2 ≤ sharers.length) :
    ¬ FreedByLast s frames order := by
  rintro ⟨hkept, s', hrun, hfree⟩
  have hleft : SharersLeft s share order := ⟨by rw [horder.length_eq]; exact h.count,
    by rw [horder.length_eq]; exact h.bound, (horder.map _).nodup_iff.2 h.distinct,
    fun x hx => h.live x (horder.mem_iff.1 hx),
    fun x hx y hy => h.listed x (horder.mem_iff.1 hx) y (horder.mem_iff.1 hy)⟩
  obtain ⟨l, x, rfl⟩ : ∃ l x, order = l ++ [x] := by
    refine (List.eq_nil_or_concat' order).resolve_left fun hnil => ?_
    have hlength := horder.length_eq
    rw [hnil, List.length_nil] at hlength
    omega
  obtain ⟨s₁, hrun₁, hpab⟩ := hleft.last h.nonNull hrun
  obtain ⟨s₂, hrun₂, hused⟩ := hkept l (List.prefix_append _ _) (by simp)
  obtain rfl : s₁ = s₂ := by
    rw [hrun₁] at hrun₂
    exact (Prod.mk.inj (Except.ok.inj hrun₂)).2
  obtain ⟨f, hf⟩ := List.exists_mem_of_ne_nil _ h.nonempty
  have hstate := hfree f hf
  rw [KState.frameState, hpab] at hstate
  exact absurd (hstate.symm.trans (hused f hf)) (by decide)

/-! ## Two address spaces over one page frame -/

/-- The address space at 0x5000 of the small machine. -/
def firstSharer : Sharer := ⟨smallMachineVmm, 0x5000, smallMachineVas⟩

/-- The address space at 0x8000. -/
def secondSharer : Sharer := ⟨smallMachineVmm, 0x8000, 0xC00470A8⟩

/-- The address of the record of what they share. -/
def sharedRecord : Nat := 0xC00470F4

/-- The small machine when the page frame of the first address space is mapped to the second one
too. -/
def smallMachineMappedTwice : KState :=
  ((do
    let _ ← kvmmMemmap smallMachineVmm 0x5000 none 1 0
    let _ ← kvmmCommitPage smallMachineVmm 0x5000
    let _ ← kvmmMemmap smallMachineVmm 0x8000 (some 0x48000) 1 vmmMemmapFlagImmcommit
    kmallocObj (.share ⟨2⟩)) : K Nat).finalState smallMachineNewVmm

/-- The two address spaces share it. -/
def smallMachineShared : KState :=
  (smallMachineMappedTwice.setObj firstSharer.vas
    (.vas ⟨false, 0, 0x5000, 0x1000, sharedRecord⟩)).setObj
    secondSharer.vas (.vas ⟨false, vmmMemmapFlagImmcommit, 0x8000, 0x1000, sharedRecord⟩)

set_option maxRecDepth 100000 in
/-- What is in that state. -/
theorem smallMachineShared_values :
    smallMachineShared.objs smallMachineVmm =
      some (.vmm ⟨memStartProcessMemory, memEndProcessMemory, false,
        0x50000, true, .pmmRegionAny, [firstSharer.vas, secondSharer.vas]⟩) ∧
    smallMachineShared.objs firstSharer.vas = some (.vas ⟨false, 0, 0x5000, 0x1000, sharedRecord⟩) ∧
    smallMachineShared.objs secondSharer.vas =
      some (.vas ⟨false, vmmMemmapFlagImmcommit, 0x8000, 0x1000, sharedRecord⟩) ∧
    smallMachineShared.objs sharedRecord = some (.share ⟨2⟩) ∧
    smallMachineShared.mapping 0x50 0x5000 = some 0x48000 ∧
    smallMachineShared.mapping 0x50 0x8000 = some 0x48000 ∧
    smallMachineShared.frameState 0x48 = pmmStateUsed := by decide +kernel

set_option maxRecDepth 100000 in
/-- Both are found from their starts. -/
theorem smallMachineShared_found : ∀ x ∈ [firstSharer, secondSharer],
    findVas x.vmm x.start smallMachineShared = .ok (some x.vas, smallMachineShared) := by
  have hfirst : (findVas firstSharer.vmm firstSharer.start smallMachineShared).map Prod.fst =
      .ok (some firstSharer.vas) := by decide +kernel
  have hsecond : (findVas secondSharer.vmm secondSharer.start smallMachineShared).map Prod.fst =
      .ok (some secondSharer.vas) := by decide +kernel
  intro x hx
  obtain ⟨s', hrun⟩ : ∃ s', findVas x.vmm x.start smallMachineShared = .ok (some x.vas, s') := by
    rcases List.mem_pair.1 hx with rfl | rfl
    · exact ⟨_, eq_ok_of_value hfirst⟩
    · exact ⟨_, eq_ok_of_value hsecond⟩
  obtain rfl : s' = smallMachineShared := findVas_fixes (f := id) _ _ _ _ _ hrun
  exact hrun

/-- Two address spaces share one page. -/
theorem smallMachineShared_group :
    SharedGroup smallMachineShared sharedRecord [0x48] [firstSharer, secondSharer] := by
  obtain ⟨hvmm, hfirst, hsecond, hcount, hpage, hpage', hused⟩ := smallMachineShared_values
  have hpages : ∀ va, smallMachineShared.mapping 0x50 va = some 0x48000 → ∀ i f,
    [0x48][i]? = some f →
      smallMachineShared.mapping 0x50 (va + i * 4096) = some (f * 4096) := by
    intro va hva i f hf
    cases i with
    | zero =>
      obtain rfl := Option.some.inj hf
      rw [Nat.zero_mul, Nat.add_zero]
      exact hva
    | succ i => cases hf
  have hmanager : ∀ x ∈ [firstSharer, secondSharer], x.vmm = smallMachineVmm := fun x hx => by
    rcases List.mem_pair.1 hx with rfl | rfl <;> rfl
  refine ⟨by decide, hcount, by decide, by decide, fun x hx => ⟨smallMachineShared_found x hx, ?_⟩,
    fun x hx y hy v hv => ?_, fun x hx => ?_, by simp, by simpa using hused⟩
  · rcases List.mem_pair.1 hx with rfl | rfl
    · exact ⟨_, hfirst, rfl, rfl, rfl⟩
    · exact ⟨_, hsecond, rfl, rfl, rfl⟩
  · rw [hmanager y hy, hvmm] at hv
    obtain rfl := Obj.vmm.inj (Option.some.inj hv)
    rw [if_pos ((hmanager y hy).trans (hmanager x hx).symm)]
    rcases List.mem_pair.1 hx with rfl | rfl <;> decide
  · have hx' := (congrArg smallMachineShared.objs (hmanager x hx)).trans hvmm
    rcases List.mem_pair.1 hx with rfl | rfl
    · exact ⟨_, _, 0x50, hx', rfl, hfirst, rfl, hpages _ hpage⟩
    · exact ⟨_, _, 0x50, hx', rfl, hsecond, rfl, hpages _ hpage'⟩

/-- The second sharer of the page frees it, while the first still maps it. -/
theorem not_freedByLast_two : ¬ FreedByLast smallMachineShared [0x48] [secondSharer, firstSharer] :=
  not_freedByLast smallMachineShared_group (.swap _ _ _) (by decide)

set_option maxRecDepth 100000 in
/-- The page frame is free when the first of the two is freed, and the other one still maps it. -/
theorem freedByLast_freed_early : ¬ ∀ s share frames sharers order,
    SharedGroup s share frames sharers →
    2 ≤ sharers.length → order.Perm sharers → FreedByLast s frames order := by
  intro hall
  obtain ⟨s', hrun, hused⟩ := (hall _ _ _ _ _ smallMachineShared_group (by decide) (.refl _)).kept
    [firstSharer] (List.prefix_append _ [secondSharer]) (by simp)
  have hstate : (freeInTurn [firstSharer] smallMachineShared).map (fun r => r.2.frameState 0x48) =
      .ok pmmStateFree := by decide +kernel
  rw [hrun] at hstate
  have hfree : s'.frameState 0x48 = pmmStateFree := Except.ok.inj hstate
  exact absurd (hfree.symm.trans (hused 0x48 (List.mem_singleton_self _))) (by decide)

end MeghaOS
