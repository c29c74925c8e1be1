import MeghaOS.PageWalk
import MeghaOS.Proof.Rights

/-!
# The recursive mapping

`linearAddr` and `sGetTableIndices` are inverse to each other (`sGetTableIndices_linearAddr`,
`linearAddr_of_indices`). In a directory whose last entry refers to the directory itself, the walk
from an address with the last index in front goes through the directory once more than it should,
and ends one level earlier: in a page table, or in the directory (`walk_pte`, `walk_pde`).
`kpg_setupPageDirectory` leaves such a directory, as long as the last entry it copies is present.
-/

namespace MeghaOS

open Exec KState

variable {s s' : KState} {i j o va pd flags kernelPD : Nat}

/-! ## Indices -/

theorem linearAddr_eq (hi : i < 1024) (hj : j < 1024) (ho : o < 4096) :
    linearAddr i j o = i * 2 ^ 22 + j * 2 ^ 12 + o := by
  have hhigh : u32 (i <<< 22) = i <<< 22 := by
    rw [u32, Nat.shiftLeft_eq]
    omega
  have hmid : u32 (j <<< 12) = j <<< 12 := by
    rw [u32, Nat.shiftLeft_eq]
    omega
  have hsum : i <<< 22 ||| j <<< 12 = (i * 1024 + j) <<< 12 := by
    have hlt : j <<< 12 < 2 ^ 22 := by
      rw [Nat.shiftLeft_eq]
      omega
    rw [← Nat.shiftLeft_add_eq_or_of_lt hlt, Nat.shiftLeft_eq, Nat.shiftLeft_eq, Nat.shiftLeft_eq]
    omega
  rw [linearAddr, hhigh, hmid, hsum, ← Nat.shiftLeft_add_eq_or_of_lt ho, Nat.shiftLeft_eq]
  omega

theorem sGetTableIndices_eq (hva : va < 2 ^ 32) :
    sGetTableIndices va s = .ok (⟨pdeIndex va, pteIndex va, pageOffset va⟩, s) := by
  have hpde : (va &&& pdeMask) >>> pdeShift = pdeIndex va := by
    have hand : va / 2 ^ 22 &&& (2 ^ 10 - 1) = va / 2 ^ 22 % 2 ^ 10 :=
      Nat.and_two_pow_sub_one_eq_mod _ _
    rw [Nat.shiftRight_and_distrib, Nat.shiftRight_eq_div_pow]
    refine hand.trans ?_
    rw [pdeIndex]
    omega
  have hpte : (va &&& pteMask) >>> pteShift = pteIndex va := by
    rw [Nat.shiftRight_and_distrib, Nat.shiftRight_eq_div_pow]
    exact Nat.and_two_pow_sub_one_eq_mod _ 10
  have hoff : (va &&& offsetMask) >>> offsetShift = pageOffset va :=
    Nat.and_two_pow_sub_one_eq_mod va 12
  have hin : pdeIndex va < 1024 ∧ pteIndex va < 1024 ∧ pageOffset va < 4096 := by
    simp only [pdeIndex, pteIndex, pageOffset]
    omega
  rw [sGetTableIndices, hpde, hpte, hoff]
  exact kAssert_bind_eq_ok.2 ⟨hin, rfl⟩

/-- The indices of an address lead back to it. -/
theorem linearAddr_of_indices (hva : va < 2 ^ 32) :
    linearAddr (pdeIndex va) (pteIndex va) (pageOffset va) = va := by
  have hpde : pdeIndex va < 1024 := by
    rw [pdeIndex]
    omega
  have hpte : pteIndex va < 1024 := Nat.mod_lt _ (by decide)
  have hoffset : pageOffset va < 4096 := Nat.mod_lt _ (by decide)
  rw [linearAddr_eq hpde hpte hoffset]
  simp only [pdeIndex, pteIndex, pageOffset]
  omega

theorem pdeIndex_linearAddr (hi : i < 1024) (hj : j < 1024) (ho : o < 4096) :
    pdeIndex (linearAddr i j o) = i := by
  rw [linearAddr_eq hi hj ho, pdeIndex]
  omega

theorem pteIndex_linearAddr (hi : i < 1024) (hj : j < 1024) (ho : o < 4096) :
    pteIndex (linearAddr i j o) = j := by
  rw [linearAddr_eq hi hj ho, pteIndex]
  omega

theorem pageOffset_linearAddr (hi : i < 1024) (hj : j < 1024) (ho : o < 4096) :
    pageOffset (linearAddr i j o) = o := by
  rw [linearAddr_eq hi hj ho, pageOffset]
  omega

/-- An address is made from its indices. -/
theorem sGetTableIndices_linearAddr (hi : i < 1024) (hj : j < 1024) (ho : o < 4096) :
    sGetTableIndices (linearAddr i j o) s = .ok (⟨i, j, o⟩, s) := by
  have hlt : linearAddr i j o < 2 ^ 32 := by
    rw [linearAddr_eq hi hj ho]
    omega
  rw [sGetTableIndices_eq hlt, pdeIndex_linearAddr hi hj ho, pteIndex_linearAddr hi hj ho,
    pageOffset_linearAddr hi hj ho]

/-! ## The walk -/

/-- The last entry of the directory that `cr3` leads to refers to that directory. -/
def RecursivelyMapped (s : KState) : Prop :=
  (s.entry s.cr3 recursivePdeIndex).present = true ∧
  (s.entry s.cr3 recursivePdeIndex).pageFrame = s.cr3

/-- With the last index in front, the walk ends in the page table of the second index. -/
theorem walk_linearAddr (hr : RecursivelyMapped s) (hi : i < 1024) (ho : o < 4096)
    (hp : (s.entry s.cr3 i).present = true) :
    s.walk (linearAddr recursivePdeIndex i o) = some ((s.entry s.cr3 i).pageFrame * 4096 + o) := by
  obtain ⟨hpresent, hframe⟩ := hr
  have hrec : recursivePdeIndex < 1024 := by decide
  rw [walk, pdeIndex_linearAddr hrec hi ho, pteIndex_linearAddr hrec hi ho,
    pageOffset_linearAddr hrec hi ho]
  dsimp only
  rw [if_pos hpresent, hframe, if_pos hp]

/-- An offset in a table. -/
theorem entryOffset (hi : i < 1024) :
    u32 (i * sizeofArchEntry) = i * sizeofArchEntry ∧ i * sizeofArchEntry < 4096 := by
  simp only [u32, sizeofArchEntry]
  omega

/-- The address of a page table entry. -/
theorem walk_pte (hr : RecursivelyMapped s) (hi : i < 1024) (hj : j < 1024)
    (hp : (s.entry s.cr3 i).present = true) :
    ∃ va, sGetPteFromCurrentPd i j s = .ok (va, s) ∧
      s.walk va = some (entryAddr (s.entry s.cr3 i).pageFrame j) := by
  refine ⟨_, kAssert_bind_eq_ok.2 ⟨⟨hi, hj⟩, rfl⟩, ?_⟩
  rw [(entryOffset hj).1, walk_linearAddr hr hi (entryOffset hj).2 hp]
  rfl

/-- The address of a directory entry. -/
theorem walk_pde (hr : RecursivelyMapped s) (hi : i < 1024) :
    ∃ va, sGetPdeFromCurrentPd i s = .ok (va, s) ∧ s.walk va = some (entryAddr s.cr3 i) := by
  refine ⟨_, kAssert_bind_eq_ok.2 ⟨hi, rfl⟩, ?_⟩
  rw [(entryOffset hi).1, walk_linearAddr hr (by decide) (entryOffset hi).2 hr.1, hr.2]
  rfl

/-! ## Preparing a directory -/

/-- Opening a page leaves memory as it is. -/
theorem sInternalTemporaryMap_opens {pa : Nat} {b : Bool} (hint : s.tempInt = none)
    (h : sInternalTemporaryMap pa s = .ok (b, s')) :
    s'.mem = s.mem ∧ (s'.tempInt = none ∨ s'.tempInt = some (physicalToPageframe pa)) := by
  rcases ite_eq_ok.1 h with ⟨-, h⟩ | ⟨-, h⟩
  · obtain ⟨-, rfl⟩ := returnError_eq_ok.1 h
    exact ⟨rfl, .inl hint⟩
  · rw [get_bind_apply] at h
    rcases ite_eq_ok.1 h with ⟨-, h⟩ | ⟨-, h⟩
    · cases h
    · cases h
      exact ⟨rfl, .inr rfl⟩

/-- The directory is opened, if its address is one of a page. The frames in use are as they were. -/
theorem openPd_opens {opened f : Nat} (hs : PabOk s) (hint : s.tempInt = none)
    (hf : s.frameState f ≠ pmmStateFree) (h : openPd pd flags s = .ok (some opened, s')) :
    s'.mem f = s.mem f ∧ (s'.tempInt = none ∨ s'.tempInt = some (physicalToPageframe opened)) := by
  rcases ite_eq_ok.1 h with ⟨-, h⟩ | ⟨-, h⟩
  · obtain ⟨found, s₁, halloc, h⟩ := bind_eq_ok.1 h
    cases found with
    | none => cases h
    | some page =>
      obtain ⟨b, s₂, hmap, h⟩ := bind_eq_ok.1 h
      obtain ⟨_, s₃, hzero, h⟩ := bind_eq_ok.1 h
      cases h
      rcases kpmmAlloc_spec hs halloc with ⟨hnone, -⟩ | ⟨g, haddr, -, hset, hfree⟩
      · cases hnone
      -- the new page was free, so the frame is another one
      obtain rfl := Option.some.inj haddr
      have hg : physicalToPageframe (g * 4096) = g := by
        have hlt := hset.inside
        rw [physicalToPageframe_eq]
        omega
      have hne : f ≠ physicalToPageframe (g * 4096) := by
        rintro rfl
        rw [hg] at hf
        exact hf (hfree g (Nat.le_refl g) (Nat.lt_succ_self g))
      have heq₁ : s₁.mem = s.mem ∧ s₁.tempInt = s.tempInt := by
        rw [hset.eq]
        exact ⟨rfl, rfl⟩
      obtain ⟨hmem₂, hint₂⟩ := sInternalTemporaryMap_opens (heq₁.2.trans hint) hmap
      rcases hint₂ with hint₂ | hint₂
      · rw [zeroPage, get_bind_apply, hint₂] at hzero
        cases hzero
      · have hrun := zeroPage_bind (f := pure) hint₂
        rw [bind_pure, hzero] at hrun
        cases hrun
        refine ⟨funext fun j => ?_, .inr hint₂⟩
        show (if f = physicalToPageframe (g * 4096) then Entry.zero else s₂.mem f j) = s.mem f j
        rw [if_neg hne, hmem₂, heq₁.1]
  · obtain ⟨b, s₁, hmap, h⟩ := bind_eq_ok.1 h
    cases h
    obtain ⟨hmem, hint'⟩ := sInternalTemporaryMap_opens hint hmap
    exact ⟨congrFun hmem f, hint'⟩

theorem frameOf_eq_ok {slot : Option Nat} {d : Nat} :
    frameOf slot s = .ok (d, s') ↔ slot = some d ∧ s = s' := by
  cases slot with
  | none => simp [frameOf]
  | some x => simp [frameOf]

/-- The last entry of the kernel's directory is copied to the one that is open. -/
theorem copyKernelPages_last (h : copyKernelPages (some kernelPD) s = .ok ((), s')) :
    ∃ d, s.tempInt = some d ∧ s'.tempInt = some d ∧
      s'.mem d recursivePdeIndex = s.mem (physicalToPageframe kernelPD) recursivePdeIndex := by
  rw [copyKernelPages] at h
  obtain ⟨lKernelPD, s₁, hmap, h⟩ := bind_eq_ok.1 h
  rcases ite_eq_ok.1 hmap with ⟨-, hmap⟩ | ⟨-, hmap⟩
  · -- a wrong address is no directory
    obtain ⟨rfl, rfl⟩ := returnError_eq_ok.1 hmap
    obtain ⟨k, s₂, hframe, -⟩ := bind_eq_ok.1 h
    cases hframe
  rw [get_bind_apply] at hmap
  rcases ite_eq_ok.1 hmap with ⟨-, hmap⟩ | ⟨-, hmap⟩
  · cases hmap
  cases hmap
  have hframe : PageDirectory.temp.frame { s with tempExt := some (physicalToPageframe kernelPD) } =
      .ok (physicalToPageframe kernelPD,
        { s with tempExt := some (physicalToPageframe kernelPD) }) := rfl
  rw [bind_of_ok hframe, get_bind_apply] at h
  obtain ⟨d, s₂, hopen, h⟩ := bind_eq_ok.1 h
  obtain ⟨hint, rfl⟩ := frameOf_eq_ok.1 hopen
  rw [modify_bind_apply, kpgTemporaryUnmap, get_bind_apply] at h
  rcases ite_eq_ok.1 h with ⟨-, h⟩ | ⟨-, h⟩
  · cases h
  · cases h
    exact ⟨d, hint, hint, if_pos ⟨rfl, by decide, by decide⟩⟩

/-- After the recursive mapping is made, the last entry refers to the directory. -/
theorem kpgSetupPageDirectory_recursive {pd' : Nat} (hs : PabOk s) (hint : s.tempInt = none)
    (hcopy : bitIsSet flags pgNewpdFlagCopyKernelPages = true)
    (hrec : bitIsSet flags pgNewpdFlagRecursiveMap = true)
    (hkernel : s.frameState (physicalToPageframe kernelPD) ≠ pmmStateFree)
    (hlast : (s.entry (physicalToPageframe kernelPD) recursivePdeIndex).present = true)
    (hpd : physicalToPageframe pd' ≠ kernelPageTableFrame)
    (h : kpgSetupPageDirectory pd flags (some kernelPD) s = .ok (some pd', s')) :
    (s'.entry (physicalToPageframe pd') recursivePdeIndex).present = true ∧
      (s'.entry (physicalToPageframe pd') recursivePdeIndex).pageFrame =
        physicalToPageframe pd' := by
  have hslot : ¬ IsTempSlot (physicalToPageframe pd') recursivePdeIndex := fun hslot => hpd hslot.1
  have hlastMem : (s.mem (physicalToPageframe kernelPD) recursivePdeIndex).present = true := by
    -- no temporary mapping is open, so the last entry is not one of theirs
    have hkslot : ¬ IsTempSlot (physicalToPageframe kernelPD) recursivePdeIndex := by
      rintro ⟨hframe, -⟩
      rw [entry_intSlot ⟨hframe, rfl⟩, hint] at hlast
      cases hlast
    rwa [entry_mem hkslot] at hlast
  obtain ⟨opened, s₁, hopen, h⟩ := bind_eq_ok.1 h
  cases opened with
  | none => cases h
  | some opened =>
    dsimp only at h
    rw [when_true hcopy, when_true hrec] at h
    obtain ⟨_, s₂, hcopied, h⟩ := bind_eq_ok.1 h
    obtain ⟨_, s₃, hmapped, h⟩ := bind_eq_ok.1 h
    obtain ⟨-, h⟩ := sInternalTemporaryUnmap_bind_eq_ok.1 h
    cases h
    obtain ⟨hmem₁, hint₁⟩ := openPd_opens hs hint hkernel hopen
    obtain ⟨d, hd, hint₂, hmem₂⟩ := copyKernelPages_last hcopied
    obtain rfl : d = physicalToPageframe pd' := by
      rcases hint₁ with hint₁ | hint₁
      · rw [hint₁] at hd
        cases hd
      · rw [hint₁] at hd
        exact (Option.some.inj hd).symm
    rw [recursiveMap, get_bind_apply, hint₂] at hmapped
    cases hmapped
    rw [entry_tempInt fun hint => hslot ⟨hint.1, .inr hint.2⟩, entry_setEntry_self hslot,
      entry_mem hslot,
      hmem₂, hmem₁]
    exact ⟨hlastMem, rfl⟩

/-- In an address space whose directory `kpg_setupPageDirectory` prepared, with the recursive
mapping and the kernel's entries, the addresses of the entries of the directory and of its page
tables lead to them; and the indices of an address and the address determine each other. -/
theorem recursive_mapping_translates {pd' : Nat} (hs : PabOk s) (hint : s.tempInt = none)
    (hcopy : bitIsSet flags pgNewpdFlagCopyKernelPages = true)
    (hrec : bitIsSet flags pgNewpdFlagRecursiveMap = true)
    (hkernel : s.frameState (physicalToPageframe kernelPD) ≠ pmmStateFree)
    (hlast : (s.entry (physicalToPageframe kernelPD) recursivePdeIndex).present = true)
    (hpd : physicalToPageframe pd' ≠ kernelPageTableFrame)
    (h : kpgSetupPageDirectory pd flags (some kernelPD) s = .ok (some pd', s')) :
    (∀ t : KState, t.cr3 = physicalToPageframe pd' →
      t.entry t.cr3 recursivePdeIndex = s'.entry (physicalToPageframe pd') recursivePdeIndex →
      ∀ i < 1024, ∀ j < 1024, (t.entry t.cr3 i).present = true →
        (∃ va, sGetPdeFromCurrentPd i t = .ok (va, t) ∧ t.walk va = some (entryAddr t.cr3 i)) ∧
        ∃ va, sGetPteFromCurrentPd i j t = .ok (va, t) ∧
          t.walk va = some (entryAddr (t.entry t.cr3 i).pageFrame j)) ∧
    (∀ va < 2 ^ 32, ∃ info, sGetTableIndices va s' = .ok (info, s') ∧
      linearAddr info.pdeIndex info.pteIndex info.offset = va) ∧
    ∀ i < 1024, ∀ j < 1024, ∀ o < 4096, sGetTableIndices (linearAddr i j o) s' =
      .ok (⟨i, j, o⟩, s') := by
  refine ⟨fun t hcr3 hentry i hi j hj hp => ?_, fun va hva => ?_, fun i hi j hj o ho => ?_⟩
  · have hlast' := kpgSetupPageDirectory_recursive hs hint hcopy hrec hkernel hlast hpd h
    have hr : RecursivelyMapped t := by
      rw [RecursivelyMapped, hentry, hcr3]
      exact hlast'
    exact ⟨walk_pde hr hi, walk_pte hr hi hj hp⟩
  · exact ⟨_, sGetTableIndices_eq hva, linearAddr_of_indices hva⟩
  · exact sGetTableIndices_linearAddr hi hj ho

/-- A kernel whose page directory, at frame `0x23`, has nothing but its last entry. -/
def preparingDirectory : KState :=
  { emptyDirectory with
    mem := fun f i => if f = 0x23 ∧ i = 1023 then
      ⟨true, true, false, false, false, 0x23⟩ else Entry.zero }

/-- The kernel after it prepared a new directory. -/
def preparedDirectory : KState :=
  (kpgSetupPageDirectory 0
    (pgNewpdFlagCreateNew ||| pgNewpdFlagCopyKernelPages ||| pgNewpdFlagRecursiveMap)
    (some 0x23000)).finalState preparingDirectory

/-- In the new directory, at frame `0x40`, the page table of the last entry is the directory
itself. -/
theorem recursive_mapping_translates_prepared :
    ∃ va, sGetPteFromCurrentPd 1023 7 { preparedDirectory with cr3 := 0x40 } =
        .ok (va, { preparedDirectory with cr3 := 0x40 }) ∧
      KState.walk { preparedDirectory with cr3 := 0x40 } va = some (entryAddr 0x40 7) := by
  have hrun : kpgSetupPageDirectory 0
      (pgNewpdFlagCreateNew ||| pgNewpdFlagCopyKernelPages ||| pgNewpdFlagRecursiveMap)
      (some 0x23000) preparingDirectory = .ok (some 0x40000, preparedDirectory) :=
    eq_ok_of_value (by decide +kernel)
  have hwalk := ((recursive_mapping_translates ⟨rfl, rfl⟩ rfl (by decide) (by decide)
    (by decide +kernel) (by decide) (by decide) hrun).1 { preparedDirectory with cr3 := 0x40 } rfl
      rfl
    1023 (by decide) 7 (by decide) (by decide +kernel)).2
  have hframe : (KState.entry { preparedDirectory with cr3 := 0x40 } 0x40 1023).pageFrame =
      0x40 := by
    decide +kernel
  obtain ⟨va, hva, hto⟩ := hwalk
  refine ⟨va, hva, hto.trans ?_⟩
  rw [show KState.cr3 { preparedDirectory with cr3 := 0x40 } = 0x40 from rfl, hframe]

end MeghaOS
