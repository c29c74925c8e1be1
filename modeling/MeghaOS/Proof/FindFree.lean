import MeghaOS.Proof.Memmap

/-!
# Searching for room

`find_next_va` returns the start of the first gap between the address spaces that is large enough,
in 32-bit arithmetic, and the start of the range when there is no address space yet, without a look
at its end.
-/

namespace MeghaOS

open Exec KState

variable {s s' : KState} {m a va : Nat} {v : VMemoryManager} {rs : List VMemoryAddressSpace}

/-- The gaps between the address spaces of a manager. -/
def vasGaps (v : VMemoryManager) (rs : List VMemoryAddressSpace) : List (Nat × Nat) :=
  gaps VMemoryAddressSpace.startVm VMemoryAddressSpace.allocationSzBytes v.start v.end_ rs

/-- There is room for `n` bytes at `a`. -/
def VasRoom (v : VMemoryManager) (rs : List VMemoryAddressSpace) (n a : Nat) : Prop :=
  Room VMemoryAddressSpace.startVm VMemoryAddressSpace.allocationSzBytes v.start v.end_ rs n a

/-- The loop of `find_next_va`, from the end `lo` of the entries passed, finds the first gap. -/
theorem findNextVaFrom_eq {szBytes lo : Nat} {prev : Option VMemoryAddressSpace} {l : List Nat}
    (hvas : List.Forall₂ (fun a r => s.objs a = some (.vas r)) l rs)
    (hlayout : Layout VMemoryAddressSpace.startVm VMemoryAddressSpace.allocationSzBytes lo v.end_
      rs)
    (hlo : lo ≤ v.end_) (hend : v.end_ < 2 ^ 32)
    (hprev : lo = prev.elim v.start fun r => r.startVm + r.allocationSzBytes)
    (hpos : ∀ p ∈ prev, 0 < p.allocationSzBytes) (hne : prev = none → rs ≠ []) :
    findNextVaFrom v szBytes prev l s = .ok ((firstFit szBytes (gaps VMemoryAddressSpace.startVm
      VMemoryAddressSpace.allocationSzBytes lo v.end_ rs)).getD 0, s) := by
  induction hvas generalizing lo prev with
  | nil =>
    cases prev with
    | none => exact absurd rfl (hne rfl)
    | some p =>
      have hnew : u32 (p.startVm + p.allocationSzBytes) = lo := by
        rw [hprev]
        exact Nat.mod_eq_of_lt (by simp only [Option.elim_some] at hprev; omega)
      have hgap : u32Sub v.end_ lo ≥ szBytes ↔ lo + szBytes ≤ v.end_ := by
        unfold u32Sub
        omega
      rw [findNextVaFrom, hnew, gaps, firstFit_cons]
      simp only [hgap]
      split_ifs <;> rfl
  | @cons a r l rs har hrest ih =>
    have hr := hlayout.lower r (.head _)
    have hup := hlayout.upper r (.head _)
    have hvas : getVas a s = .ok (r, s) := getVas_eq_ok.2 ⟨har, rfl⟩
    have hgap : u32Sub r.startVm lo ≥ szBytes ↔ lo + szBytes ≤ r.startVm := by
      unfold u32Sub
      omega
    have hnext := @ih (r.startVm + r.allocationSzBytes) (some r) hlayout.tail hup rfl
        (fun p hp => by
      cases hp
      exact hlayout.pos r (.head _)) (fun habsurd => by cases habsurd)
    -- one turn of the loop
    have hturn : (if u32Sub r.startVm lo ≥ szBytes then pure lo
        else findNextVaFrom v szBytes (some r) l : K Nat) s =
          .ok ((firstFit szBytes (gaps VMemoryAddressSpace.startVm
            VMemoryAddressSpace.allocationSzBytes lo v.end_ (r :: rs))).getD 0, s) := by
      rw [gaps, firstFit_cons]
      simp only [hgap]
      split_ifs
      · rfl
      · exact hnext
    cases prev with
    | none =>
      have hstart : v.start = lo := hprev.symm
      rw [findNextVaFrom, bind_of_ok hvas]
      dsimp only
      rw [pure_bind, hstart]
      exact hturn
    | some p =>
      have hprev' : lo = p.startVm + p.allocationSzBytes := hprev
      have hnew : u32 (p.startVm + p.allocationSzBytes) = lo := by
        rw [hprev']
        exact Nat.mod_eq_of_lt (by omega)
      have hsorted : r.startVm > p.startVm := by
        have := hpos p rfl
        omega
      rw [findNextVaFrom, bind_of_ok hvas]
      dsimp only
      refine kAssert_bind_eq_ok.2 ⟨hsorted, ?_⟩
      rw [pure_bind, hnew]
      exact hturn

/-- `kvmm_findFree` finds the first gap, and takes the start of the range when there is no entry. -/
theorem kvmmFindFree_eq (szPages : Nat) (hv : VmmOk s m v rs) (hle : v.start ≤ v.end_)
    (hpos : szPages ≠ 0) :
    kvmmFindFree m szPages s = .ok (if rs = [] then v.start
      else (firstFit (pageframesToBytes szPages) (vasGaps v rs)).getD 0, s) := by
  refine kAssert_bind_eq_ok.2 ⟨hpos, ?_⟩
  rw [findNextVa, getVmm_bind_eq_ok]
  refine ⟨v, hv.vmm, ?_⟩
  by_cases hrs : rs = []
  · have hhead : v.head = [] := by
      have hvas := hv.vas
      rw [hrs] at hvas
      exact List.forall₂_nil_right_iff.1 hvas
    rw [if_pos hhead, if_pos hrs]
    rfl
  · have hhead : v.head ≠ [] := fun hnil => by
      have hvas := hv.vas
      rw [hnil] at hvas
      exact hrs (List.forall₂_nil_left_iff.1 hvas)
    rw [if_neg hhead, if_neg hrs]
    exact findNextVaFrom_eq hv.vas hv.layout hle hv.end_lt rfl (fun p hp => by cases hp) fun _ =>
      hrs

/-! ## The lowest page with room -/

/-- There is room for some pages at a page address. -/
def PageRoom (v : VMemoryManager) (rs : List VMemoryAddressSpace) (szPages a : Nat) : Prop :=
  a % pageFrameSizeBytes = 0 ∧ VasRoom v rs (szPages * pageFrameSizeBytes) a

/-- `found` is the lowest page address with room, or zero and there is none. -/
structure FindFreeOk (v : VMemoryManager) (rs : List VMemoryAddressSpace) (szPages found : Nat) :
    Prop where
  least : found ≠ 0 → IsLeast {a | PageRoom v rs szPages a} found
  none : found = 0 → ∀ a, ¬ PageRoom v rs szPages a

/-- The condition under which `find_next_va` finds the lowest page address with room. -/
def FindFreeFits (v : VMemoryManager) (szPages : Nat) : List VMemoryAddressSpace → Prop
  | [] =>
    if v.start = 0 then v.end_ < szPages * pageFrameSizeBytes
    else v.start % pageFrameSizeBytes = 0 ∧ v.start + szPages * pageFrameSizeBytes ≤ v.end_
  | r :: rs =>
    if szPages * pageFrameSizeBytes < 2 ^ 32 then
      v.start + szPages * pageFrameSizeBytes ≤ r.startVm → v.start ≠ 0 ∧
        v.start % pageFrameSizeBytes = 0
    else
      v.start = 0 ∧ pageframesToBytes szPages ≤ r.startVm ∨
        ∀ g ∈ vasGaps v (r :: rs), g.2 < g.1 + pageframesToBytes szPages

theorem pageframesToBytes_of_lt {szPages : Nat} (h : szPages * pageFrameSizeBytes < 2 ^ 32) :
    pageframesToBytes szPages = szPages * pageFrameSizeBytes := by
  rw [pageframesToBytes, Nat.shiftLeft_eq]
  exact Nat.mod_eq_of_lt h

/-- Without an entry the range itself must have room. -/
theorem findFree_empty_iff {szPages : Nat} (hpos : szPages ≠ 0) :
    FindFreeOk v [] szPages v.start ↔ FindFreeFits v szPages [] := by
  rw [FindFreeFits]
  have hsz : 0 < szPages * pageFrameSizeBytes := Nat.mul_pos (Nat.pos_of_ne_zero hpos) (by decide)
  split_ifs with hzero
  · constructor
    · intro h
      by_contra hle
      exact h.none hzero 0 ⟨rfl, by omega, by omega, by simp⟩
    · intro hlt
      refine ⟨fun hne => absurd hzero hne, fun _ a ha => ?_⟩
      have := ha.2.upper
      omega
  · constructor
    · intro h
      obtain ⟨⟨hal, hroom⟩, -⟩ := h.least hzero
      exact ⟨hal, hroom.upper⟩
    · rintro ⟨hal, hle⟩
      exact ⟨fun _ => ⟨⟨hal, Nat.le_refl _, hle, by simp⟩, fun a ha => ha.2.lower⟩,
        fun habsurd => absurd habsurd hzero⟩

/-- The gaps behind an entry start at the addresses of pages. -/
theorem gap_behind {n : Nat} {r : VMemoryAddressSpace} (hv : VmmOk s m v (r :: rs))
    (h : firstFit n (gaps VMemoryAddressSpace.startVm VMemoryAddressSpace.allocationSzBytes
      (r.startVm + r.allocationSzBytes) v.end_ rs) = some a) :
        a ≠ 0 ∧ a % pageFrameSizeBytes = 0 := by
  obtain ⟨b, hgap, -⟩ := firstFit_mem h
  obtain ⟨x, hx, rfl⟩ : ∃ x ∈ r :: rs, a = x.startVm + x.allocationSzBytes := by
    rcases gap_start hgap with hr | ⟨x, hx, hxa⟩
    · exact ⟨r, .head _, hr⟩
    · exact ⟨x, .tail _ hx, hxa⟩
  have hsize := hv.layout.pos x hx
  obtain ⟨hstart, hsz⟩ := hv.aligned x hx
  simp only [pageFrameSizeBytes] at *
  omega

/-- The lowest address with room, when it is that of a page. -/
theorem FindFreeOk.of_isLeast {szPages : Nat} (hne : a ≠ 0) (hal : a % pageFrameSizeBytes = 0)
    (h : IsLeast {b | VasRoom v rs (szPages * pageFrameSizeBytes) b} a) :
      FindFreeOk v rs szPages a :=
  ⟨fun _ => ⟨⟨hal, h.1⟩, fun _ hb => h.2 hb.2⟩, fun hzero => absurd hzero hne⟩

/-- With entries the search of the gaps is right, unless it finds the start of the range and this is
not the address of a page, or the size is too large for 32 bits. -/
theorem findFree_gaps_iff {szPages : Nat} {r : VMemoryAddressSpace} (hv : VmmOk s m v (r :: rs)) :
    FindFreeOk v (r :: rs) szPages
      ((firstFit (pageframesToBytes szPages) (vasGaps v (r :: rs))).getD 0) ↔
      FindFreeFits v szPages (r :: rs) := by
  rw [FindFreeFits]
  have hfirst : firstFit (pageframesToBytes szPages) (vasGaps v (r :: rs)) =
      if v.start + pageframesToBytes szPages ≤ r.startVm then some v.start
        else firstFit (pageframesToBytes szPages) (gaps VMemoryAddressSpace.startVm
          VMemoryAddressSpace.allocationSzBytes (r.startVm + r.allocationSzBytes) v.end_ rs) :=
            firstFit_cons
  split_ifs with hlt
  · rw [pageframesToBytes_of_lt hlt] at hfirst ⊢
    cases hfit : firstFit (szPages * pageFrameSizeBytes) (vasGaps v (r :: rs)) with
    | none =>
      rw [hfit] at hfirst
      have hno := hv.layout.firstFit_none.1 hfit
      refine iff_of_true ⟨fun habsurd => absurd rfl habsurd, fun _ a ha => hno a ha.2⟩
        fun hfront => ?_
      rw [if_pos hfront] at hfirst
      cases hfirst
    | some a =>
      rw [hfit] at hfirst
      have hleast := hv.layout.firstFit_isLeast hfit
      show FindFreeOk v (r :: rs) szPages a ↔ _
      by_cases hfront : v.start + szPages * pageFrameSizeBytes ≤ r.startVm
      · rw [if_pos hfront] at hfirst
        obtain rfl := Option.some.inj hfirst
        constructor
        · intro h _
          by_cases hzero : v.start = 0
          · exact absurd ⟨by rw [hzero]; rfl, hleast.1⟩ (h.none hzero v.start)
          · exact ⟨hzero, (h.least hzero).1.1⟩
        · intro h
          exact .of_isLeast (h hfront).1 (h hfront).2 hleast
      · rw [if_neg hfront] at hfirst
        obtain ⟨hne, hal⟩ := gap_behind hv hfirst.symm
        exact iff_of_true (.of_isLeast hne hal hleast) fun habsurd => absurd habsurd hfront
  · -- there is no room for so many pages
    have hno : ∀ a, ¬ PageRoom v (r :: rs) szPages a := fun a ha => by
      have := ha.2.upper
      have := hv.end_lt
      omega
    have hok : ∀ found, FindFreeOk v (r :: rs) szPages found ↔ found = 0 := fun found =>
      ⟨fun h => by_contra fun hne => hno found (h.least hne).1,
        fun hzero => ⟨fun hne => absurd hzero hne, fun _ => hno⟩⟩
    rw [hok, hfirst]
    by_cases hfront : v.start + pageframesToBytes szPages ≤ r.startVm
    · rw [if_pos hfront, Option.getD_some]
      constructor
      · intro hzero
        exact .inl ⟨hzero, by omega⟩
      · rintro (⟨hzero, -⟩ | hsmall)
        · exact hzero
        · have := hsmall (v.start, r.startVm) (.head _)
          omega
    · rw [if_neg hfront] at hfirst ⊢
      constructor
      · intro hzero
        refine .inr (firstFit_eq_none.1 (hfirst.trans ?_))
        cases hfit : firstFit (pageframesToBytes szPages) (gaps VMemoryAddressSpace.startVm
            VMemoryAddressSpace.allocationSzBytes (r.startVm + r.allocationSzBytes) v.end_ rs) with
        | none => rfl
        | some a =>
          rw [hfit] at hzero
          exact absurd hzero (gap_behind hv hfit).1
      · rintro (⟨hzero, hle⟩ | hsmall)
        · exact absurd (by omega) hfront
        · rw [← hfirst, firstFit_eq_none.2 hsmall]
          rfl

/-! ## Reserving what was found -/

/-- A reservation of the pages at `a` is accepted once there is a record for it. -/
def Accepted (s : KState) (m szPages a : Nat) : Prop :=
  ∀ flags new s₁, createNewVirtAddrSpace a (pageframesToBytes szPages) flags s =
    .ok (new, s₁) → new ≠ 0 →
    ∃ s', addNewVirtualAddressSpace m a szPages flags s = .ok (new, s') ∧
      (bitIsUnset flags vmmMemmapFlagImmcommit = true →
        kvmmMemmap m a none szPages flags s = .ok ((a, none), s'))

/-- The loop of `addNewVirtualAddressSpace` ends. -/
theorem insertVas_total (new newStart newEnd : Nat) {l : List Nat}
    (hvas : List.Forall₂ (fun a r => s.objs a = some (.vas r)) l rs) :
    ∃ r, insertVas new newStart newEnd l s = .ok r := by
  induction hvas with
  | nil => exact ⟨_, rfl⟩
  | @cons a r l rs har _ ih =>
    obtain ⟨⟨found, s₁⟩, hrest⟩ := ih
    have hvas : getVas a s = .ok (r, s) := getVas_eq_ok.2 ⟨har, rfl⟩
    rw [insertVas, bind_of_ok hvas]
    split_ifs
    · exact ⟨_, rfl⟩
    · exact ⟨_, rfl⟩
    · rw [bind_of_ok hrest]
      cases found <;> exact ⟨_, rfl⟩

theorem modifyVmm_of_vmm {f : VMemoryManager → VMemoryManager} (h : s.objs m = some (.vmm v)) :
    modifyVmm m f s = .ok ((), s.setObj m (.vmm (f v))) := modifyVmm_eq_ok.2 ⟨v, h, rfl⟩

theorem enterVas_of_not_overlaps (new : Nat) {newStart newEnd : Nat} (hm : Manages s m v rs)
    (hno : ¬ Overlaps rs newStart newEnd) : ∃ s', enterVas m new newStart newEnd s =
      .ok (new, s') := by
  obtain ⟨⟨found, s₁⟩, hins⟩ := insertVas_total new newStart newEnd hm.vas
  rcases insertVas_spec hm.vas hins with ⟨-, hover, -⟩ | ⟨l₁, l₂, -, -, -, -, -, rfl, rfl, -⟩
  · exact absurd hover hno
  · have hvmm : getVmm m s₁ = .ok (v, s₁) := getVmm_eq_ok.2 ⟨hm.vmm, rfl⟩
    rw [enterVas, bind_of_ok hvmm, bind_of_ok hins]
    exact ⟨_, bind_of_ok (modifyVmm_of_vmm hm.vmm)⟩

theorem mem_of_visited {r : VMemoryAddressSpace} (hr : r ∈ visited va rs) : r ∈ rs := by
  induction rs with
  | nil => cases hr
  | cons x rs ih =>
    rw [visited] at hr
    split_ifs at hr
    · exact List.mem_singleton.1 hr ▸ .head _
    · exact (List.mem_cons.1 hr).elim (fun heq => heq ▸ .head _) fun hr => .tail _ (ih hr)

/-- Where there is room, `addNewVirtualAddressSpace` finds no overlap. -/
theorem VasRoom.not_overlaps {n : Nat} (hv : VmmOk s m v rs) (hroom : VasRoom v rs n a)
    (hn : 0 < n) :
    ¬ Overlaps rs a (u32Sub (a + n) 1) := by
  rintro ⟨r, hr, hover⟩
  have hmem := mem_of_visited hr
  have hstop := hv.stop_lt hmem
  have hsize := hv.layout.pos r hmem
  have hupper := hroom.upper
  have hend := hv.end_lt
  rw [endPointsOverlap, decide_eq_true_eq] at hover
  simp only [u32Sub] at hover
  rcases hroom.apart r hmem with h | h <;> omega

theorem PageRoom.accepted {szPages : Nat} (hs : AllocOk s) (hv : VmmOk s m v rs)
    (hpos : szPages ≠ 0)
    (hroom : PageRoom v rs szPages a) (hne : a ≠ 0) : Accepted s m szPages a := by
  intro flags new s₁ hnew hrecord
  obtain ⟨hal, hroom⟩ := hroom
  have hend := hv.end_lt
  have hupper := hroom.upper
  have hlt : szPages * pageFrameSizeBytes < 2 ^ 32 := by omega
  have hbytes := pageframesToBytes_of_lt hlt
  rw [hbytes] at hnew
  obtain ⟨dirty, hm₁⟩ := createNewVirtAddrSpace_manages hs ⟨hv.vmm, hv.vas⟩ hnew
  have hno := hroom.not_overlaps hv (Nat.mul_pos (Nat.pos_of_ne_zero hpos) (by decide))
  obtain ⟨s', henter⟩ := enterVas_of_not_overlaps new hm₁ hno
  have hvmm : getVmm m s = .ok (v, s) := getVmm_eq_ok.2 ⟨hv.vmm, rfl⟩
  have hin : ¬ (a < v.start ∨ u32 (a + szPages * pageFrameSizeBytes) > v.end_) := by
    have hlower := hroom.lower
    unfold u32
    omega
  have hadd : addNewVirtualAddressSpace m a szPages flags s = .ok (new, s') := by
    rw [addNewVirtualAddressSpace, bind_of_ok hvmm, hbytes]
    rw [isAligned_page_iff.2 hal, if_neg Bool.true_eq_false.mp, if_neg hin, bind_of_ok hnew,
      if_neg hrecord,
      henter]
  refine ⟨s', hadd, fun hflag => ?_⟩
  rw [kvmmMemmap, memmapVa, if_neg hne, pure_bind, bind_of_ok hadd, if_neg hrecord, if_pos hflag]
  rfl

/-- `kvmm_findFree` returns, and what it returns is the lowest page address with room, which a
reservation of as many pages accepts, or zero when there is none, if and only if the condition
`FindFreeFits` holds. -/
theorem kvmmFindFree_lowest_iff {szPages : Nat} (hs : AllocOk s) (hv : VmmOk s m v rs)
    (hle : v.start ≤ v.end_) (hpos : szPages ≠ 0) : ∃ found, kvmmFindFree m szPages s =
      .ok (found, s) ∧
      (FindFreeOk v rs szPages found ∧ (found ≠ 0 → Accepted s m szPages found) ↔
        FindFreeFits v szPages rs) := by
  refine ⟨_, kvmmFindFree_eq szPages hv hle hpos, ?_⟩
  have haccepted : ∀ found, FindFreeOk v rs szPages found → found ≠ 0 →
    Accepted s m szPages found :=
    fun found h hne => (h.least hne).1.accepted hs hv hpos hne
  rw [and_iff_left_of_imp (haccepted _)]
  cases rs with
  | nil => exact findFree_empty_iff hpos
  | cons r rs => exact findFree_gaps_iff hv

set_option maxRecDepth 100000 in
/-- One page fits at the start of a process. -/
theorem kvmmFindFree_lowest_onePage : ∃ v rs, FindFreeOk v rs 1 memStartProcessMemory ∧
    Accepted smallMachineNewVmm smallMachineVmm 1 memStartProcessMemory := by
  obtain ⟨start, end_, hinv⟩ := (smallMachine_newVmm VmmCall.Fits).inv
  obtain ⟨v, rs, hv, -⟩ := hinv.vmmOk
  have heq := hv.vmm
  rw [smallMachineNewVmm_manages.vmm] at heq
  cases heq
  obtain rfl := List.forall₂_nil_left_iff.1 hv.vas
  obtain ⟨found, hrun, hiff⟩ := kvmmFindFree_lowest_iff hinv.allocOk hv (by decide) Nat.one_ne_zero
  have hfound : (kvmmFindFree smallMachineVmm 1 smallMachineNewVmm).map Prod.fst =
      .ok memStartProcessMemory := by decide +kernel
  rw [hrun] at hfound
  cases hfound
  have hok := hiff.2 ⟨by decide, by decide⟩
  exact ⟨_, _, hok.1, hok.2 (by decide)⟩

set_option maxRecDepth 100000 in
/-- More pages than the range has are found in a manager without address spaces. -/
theorem kvmmFindFree_too_large : ¬ ∀ s m v rs szPages found, AllocOk s → VmmOk s m v rs →
    v.start ≤ v.end_ → szPages ≠ 0 → kvmmFindFree m szPages s = .ok (found, s) →
      FindFreeOk v rs szPages found := by
  intro hall
  obtain ⟨start, end_, hinv⟩ := (smallMachine_newVmm VmmCall.Fits).inv
  obtain ⟨v, rs, hv, -⟩ := hinv.vmmOk
  have heq := hv.vmm
  rw [smallMachineNewVmm_manages.vmm] at heq
  cases heq
  have hrun := kvmmFindFree_eq 0xC0000 hv (by decide) (by decide)
  have hok := hall _ _ _ _ _ _ hinv.allocOk hv (by decide) (by decide) hrun
  obtain rfl := List.forall₂_nil_left_iff.1 hv.vas
  have hroom := (hok.least (by decide)).1.2.upper
  exact absurd hroom (by decide)

end MeghaOS
