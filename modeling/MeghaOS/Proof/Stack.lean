import MeghaOS.Proof.CommitRange
import MeghaOS.Proof.FindFree
import MeghaOS.Proof.Dispatch

/-!
# The stack of a process

`s_setupProcessStackMemory` searches once, for room for the stack and a page on either side of it,
and then makes three reservations, each at the start of what the one before it left of the gap
(`mapStackPart_atStart`). So the three land next to each other, and the two outer ones, whose pages
are never committed, guard the stack.
-/

namespace MeghaOS

open Exec KState

variable {s s' s₁ : KState} {a b m n p va flags pd : Nat} {v : VMemoryManager}
  {rs rs₁ rs₂ : List VMemoryAddressSpace} {l₁ l₂ : List Nat} {i : KProcessInfo}

/-! ## Entering an address space in a gap -/

/-- The addresses from `a` to `b` lie in the gap behind the address spaces `rs₁` and in front of
`rs₂`. -/
def VasGap (v : VMemoryManager) (rs₁ rs₂ : List VMemoryAddressSpace) (a b : Nat) : Prop :=
  GapBetween VMemoryAddressSpace.startVm VMemoryAddressSpace.allocationSzBytes v.start
    v.end_ rs₁ rs₂ a b

/-- The loop of `addNewVirtualAddressSpace` passes what lies before the gap, and stops behind it. -/
theorem insertVas_atGap {new newEnd : Nat}
    (h₁ : List.Forall₂ (fun a r => s.objs a = some (.vas r)) l₁ rs₁)
    (h₂ : List.Forall₂ (fun a r => s.objs a = some (.vas r)) l₂ rs₂)
    (hbefore : ∀ r ∈ rs₁, 0 < r.allocationSzBytes ∧ r.startVm + r.allocationSzBytes ≤ a)
    (hbehind : ∀ r ∈ rs₂, newEnd < r.startVm) (hle : a ≤ newEnd) (hlt : newEnd < 2 ^ 32) :
    insertVas new a newEnd (l₁ ++ l₂) s = .ok (some (l₁ ++ new :: l₂), s) := by
  induction h₁ with
  | nil =>
    cases h₂ with
    | nil => rfl
    | @cons x r l rs hxr _ =>
      have hvas : getVas x s = .ok (r, s) := getVas_eq_ok.2 ⟨hxr, rfl⟩
      have hr := hbehind r (.head _)
      rw [List.nil_append, insertVas, bind_of_ok hvas, endPointsOverlap]
      rw [if_neg (by rw [decide_eq_true_eq]; omega), if_pos (by omega)]
      rfl
  | @cons x r l rs hxr _ ih =>
    have hvas : getVas x s = .ok (r, s) := getVas_eq_ok.2 ⟨hxr, rfl⟩
    obtain ⟨hpos, hr⟩ := hbefore r (.head _)
    have hend : u32Sub (r.startVm + r.allocationSzBytes) 1 =
        r.startVm + r.allocationSzBytes - 1 := by
      unfold u32Sub
      omega
    have hrest := ih fun r hr => hbefore r (.tail _ hr)
    rw [List.cons_append, insertVas, bind_of_ok hvas, endPointsOverlap, hend]
    rw [if_neg (by rw [decide_eq_true_eq]; omega), if_neg (by omega), bind_of_ok hrest]
    rfl

/-- A reservation at the start of a gap is entered in it. -/
theorem enterVas_atGap {new newEnd : Nat} (hv : VmmOk s m v (rs₁ ++ rs₂))
    (hhead : v.head = l₁ ++ l₂)
    (hlen : l₁.length = rs₁.length) (hgap : VasGap v rs₁ rs₂ a b) (hle : a ≤ newEnd)
    (hlt : newEnd < b) :
    enterVas m new a newEnd s =
      .ok (new, s.setObj m (.vmm { v with head := l₁ ++ new :: l₂ })) := by
  obtain ⟨h₁, h₂⟩ := hv.split hhead hlen
  have hend := hv.end_lt
  have hupper := hgap.upper
  have hins : insertVas new a newEnd v.head s = .ok (some (l₁ ++ new :: l₂), s) := by
    rw [hhead]
    refine insertVas_atGap h₁ h₂ (fun r hr => ?_) (fun r hr => ?_) hle (by omega)
    · exact ⟨hv.layout.pos r (List.mem_append_left _ hr), hgap.before r hr⟩
    · exact Nat.lt_of_lt_of_le hlt (hgap.behind r hr)
  have hvmm : getVmm m s = .ok (v, s) := getVmm_eq_ok.2 ⟨hv.vmm, rfl⟩
  rw [enterVas, bind_of_ok hvmm, bind_of_ok hins]
  exact bind_of_ok (modifyVmm_of_vmm hv.vmm)

/-! ## Memory for a reservation -/

/-- A record that is written leaves the range ready. -/
theorem RangeReady.setObj {d : Nat} (h : RangeReady s d va n) (x : Nat) (o : Obj) :
    RangeReady (s.setObj x o) d va n where
  directory := h.directory.congr (h.directory.pabOk.congr rfl) h.directory.int
    (fun _ _ => rfl) fun _ => id
  frame := h.frame
  ext := h.ext
  phase := h.phase
  free := h.free
  ordinary := h.ordinary
  unmapped := h.unmapped
  frames := h.frames.imp fun _ hf => ⟨hf.inside, hf.free⟩
  tables := h.tables

/-- There is memory for a reservation: the heap has some for the record, and when the pages are
committed at once, in the page directory at `pd`, there are page frames for them. -/
def ReservationMemory (pd va n flags : Nat) (s : KState) : Prop :=
  ∃ x s₁, kmalloc sizeofVMemoryAddressSpace s = .ok (x, s₁) ∧ x ≠ 0 ∧
    (bitIsSet flags vmmMemmapFlagImmcommit = true → ∃ d, pd = d * 4096 ∧ RangeReady s₁ d va n)

/-- The record is made when there is memory for it. -/
theorem createNewVirtAddrSpace_of_kmalloc {x bytes : Nat}
    (hphase : s.phase.check .kmallocReady = true)
    (hx : kmalloc sizeofVMemoryAddressSpace s = .ok (x, s₁)) (hne : x ≠ 0)
    (hal : isAligned bytes pageFrameSizeBytes = true) :
    createNewVirtAddrSpace va bytes flags s = .ok (x, s₁.setObj x (newVas va bytes flags)) := by
  have hobj : kmallocObj (newVas va bytes flags) s =
      .ok (x, s₁.setObj x (newVas va bytes flags)) := by
    refine (bind_of_ok hx).trans ?_
    rw [if_pos hne]
    rfl
  rw [createNewVirtAddrSpace, get_bind_apply]
  dsimp only
  rw [if_pos hphase]
  refine (bind_of_ok hobj).trans ?_
  rw [if_neg hne]
  exact kAssert_bind_eq_ok.2 ⟨hal, rfl⟩

/-- The address space that a reservation enters in the list. -/
def reservedVas (va n flags : Nat) : VMemoryAddressSpace :=
    ⟨false, flags, va, n * pageFrameSizeBytes, 0⟩

/-- What a reservation leaves that entered the record `x` with `r` between the address spaces `rs₁`
and `rs₂`. -/
structure Reserved (m : Nat) (v : VMemoryManager) (l₁ l₂ : List Nat)
    (rs₁ rs₂ : List VMemoryAddressSpace)
    (x : Nat) (r : VMemoryAddressSpace) (s s' : KState) : Prop where
  fresh : x ∉ v.head
  list : ∃ dirty, VmmOk s' m { v with isPageDirectoryDirty := dirty, head := l₁ ++ x :: l₂ }
    (rs₁ ++ r :: rs₂)
  frame : VmStep (fun _ => False) s s'

/-- `addNewVirtualAddressSpace` at the start of a gap, with memory for the record. -/
theorem addNewVirtualAddressSpace_atStart {x : Nat} (hready : HeapReady s)
    (hv : VmmOk s m v (rs₁ ++ rs₂))
    (hhead : v.head = l₁ ++ l₂) (hlen : l₁.length = rs₁.length) (hgap : VasGap v rs₁ rs₂ a b)
    (hal : a % 4096 = 0) (hn : 0 < n) (hfit : a + n * 4096 ≤ b)
    (hx : kmalloc sizeofVMemoryAddressSpace s = .ok (x, s₁)) (hne : x ≠ 0) :
    ∃ s₂, addNewVirtualAddressSpace m a n flags s = .ok (x, s₂) ∧ x ∉ v.head ∧
      (∃ dirty, VmmOk s₂ m { v with isPageDirectoryDirty := dirty, head := l₁ ++ x :: l₂ }
        (rs₁ ++ reservedVas a n flags :: rs₂)) ∧
      ∃ o o', s₂ = (s₁.setObj x o).setObj m o' := by
  have hend := hv.end_lt
  have hupper := hgap.upper
  have hbytes : pageframesToBytes n = n * 4096 :=
    pageframesToBytes_of_lt (by simp only [pageFrameSizeBytes]; omega)
  have hszal : isAligned (pageframesToBytes n) pageFrameSizeBytes = true :=
    isAligned_pageframesToBytes n
  have hnew : createNewVirtAddrSpace a (pageframesToBytes n) flags s = .ok (x, _) :=
    createNewVirtAddrSpace_of_kmalloc hready.phase hx hne hszal
  have halloc : AllocOk s := .inl ⟨hready.phase, hready.heapOk⟩
  rcases createNewVirtAddrSpace_alloc halloc hv hnew with ⟨hzero, -⟩ | ⟨-, hfresh, -, -,
    dirty, -, hv₁⟩
  · exact absurd hzero hne
  have hself : (s₁.setObj x (newVas a (pageframesToBytes n) flags)).objs x =
      some (.vas (reservedVas a n flags)) := by
    rw [objs_setObj_self, hbytes]
    rfl
  have henter : enterVas m x a (u32Sub (a + pageframesToBytes n) 1) _ = .ok (x, _) :=
    enterVas_atGap hv₁ hhead hlen hgap (by unfold u32Sub; omega) (by unfold u32Sub; omega)
  have hvmm : getVmm m s = .ok (v, s) := getVmm_eq_ok.2 ⟨hv.vmm, rfl⟩
  have hin : ¬ (a < v.start ∨ u32 (a + pageframesToBytes n) > v.end_) := by
    have hlower := hgap.lower
    unfold u32
    omega
  have hadd : addNewVirtualAddressSpace m a n flags s = enterVas m x a
    (u32Sub (a + pageframesToBytes n) 1)
      (s₁.setObj x (newVas a (pageframesToBytes n) flags)) := by
    rw [addNewVirtualAddressSpace, bind_of_ok hvmm, isAligned_page_iff.2 hal,
      if_neg Bool.true_eq_false.mp, if_neg hin, bind_of_ok hnew, if_neg hne]
  have hlayout : VasLayout v (rs₁ ++ reservedVas a n flags :: rs₂) :=
    hgap.insert hv.layout rfl (Nat.mul_pos hn (by decide)) hfit
  have hv₂ := hv₁.insert (d := dirty) hself hfresh hhead hlen hlayout
    ⟨hal, Nat.mul_mod_left n 4096⟩ rfl
  exact ⟨_, hadd.trans henter, hfresh, ⟨dirty, hv₂⟩, _, _, rfl⟩

/-- The record that was reserved is found by its address. -/
theorem kvmmSetAddressSpaceMetadata_of_mem {r : VMemoryAddressSpace}
    (hv : VmmOk s m v rs) (hr : r ∈ rs)
    (hcovers : r.Covers va) : kvmmSetAddressSpaceMetadata m va s = .ok ((), s) := by
  obtain ⟨found, hfind, -⟩ := findVas_run ⟨hv.vmm, hv.vas⟩ va
  obtain ⟨-, hnone, -⟩ := findVas_spec hv hfind
  rw [kvmmSetAddressSpaceMetadata, bind_of_ok hfind]
  cases found with
  | none => exact absurd hcovers (hnone rfl r hr)
  | some _ => rfl

/-- A reservation at the start of a gap, for which there is memory, succeeds. -/
theorem mapStackPart_atStart (hready : HeapReady s) (hv : VmmOk s m v (rs₁ ++ rs₂))
    (hhead : v.head = l₁ ++ l₂)
    (hlen : l₁.length = rs₁.length) (hgap : VasGap v rs₁ rs₂ a b) (hal : a % 4096 = 0)
    (ha : a ≠ 0) (hn : 0 < n)
    (hfit : a + n * 4096 ≤ b) (hmem : ReservationMemory v.parentProcessPD a n flags s) :
    ∃ x s', mapStackPart m a n flags s = .ok (true, s') ∧
      Reserved m v l₁ l₂ rs₁ rs₂ x (reservedVas a n flags) s s' := by
  obtain ⟨x, s₁, hx, hne, hcommit⟩ := hmem
  obtain ⟨s₂, hadd, hfresh, ⟨dirty, hv₂⟩, o, o', heq⟩ :
      ∃ s₂, addNewVirtualAddressSpace m a n flags s = .ok (x, s₂) ∧ _ :=
    addNewVirtualAddressSpace_atStart hready hv hhead hlen hgap hal hn hfit hx hne
  have hupper := hgap.upper
  have hend := hv.end_lt
  have hva : memmapVa m a n s = .ok (a, s) := by
    rw [memmapVa, if_neg ha]
    rfl
  -- the pages are committed when the flags ask for it
  obtain ⟨out, s₃, hmap, dirty', hv₃⟩ : ∃ out s₃, kvmmMemmap m a none n flags s =
    .ok ((a, out), s₃) ∧
      ∃ dirty', VmmOk s₃ m { v with isPageDirectoryDirty := dirty', head := l₁ ++ x :: l₂ }
        (rs₁ ++ reservedVas a n flags :: rs₂) := by
    rw [kvmmMemmap, bind_of_ok hva, bind_of_ok hadd, if_neg hne]
    cases hflag : bitIsSet flags vmmMemmapFlagImmcommit with
    | false =>
      rw [if_pos (by rw [bitIsUnset, hflag]; rfl)]
      exact ⟨none, s₂, rfl, dirty, hv₂⟩
    | true =>
      obtain ⟨d, hpd, hrange⟩ := hcommit hflag
      obtain ⟨pa, s₃, hrun⟩ := commitVirtualPages_of_ready hv₂.vmm hpd
        (heq ▸ (hrange.setObj x o).setObj m o') hn (by omega) hal (by omega) (by omega) flags
      obtain ⟨dirty', hv₃⟩ := hv₂.of_nonCommit (commitVirtualPages_fixes _ _ _ _ _ _ _ _ hrun)
      rw [if_neg (by rw [bitIsUnset, hflag]; decide), bind_of_ok hrun]
      exact ⟨pa, s₃, rfl, dirty', hv₃⟩
  have hcovers : (reservedVas a n flags).Covers a :=
    ⟨Nat.le_refl a, Nat.lt_add_of_pos_right (Nat.mul_pos hn (by decide))⟩
  have hmeta := kvmmSetAddressSpaceMetadata_of_mem hv₃ (List.mem_append_right _ (.head _)) hcovers
  refine ⟨x, s₃, ?_, hfresh, ⟨dirty', hv₃⟩, kvmmMemmap_vmFrame _ _ _ _ _ _ _ _ hmap hready⟩
  rw [mapStackPart, bind_of_ok hmap]
  dsimp only
  rw [if_neg ha, bind_of_ok hmeta]
  rfl

/-! ## The three reservations -/

/-- The pages of the stack of a process. -/
def stackSizePages : Nat := bytesToPageframesCeiling memLenBytesProcessStack

/-- A stack has 64 pages. -/
theorem stackSizePages_eq : stackSizePages = 64 := by decide

/-- The flags of the address space of the stack: that of a kernel process is committed at once. -/
def stackFlags (i : KProcessInfo) : Nat :=
  if bitIsSet i.flags processFlagsKernelProcess then
    vmmMemmapFlagKernelPage ||| vmmMemmapFlagImmcommit
  else vmmMemmapFlagNone

/-- A context: its address spaces are in order, and its range starts at a page other than the first
one and has room for a stack and a page on either side of it. -/
structure ContextOk (s : KState) (m : Nat) (v : VMemoryManager) (rs : List VMemoryAddressSpace) :
    Prop
    extends VmmOk s m v rs where
  start_ne : v.start ≠ 0
  start_aligned : v.start % pageFrameSizeBytes = 0
  range : v.start + (stackSizePages + 2) * pageFrameSizeBytes ≤ v.end_

/-- The contexts that `kvmm_new` makes have one of two ranges. -/
theorem ContextOk.of_range (hv : VmmOk s m v rs)
    (hrange : v.start = memStartProcessMemory ∧ v.end_ = memEndProcessMemory ∨
      v.start = memStartKernelLowRegion ∧ v.end_ = memEndKernelHighRegion) :
        ContextOk s m v rs := by
  rcases hrange with ⟨hstart, hend⟩ | ⟨hstart, hend⟩
  · exact ⟨hv, by rw [hstart]; decide, by rw [hstart]; decide, by rw [hstart, hend]; decide⟩
  · exact ⟨hv, by rw [hstart]; decide, by rw [hstart]; decide, by rw [hstart, hend]; decide⟩

/-- In a context, `kvmm_findFree` finds room for the stack if there is some. -/
theorem ContextOk.findFree (hc : ContextOk s m v rs) (hready : HeapReady s) :
    ∃ va, kvmmFindFree m (stackSizePages + 2) s = .ok (va, s) ∧
      FindFreeOk v rs (stackSizePages + 2) va := by
  have hle : v.start ≤ v.end_ := Nat.le_trans (Nat.le_add_right _ _) hc.range
  obtain ⟨va, hrun, hiff⟩ :=
    kvmmFindFree_lowest_iff (.inl ⟨hready.phase, hready.heapOk⟩) hc.toVmmOk hle (Nat.succ_ne_zero _)
  refine ⟨va, hrun, (hiff.2 ?_).1⟩
  cases rs with
  | nil =>
    rw [FindFreeFits, if_neg hc.start_ne]
    exact ⟨hc.start_aligned, hc.range⟩
  | cons r rs =>
    rw [FindFreeFits, if_pos (by decide)]
    exact fun _ => ⟨hc.start_ne, hc.start_aligned⟩

/-- `s_setupProcessStackMemory` up to the reservation of the page at the bottom of the stack. -/
def beforeBottom (p : Nat) : K Unit :=
  modifyProc p fun i => { i with stack.sizePages := stackSizePages }

/-- `s_setupProcessStackMemory` up to the reservation of the stack. -/
def beforeStack (p m va : Nat) : K Unit := do
  beforeBottom p
  let _ ← mapStackPart m va 1 vmmMemmapFlagNullpage
  modifyProc p fun i => { i with stack.virtualMemoryStart := u32 (va + pageFrameSizeBytes) }

/-- `s_setupProcessStackMemory` up to the reservation of the page at the top of the stack. -/
def beforeTop (p m va flags : Nat) : K Unit := do
  beforeStack p m va
  let _ ← mapStackPart m (u32 (va + pageFrameSizeBytes)) stackSizePages flags

/-- There is memory for each of the three reservations at the time when it is made. -/
structure StackMemory (p m va flags pd : Nat) (s : KState) : Prop where
  bottom : ∀ s₁, beforeBottom p s = .ok ((), s₁) → ReservationMemory pd va 1
    vmmMemmapFlagNullpage s₁
  stack : ∀ s₁, beforeStack p m va s = .ok ((), s₁) →
    ReservationMemory pd (va + pageFrameSizeBytes) stackSizePages flags s₁
  top : ∀ s₁, beforeTop p m va flags s = .ok ((), s₁) →
    ReservationMemory pd (va + (stackSizePages + 1) * pageFrameSizeBytes) 1 vmmMemmapFlagNullpage s₁

/-- The page at the bottom of a stack at `va`, the stack, and the page at its top. -/
def guardedStack (va flags : Nat) : List VMemoryAddressSpace :=
  [reservedVas va 1 vmmMemmapFlagNullpage,
    reservedVas (va + pageFrameSizeBytes) stackSizePages flags,
    reservedVas (va + (stackSizePages + 1) * pageFrameSizeBytes) 1 vmmMemmapFlagNullpage]

/-- The process at `p`, with the record `i`, has a stack above the page at `va`: three new address
spaces follow one another there, with those that were there before on either side, and the record
says where it is. -/
structure StackReady (p m va : Nat) (i : KProcessInfo) (v : VMemoryManager)
    (rs : List VMemoryAddressSpace)
    (s s' : KState) : Prop where
  list : ∃ v' rs₁ rs₂ l₁ l₂ new, rs = rs₁ ++ rs₂ ∧ v.head = l₁ ++ l₂ ∧ v'.head = l₁ ++ new ++ l₂ ∧
    l₁.length = rs₁.length ∧ (∀ x ∈ new, x ∉ v.head) ∧
      VmmOk s' m v' (rs₁ ++ guardedStack va (stackFlags i) ++ rs₂)
  apart : ∀ r ∈ rs, r.startVm + r.allocationSzBytes ≤ va ∨
    va + (stackSizePages + 2) * pageFrameSizeBytes ≤ r.startVm
  proc : s'.objs p = some (.proc { i with stack := ⟨va + pageFrameSizeBytes, stackSizePages⟩ })
  ready : HeapReady s'

/-- Writing the record of a process keeps the address spaces. -/
theorem VmmOk.setProc {j : KProcessInfo} (hv : VmmOk s m v rs) (hp : s.objs p = some (.proc i)) :
    VmmOk (s.setObj p (.proc j)) m v rs := by
  refine hv.congr (d := v.isPageDirectoryDirty) ?_ fun a ha => objs_setObj_of_ne _ fun heq => ?_
  · refine (objs_setObj_of_ne _ fun heq => ?_).trans hv.vmm
    rw [← heq, hv.vmm] at hp
    cases hp
  · obtain ⟨r, -, hr⟩ := hv.objs_head ha
    rw [← heq, hr] at hp
    cases hp

/-- The search does not look at the record of the process. -/
theorem kvmmFindFree_setProc {j : KProcessInfo} (hc : ContextOk s m v rs)
    (hp : s.objs p = some (.proc i))
    (hfind : kvmmFindFree m (stackSizePages + 2) s = .ok (va, s)) :
    kvmmFindFree m (stackSizePages + 2) (s.setObj p (.proc j)) =
      .ok (va, s.setObj p (.proc j)) := by
  have hle : v.start ≤ v.end_ := Nat.le_trans (Nat.le_add_right _ _) hc.range
  rw [kvmmFindFree_eq _ hc.toVmmOk hle (Nat.succ_ne_zero _)] at hfind
  rw [kvmmFindFree_eq _ (hc.toVmmOk.setProc hp) hle (Nat.succ_ne_zero _)]
  simp only [Except.ok.injEq, Prod.mk.injEq, and_true] at hfind ⊢
  exact hfind

/-- While the stack of the process at `p` is set up: its record is `i`, and what comes next lies at
`a`, in the gap behind the address spaces `rs₁` of its context. -/
structure AtGap (s : KState) (p m : Nat) (i : KProcessInfo) (v : VMemoryManager) (l₁ l₂ : List Nat)
    (rs₁ rs₂ : List VMemoryAddressSpace) (a b : Nat) : Prop where
  ready : HeapReady s
  proc : s.objs p = some (.proc i)
  list : VmmOk s m v (rs₁ ++ rs₂)
  head : v.head = l₁ ++ l₂
  length : l₁.length = rs₁.length
  gap : VasGap v rs₁ rs₂ a b
  aligned : a % 4096 = 0
  ne_zero : a ≠ 0

/-- Writing the record of the process. -/
theorem AtGap.record (h : AtGap s p m i v l₁ l₂ rs₁ rs₂ a b) (f : KProcessInfo → KProcessInfo) :
    ∃ s', modifyProc p f s = .ok ((), s') ∧ AtGap s' p m (f i) v l₁ l₂ rs₁ rs₂ a b :=
  ⟨_, modifyProc_of_proc h.proc, h.ready.setObj (by simp [h.proc]), objs_setObj_self _,
    h.list.setProc h.proc,
    h.head, h.length, h.gap, h.aligned, h.ne_zero⟩

/-- One reservation: the new address space joins those in front of the gap. -/
theorem AtGap.reserve (h : AtGap s p m i v l₁ l₂ rs₁ rs₂ a b) (hn : 0 < n)
    (hfit : a + n * pageFrameSizeBytes ≤ b)
    (hmem : ReservationMemory v.parentProcessPD a n flags s) :
    ∃ x s' dirty, mapStackPart m a n flags s = .ok (true, s') ∧ x ∉ l₁ ++ l₂ ∧
      AtGap s' p m i { v with isPageDirectoryDirty := dirty, head := (l₁ ++ [x]) ++ l₂ }
        (l₁ ++ [x]) l₂
        (rs₁ ++ [reservedVas a n flags]) rs₂ (a + n * pageFrameSizeBytes) b := by
  obtain ⟨x, s', hrun, hfresh, ⟨dirty, hlist⟩, hframe⟩ :=
    mapStackPart_atStart h.ready h.list h.head h.length h.gap h.aligned h.ne_zero hn hfit hmem
  have hproc : s'.objs p = some (.proc i) := proc_of_records (congrFun hframe.records p) h.proc
  have hgap : VasGap v (rs₁ ++ [reservedVas a n flags]) rs₂ (a + n * pageFrameSizeBytes) b :=
    GapBetween.rest h.gap rfl
  have haligned : (a + n * pageFrameSizeBytes) % 4096 = 0 := by
    rw [Nat.add_mul_mod_self_right]
    exact h.aligned
  have hne : a + n * pageFrameSizeBytes ≠ 0 :=
    (Nat.add_pos_left (Nat.pos_of_ne_zero h.ne_zero) _).ne'
  refine ⟨x, s', dirty, hrun, h.head ▸ hfresh, hframe.ready, hproc, ?_,
    rfl, by simp [h.length], hgap, haligned, hne⟩
  rw [List.append_assoc, List.append_assoc]
  exact hlist

/-- The three reservations of `s_setupProcessStackMemory`. -/
def reserveStack (p m va flags : Nat) : K Bool := do
  if (← mapStackPart m va 1 vmmMemmapFlagNullpage) = false then return false
  else
    modifyProc p fun i => { i with stack.virtualMemoryStart := u32 (va + pageFrameSizeBytes) }
    if (← mapStackPart m (u32 (va + pageFrameSizeBytes)) stackSizePages flags) =
      false then return false
    else
      mapStackPart m (u32 (u32 (va + pageFrameSizeBytes) + stackSizePages * pageFrameSizeBytes)) 1
        vmmMemmapFlagNullpage

/-- The record says how large the stack is before the search for room, which does not look at it. -/
theorem sSetupProcessStackMemory_search {s₀ : KState} (hproc : s.objs p = some (.proc i))
    (hctx : i.context = .addr m) (hc : ContextOk s m v rs)
    (hfind : kvmmFindFree m (stackSizePages + 2) s = .ok (va, s))
    (hsized : beforeBottom p s = .ok ((), s₀)) :
    sSetupProcessStackMemory p s =
      (if va = 0 then returnError .errOutOfMem false else reserveStack p m va (stackFlags i))
        s₀ := by
  obtain rfl : s.setObj p (.proc { i with stack.sizePages := stackSizePages }) = s₀ := by
    rw [beforeBottom, modifyProc_of_proc hproc] at hsized
    exact congrArg Prod.snd (Except.ok.inj hsized)
  have hproc₀ := objs_setObj_self (s := s) (a := p)
    (.proc { i with stack.sizePages := stackSizePages })
  have hfind₀ := kvmmFindFree_setProc (j := { i with stack.sizePages := stackSizePages })
    hc hproc hfind
  generalize s.setObj p (.proc { i with stack.sizePages := stackSizePages }) = s₀ at *
  have hfollow : i.context.follow s₀ = .ok (m, s₀) := by
    rw [hctx]
    rfl
  rw [beforeBottom] at hsized
  have hsize : bytesToPageframesCeiling memLenBytesProcessStack = stackSizePages := rfl
  rw [sSetupProcessStackMemory]
  dsimp only
  simp only [hsize]
  rw [bind_of_ok hsized, bind_of_ok (getProc_of_proc hproc₀), bind_of_ok hfollow,
    bind_of_ok hfind₀, reserveStack]
  rfl

/-- In a gap with room for the stack and a page on either side, and given memory, the three
reservations succeed. -/
theorem AtGap.stack {s₀ : KState} (h : AtGap s p m i v l₁ l₂ rs₁ rs₂ va b)
    (hfit : va + (stackSizePages + 2) * pageFrameSizeBytes ≤ b)
    (hbottom : beforeBottom p s₀ = .ok ((), s))
    (hmem : StackMemory p m va flags v.parentProcessPD s₀) :
    ∃ x y z s' v', reserveStack p m va flags s = .ok (true, s') ∧ (∀ w ∈ [x, y, z], w ∉ v.head) ∧
      v'.head = l₁ ++ [x, y, z] ++ l₂ ∧ VmmOk s' m v' (rs₁ ++ guardedStack va flags ++ rs₂) ∧
      s'.objs p = some (.proc { i with stack.virtualMemoryStart := va + pageFrameSizeBytes }) ∧
        HeapReady s' := by
  have hlt : va + 66 * 4096 < 2 ^ 32 := by
    have hend := h.list.end_lt
    have hupper := h.gap.upper
    rw [stackSizePages_eq] at hfit
    exact Nat.lt_of_le_of_lt (Nat.le_trans hfit hupper) hend
  have hstart : u32 (va + pageFrameSizeBytes) = va + pageFrameSizeBytes :=
    Nat.mod_eq_of_lt (by simp only [pageFrameSizeBytes]; omega)
  have hbehind : va + pageFrameSizeBytes + stackSizePages * pageFrameSizeBytes =
      va + (stackSizePages + 1) * pageFrameSizeBytes := by
    rw [Nat.add_mul, Nat.one_mul, Nat.add_assoc, Nat.add_comm pageFrameSizeBytes]
  have htop : u32 (va + (stackSizePages + 1) * pageFrameSizeBytes) =
    va + (stackSizePages + 1) * pageFrameSizeBytes :=
    Nat.mod_eq_of_lt (by simp only [stackSizePages_eq, pageFrameSizeBytes]; omega)
  -- the page at the bottom
  obtain ⟨x, s₁, d₁, hrun₁, hx, h₁⟩ := h.reserve Nat.one_pos
    (by rw [stackSizePages_eq] at hfit; simp only [pageFrameSizeBytes] at *; omega)
    (hmem.bottom s hbottom)
  rw [Nat.one_mul] at h₁
  -- the stack, whose start the record has from here on
  obtain ⟨s₂, hset, h₂⟩ := h₁.record fun i =>
    { i with stack.virtualMemoryStart := va + pageFrameSizeBytes }
  have hstack : beforeStack p m va s₀ = .ok ((), s₂) := by
    rw [beforeStack, bind_of_ok hbottom, bind_of_ok hrun₁, hstart]
    exact hset
  obtain ⟨y, s₃, d₃, hrun₃, hy, h₃⟩ := h₂.reserve (by rw [stackSizePages_eq]; decide)
    (by rw [stackSizePages_eq] at *; simp only [pageFrameSizeBytes] at *; omega)
    (hmem.stack s₂ hstack)
  rw [hbehind] at h₃
  -- the page at the top
  have htopRun : beforeTop p m va flags s₀ = .ok ((), s₃) := by
    rw [beforeTop, bind_of_ok hstack, hstart, bind_of_ok hrun₃]
    rfl
  obtain ⟨z, s₄, d₄, hrun₄, hz, h₄⟩ := h₃.reserve Nat.one_pos
    (by rw [stackSizePages_eq] at *; simp only [pageFrameSizeBytes] at *; omega)
    (hmem.top s₃ htopRun)
  have hlist : VmmOk s₄ m { v with isPageDirectoryDirty := d₄, head := l₁ ++ [x, y, z] ++ l₂ }
      (rs₁ ++ guardedStack va flags ++ rs₂) := by
    simpa only [guardedStack, List.append_assoc, List.cons_append, List.nil_append] using h₄.list
  refine ⟨x, y, z, s₄, _, ?_, ?_, rfl, hlist, h₄.proc, h₄.ready⟩
  · rw [reserveStack, bind_of_ok hrun₁, if_neg Bool.true_eq_false.mp, hstart, bind_of_ok hset,
      bind_of_ok hrun₃, if_neg Bool.true_eq_false.mp, hbehind, htop]
    exact hrun₄
  · rw [h.head]
    simp only [List.mem_append, List.mem_cons, List.not_mem_nil, not_or, or_false] at *
    rintro w (rfl | rfl | rfl)
    · exact hx
    · exact ⟨hy.1.1, hy.2⟩
    · exact ⟨hz.1.1.1, hz.2⟩

/-- Where there is room, and memory, the stack is set up. -/
theorem sSetupProcessStackMemory_ready (hready : HeapReady s) (hproc : s.objs p = some (.proc i))
    (hctx : i.context = .addr m) (hc : ContextOk s m v rs)
    (hfind : kvmmFindFree m (stackSizePages + 2) s = .ok (va, s)) (hne : va ≠ 0)
    (hroom : PageRoom v rs (stackSizePages + 2) va)
    (hmem : StackMemory p m va (stackFlags i) v.parentProcessPD s) :
    ∃ s', sSetupProcessStackMemory p s = .ok (true, s') ∧ StackReady p m va i v rs s s' := by
  obtain ⟨hal, hroom⟩ := hroom
  obtain ⟨rs₁, rs₂, rfl, hgap⟩ := hroom.gapBetween hc.layout
  -- the list splits where the gap is
  have hhead : v.head = v.head.take rs₁.length ++ v.head.drop rs₁.length :=
    (List.take_append_drop _ _).symm
  have hlen : (v.head.take rs₁.length).length = rs₁.length := by
    rw [List.length_take, hc.vas.length_eq, List.length_append]
    omega
  have h : AtGap s p m i v (v.head.take rs₁.length) (v.head.drop rs₁.length) rs₁ rs₂ va
      (va + (stackSizePages + 2) * pageFrameSizeBytes) :=
    ⟨hready, hproc, hc.toVmmOk, hhead, hlen, hgap, hal, hne⟩
  obtain ⟨s₀, hsized, h₀⟩ := h.record fun i => { i with stack.sizePages := stackSizePages }
  obtain ⟨x, y, z, s', v', hrun, hfresh, hhead', hlist, hproc', hready'⟩ :=
    h₀.stack (Nat.le_refl _) hsized hmem
  refine ⟨s', ?_, ⟨v', rs₁, rs₂, _, _, [x, y, z], rfl, hhead, hhead', hlen, hfresh, hlist⟩,
    hroom.apart, hproc',
    hready'⟩
  rw [sSetupProcessStackMemory_search hproc hctx hc hfind hsized, if_neg hne]
  exact hrun

/-- Without room the call fails before it reserves anything. -/
theorem sSetupProcessStackMemory_noRoom (hproc : s.objs p = some (.proc i))
    (hctx : i.context = .addr m)
    (hc : ContextOk s m v rs) (hfind : kvmmFindFree m (stackSizePages + 2) s = .ok (0, s)) :
    ∃ s', sSetupProcessStackMemory p s = .ok (false, s') := by
  have hsized : beforeBottom p s = .ok ((), _) := modifyProc_of_proc hproc
  rw [sSetupProcessStackMemory_search hproc hctx hc hfind hsized, if_pos rfl]
  exact ⟨_, rfl⟩

/-! ## Page faults in the pages around the stack -/

/-- An access to a page that is never committed is refused, and takes no page frame. -/
theorem kvmmCommitPage_nullPage {r : VMemoryAddressSpace} (hv : VmmOk s m v rs) (hr : r ∈ rs)
    (hflags : r.flags = vmmMemmapFlagNullpage) (hcovers : r.Covers va) :
    ∃ e, kvmmCommitPage m va s = .ok (false, { s with errorNumber := e }) := by
  obtain ⟨found, hfind, -⟩ := findVas_run ⟨hv.vmm, hv.vas⟩ va
  obtain ⟨-, hnone, hsome⟩ := findVas_spec hv hfind
  rw [kvmmCommitPage, bind_of_ok hfind]
  cases found with
  | none => exact absurd hcovers (hnone rfl r hr)
  | some a =>
    obtain ⟨r', hr', -, har, hlo, hhi⟩ := hsome a rfl
    obtain rfl : r' = r := hv.layout.eq_of_contains hr' hr ⟨hlo, hhi⟩ hcovers
    have hget : getVas a s = .ok (r', s) := getVas_eq_ok.2 ⟨har, rfl⟩
    dsimp only
    rw [bind_of_ok hget, hflags, if_neg (by decide), if_pos (by decide)]
    exact ⟨_, rfl⟩

/-- The page fault handler ends such an access in a panic. -/
theorem commitFault_nullPage {r : VMemoryAddressSpace} (hv : VmmOk s m v rs) (hr : r ∈ rs)
    (hflags : r.flags = vmmMemmapFlagNullpage) (hcovers : r.Covers va) (errPresent : Bool) :
    commitFault m va errPresent s = .error (.panic "Page fault when accessing address") := by
  obtain ⟨e, hrun⟩ := kvmmCommitPage_nullPage hv hr hflags hcovers
  rw [commitFault]
  cases errPresent with
  | true => rfl
  | false =>
    rw [if_pos rfl, bind_of_ok hrun]
    rfl

/-! ## The initial stack pointer -/

/-- What a program guarantees that leaves the stack and the register state of the process `p` where
they are. -/
def KeepsStack (p : Nat) (s s' : KState) : Prop :=
  HeapReady s → ∀ i, s.objs p = some (.proc i) → HeapReady s' ∧
    ∃ i', s'.objs p = some (.proc i') ∧ i'.stack = i.stack ∧ i'.registerStates = i.registerStates

instance : IsPreorder KState (KeepsStack p) where
  refl _ h i hp := ⟨h, i, hp, rfl, rfl⟩
  trans _ _ _ h₁ h₂ h i hp := by
    obtain ⟨hready, i', hp', hstack, hregs⟩ := h₁ h i hp
    obtain ⟨hready', j, hj, hstack', hregs'⟩ := h₂ hready i' hp'
    exact ⟨hready', j, hj, hstack'.trans hstack, hregs'.trans hregs⟩

/-- A program of the memory manager. -/
theorem Exec.Ensures.keepsStack {α : Type} {x : K α} (h : Ensures (VmFrame fun _ => False) x) :
    Ensures (KeepsStack p) x := by
  intro s _ s' hrun hready i hp
  have hstep := h _ _ _ hrun hready
  exact ⟨hstep.ready, i, proc_of_records (congrFun hstep.records p) hp, rfl, rfl⟩

/-- A program that may only commit pages. -/
theorem Exec.Fixes.keepsStack {α : Type} {x : K α} (h : Fixes nonCommit x) :
    Ensures (KeepsStack p) x :=
  h.vmFrame.keepsStack

/-- A change of any process that keeps the two fields. -/
theorem modifyProc_keepsStack {f : KProcessInfo → KProcessInfo} (q : Nat)
    (hf : ∀ i, (f i).stack = i.stack ∧ (f i).registerStates = i.registerStates) :
    Ensures (KeepsStack p) (modifyProc q f) := by
  intro s _ s' hrun hready i hp
  obtain ⟨j, hq, rfl⟩ := modifyProc_eq_ok.1 hrun
  refine ⟨hready.setObj (by simp [hq]), ?_⟩
  by_cases hpq : p = q
  · subst hpq
    obtain rfl : i = j := by simpa [hp] using hq
    exact ⟨f i, objs_setObj_self _, hf i⟩
  · exact ⟨i, (objs_setObj_of_ne _ hpq).trans hp, rfl, rfl⟩

/-- `s_setupProcessDataMemory`. -/
theorem sSetupProcessDataMemory_keepsStack :
    Ensures (KeepsStack p) (sSetupProcessDataMemory p) := by
  refine .bind (Fixes.getProc _).keepsStack fun _ => .ite ?_ ?_
  · refine .bind (modifyProc_keepsStack p fun _ => ⟨rfl, rfl⟩) fun _ => ?_
    refine .bind (Fixes.follow _).keepsStack fun _ => ?_
    refine .bind (kvmmMemmap_vmFrame _ _ _ _ _).keepsStack fun _ => ?_
    refine .bind (modifyProc_keepsStack p fun _ => ⟨rfl, rfl⟩) fun _ => .ite (.pure _) ?_
    exact .bind (kvmmSetAddressSpaceMetadata_fixes _ _).keepsStack fun _ => .pure _
  · refine .bind Fixes.get.keepsStack fun _ => .ite ?_ ?_
    · refine .bind Fixes.get.keepsStack fun _ => .bind (Fixes.getProc _).keepsStack fun _ => ?_
      exact .bind (modifyProc_keepsStack p fun _ => ⟨rfl, rfl⟩) fun _ => .pure _
    · exact .bind (modifyProc_keepsStack p fun _ => ⟨rfl, rfl⟩) fun _ => .pure _

/-- `list_remove` on the child list. -/
theorem childrenListRemove_keepsStack (q : Nat) :
    Ensures (KeepsStack p) (childrenListRemove q) := by
  refine .bind (Fixes.getProc _).keepsStack fun i => ?_
  cases i.childrenListNode with
  | null => exact .halt _
  | self => exact modifyProc_keepsStack _ fun _ => ⟨rfl, rfl⟩
  | linked r =>
    exact .bind (modifyProc_keepsStack _ fun _ => ⟨rfl, rfl⟩) fun _ => modifyProc_keepsStack _
      fun _ => ⟨rfl, rfl⟩

/-- `s_changeParentProcess`. -/
theorem changeParentProcess_keepsStack (q parent : Nat) :
    Ensures (KeepsStack p) (changeParentProcess q parent) := by
  refine .bind .get fun s => .bind (Fixes.kAssert _ _).keepsStack fun _ => ?_
  refine .bind (childrenListRemove_keepsStack _) fun _ =>
    .bind (Fixes.getProc _).keepsStack fun i => ?_
  refine .bind (modifyProc_keepsStack _ fun _ => ⟨rfl, rfl⟩) fun _ => ?_
  refine .bind (Fixes.follow _).keepsStack fun r => ?_
  exact .bind (modifyProc_keepsStack _ fun _ => ⟨rfl, rfl⟩) fun _ => modifyProc_keepsStack _
    fun _ => ⟨rfl, rfl⟩

/-- The new process gets its parent. -/
theorem enterFamily_keepsStack (q : Nat) : Ensures (KeepsStack p) (enterFamily q) := by
  refine .bind (modifyProc_keepsStack _ fun _ => ⟨rfl, rfl⟩) fun _ => .bind .get fun s => .ite ?_ ?_
  · exact .bind (Fixes.getProc _).keepsStack fun _ => (Fixes.kAssert _ _).keepsStack
  · refine .bind (changeParentProcess_keepsStack _ _) fun _ => ?_
    exact .bind (Fixes.getProc _).keepsStack fun _ => (Fixes.kAssert _ _).keepsStack

/-- Entering the process in the queue keeps the register state. -/
theorem sEnqueue_keepsRegs {x : Nat} {ok : Bool} {regs : ProcessRegisterState}
    (hx : s.objs x = some (.regs regs)) (hrun : sEnqueue p s = .ok (ok, s')) :
      s'.objs x = some (.regs regs) := by
  rw [sEnqueue, get_bind_apply] at hrun
  rcases ite_eq_ok.1 hrun with ⟨-, hrun⟩ | ⟨-, hrun⟩
  · obtain ⟨-, rfl⟩ := returnError_eq_ok.1 hrun
    exact hx
  · rw [modify_bind_apply] at hrun
    obtain ⟨_, s₁, hmodify, hrun⟩ := bind_eq_ok.1 hrun
    cases hrun
    obtain ⟨j, hj, rfl⟩ := modifyProc_eq_ok.1 hmodify
    refine (objs_setObj_of_ne _ fun heq => ?_).trans hx
    rw [heq] at hx
    exact absurd (hx.symm.trans hj) (by simp)

/-- The registers that `kprocess_create` sets are those for the stack in the record. -/
theorem linkProcess_registers {ok : Bool} (hready : HeapReady s) (hp : s.objs p = some (.proc i))
    (hrun : linkProcess p s = .ok (ok, s')) :
    ∃ j, j.stack = i.stack ∧ s'.objs i.registerStates = some (.regs (initialRegisters j)) := by
  rw [linkProcess_eq] at hrun
  obtain ⟨_, s₁, hfamily, hrun⟩ := bind_eq_ok.1 hrun
  obtain ⟨-, j, hj, hstack, hregs⟩ := enterFamily_keepsStack p _ _ _ hfamily hready i hp
  obtain ⟨j', hj', hrun⟩ := getProc_bind_eq_ok.1 hrun
  obtain rfl : j = j' := by simpa [hj] using hj'
  rw [hregs] at hrun
  obtain ⟨g, hg, hrun⟩ := getRegs_bind_eq_ok.1 hrun
  rw [modify_bind_apply] at hrun
  obtain ⟨_, s₂, hidle, hrun⟩ := bind_eq_ok.1 hrun
  obtain ⟨k, hk, rfl⟩ := modifyProc_eq_ok.1 hidle
  have hne : i.registerStates ≠ p := fun heq => by
    rw [heq] at hg
    exact absurd (hg.symm.trans hj) (by simp)
  refine ⟨j, hstack, sEnqueue_keepsRegs ?_ hrun⟩
  exact (objs_setObj_of_ne _ hne).trans (objs_setObj_self _)

/-- The address lies in the last page of a stack above the page at `va`. -/
def InLastPage (va esp : Nat) : Prop :=
  va + stackSizePages * pageFrameSizeBytes ≤ esp ∧
    esp < va + (stackSizePages + 1) * pageFrameSizeBytes

/-- The initial stack pointer of a process whose stack is above the page at `va`. -/
theorem initialRegisters_inLastPage {j : KProcessInfo}
    (hstack : j.stack = ⟨va + pageFrameSizeBytes, stackSizePages⟩) (hlt : va + 66 * 4096 < 2 ^ 32) :
    InLastPage va (initialRegisters j).esp := by
  have hesp : (initialRegisters j).esp =
      u32Sub (va + pageFrameSizeBytes + u32 (stackSizePages * pageFrameSizeBytes)) 1 := by
    rw [initialRegisters, hstack]
  rw [InLastPage, hesp, stackSizePages_eq]
  simp only [pageFrameSizeBytes, u32, u32Sub]
  omega

/-- `kprocess_create` sets up the stack of the process at `p` in the state `s`. -/
def ReachesStack (addr len flags : Nat) (fresh : FreshMemory) (t : KState) (p : Nat) (s : KState) :
    Prop :=
  ∃ s₁ s₂, sProcessInfoMalloc flags fresh t = .ok (p, s₁) ∧
    sCreateProcessPageDirectory p fresh s₁ = .ok (true, s₂) ∧
      sSetupProcessBinaryMemory addr len p s₂ = .ok (true, s)

/-- Behind the set-up of the stack come that of the data and `linkProcess`. -/
theorem ReachesStack.rest {addr len flags q : Nat} {fresh : FreshMemory} {t t' : KState}
    (hreach : ReachesStack addr len flags fresh t p s)
    (hstack : sSetupProcessStackMemory p s = .ok (true, s'))
    (hrun : setupProcess addr len flags fresh t = .ok ((q, true), t')) :
    ∃ s₁, sSetupProcessDataMemory p s' = .ok (true, s₁) ∧ linkProcess p s₁ = .ok (true, t') := by
  obtain ⟨t₁, t₂, hmalloc, hdirectory, hbinary⟩ := hreach
  rw [setupProcess, bind_of_ok hmalloc] at hrun
  rcases ite_eq_ok.1 hrun with ⟨-, hrun⟩ | ⟨-, hrun⟩
  · cases hrun
  rw [bind_of_ok hdirectory, if_neg Bool.true_eq_false.mp, bind_of_ok hbinary,
    if_neg Bool.true_eq_false.mp,
    bind_of_ok hstack, if_neg Bool.true_eq_false.mp] at hrun
  obtain ⟨ok, s₁, hdata, hrun⟩ := bind_eq_ok.1 hrun
  rcases ite_eq_ok.1 hrun with ⟨-, hrun⟩ | ⟨hok, hrun⟩
  · cases hrun
  obtain ⟨ok', s₂, hlink, hrun⟩ := bind_eq_ok.1 hrun
  cases hrun
  obtain rfl : ok = true := Bool.eq_true_of_not_eq_false hok
  exact ⟨s₁, hdata, hlink⟩

/-- When `kprocess_create` succeeds, the initial stack pointer is that for the stack it has set
up. -/
theorem StackReady.inLastPage {addr len flags pid : Nat} {fresh : FreshMemory} {t t' : KState}
    (h : StackReady p m va i v rs s s') (hlt : va + 66 * 4096 < 2 ^ 32)
    (hstack : sSetupProcessStackMemory p s = .ok (true, s'))
    (hreach : ReachesStack addr len flags fresh t p s)
    (hcreate : kprocessCreate addr len flags fresh t = .ok (some pid, t')) :
    ∃ regs, t'.objs i.registerStates = some (.regs regs) ∧ InLastPage va regs.esp := by
  obtain ⟨q, hsetup⟩ := setupProcess_of_created hcreate
  obtain ⟨s₁, hdata, hlink⟩ := hreach.rest hstack hsetup
  obtain ⟨hready, j, hj, hstackj, hregs⟩ := sSetupProcessDataMemory_keepsStack _ _ _ hdata
    h.ready _ h.proc
  obtain ⟨k, hk, hobj⟩ := linkProcess_registers hready hj hlink
  rw [hregs] at hobj
  exact ⟨_, hobj, initialRegisters_inLastPage (hk.trans hstackj) hlt⟩

/-- No page fault at an address in the page at `g`, which is never committed, takes a page frame. -/
def GuardPage (m g : Nat) : Prop :=
  ∀ t v rs addr errPresent, VmmOk t m v rs → reservedVas g 1 vmmMemmapFlagNullpage ∈ rs →
    g ≤ addr → addr < g + pageFrameSizeBytes →
      (∃ e, kvmmCommitPage m addr t = .ok (false, { t with errorNumber := e })) ∧
        commitFault m addr errPresent t = .error (.panic "Page fault when accessing address")

/-- No process commits the guard pages. -/
theorem guardPage (m g : Nat) : GuardPage m g := by
  intro t v rs addr errPresent hv hmem hlo hhi
  have hcovers : (reservedVas g 1 vmmMemmapFlagNullpage).Covers addr := by
    refine ⟨hlo, ?_⟩
    rw [reservedVas, Nat.one_mul]
    exact hhi
  exact ⟨kvmmCommitPage_nullPage hv hmem rfl hcovers, commitFault_nullPage hv hmem rfl
    hcovers errPresent⟩

/-- Given memory, the stack of a process is set up if and only if there is room for it and a page on
either side: then its address space is a new one between two that are never committed, and the
initial stack pointer lies in its last page. -/
theorem sSetupProcessStackMemory_iff (hready : HeapReady s) (hproc : s.objs p = some (.proc i))
    (hctx : i.context = .addr m) (hc : ContextOk s m v rs)
    (hmem : ∀ va, va ≠ 0 → kvmmFindFree m (stackSizePages + 2) s = .ok (va, s) →
      StackMemory p m va (stackFlags i) v.parentProcessPD s) :
    ∃ va ok s', kvmmFindFree m (stackSizePages + 2) s = .ok (va, s) ∧
      sSetupProcessStackMemory p s = .ok (ok, s') ∧ (ok = true ↔ va ≠ 0) ∧
      (va ≠ 0 ↔ ∃ a, PageRoom v rs (stackSizePages + 2) a) ∧
      (ok = true → StackReady p m va i v rs s s' ∧ GuardPage m va ∧
        GuardPage m (va + (stackSizePages + 1) * pageFrameSizeBytes) ∧
        ∀ addr len flags fresh t t' pid, ReachesStack addr len flags fresh t p s →
          kprocessCreate addr len flags fresh t = .ok (some pid, t') →
            ∃ regs, t'.objs i.registerStates = some (.regs regs) ∧ InLastPage va regs.esp) := by
  obtain ⟨va, hfind, hleast, hnone⟩ := hc.findFree hready
  rcases eq_or_ne va 0 with rfl | hne
  · obtain ⟨s', hrun⟩ := sSetupProcessStackMemory_noRoom hproc hctx hc hfind
    exact ⟨0, false, s', hfind, hrun, by simp, by simpa using hnone rfl, nofun⟩
  · have hroom : PageRoom v rs (stackSizePages + 2) va := (hleast hne).1
    obtain ⟨s', hrun, hset⟩ := sSetupProcessStackMemory_ready hready hproc hctx hc hfind hne hroom
      (hmem va hne hfind)
    have hlt : va + 66 * 4096 < 2 ^ 32 := by
      have hupper := hroom.2.upper
      rw [stackSizePages_eq] at hupper
      exact Nat.lt_of_le_of_lt hupper hc.end_lt
    refine ⟨va, true, s', hfind,
      hrun, by simp [hne], ⟨fun _ => ⟨va, hroom⟩, fun _ => hne⟩, fun _ => ?_⟩
    exact ⟨hset, guardPage m _, guardPage m _, fun _ _ _ _ _ _ _ hreach hcreate =>
      hset.inLastPage hlt hrun hreach hcreate⟩

/-- The heap is ready when the stack of a process, not of a thread, is set up. -/
theorem ReachesStack.heapReady {addr len flags : Nat} {fresh : FreshMemory} {t : KState}
    (h : ReachesStack addr len flags fresh t p s) (hready : HeapReady t)
    (hcount : t.processCount < maxProcessCount)
    (hthread : bitIsSet flags processFlagsThread = false) (hne : p ≠ 0) : HeapReady s := by
  obtain ⟨s₁, s₂, hmalloc, hdirectory, hbinary⟩ := h
  rcases sProcessInfoMalloc_spec hready hcount hmalloc with ⟨hzero, -⟩ | ⟨r, hbuilt⟩
  · exact absurd hzero hne
  have hflags : (s₁.info p).flags = flags := hbuilt.fields.2.2.1
  obtain ⟨context, hset, -⟩ := sCreateProcessPageDirectory_spec hbuilt.outside.ready hbuilt.proc
    (fun ht => by
      rw [KProcessInfo.isThread, hflags, hthread] at ht
      cases ht) hdirectory
  have hbuilt₂ := hbuilt.contextSet hset
  exact (sSetupProcessBinaryMemory_setupFrame _ _ _ _ _ hbinary hset.ready hbuilt₂.proc).ready

/-- The record of the first process of the small machine. -/
def smallMachineRoot : Nat := 0xC0047020

/-- The manager of its context. -/
def smallMachineRootVmm : Nat := 0xC00470D4

/-- The small machine when the first process has a record. -/
def smallMachineRecord : KState :=
  (sProcessInfoMalloc 0 zeroedMemory).finalState smallMachineReady

/-- The first process has a context. -/
def smallMachineContext : KState :=
  (sCreateProcessPageDirectory smallMachineRoot zeroedMemory).finalState smallMachineRecord

/-- The memory for its binary is reserved. -/
def smallMachineBinary : KState :=
  (sSetupProcessBinaryMemory 0xC0000000 100 smallMachineRoot).finalState smallMachineContext

set_option maxRecDepth 100000 in
/-- `kprocess_create` reaches the stack. -/
theorem smallMachineBinary_reaches :
    ReachesStack 0xC0000000 100 0 zeroedMemory smallMachineReady smallMachineRoot
      smallMachineBinary := by
  obtain ⟨hmalloc, hdirectory, hbinary⟩ :
      (sProcessInfoMalloc 0 zeroedMemory smallMachineReady).map Prod.fst = .ok smallMachineRoot ∧
      (sCreateProcessPageDirectory smallMachineRoot zeroedMemory smallMachineRecord).map
        Prod.fst = .ok true ∧
      (sSetupProcessBinaryMemory 0xC0000000 100 smallMachineRoot smallMachineContext).map
        Prod.fst = .ok true := by
    decide +kernel
  exact ⟨smallMachineRecord, smallMachineContext, eq_ok_of_value hmalloc,
    eq_ok_of_value hdirectory, eq_ok_of_value hbinary⟩

set_option maxRecDepth 100000 in
/-- The records of the first process, and where there is room for its stack. -/
theorem smallMachineBinary_values :
    smallMachineBinary.objs smallMachineRootVmm =
      some (.vmm ⟨memStartProcessMemory, memEndProcessMemory, false, 72 * 4096, true,
        .pmmRegionAny, [0xC0047110]⟩) ∧
    smallMachineBinary.objs 0xC0047110 =
      some (.vas ⟨false, vmmMemmapFlagImmcommit, 0x10000, 0x1000, 0⟩) ∧
    smallMachineBinary.objs smallMachineRoot =
      some (.proc (smallMachineBinary.info smallMachineRoot)) ∧
    (smallMachineBinary.info smallMachineRoot).context = .addr smallMachineRootVmm ∧
    stackFlags (smallMachineBinary.info smallMachineRoot) = vmmMemmapFlagNone ∧
    (kvmmFindFree smallMachineRootVmm (stackSizePages + 2) smallMachineBinary).map Prod.fst =
      .ok 0x11000 := by
  decide +kernel

/-- The only address space is that of the binary. -/
theorem smallMachineBinary_contextOk : ContextOk smallMachineBinary smallMachineRootVmm
    ⟨memStartProcessMemory, memEndProcessMemory, false, 72 * 4096, true,
      .pmmRegionAny, [0xC0047110]⟩
    [⟨false, vmmMemmapFlagImmcommit, 0x10000, 0x1000, 0⟩] := by
  obtain ⟨hvmm, hvas, -⟩ := smallMachineBinary_values
  refine .of_range ⟨hvmm, .cons hvas .nil, by simp, ⟨by simp, ?_, ?_, ?_⟩, ?_, ?_, by decide⟩
    (.inl ⟨rfl, rfl⟩)
  all_goals
    intro r hr
    obtain rfl := List.mem_singleton.1 hr
    decide

/-- What a program leaves of the heap is enough for a reservation that is not committed at once. -/
theorem ReservationMemory.of_value {before : K Unit} (x : Nat) (hrun : before s = .ok ((), s₁))
    (hflags : bitIsSet flags vmmMemmapFlagImmcommit = false) (hne : x ≠ 0)
    (hvalue : (kmalloc sizeofVMemoryAddressSpace (before.finalState s)).map Prod.fst = .ok x) :
    ReservationMemory pd va n flags s₁ := by
  rw [finalState, hrun] at hvalue
  refine ⟨x, _, eq_ok_of_value hvalue, hne, fun hset => ?_⟩
  rw [hflags] at hset
  cases hset

set_option maxRecDepth 100000 in
/-- There is memory enough for it. -/
theorem smallMachineBinary_stackMemory {pd : Nat} :
    StackMemory smallMachineRoot smallMachineRootVmm 0x11000
    vmmMemmapFlagNone pd smallMachineBinary where
  bottom _ hrun := .of_value 0xC004715C hrun (by decide) (by decide) (by decide +kernel)
  stack _ hrun := .of_value 0xC00471A8 hrun (by decide) (by decide) (by decide +kernel)
  top _ hrun := .of_value 0xC00471F4 hrun (by decide) (by decide) (by decide +kernel)

set_option maxRecDepth 100000 in
/-- The stack of the first process lies behind its binary. -/
theorem sSetupProcessStackMemory_iff_root : ∃ v rs i s' regs,
    sSetupProcessStackMemory smallMachineRoot smallMachineBinary = .ok (true, s') ∧
      StackReady smallMachineRoot smallMachineRootVmm 0x11000 i v rs smallMachineBinary s' ∧
      ((kprocessCreate 0xC0000000 100 0 zeroedMemory).finalState smallMachineReady).objs
        i.registerStates =
        some (.regs regs) ∧ InLastPage 0x11000 regs.esp := by
  have hready : HeapReady smallMachineBinary :=
    smallMachineBinary_reaches.heapReady (booted_live smallMachineReady_booted).procs.ready
      (by decide +kernel) (by decide) (by decide)
  obtain ⟨-, -, hproc, hctx, hflags, hfound⟩ := smallMachineBinary_values
  have hcreate := eq_ok_of_value (x := kprocessCreate 0xC0000000 100 0 zeroedMemory)
    (s := smallMachineReady)
    (a := some 1) (by decide +kernel)
  obtain ⟨va, ok, s', hfind, hrun, hok, -, hset⟩ := sSetupProcessStackMemory_iff hready hproc hctx
    smallMachineBinary_contextOk fun va _ hfind => by
      rw [hfind] at hfound
      cases hfound
      rw [hflags]
      exact smallMachineBinary_stackMemory
  rw [hfind] at hfound
  cases hfound
  obtain rfl := hok.2 (by decide)
  obtain ⟨hstack, -, -, hesp⟩ := hset rfl
  obtain ⟨regs, hregs, hlast⟩ := hesp _ _ _ _ _ _ _ smallMachineBinary_reaches hcreate
  exact ⟨_, _, _, s', regs, hrun, hstack, hregs, hlast⟩

end MeghaOS
