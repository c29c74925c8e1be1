import MeghaOS.Proof.GBooted
import MeghaOS.Proof.HeapRun

/-!
# The grid of windows

`kcompose_createWindow` puts the window into the cell of the number of calls made so far. Over every
run no two live windows have the same cell and each lies inside the back buffer. The counter never
goes down, so a call fails for lack of a cell, with cells free, once the counter is full and fewer
windows are live: this needs a window destroyed after the fourth call, or a call among the first
four that left no window.
-/

namespace MeghaOS

open Exec KState

variable {s s' : GState} {win title : Nat} {cells : List Nat}

/-! ## Calls -/

/-- A call of the compositor. -/
inductive GridCall
  | create (title : Nat)
  | destroy (win : Nat)

/-- Run a call, without its result. -/
def GridCall.exec : GridCall → G Unit
  | create title => do let _ ← kcomposeCreateWindow title
  | destroy win => do let _ ← kcomposeDestroyWindow win

/-- There is memory for a window: the part of `kcompose_createWindow` after the check of the grid
makes one. -/
def MemoryPermits (s : GState) (title : Nat) : Prop :=
  ∃ win s', win ≠ 0 ∧ createInCell title s = .ok (win, s')

/-- The fourth call that creates a window makes the fourth live window, and no window is destroyed
after it. -/
def GridCall.Fits (s : GState) : GridCall → Prop
  | create title => s.windowCount + 1 = winmanGridCellCount →
      s.windowsListHead.length + 1 = winmanGridCellCount ∧ MemoryPermits s title
  | destroy _ => s.windowCount < winmanGridCellCount

/-- The rest of the kernel ran: it left the windows as they were. -/
structure WindowsKept (s s' : GState) : Prop where
  phase : s'.kernel.phase = s.kernel.phase
  ready : HeapReady s'.kernel
  windowsListHead : s'.windowsListHead = s.windowsListHead
  windowCount : s'.windowCount = s.windowCount
  gxBackfb : s'.gxBackfb = s.gxBackfb
  window : ∀ win w, s'.kernel.objs win = some (.window w) ↔ s.kernel.objs win = some (.window w)

/-- The runs of the compositor since `kernel_main`, whose calls all satisfy a condition. -/
inductive GridRun (P : GState → GridCall → Prop) : GState → Prop
  | booted {s : GState} : GBooted s → GridRun P s
  | call {c : GridCall} {s s' : GState} :
      GridRun P s → P s c → c.exec s = .ok ((), s') → GridRun P s'
  | other {s s' : GState} : GridRun P s → WindowsKept s s' → GridRun P s'

/-! ## Cells -/

/-- The window at an address is placed in the cell with this index. -/
def InCell (s : GState) (win cell : Nat) : Prop :=
  ∃ w, s.kernel.objs win = some (.window w) ∧
    w.screenX = winmanGridCellX s.gxBackfb (winmanGridCellCol cell) ∧
    w.screenY = winmanGridCellY s.gxBackfb (winmanGridCellRow cell)

/-- The rectangle of a window lies inside the back buffer. -/
def InsideBackBuffer (s : GState) (w : Window) : Prop :=
  w.screenX + w.windowArea.widthPx ≤ s.gxBackfb.widthPx ∧
    w.screenY + w.windowArea.heightPx ≤ s.gxBackfb.heightPx

/-- The live windows have different cells of the grid, each lies inside the back buffer, and with
memory a window is created whenever fewer windows are live than there are cells. -/
structure GridOk (s : GState) : Prop where
  cells : ∃ cells, List.Forall₂ (InCell s) s.windowsListHead cells ∧ cells.Nodup ∧
    ∀ c ∈ cells, c < winmanGridCellCount
  inside : ∀ win ∈ s.windowsListHead, ∃ w, s.kernel.objs win = some (.window w) ∧
    InsideBackBuffer s w
  creates : s.windowsListHead.length < winmanGridCellCount → ∀ title, MemoryPermits s title →
    ∃ win s', win ≠ 0 ∧ kcomposeCreateWindow title s = .ok (win, s')

/-! ## The invariant -/

/-- A live window was made in the cell with this index. -/
def MadeInCell (s : GState) (win cell : Nat) : Prop :=
  ∃ processID buffer, s.kernel.objs win =
    some (.window (windowInCell s.gxBackfb processID cell buffer))

/-- What every run of the compositor keeps. -/
structure GridInv (s : GState) : Prop where
  phase : s.kernel.phase = .kernelReady
  windows : WindowsOk s
  widthPx : s.gxBackfb.widthPx < 2 ^ 16
  heightPx : s.gxBackfb.heightPx < 2 ^ 16
  cells : ∃ cells, List.Forall₂ (MadeInCell s) s.windowsListHead cells ∧ cells.Nodup ∧
    ∀ c ∈ cells, c < s.windowCount
  count : s.windowCount ≤ winmanGridCellCount

/-- The counter is not full, or every cell has its window. -/
def Counted (s : GState) : Prop :=
  s.windowCount < winmanGridCellCount ∨ winmanGridCellCount ≤ s.windowsListHead.length

/-- A cell in the first or the second column, or row, ends inside. -/
theorem cell_end_le {size i : Nat} (hi : i ≤ 1) (hsize : size < 2 ^ 16) :
    u32 (size / 2 * i) + size / 2 ≤ size := by
  rcases Nat.le_one_iff_eq_zero_or_eq_one.1 hi with rfl | rfl
  · rw [Nat.mul_zero, show u32 0 = 0 from rfl]
    omega
  · rw [Nat.mul_one, u32, Nat.mod_eq_of_lt (by omega)]
    omega

/-- A window in a cell of the grid lies inside the back buffer. -/
theorem windowInCell_inside {processID cell buffer : Nat} (hwidth : s.gxBackfb.widthPx < 2 ^ 16)
    (hheight : s.gxBackfb.heightPx < 2 ^ 16) (hcell : cell < winmanGridCellCount) :
    InsideBackBuffer s (windowInCell s.gxBackfb processID cell buffer) := by
  have hcol : winmanGridCellCol cell ≤ 1 := Nat.le_of_lt_succ (Nat.mod_lt _ (by decide))
  have hrow : winmanGridCellRow cell ≤ 1 := Nat.le_of_lt_succ (Nat.div_lt_of_lt_mul hcell)
  exact ⟨cell_end_le hcol hwidth, cell_end_le hrow hheight⟩

/-- A step that keeps the windows. -/
theorem WindowsOk.kept (h : WindowsOk s) (hk : WindowsKept s s') : WindowsOk s' where
  ready := hk.ready
  nodup := hk.windowsListHead ▸ h.nodup
  listed win w hw := hk.windowsListHead ▸ h.listed win w ((hk.window win w).1 hw)
  record win hwin := by
    obtain ⟨w, hw, hrest⟩ := h.record win (hk.windowsListHead ▸ hwin)
    exact ⟨w, (hk.window win w).2 hw, hrest⟩

namespace GridInv

/-- What is kept of a window that was made in a cell. -/
theorem cells_congr {l : List Nat} (h : List.Forall₂ (MadeInCell s) l cells)
    (hgx : s'.gxBackfb = s.gxBackfb)
    (hwindow : ∀ win ∈ l, ∀ w, s.kernel.objs win = some (.window w) →
      s'.kernel.objs win = some (.window w)) : List.Forall₂ (MadeInCell s') l cells := by
  induction h with
  | nil => exact .nil
  | @cons win cell l cells hmade _ ih =>
    obtain ⟨processID, buffer, hw⟩ := hmade
    refine .cons ⟨processID, buffer, ?_⟩ (ih fun a ha => hwindow a (.tail _ ha))
    rw [hgx]
    exact hwindow win List.mem_cons_self _ hw

/-- There is no window at the start. -/
theorem booted (h : GBooted s) : GridInv s := by
  have hready := gbooted_ready h
  have hnone : ∀ a w, s.kernel.objs a ≠ some (.window w) := fun a w hw => by
    have hvm := records_eq_none.1 (hready.records a) _ hw
    cases hvm
  refine ⟨hready.phase, ⟨hready.ready, ?_, fun a w hw => absurd hw (hnone a w), ?_⟩, hready.widthPx,
    hready.heightPx, ⟨[], ?_, .nil, by simp⟩, ?_⟩
  · rw [hready.windowsListHead]
    exact .nil
  · simp [hready.windowsListHead]
  · rw [hready.windowsListHead]
    exact .nil
  · rw [hready.windowCount]
    decide

/-- A step that keeps the windows. -/
theorem kept (h : GridInv s) (hk : WindowsKept s s') : GridInv s' where
  phase := hk.phase.trans h.phase
  windows := h.windows.kept hk
  widthPx := hk.gxBackfb ▸ h.widthPx
  heightPx := hk.gxBackfb ▸ h.heightPx
  cells := by
    obtain ⟨cells, hcells, hnodup, hlt⟩ := h.cells
    refine ⟨cells, ?_, hnodup, hk.windowCount ▸ hlt⟩
    rw [hk.windowsListHead]
    exact cells_congr hcells hk.gxBackfb fun win _ w => (hk.window win w).2
  count := hk.windowCount ▸ h.count

/-- The count after a call that was not refused. -/
theorem count_succ (h : GridInv s) (hne : s.windowCount ≠ winmanGridCellCount) :
    u32 (s.windowCount + 1) = s.windowCount + 1 ∧ s.windowCount < winmanGridCellCount := by
  have hlt := Nat.lt_of_le_of_ne h.count hne
  have hsmall : winmanGridCellCount < 2 ^ 32 := by decide
  exact ⟨Nat.mod_eq_of_lt (by omega), hlt⟩

/-- A call that finds no memory only counts. -/
theorem failed (h : GridInv s) (hne : s.windowCount ≠ winmanGridCellCount)
    (hstep : VmStep (fun _ => False) s.kernel s'.kernel)
    (heq : s' = { s with kernel := s'.kernel, windowCount := u32 (s.windowCount + 1) }) :
    GridInv s' := by
  obtain ⟨hsucc, hlt⟩ := h.count_succ hne
  have hgx : s'.gxBackfb = s.gxBackfb := by rw [heq]
  have hlist : s'.windowsListHead = s.windowsListHead := by rw [heq]
  have hcount : s'.windowCount = s.windowCount + 1 :=
    (congrArg GState.windowCount heq).trans hsucc
  obtain ⟨cells, hcells, hnodup, hcell⟩ := h.cells
  refine ⟨(congrArg Globals.phase hstep.globals).trans h.phase,
    h.windows.congr hstep.ready hlist hstep.records, hgx ▸ h.widthPx, hgx ▸ h.heightPx,
    ⟨cells, ?_, hnodup, fun c hc => ?_⟩, by omega⟩
  · rw [hlist]
    exact cells_congr hcells hgx fun win _ w => (window_of_records (congrFun hstep.records win)).2
  · have := hcell c hc
    omega

/-- A new window takes a free cell. -/
theorem created (h : GridInv s) (hne : s.windowCount ≠ winmanGridCellCount)
    (hnew : Created s s' win) : GridInv s' := by
  obtain ⟨hsucc, hlt⟩ := h.count_succ hne
  have hgx : s'.gxBackfb = s.gxBackfb := by rw [hnew.eq]
  have hlist : s'.windowsListHead = win :: s.windowsListHead := by rw [hnew.eq]
  have hcount : s'.windowCount = s.windowCount + 1 :=
    (congrArg GState.windowCount hnew.eq).trans hsucc
  have hwindows := h.windows.created hnew
  have hnotMem : win ∉ s.windowsListHead := by
    have hnodup := hwindows.nodup
    rw [hlist] at hnodup
    exact (List.nodup_cons.1 hnodup).1
  obtain ⟨cells, hcells, hnodup, hcell⟩ := h.cells
  refine ⟨(congrArg Globals.phase hnew.step.globals).trans h.phase, hwindows, hgx ▸ h.widthPx,
    hgx ▸ h.heightPx, ⟨s.windowCount :: cells, ?_, ?_, fun c hc => ?_⟩, by omega⟩
  · rw [hlist]
    refine .cons ?_ (cells_congr hcells hgx fun a ha w => ?_)
    · obtain ⟨processID, buffer, hrec⟩ := hnew.record
      refine ⟨processID, buffer, ?_⟩
      rw [hgx]
      exact hrec
    · have haw : a ≠ win := fun heq => hnotMem (heq ▸ ha)
      exact (window_of_records (hnew.step.records a haw)).2
  · exact List.nodup_cons.2 ⟨fun hmem => Nat.lt_irrefl _ (hcell _ hmem), hnodup⟩
  · rcases List.mem_cons.1 hc with rfl | hc
    · omega
    · have := hcell c hc
      omega

/-- The cells of the windows that are left when one is destroyed. -/
theorem cells_erase {l : List Nat} {R : Nat → Nat → Prop} (h : List.Forall₂ R l cells) (win : Nat) :
    ∃ cells', List.Forall₂ R (l.erase win) cells' ∧ cells'.Sublist cells := by
  induction h with
  | nil => exact ⟨[], .nil, List.Sublist.refl _⟩
  | @cons a cell l cells har hrest ih =>
    by_cases ha : a = win
    · rw [ha, List.erase_cons_head]
      exact ⟨cells, hrest, List.sublist_cons_self _ _⟩
    · obtain ⟨cells', h', hsub⟩ := ih
      rw [List.erase_cons_tail (by simpa using ha)]
      exact ⟨cell :: cells', .cons har h', hsub.cons_cons _⟩

/-- A window that is destroyed leaves its cell. -/
theorem destroyed (h : GridInv s) (hnone : s'.kernel.objs win = none)
    (hstep : RecordStep win s.kernel s'.kernel)
    (heq : s' = { s with kernel := s'.kernel, windowsListHead := s.windowsListHead.erase win }) :
    GridInv s' := by
  have hgx : s'.gxBackfb = s.gxBackfb := by rw [heq]
  have hlist : s'.windowsListHead = s.windowsListHead.erase win := by rw [heq]
  have hcount : s'.windowCount = s.windowCount := by rw [heq]
  obtain ⟨cells, hcells, hnodup, hcell⟩ := h.cells
  obtain ⟨cells', hcells', hsub⟩ := cells_erase hcells win
  refine ⟨(congrArg Globals.phase hstep.globals).trans h.phase,
    h.windows.destroyed hnone hstep hlist,
    hgx ▸ h.widthPx, hgx ▸ h.heightPx, ⟨cells', ?_, hnodup.sublist hsub, fun c hc => ?_⟩,
    hcount ▸ h.count⟩
  · rw [hlist]
    refine cells_congr hcells' hgx fun a ha w => ?_
    have haw := (h.windows.nodup.mem_erase_iff.1 ha).1
    exact (window_of_records (hstep.records a haw)).2
  · rw [hcount]
    exact hcell c (hsub.subset hc)

/-- Whatever is called, the cells of the live windows differ and each lies inside. -/
theorem call (h : GridInv s) {c : GridCall} (hrun : c.exec s = .ok ((), s')) : GridInv s' := by
  cases c with
  | create title =>
    obtain ⟨win, s₁, hcall, hrest⟩ := bind_eq_ok.1 hrun
    cases hrest
    obtain ⟨-, hcall⟩ := kcomposeCreateWindow_eq_ok.1 hcall
    by_cases hfull : s.windowCount = winmanGridCellCount
    · rw [if_pos hfull] at hcall
      cases hcall
      exact h.kept ⟨rfl, h.windows.ready.of_nonCommit rfl, rfl, rfl, rfl, fun _ _ => Iff.rfl⟩
    · rw [if_neg hfull] at hcall
      rcases createInCell_spec h.windows.ready hcall with ⟨-, hstep, heq⟩ | hnew
      · exact h.failed hfull hstep heq
      · exact h.created hfull hnew
  | destroy win =>
    obtain ⟨ok, s₁, hcall, hrest⟩ := bind_eq_ok.1 hrun
    cases hrest
    obtain ⟨-, -, hnone, hstep, heq⟩ := kcomposeDestroyWindow_spec h.windows hcall
    exact h.destroyed hnone hstep heq

/-- With memory, a window is created unless the counter is full. -/
theorem creates (h : GridInv s) (hne : s.windowCount ≠ winmanGridCellCount)
    (hmem : MemoryPermits s title) :
    ∃ win s', win ≠ 0 ∧ kcomposeCreateWindow title s = .ok (win, s') := by
  obtain ⟨win, s', hwin, hcell⟩ := hmem
  refine ⟨win, s', hwin, kcomposeCreateWindow_eq_ok.2 ⟨by rw [h.phase]; rfl, ?_⟩⟩
  rwa [if_neg hne]

/-- With the count right, a window can be made while there is a free cell. -/
theorem gridOk (h : GridInv s) (hcounted : Counted s) : GridOk s where
  cells := by
    obtain ⟨cells, hcells, hnodup, hcell⟩ := h.cells
    refine ⟨cells, hcells.imp fun win cell hmade => ?_, hnodup, fun c hc => ?_⟩
    · obtain ⟨processID, buffer, hw⟩ := hmade
      exact ⟨_, hw, rfl, rfl⟩
    · exact Nat.lt_of_lt_of_le (hcell c hc) h.count
  inside win hwin := by
    obtain ⟨cells, hcells, -, hcell⟩ := h.cells
    obtain ⟨i, hi, rfl⟩ := List.getElem_of_mem hwin
    have hlen := hcells.length_eq
    obtain ⟨processID, buffer, hw⟩ := (List.forall₂_iff_get.1 hcells).2 i hi (by omega)
    refine ⟨_, hw, windowInCell_inside h.widthPx h.heightPx ?_⟩
    exact Nat.lt_of_lt_of_le (hcell _ (List.get_mem _ _)) h.count
  creates hfew title hmem := by
    refine h.creates (fun hfull => ?_) hmem
    rcases hcounted with hcount | hlive
    · omega
    · omega

end GridInv

/-! ## Runs -/

/-- The invariant holds at the end of every run. -/
theorem GridRun.inv {P : GState → GridCall → Prop} (h : GridRun P s) : GridInv s := by
  induction h with
  | booted hbooted => exact .booted hbooted
  | call _ _ hrun ih => exact ih.call hrun
  | other _ hk ih => exact ih.kept hk

/-- A call that fits leaves the counter below the number of cells, or every cell with its window. -/
theorem Counted.call (h : Counted s) (hinv : GridInv s) {c : GridCall} (hfits : c.Fits s)
    (hrun : c.exec s = .ok ((), s')) : Counted s' := by
  cases c with
  | create title =>
    obtain ⟨win, s₁, hcall, hrest⟩ := bind_eq_ok.1 hrun
    cases hrest
    obtain ⟨-, hcall⟩ := kcomposeCreateWindow_eq_ok.1 hcall
    by_cases hfull : s.windowCount = winmanGridCellCount
    · rw [if_pos hfull] at hcall
      cases hcall
      exact h
    rw [if_neg hfull] at hcall
    obtain ⟨hsucc, hlt⟩ := hinv.count_succ hfull
    by_cases hlast : s.windowCount + 1 = winmanGridCellCount
    · obtain ⟨hlive, win', s₂, hwin', hcell⟩ := hfits hlast
      rw [hcell] at hcall
      cases hcall
      rcases createInCell_spec hinv.windows.ready hcell with ⟨hzero, -⟩ | hnew
      · exact absurd hzero hwin'
      · rw [Counted, hnew.eq]
        exact .inr (Nat.le_of_eq hlive.symm)
    · have hcount : s'.windowCount = s.windowCount + 1 := by
        rcases createInCell_spec hinv.windows.ready hcall with ⟨-, -, heq⟩ | hnew
        · exact (congrArg GState.windowCount heq).trans hsucc
        · exact (congrArg GState.windowCount hnew.eq).trans hsucc
      exact .inl (by omega)
  | destroy win =>
    obtain ⟨ok, s₁, hcall, hrest⟩ := bind_eq_ok.1 hrun
    cases hrest
    obtain ⟨-, -, -, -, heq⟩ := kcomposeDestroyWindow_spec hinv.windows hcall
    refine .inl ?_
    rw [heq]
    exact hfits

/-- The count is right when every call fits. -/
theorem GridRun.counted (h : GridRun GridCall.Fits s) : Counted s := by
  induction h with
  | booted hbooted =>
    refine .inl ?_
    rw [(gbooted_ready hbooted).windowCount]
    decide
  | call hprev hfits hrun ih => exact ih.call hprev.inv hfits hrun
  | other _ hk ih => rwa [Counted, hk.windowCount, hk.windowsListHead]

/-- After every run whose calls all fit, no two live windows have the same cell, each lies inside
the back buffer, and with memory a window is created whenever a cell is free. -/
theorem grid_run_ok (h : GridRun GridCall.Fits s) : GridOk s := h.inv.gridOk h.counted

/-! ## Runs of a small screen -/

/-- Run a list of calls, and return how many windows are counted before each of them. -/
def execAll : List GridCall → G (List Nat)
  | [] => return []
  | c :: cs => do
    let count := (← get).windowCount
    c.exec
    return count :: (← execAll cs)

/-- A list of calls is a run. -/
theorem GridRun.calls {P : GState → GridCall → Prop} {cs : List GridCall} {counts : List Nat}
    (h : GridRun P s) (hP : ∀ t c, t.windowCount ∈ counts → P t c)
    (hrun : execAll cs s = .ok (counts, s')) : GridRun P s' := by
  induction cs generalizing s counts with
  | nil =>
    cases hrun
    exact h
  | cons c cs ih =>
    rw [execAll, get_bind_apply] at hrun
    obtain ⟨_, s₁, hcall, hrest⟩ := bind_eq_ok.1 hrun
    obtain ⟨rest, s₂, hcalls, hrest⟩ := bind_eq_ok.1 hrest
    cases hrest
    exact ih (h.call (hP s c (.head _)) hcall) (fun t c ht => hP t c (.tail _ ht)) hcalls

/-- A call fits when there is room for two windows more. -/
theorem GridCall.fits_of_room {c : GridCall} (h : s.windowCount + 1 < winmanGridCellCount) :
    c.Fits s := by
  cases c with
  | create title => exact fun hlast => absurd hlast (Nat.ne_of_lt h)
  | destroy win => exact Nat.lt_of_succ_lt h

/-- Two windows are created, the first of them is destroyed, and another one is created. -/
def gridReusedRun : G (List Nat × List Nat) := do
  screenMain
  let counts ← execAll
    [.create emptyTitle, .create emptyTitle, .destroy 0xC0047104, .create emptyTitle]
  return (counts, (← get).windowsListHead)

set_option maxRecDepth 100000 in
/-- The third window takes the cell of the first, and is not the second. -/
theorem grid_run_ok_reused : ∃ s win win', GridRun GridCall.Fits s ∧
    s.windowsListHead = [win, win'] ∧ win ≠ win' ∧ GridOk s := by
  have hrun : gridReusedRun screenEntry = .ok (([0, 1, 2, 2], [0xC0047218, 0xC00471B4]), _) :=
    eq_ok_of_value (by decide +kernel)
  obtain ⟨_, s₁, hmain, hrest⟩ := bind_eq_ok.1 hrun
  obtain ⟨counts, s₂, hcalls, hrest⟩ := bind_eq_ok.1 hrest
  rw [get_bind_apply] at hrest
  obtain ⟨hvalue, -⟩ := Prod.mk.inj (Except.ok.inj hrest)
  obtain ⟨rfl, hlist⟩ := Prod.mk.inj hvalue
  have hroom : ∀ n ∈ [0, 1, 2, 2], n + 1 < winmanGridCellCount := by decide
  have hgrid : GridRun GridCall.Fits s₂ := (GridRun.booted (screenMain_booted hmain)).calls
    (fun t c ht => GridCall.fits_of_room (hroom _ ht)) hcalls
  exact ⟨_, _, _, hgrid, hlist, by decide, grid_run_ok hgrid⟩

/-! ## A cell that is lost -/

/-- Taking memory from the heap leaves the windows as they are. -/
theorem WindowsKept.kmalloc {bytes a : Nat} {k : KState} (h : WindowsOk s)
    (hbytes : bytes + 2 * sizeofKMallocHeader < 2 ^ 32)
    (hrun : MeghaOS.kmalloc bytes s.kernel = .ok (a, k)) :
      WindowsKept s { s with kernel := k } := by
  obtain ⟨alloc, hs⟩ := h.ready.heapOk
  rcases kmalloc_spec hs hbytes hrun with ⟨-, e, rfl⟩ | ⟨node, k₁, -, hall⟩
  · exact ⟨rfl, h.ready.of_nonCommit rfl, rfl, rfl, rfl, fun _ _ => Iff.rfl⟩
  · refine ⟨hall.phase_eq, ⟨hall.phase_eq ▸ h.ready.phase, _, hall.heapOk⟩, rfl, rfl, rfl,
      fun win w => ?_⟩
    have hrecords : k.records = s.kernel.records := by
      rw [← records_of_nonCommit hall.nonCommit]
      funext b
      rw [KState.records, KState.records, hall.objs_eq]
    exact window_of_records (congrFun hrecords win)

/-- Giving memory without a record back to the heap leaves the windows as they are. -/
theorem WindowsKept.kfree {a : Nat} {ok : Bool} {k : KState} (h : WindowsOk s) (hlt : a < 2 ^ 32)
    (hnone : ∀ w, s.kernel.objs a ≠ some (.window w))
    (hrun : MeghaOS.kfree a s.kernel = .ok (ok, k)) :
    WindowsKept s { s with kernel := k } := by
  obtain ⟨hstep, hobjs⟩ := kfree_recordStep h.ready hlt hrun
  refine ⟨congrArg Globals.phase hstep.globals, hstep.ready, rfl, rfl, rfl, fun win w => ?_⟩
  by_cases hwin : win = a
  · subst hwin
    refine ⟨fun hw => ?_, fun hw => absurd hw (hnone w)⟩
    rcases hobjs with ⟨-, hgone⟩ | ⟨-, hsame, -⟩
    · rw [hgone] at hw
      cases hw
    · rwa [hsame] at hw
  · exact window_of_records (hstep.records win hwin)

/-- Four calls find no memory. When there is memory again there is no window, and the counter is
full. -/
def gridLostRun : G (Nat × Nat × List Nat × Nat) := do
  screenMain
  let block ← kernel (kmalloc 0x1FF28)
  let _ ← execAll (List.replicate 4 (.create emptyTitle))
  let _ ← kernel (kfree block)
  let s ← get
  return (block, s.windowCount, s.windowsListHead, ← createInCell emptyTitle)

set_option maxRecDepth 100000 in
/-- After four calls without memory there is none of the cells left, and no window. -/
theorem gridLostRun_eq : gridLostRun screenEntry =
    .ok ((0xC00470B8, 4, [], 0xC0047104), gridLostRun.finalState screenEntry) :=
  eq_ok_of_value (by decide +kernel)

/-- With no live window and memory for one, the code creates no window. -/
theorem grid_cell_lost : ¬ ∀ s, GridRun (fun _ _ => True) s → GridOk s := by
  intro hall
  obtain ⟨_, s₁, hmain, hrest⟩ := bind_eq_ok.1 gridLostRun_eq
  have h₁ : GridRun (fun _ _ => True) s₁ := .booted (screenMain_booted hmain)
  obtain ⟨block, k₂, hblock, hrest⟩ := kernel_bind_eq_ok.1 hrest
  have h₂ := h₁.other (.kmalloc h₁.inv.windows (by decide) hblock)
  obtain ⟨counts, s₃, hcalls, hrest⟩ := bind_eq_ok.1 hrest
  have h₃ := h₂.calls (fun _ _ _ => trivial) hcalls
  obtain ⟨ok, k₄, hfree, hrest⟩ := kernel_bind_eq_ok.1 hrest
  rw [get_bind_apply] at hrest
  obtain ⟨win, s₅, hcell, hrest⟩ := bind_eq_ok.1 hrest
  obtain ⟨hvalue, -⟩ := Prod.mk.inj (Except.ok.inj hrest)
  rw [Prod.mk.injEq, Prod.mk.injEq, Prod.mk.injEq] at hvalue
  obtain ⟨rfl, hcount, hlist, rfl⟩ := hvalue
  have hnone : ∀ w, s₃.kernel.objs 0xC00470B8 ≠ some (.window w) := fun w hw => by
    have hmem := h₃.inv.windows.listed _ w hw
    rw [show s₃.windowsListHead = [] from hlist] at hmem
    cases hmem
  have h₄ := h₃.other (.kfree h₃.inv.windows (by decide) hnone hfree)
  obtain ⟨win, s₆, hwin, hcreate⟩ := (hall _ h₄).creates
    (by rw [show s₃.windowsListHead = [] from hlist]; decide) emptyTitle ⟨_, s₅, by decide, hcell⟩
  obtain ⟨-, hcreate⟩ := kcomposeCreateWindow_eq_ok.1 hcreate
  rw [if_pos (by exact hcount)] at hcreate
  cases hcreate
  exact hwin rfl

end MeghaOS
