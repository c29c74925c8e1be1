import MeghaOS.Compositor
import MeghaOS.Proof.Records

/-!
# What the compositor keeps

Drawing changes bytes of page frames and commits pages, and nothing else (`GState.nonBytes`).
Creating a window adds its record and puts it in the list; destroying one takes both away.
`WindowsOk` says that the list holds the window records of the kernel.
-/

namespace MeghaOS

open Exec Fixes KState

variable {α : Type} {s s' : GState} {k k' : KState} {win : Nat}

/-! ## Drawing -/

/-- The state without the parts that drawing changes. -/
def GState.nonBytes (s : GState) : GState :=
  { s with kernel := s.kernel.nonCommit, bytes := fun _ _ => 0 }

/-- A program of the kernel that commits pages. -/
theorem Exec.Fixes.kernel {x : K α} (h : Fixes nonCommit x) : Fixes GState.nonBytes (kernel x) := by
  intro s a s' hrun
  obtain ⟨k, hk, rfl⟩ := kernel_eq_ok.1 hrun
  show { s with kernel := k.nonCommit, bytes := fun _ _ => 0 } = s.nonBytes
  rw [h _ _ _ hk]
  rfl

/-- Reading a byte. -/
theorem readByte_fixes (va : Nat) : Fixes GState.nonBytes (readByte va) :=
  .bind (touchFrom_fixes _ _).kernel fun _ => .bind .get fun _ => .pure _

/-- Writing a byte. -/
theorem writeByte_fixes (va value : Nat) : Fixes GState.nonBytes (writeByte va value) :=
  .bind (touchFrom_fixes _ _).kernel fun _ => .modify fun _ => rfl

/-- Writing some bytes. -/
theorem writeBytes_fixes (bytes : List Nat) (va : Nat) :
    Fixes GState.nonBytes (writeBytes bytes va) := by
  induction bytes generalizing va with
  | nil => exact .pure _
  | cons byte rest ih => exact .bind (writeByte_fixes _ _) fun _ => ih _

/-- A row of a rectangle. -/
theorem rectRow_fixes (color lw row : Nat) : Fixes GState.nonBytes (rectRow color lw row) := by
  induction lw generalizing row with
  | zero => exact .pure _
  | succ lw ih => exact .bind (writeBytes_fixes _ _) fun _ => ih _

/-- `kgraphics_rect`. -/
theorem kgraphicsRect_fixes (g : KGraphicsArea) (x y w h color : Nat) :
    Fixes GState.nonBytes (kgraphicsRect g x y w h color) := by
  unfold kgraphicsRect
  generalize g.pixel x y = start
  induction h generalizing start with
  | zero => exact .pure _
  | succ h ih => exact .bind (rectRow_fixes _ _ _) fun _ => ih _

/-- `kgraphics_inborder`. -/
theorem kgraphicsInborder_fixes (g : KGraphicsArea) (x y w h th color : Nat) :
    Fixes GState.nonBytes (kgraphicsInborder g x y w h th color) := by
  refine .bind (kgraphicsRect_fixes _ _ _ _ _ _) fun _ => ?_
  refine .bind (kgraphicsRect_fixes _ _ _ _ _ _) fun _ => ?_
  exact .bind (kgraphicsRect_fixes _ _ _ _ _ _) fun _ => kgraphicsRect_fixes _ _ _ _ _ _

/-- A row of a glyph. -/
theorem fontRow_fixes (glyph fg bg n x row : Nat) :
    Fixes GState.nonBytes (fontRow glyph fg bg n x row) := by
  induction n generalizing x row with
  | zero => exact .pure _
  | succ n ih =>
    exact .bind (readByte_fixes _) fun _ => .bind (writeBytes_fixes _ _) fun _ => ih _ _

/-- The rows of a glyph. -/
theorem fontRows_fixes (bytesPerRow fg bg n glyph start : Nat) :
    Fixes GState.nonBytes (fontRows bytesPerRow fg bg n glyph start) := by
  induction n generalizing glyph start with
  | zero => exact .pure _
  | succ n ih => exact .bind (fontRow_fixes _ _ _ _ _ _) fun _ => ih _ _

/-- The loop of `kgraphics_drawstring`. -/
theorem drawstringFrom_fixes (g : KGraphicsArea) (sx fg bg n x y ch : Nat) :
    Fixes GState.nonBytes (drawstringFrom g sx fg bg n x y ch) := by
  induction n generalizing x y ch with
  | zero => exact .halt _
  | succ n ih =>
    refine .bind (readByte_fixes _) fun _ => .ite (.pure _) (.ite (ih _ _ _) ?_)
    exact .bind (.bind .get fun _ => fontRows_fixes _ _ _ _ _ _) fun _ => ih _ _ _

/-- `draw_window_decorations`. -/
theorem drawWindowDecorations_fixes (wa : KGraphicsArea) (title : Nat) :
    Fixes GState.nonBytes (drawWindowDecorations wa title) := by
  refine .bind (kgraphicsRect_fixes _ _ _ _ _ _) fun _ => ?_
  refine .bind (drawstringFrom_fixes _ _ _ _ _ _ _ _) fun _ => ?_
  refine .bind (kgraphicsRect_fixes _ _ _ _ _ _) fun _ => ?_
  refine .bind (kgraphicsInborder_fixes _ _ _ _ _ _ _) fun _ => ?_
  exact .bind (kgraphicsInborder_fixes _ _ _ _ _ _ _) fun _ => kgraphicsRect_fixes _ _ _ _ _ _

/-- What drawing leaves: the state with other bytes, and a kernel that only committed pages. -/
theorem eq_of_nonBytes (h : s'.nonBytes = s.nonBytes) :
    s' = { s with kernel := s'.kernel, bytes := s'.bytes } ∧
      s'.kernel.nonCommit = s.kernel.nonCommit := by
  cases s
  cases s'
  simp only [GState.nonBytes, GState.mk.injEq, and_true] at h
  obtain ⟨hk, rfl, rfl, rfl, rfl, rfl, rfl, rfl, rfl⟩ := h
  exact ⟨rfl, hk⟩

/-! ## Windows of the kernel -/

/-- The list of windows holds the window records of the kernel, once each. -/
structure WindowsOk (s : GState) : Prop where
  ready : HeapReady s.kernel
  nodup : s.windowsListHead.Nodup
  listed : ∀ win w, s.kernel.objs win = some (.window w) → win ∈ s.windowsListHead
  record : ∀ win ∈ s.windowsListHead, ∃ w, s.kernel.objs win = some (.window w) ∧
    w.windowListNode = .linked () ∧ ¬ IsStatic win

/-- Window records are no records of virtual memory. -/
theorem window_of_records {w : Window} (h : k'.records win = k.records win) :
    k'.objs win = some (.window w) ↔ k.objs win = some (.window w) := by
  have hiff : ∀ t : KState, t.objs win = some (.window w) ↔ t.records win = some (.window w) :=
    fun t => by simp [records_eq_some, Obj.isVm]
  rw [hiff, hiff, h]

/-- What is kept of the windows depends on their records and their list alone. -/
theorem WindowsOk.congr (h : WindowsOk s) (hready : HeapReady s'.kernel)
    (hlist : s'.windowsListHead = s.windowsListHead)
    (hrecords : s'.kernel.records = s.kernel.records) : WindowsOk s' where
  ready := hready
  nodup := hlist ▸ h.nodup
  listed win w hw := hlist ▸ h.listed win w ((window_of_records (congrFun hrecords win)).1 hw)
  record win hwin := by
    obtain ⟨w, hw, hrest⟩ := h.record win (hlist ▸ hwin)
    exact ⟨w, (window_of_records (congrFun hrecords win)).2 hw, hrest⟩

/-! ## The programs on window records -/

/-- A run of the memory manager first. -/
theorem RecordStep.of_vmStep {a : Nat} {k₁ : KState} (h₁ : VmStep (fun _ => False) k k₁)
    (h₂ : RecordStep a k₁ k') : RecordStep a k k' where
  ready := h₂.ready
  globals := h₂.globals.trans h₁.globals
  records b hb := (h₂.records b hb).trans (congrFun h₁.records b)
  managers m v hm hv := by
    obtain ⟨v₁, hv₁, hcore₁⟩ := h₁.managers m v id hv
    obtain ⟨v₂, hv₂, hcore₂⟩ := h₂.managers m v₁ hm hv₁
    exact ⟨v₂, hv₂, hcore₂.trans hcore₁⟩

/-- The new window of a call of `allocWindow`. -/
structure NewWindow (k k' : KState) (gxBackfb : KGraphicsArea)
    (processID screenX screenY win : Nat) :
    Prop where
  ne : win ≠ 0
  heap : ¬ IsStatic win
  fresh : k.records win = none
  record : ∃ buffer, k'.objs win = some (.window
    (newWindow processID screenX screenY { newWindowArea gxBackfb with buffer }))
  step : RecordStep win k k'

/-- `allocWindow` finds no address space for the buffer, or makes a record. -/
theorem allocWindow_spec {gxBackfb : KGraphicsArea} {processID screenX screenY : Nat}
    (hready : HeapReady k) (hrun : allocWindow gxBackfb processID screenX screenY k =
      .ok (win, k')) :
    (win = 0 ∧ VmStep (fun _ => False) k k') ∨
      NewWindow k k' gxBackfb processID screenX screenY win := by
  obtain ⟨context, k₀, hcontext, hrest⟩ := bind_eq_ok.1 hrun
  have h₀ : VmStep (fun _ => False) _ _ :=
    kprocessGetCurrentContext_fixes.vmFrame _ _ _ hcontext hready
  have hrest := follow_bind_eq_ok.1 hrest
  obtain ⟨⟨buffer, out⟩, k₁, hmap, hrest⟩ := bind_eq_ok.1 hrest
  have h₁ := h₀.trans (kvmmMemmap_vmFrame _ _ _ _ _ _ _ _ hmap h₀.ready)
  rcases ite_eq_ok.1 hrest with ⟨-, hrest⟩ | ⟨-, hrest⟩
  · cases hrest
    exact .inl ⟨rfl, h₁⟩
  obtain ⟨_, k₂, hmeta, hrest⟩ := bind_eq_ok.1 hrest
  have h₂ := h₁.trans ((kvmmSetAddressSpaceMetadata_fixes _ _).vmFrame _ _ _ hmeta h₁.ready)
  obtain ⟨new, k₃, hnew, hrest⟩ := bind_eq_ok.1 hrest
  rcases kmallocObj_recordStep h₂.ready hnew with ⟨rfl, e, rfl⟩ | ⟨hne, hheap, hfresh, hobj, hstep⟩
  · -- the `NULL` pointer leads to no record
    obtain ⟨_, k₄, hdestroy, -⟩ := bind_eq_ok.1 hrest
    obtain ⟨context', k₅, hcontext', hdestroy⟩ := bind_eq_ok.1 hdestroy
    obtain ⟨w, hw, -⟩ := getWindow_bind_eq_ok.1 hdestroy
    have h₅ : VmStep (fun _ => False) _ _ :=
      kprocessGetCurrentContext_fixes.vmFrame _ _ _ hcontext'
      (h₂.ready.of_nonCommit rfl)
    obtain ⟨alloc, hs⟩ := h₅.ready.heapOk
    rw [hs.objs_zero] at hw
    cases hw
  · rw [if_neg hne] at hrest
    cases hrest
    refine .inr ⟨hne, hheap, ?_, ⟨buffer, hobj⟩, .of_vmStep h₂ hstep⟩
    rw [← h₂.records]
    exact records_eq_none.2 fun o ho => by rw [hfresh] at ho; cases ho

/-- `destory_window` takes the record away. -/
theorem destoryWindow_spec {w : Window} (hready : HeapReady k) (hw : k.objs win = some (.window w))
    (hheap : ¬ IsStatic win) (hrun : destoryWindow win k = .ok ((), k')) :
    RecordStep win k k' ∧ k'.objs win = none := by
  obtain ⟨context, k₁, hcontext, hrest⟩ := bind_eq_ok.1 hrun
  have h₁ : VmStep (fun _ => False) _ _ :=
    kprocessGetCurrentContext_fixes.vmFrame _ _ _ hcontext hready
  obtain ⟨w', -, hrest⟩ := getWindow_bind_eq_ok.1 hrest
  have hrest := follow_bind_eq_ok.1 hrest
  obtain ⟨freed, k₂, hfree, hrest⟩ := bind_eq_ok.1 hrest
  have h₂ := h₁.trans (kvmmFree_vmFrame _ _ _ _ _ hfree h₁.ready)
  obtain ⟨ok, k₃, hkfree, hrest⟩ := bind_eq_ok.1 hrest
  cases hrest
  have hw₂ := (window_of_records (congrFun h₂.records win)).2 hw
  have hlt := h₂.ready.lt (a := win) (by rw [hw₂]; simp)
  obtain ⟨hstep, hobj⟩ := kfree_recordStep h₂.ready hlt hkfree
  refine ⟨.of_vmStep h₂ hstep, ?_⟩
  rcases hobj with ⟨-, hnone⟩ | ⟨-, -, hnone | hstatic⟩
  · exact hnone
  · rw [hw₂] at hnone
    cases hnone
  · exact absurd hstatic hheap

/-- The list node of a window is written. -/
theorem setWindowListNode_spec {node : NodeState Unit} (hready : HeapReady k)
    (hrun : setWindowListNode win node k = .ok ((), k')) : ∃ w, k.objs win = some (.window w) ∧
      k'.objs win = some (.window { w with windowListNode := node }) ∧ RecordStep win k k' := by
  obtain ⟨w, hw, hrest⟩ := getWindow_bind_eq_ok.1 hrun
  cases hrest
  exact ⟨w, hw, if_pos rfl, .setObj hready (by rw [hw]; simp)⟩

/-- Two steps on one record. -/
theorem RecordStep.trans {a : Nat} {k₁ : KState} (h₁ : RecordStep a k k₁)
    (h₂ : RecordStep a k₁ k') :
    RecordStep a k k' where
  ready := h₂.ready
  globals := h₂.globals.trans h₁.globals
  records b hb := (h₂.records b hb).trans (h₁.records b hb)
  managers m v hm hv := by
    obtain ⟨v₁, hv₁, hcore₁⟩ := h₁.managers m v hm hv
    obtain ⟨v₂, hv₂, hcore₂⟩ := h₂.managers m v₁ hm hv₁
    exact ⟨v₂, hv₂, hcore₂.trans hcore₁⟩

/-- Pages are committed last. -/
theorem RecordStep.of_nonCommit {a : Nat} {k₁ : KState} (h₁ : RecordStep a k k₁)
    (hnc : k'.nonCommit = k₁.nonCommit) : RecordStep a k k' := by
  have h₂ : VmStep (fun _ => False) _ _ :=
    VmStep.of_nonCommit h₁.ready hnc
  refine h₁.trans ⟨h₂.ready, h₂.globals, fun b _ => congrFun h₂.records b, fun m v _ hv => ?_⟩
  exact h₂.managers m v id hv

/-! ## Creating and destroying -/

/-- The part of `kcompose_createWindow` after the check of the grid. -/
def createInCell (title : Nat) : G Nat := do
  let windowCount := (← get).windowCount
  let col := winmanGridCellCol windowCount
  let row := winmanGridCellRow windowCount
  modify fun s => { s with windowCount := u32 (windowCount + 1) }
  let gxBackfb := (← get).gxBackfb
  let processID ← kernel kprocessGetCurrentPID
  let newwin ← kernel (allocWindow gxBackfb processID (winmanGridCellX gxBackfb col)
    (winmanGridCellY gxBackfb row))
  if newwin = 0 then return 0
  else
    modify fun s => { s with windowsListHead := newwin :: s.windowsListHead }
    kernel (setWindowListNode newwin (.linked ()))
    drawWindowDecorations (← kernel (getWindow newwin)).windowArea title
    return newwin

/-- `kcompose_createWindow` fails when there is no cell, and else makes the window and enters it. -/
theorem kcomposeCreateWindow_eq_ok {title : Nat} {r : Nat × GState} :
    kcomposeCreateWindow title s = .ok r ↔ s.kernel.phase.check .kernelReady = true ∧
      if s.windowCount = winmanGridCellCount then
        r = (0, { s with kernel := { s.kernel with errorNumber := .errOutOfMem } })
      else createInCell title s = .ok r := by
  simp only [kcomposeCreateWindow, kernel_bind_eq_ok, kernelPhaseValidate_eq_ok]
  constructor
  · rintro ⟨_, k, ⟨hphase, rfl⟩, hrest⟩
    refine ⟨hphase, ?_⟩
    rw [get_bind_apply] at hrest
    rcases ite_eq_ok.1 hrest with ⟨hfull, hrest⟩ | ⟨hroom, hrest⟩
    · rw [if_pos hfull]
      rw [kernel_returnError] at hrest
      exact (Except.ok.inj hrest).symm
    · rw [if_neg hroom]
      exact hrest
  · rintro ⟨hphase, hrest⟩
    refine ⟨(), s.kernel, ⟨hphase, rfl⟩, ?_⟩
    rw [get_bind_apply]
    refine ite_eq_ok.2 ?_
    by_cases hfull : s.windowCount = winmanGridCellCount
    · rw [if_pos hfull] at hrest
      exact .inl ⟨hfull, by rw [kernel_returnError, hrest]⟩
    · rw [if_neg hfull] at hrest
      exact .inr ⟨hfull, hrest⟩

/-- The record of a window in the cell with this index. -/
def windowInCell (gxBackfb : KGraphicsArea) (processID cell buffer : Nat) : Window :=
  { newWindow processID (winmanGridCellX gxBackfb (winmanGridCellCol cell))
      (winmanGridCellY gxBackfb (winmanGridCellRow cell))
        { newWindowArea gxBackfb with buffer } with
    windowListNode := .linked () }

/-- What the creation of a window does. -/
structure Created (s s' : GState) (win : Nat) : Prop where
  ne : win ≠ 0
  heap : ¬ IsStatic win
  fresh : s.kernel.records win = none
  record : ∃ processID buffer, s'.kernel.objs win = some (.window
    (windowInCell s.gxBackfb processID s.windowCount buffer))
  step : RecordStep win s.kernel s'.kernel
  eq : s' = { s with
    kernel := s'.kernel
    bytes := s'.bytes
    windowsListHead := win :: s.windowsListHead
    windowCount := u32 (s.windowCount + 1) }

/-- `kprocess_getCurrentPID` changes nothing. -/
theorem kprocessGetCurrentPID_fixes : Fixes nonCommit kprocessGetCurrentPID :=
  .bind .get fun _ => .ite (.pure _) (.bind (.getProc _) fun _ => .pure _)

/-- `kcompose_createWindow` finds no memory, or creates a window in the next cell. -/
theorem createInCell_spec {title : Nat} (hready : HeapReady s.kernel)
    (hrun : createInCell title s = .ok (win, s')) :
    (win = 0 ∧ VmStep (fun _ => False) s.kernel s'.kernel ∧
        s' = { s with kernel := s'.kernel, windowCount := u32 (s.windowCount + 1) }) ∨
      Created s s' win := by
  rw [createInCell, get_bind_apply, modify_bind_apply, get_bind_apply] at hrun
  obtain ⟨processID, k₁, hpid, hrest⟩ := kernel_bind_eq_ok.1 hrun
  have h₁ : VmStep (fun _ => False) _ _ :=
    kprocessGetCurrentPID_fixes.vmFrame _ _ _ hpid hready
  obtain ⟨newwin, k₂, halloc, hrest⟩ := kernel_bind_eq_ok.1 hrest
  rcases allocWindow_spec h₁.ready halloc with ⟨rfl, h₂⟩ | hnew
  · cases hrest
    exact .inl ⟨rfl, h₁.trans h₂, rfl⟩
  rw [if_neg hnew.ne, modify_bind_apply] at hrest
  obtain ⟨_, k₃, hlist, hrest⟩ := kernel_bind_eq_ok.1 hrest
  obtain ⟨w, hw, hw₃, h₃⟩ := setWindowListNode_spec hnew.step.ready hlist
  obtain ⟨w', k₄, hget, hrest⟩ := kernel_bind_eq_ok.1 hrest
  obtain ⟨hw', rfl⟩ := getWindow_eq_ok.1 hget
  obtain ⟨_, s₅, hdraw, hrest⟩ := bind_eq_ok.1 hrest
  cases hrest
  obtain ⟨heq, hnc⟩ := eq_of_nonBytes (drawWindowDecorations_fixes _ _ _ _ _ hdraw)
  obtain ⟨buffer, hbuffer⟩ := hnew.record
  rw [hbuffer] at hw
  cases hw
  have hstep : RecordStep win s.kernel s'.kernel :=
    .of_vmStep h₁ ((hnew.step.trans h₃).of_nonCommit hnc)
  refine .inr ⟨hnew.ne, hnew.heap, h₁.records ▸ hnew.fresh, ⟨processID, buffer, ?_⟩, hstep, ?_⟩
  · exact objs_of_nonCommit hnc hw₃ (by simp)
  · rw [heq]

/-- `kcompose_destroyWindow` takes a window of the list and its record away. -/
theorem kcomposeDestroyWindow_spec {ok : Bool} (h : WindowsOk s)
    (hrun : kcomposeDestroyWindow win s = .ok (ok, s')) :
    win ∈ s.windowsListHead ∧ ok = true ∧ s'.kernel.objs win = none ∧
      RecordStep win s.kernel s'.kernel ∧
      s' = { s with kernel := s'.kernel, windowsListHead := s.windowsListHead.erase win } := by
  obtain ⟨_, s₁, hremove, hrest⟩ := bind_eq_ok.1 hrun
  obtain ⟨w, k₀, hget, hremove⟩ := kernel_bind_eq_ok.1 hremove
  obtain ⟨hw, rfl⟩ := getWindow_eq_ok.1 hget
  have hmem := h.listed win w hw
  obtain ⟨w', hw', hnode, hheap⟩ := h.record win hmem
  obtain rfl : w' = w := by
    rw [hw] at hw'
    cases hw'
    rfl
  rw [hnode] at hremove
  simp only [modify_bind_apply] at hremove
  obtain ⟨k₁, hset, rfl⟩ := kernel_eq_ok.1 hremove
  obtain ⟨w₁, -, hw₁, h₁⟩ := setWindowListNode_spec h.ready hset
  obtain ⟨_, k₂, hdestroy, hrest⟩ := kernel_bind_eq_ok.1 hrest
  cases hrest
  obtain ⟨h₂, hnone⟩ := destoryWindow_spec h₁.ready hw₁ hheap hdestroy
  exact ⟨hmem, rfl, hnone, h₁.trans h₂, rfl⟩

/-! ## The invariant of the windows -/

/-- A new window is one more in the list. -/
theorem WindowsOk.created (h : WindowsOk s) (hnew : Created s s' win) : WindowsOk s' := by
  have hlist : s'.windowsListHead = win :: s.windowsListHead := by rw [hnew.eq]
  have hnotMem : win ∉ s.windowsListHead := fun hmem => by
    obtain ⟨w, hw, -⟩ := h.record win hmem
    have hrec := hnew.fresh
    rw [records_eq_none] at hrec
    cases hrec _ hw
  refine ⟨hnew.step.ready, ?_, fun a w hw => ?_, fun a ha => ?_⟩
  · rw [hlist]
    exact List.nodup_cons.2 ⟨hnotMem, h.nodup⟩
  · rw [hlist]
    by_cases haw : a = win
    · exact haw ▸ List.mem_cons_self
    · exact .tail _ (h.listed a w ((window_of_records (hnew.step.records a haw)).1 hw))
  · rw [hlist] at ha
    by_cases haw : a = win
    · obtain ⟨processID, buffer, hrec⟩ := hnew.record
      rw [haw]
      exact ⟨_, hrec, rfl, hnew.heap⟩
    · obtain ⟨w, hw, hrest⟩ := h.record a ((List.mem_cons.1 ha).resolve_left haw)
      exact ⟨w, (window_of_records (hnew.step.records a haw)).2 hw, hrest⟩

/-- A window that is destroyed is one less. -/
theorem WindowsOk.destroyed (h : WindowsOk s) (hnone : s'.kernel.objs win = none)
    (hstep : RecordStep win s.kernel s'.kernel)
    (hlist : s'.windowsListHead = s.windowsListHead.erase win) : WindowsOk s' := by
  refine ⟨hstep.ready, ?_, fun a w hw => ?_, fun a ha => ?_⟩
  · rw [hlist]
    exact h.nodup.erase win
  · have haw : a ≠ win := by
      rintro rfl
      rw [hnone] at hw
      cases hw
    rw [hlist, h.nodup.mem_erase_iff]
    exact ⟨haw, h.listed a w ((window_of_records (hstep.records a haw)).1 hw)⟩
  · rw [hlist, h.nodup.mem_erase_iff] at ha
    obtain ⟨w, hw, hrest⟩ := h.record a ha.2
    exact ⟨w, (window_of_records (hstep.records a ha.1)).2 hw, hrest⟩

end MeghaOS
