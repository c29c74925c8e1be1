import MeghaOS.Proof.Grid

/-!
# The handles of windows

`ksys_window_destoryWindow` destroys the window of a handle and leaves the handle in the table. Over
every run of the window system calls in which no call destroys a window through a handle, every live
handle refers to a window (`window_run_handlesOk`); one destroyed window leaves a handle to a record
that was freed (`handle_outlives_window`).
-/

namespace MeghaOS

open Exec KState

variable {s s' : GState} {win title wfb : Nat} {live : Int → Option Nat} {h : Int} {gone : Set Int}

/-! ## Calls -/

/-- A window system call. -/
inductive WindowCall
  | create (winTitle : Nat)
  | destroy (h : Int)
  | getFB (h : Int) (wfb : Nat)

/-- Make a call; the result is the handle of a new window, or `INVALID_HANDLE`. -/
def WindowCall.exec : WindowCall → G Int
  | create winTitle => ksysWindowCreateWindow winTitle
  | destroy h => do
    let _ ← ksysWindowDestoryWindow h
    return invalidHandle
  | getFB h wfb => do
    let _ ← ksysGetWindowFB h wfb
    return invalidHandle

/-- `khandle_getObject` finds no object: the call does not destroy a window. -/
def WindowCall.Fits (s : GState) : WindowCall → Prop
  | destroy h => h ≥ handlesArrayItemCount ∨ s.word (slotAddr s.handles h) = 0
  | create _ | getFB _ _ => True

/-- The object in the slot of a handle. -/
def objectOf (s : GState) (h : Int) : Nat := s.word (slotAddr s.handles h)

/-- The handles whose window was destroyed, after a call that led to `s'` and returned a handle. -/
def goneAfter (gone : Set Int) (s s' : GState) (newh : Int) : Set Int :=
  {h | h ≠ newh ∧ (h ∈ gone ∨ 0 ≤ h ∧ h < handlesArrayItemCount ∧
    objectOf s h ∈ s.windowsListHead ∧ objectOf s h ∉ s'.windowsListHead)}

/-- The runs of the window system calls since `kernel_main`, whose calls all satisfy a condition,
with the handles whose window was destroyed. -/
inductive WindowRun (P : GState → WindowCall → Prop) : GState → Set Int → Prop
  | booted {s : GState} : GBooted s → WindowRun P s ∅
  | call {c : WindowCall} {s s' : GState} {gone : Set Int} {newh : Int} :
      WindowRun P s gone → P s c → c.exec s = .ok (newh, s') →
        WindowRun P s' (goneAfter gone s s' newh)
  | other {s s' : GState} {gone : Set Int} :
      WindowRun P s gone → WindowsKept s s' → TableKept s s' → WindowRun P s' gone

/-- A call fails and changes nothing but the error number: it accesses no memory but the table. -/
def FailsClean (x : G Bool) (s : GState) : Prop :=
  ∃ accessed s', x s = .ok (false, s') ∧ (∀ a ∈ accessed, InTable s.handles a) ∧
    s' = { s with
      touched := accessed ++ s.touched
      kernel := { s.kernel with errorNumber := s'.kernel.errorNumber } }

/-- Every live handle refers to a window that is in the list and not freed, and the calls with the
handle of a window that was destroyed fail. -/
structure WindowHandlesOk (s : GState) (gone : Set Int) : Prop where
  live : ∀ h : Int, 0 ≤ h → h < handlesArrayItemCount → objectOf s h ≠ 0 →
    objectOf s h ∈ s.windowsListHead ∧ ∃ w, s.kernel.objs (objectOf s h) = some (.window w)
  destroyed : ∀ h ∈ gone, FailsClean (ksysWindowDestoryWindow h) s ∧
    ∀ wfb, FailsClean (ksysGetWindowFB h wfb) s

/-! ## The handle table under a call -/

/-- `khandle_getObject` changes the error number at most. -/
theorem khandleGetObject_keeps {obj : Nat} (hrun : khandleGetObject h s = .ok (obj, s')) :
    ∃ touched e, s' = { s with touched, kernel := { s.kernel with errorNumber := e } } := by
  obtain ⟨slot, s₁, hget, hrest⟩ := bind_eq_ok.1 hrun
  rw [getObjectPtr, get_bind_apply] at hget
  obtain ⟨_, k, hassert, hget⟩ := kernel_bind_eq_ok.1 hget
  obtain ⟨-, rfl⟩ := kAssert_eq_ok.1 hassert
  rcases ite_eq_ok.1 hget with ⟨-, hget⟩ | ⟨-, hget⟩
  · rw [kernel_returnError] at hget
    cases hget
    cases hrest
    exact ⟨_, _, rfl⟩
  rw [readWord_bind_apply] at hget
  rcases ite_eq_ok.1 hget with ⟨-, hget⟩ | ⟨-, hget⟩
  · rw [kernel_returnError] at hget
    cases hget
    cases hrest
    exact ⟨_, _, rfl⟩
  · cases hget
    cases hrest
    exact ⟨_, s.kernel.errorNumber, rfl⟩

/-- A handle that is too large, or whose slot holds `NULL`, has no object. -/
theorem khandleGetObject_eq_zero {obj : Nat}
    (hnone : h ≥ handlesArrayItemCount ∨ s.word (slotAddr s.handles h) = 0)
    (hrun : khandleGetObject h s = .ok (obj, s')) : obj = 0 := by
  obtain ⟨slot, s₁, hget, hrest⟩ := bind_eq_ok.1 hrun
  rw [getObjectPtr, get_bind_apply] at hget
  obtain ⟨_, k, hassert, hget⟩ := kernel_bind_eq_ok.1 hget
  obtain ⟨-, rfl⟩ := kAssert_eq_ok.1 hassert
  rcases ite_eq_ok.1 hget with ⟨-, hget⟩ | ⟨hlt, hget⟩
  · rw [kernel_returnError] at hget
    cases hget
    cases hrest
    rfl
  rw [readWord_bind_apply, if_pos (by exact hnone.resolve_left hlt), kernel_returnError] at hget
  cases hget
  cases hrest
  rfl

/-- `khandle_createHandle` finds every slot used, or puts the object into a free slot. -/
theorem khandleCreateHandle_spec (hi : HandleInv s live) {obj : Nat} (hobj : obj ≠ 0) {newh : Int}
    (hrun : khandleCreateHandle obj s = .ok (newh, s')) :
    (newh = invalidHandle ∧ ∃ touched e,
        s' = { s with touched, kernel := { s.kernel with errorNumber := e } }) ∨
      ∃ j : Nat, j < handlesArrayItemCount ∧ newh = j ∧ live j = none ∧ ∃ touched, s' = { s with
        touched
        word := fun a => if a = slotAddr s.handles j then obj else s.word a } := by
  rw [khandleCreateHandle, get_bind_apply, kernel_kAssert_bind hi.base, if_neg hobj] at hrun
  obtain ⟨accessed, -, ⟨-, hcreate⟩ | ⟨j, hj, hfree, hcreate⟩⟩ :=
    createHandleFrom_spec hi obj handlesArrayItemCount 0 rfl fun j hj =>
      absurd hj (Nat.not_lt_zero j)
  · rw [hcreate] at hrun
    cases hrun
    exact .inl ⟨rfl, _, _, rfl⟩
  · rw [hcreate] at hrun
    cases hrun
    exact .inr ⟨j, hj, rfl, hfree, _, rfl⟩

/-! ## The invariant -/

/-- The live handles of the table refer to windows. -/
structure WindowHandles (s : GState) (live : Int → Option Nat) : Prop where
  phase : s.kernel.phase = .kernelReady
  windows : WindowsOk s
  table : HandleInv s live
  refers : ∀ h win, live h = some win → win ∈ s.windowsListHead

namespace WindowHandles

theorem booted (h : GBooted s) : WindowHandles s fun _ => none where
  phase := (gbooted_ready h).phase
  windows := (GridInv.booted h).windows
  table := (gbooted_ready h).handles
  refers _ _ hlive := by cases hlive

theorem kept (hw : WindowHandles s live) (hk : WindowsKept s s') (ht : TableKept s s') :
    WindowHandles s' live where
  phase := hk.phase.trans hw.phase
  windows := hw.windows.kept hk
  table := hw.table.congr ht.1 ht.2.2
  refers h win hlive := hk.windowsListHead ▸ hw.refers h win hlive

/-- A state whose kernel has another error number. -/
theorem error (hw : WindowHandles s live) (touched : List Nat) (e : KernelErrorCodes) :
    WindowHandles { s with touched, kernel := { s.kernel with errorNumber := e } } live where
  phase := hw.phase
  windows := hw.windows.congr (hw.windows.ready.of_nonCommit rfl) rfl rfl
  table := hw.table.congr rfl fun _ _ => rfl
  refers := hw.refers

/-- A new window leaves the handles as they are. -/
theorem created (hw : WindowHandles s live) (hnew : Created s s' win) : WindowHandles s' live where
  phase := (congrArg Globals.phase hnew.step.globals).trans hw.phase
  windows := hw.windows.created hnew
  table := hw.table.congr (by rw [hnew.eq]) fun a _ => by rw [hnew.eq]
  refers h win' hlive := by
    rw [show s'.windowsListHead = win :: s.windowsListHead by rw [hnew.eq]]
    exact .tail _ (hw.refers h win' hlive)

/-- The window of a call that finds the table full is destroyed again. -/
theorem undone (hw : WindowHandles s live) {ok : Bool}
    (hnew : ∀ h win', live h = some win' → win' ≠ win)
    (hrun : kcomposeDestroyWindow win s = .ok (ok, s')) :
    WindowHandles s' live ∧ s'.windowsListHead = s.windowsListHead.erase win := by
  obtain ⟨-, -, hnone, hstep, heq⟩ := kcomposeDestroyWindow_spec hw.windows hrun
  have hlist : s'.windowsListHead = s.windowsListHead.erase win := by rw [heq]
  refine ⟨⟨(congrArg Globals.phase hstep.globals).trans hw.phase,
    hw.windows.destroyed hnone hstep hlist, ?_, fun h win' hlive => ?_⟩, hlist⟩
  · rw [heq]
    exact hw.table.congr rfl fun _ _ => rfl
  · rw [hlist, hw.windows.nodup.mem_erase_iff]
    exact ⟨hnew h win' hlive, hw.refers h win' hlive⟩

/-- A window gets a handle that is not live. -/
theorem handle (hw : WindowHandles s live) (hwin : win ∈ s.windowsListHead)
    (hne : win ≠ 0) {j : Nat}
    (hj : j < handlesArrayItemCount) (touched : List Nat) :
    WindowHandles { s with
      touched
      word := fun a => if a = slotAddr s.handles j then win else s.word a }
      (Function.update live j (some win)) where
  phase := hw.phase
  windows := hw.windows.congr hw.windows.ready rfl rfl
  table := hw.table.write hj (show some win ≠ some 0 by simpa using hne)
  refers h win' hlive := by
    by_cases hh : h = j
    · rw [hh, Function.update_self] at hlive
      cases hlive
      exact hwin
    · rw [Function.update_of_ne hh] at hlive
      exact hw.refers h win' hlive

/-- `ksys_window_createWindow`. -/
theorem create (hw : WindowHandles s live) {newh : Int}
    (hrun : ksysWindowCreateWindow title s = .ok (newh, s')) :
    ∃ live', WindowHandles s' live' ∧ s.windowsListHead ⊆ s'.windowsListHead := by
  obtain ⟨win, s₁, hcreate, hrest⟩ := bind_eq_ok.1 hrun
  obtain ⟨-, hcreate⟩ := kcomposeCreateWindow_eq_ok.1 hcreate
  by_cases hfull : s.windowCount = winmanGridCellCount
  · rw [if_pos hfull] at hcreate
    cases hcreate
    cases hrest
    exact ⟨live, hw.error s.touched _, List.Subset.refl _⟩
  rw [if_neg hfull] at hcreate
  rcases createInCell_spec hw.windows.ready hcreate with ⟨rfl, hstep, heq⟩ | hnew
  · cases hrest
    have hlist : s'.windowsListHead = s.windowsListHead := by rw [heq]
    refine ⟨live, ⟨(congrArg Globals.phase hstep.globals).trans hw.phase,
      hw.windows.congr hstep.ready hlist hstep.records, ?_, hlist ▸ hw.refers⟩,
      hlist ▸ List.Subset.refl _⟩
    rw [heq]
    exact hw.table.congr rfl fun _ _ => rfl
  have h₁ := hw.created hnew
  have hlist : s₁.windowsListHead = win :: s.windowsListHead := by rw [hnew.eq]
  have hwin : win ∈ s₁.windowsListHead := hlist ▸ List.mem_cons_self
  rw [if_neg hnew.ne] at hrest
  obtain ⟨h₂, s₂, hhandle, hrest⟩ := bind_eq_ok.1 hrest
  rcases khandleCreateHandle_spec h₁.table hnew.ne hhandle with
    ⟨rfl, touched, e, rfl⟩ | ⟨j, hj, rfl, -, touched, rfl⟩
  · obtain ⟨ok, s₃, hdestroy, hrest⟩ := bind_eq_ok.1 hrest
    cases hrest
    have hold : ∀ h win', live h = some win' → win' ≠ win := fun h win' hlive heq => by
      have hnodup := h₁.windows.nodup
      rw [hlist, ← heq] at hnodup
      exact (List.nodup_cons.1 hnodup).1 (hw.refers h win' hlive)
    obtain ⟨h₃, hlist₃⟩ := (h₁.error touched e).undone hold hdestroy
    refine ⟨live, h₃, ?_⟩
    rw [hlist₃, show ({ s₁ with touched, kernel := { s₁.kernel with errorNumber := e } } :
      GState).windowsListHead = win :: s.windowsListHead from hlist, List.erase_cons_head]
    exact List.Subset.refl _
  · have hvalid : (j : Int) ≠ invalidHandle := by
      simp only [invalidHandle]
      omega
    rw [if_neg hvalid] at hrest
    cases hrest
    refine ⟨_, h₁.handle hwin hnew.ne hj touched, ?_⟩
    rw [show (s₁.windowsListHead) = _ from hlist]
    exact List.subset_cons_self _ _

/-- `ksys_getWindowFB`. -/
theorem getFB (hw : WindowHandles s live) {ok : Bool}
    (hrun : ksysGetWindowFB h wfb s = .ok (ok, s')) :
    WindowHandles s' live ∧ s'.windowsListHead = s.windowsListHead := by
  obtain ⟨win, s₁, hget, hrest⟩ := bind_eq_ok.1 hrun
  obtain ⟨touched, e, rfl⟩ := khandleGetObject_keeps hget
  have h₁ := hw.error touched e
  rcases ite_eq_ok.1 hrest with ⟨-, hrest⟩ | ⟨-, hrest⟩
  · cases hrest
    exact ⟨h₁, rfl⟩
  obtain ⟨w, k, hwindow, hrest⟩ := kernel_bind_eq_ok.1 hrest
  obtain ⟨-, rfl⟩ := getWindow_eq_ok.1 hwindow
  obtain ⟨_, s₂, hwrite, hrest⟩ := bind_eq_ok.1 hrest
  cases hrest
  obtain ⟨heq, hnc⟩ := eq_of_nonBytes (writeBytes_fixes _ _ _ _ _ hwrite)
  have hstep : VmStep (fun _ => False) _ _ :=
    VmStep.of_nonCommit h₁.windows.ready hnc
  have hlist : s'.windowsListHead = s.windowsListHead := by rw [heq]
  refine ⟨⟨(congrArg Globals.phase hstep.globals).trans h₁.phase,
    h₁.windows.congr hstep.ready hlist hstep.records, ?_, hlist ▸ hw.refers⟩, hlist⟩
  rw [heq]
  exact hw.table.congr rfl fun _ _ => rfl

/-- A call of `ksys_window_destoryWindow` that finds no object. -/
theorem destroyNothing (hw : WindowHandles s live) {ok : Bool}
    (hnone : h ≥ handlesArrayItemCount ∨ s.word (slotAddr s.handles h) = 0)
    (hrun : ksysWindowDestoryWindow h s = .ok (ok, s')) :
    WindowHandles s' live ∧ s'.windowsListHead = s.windowsListHead := by
  obtain ⟨win, s₁, hget, hrest⟩ := bind_eq_ok.1 hrun
  obtain rfl := khandleGetObject_eq_zero hnone hget
  obtain ⟨touched, e, rfl⟩ := khandleGetObject_keeps hget
  cases hrest
  exact ⟨hw.error touched e, rfl⟩

/-- A call that does not destroy a window through a handle takes no window from the list. -/
theorem call (hw : WindowHandles s live) {c : WindowCall} (hfits : c.Fits s) {newh : Int}
    (hrun : c.exec s = .ok (newh, s')) :
    ∃ live', WindowHandles s' live' ∧ s.windowsListHead ⊆ s'.windowsListHead := by
  cases c with
  | create winTitle => exact hw.create hrun
  | destroy h =>
    obtain ⟨ok, s₁, hcall, hrest⟩ := bind_eq_ok.1 hrun
    cases hrest
    obtain ⟨h₁, hlist⟩ := hw.destroyNothing hfits hcall
    exact ⟨live, h₁, hlist ▸ List.Subset.refl _⟩
  | getFB h wfb =>
    obtain ⟨ok, s₁, hcall, hrest⟩ := bind_eq_ok.1 hrun
    cases hrest
    obtain ⟨h₁, hlist⟩ := hw.getFB hcall
    exact ⟨live, h₁, hlist ▸ List.Subset.refl _⟩

theorem handlesOk (hw : WindowHandles s live) : WindowHandlesOk s ∅ where
  live h hpos hlt hne := by
    obtain ⟨i, rfl⟩ := Int.eq_ofNat_of_zero_le hpos
    have hi : i < handlesArrayItemCount := by omega
    have hobject : objectOf s i = (live i).getD 0 := by
      rw [objectOf, hw.table.slotAddr_eq hi, hw.table.slot i hi]
    cases hlive : live i with
    | none =>
      rw [hobject, hlive] at hne
      exact absurd rfl hne
    | some win =>
      rw [hobject, hlive]
      have hmem := hw.refers _ _ hlive
      obtain ⟨w, hrec, -⟩ := hw.windows.record win hmem
      exact ⟨hmem, w, hrec⟩
  destroyed h hgone := absurd hgone (Set.notMem_empty h)

end WindowHandles

/-! ## Runs -/

/-- While no window is destroyed through its handle, no handle is left behind. -/
theorem WindowRun.inv (hr : WindowRun WindowCall.Fits s gone) :
    gone = ∅ ∧ ∃ live, WindowHandles s live := by
  induction hr with
  | booted hbooted => exact ⟨rfl, _, .booted hbooted⟩
  | @call c s s' gone newh _ hfits hrun ih =>
    obtain ⟨rfl, live, hw⟩ := ih
    obtain ⟨live', hw', hsubset⟩ := hw.call hfits hrun
    refine ⟨Set.eq_empty_iff_forall_notMem.2 fun h hgone => ?_, live', hw'⟩
    obtain ⟨-, hempty | ⟨-, -, hmem, hnot⟩⟩ := hgone
    · exact hempty
    · exact hnot (hsubset hmem)
  | other _ hk ht ih =>
    obtain ⟨rfl, live, hw⟩ := ih
    exact ⟨rfl, live, hw.kept hk ht⟩

/-- After every run whose calls all fit, every live handle refers to a window. -/
theorem window_run_handlesOk (hr : WindowRun WindowCall.Fits s gone) : WindowHandlesOk s gone := by
  obtain ⟨rfl, live, hw⟩ := hr.inv
  exact hw.handlesOk

/-- The window system calls create two windows. The results are the handles and their words. -/
def twoWindowsRun : G (Int × Int × Nat × Nat) := do
  screenMain
  let h ← ksysWindowCreateWindow emptyTitle
  let h' ← ksysWindowCreateWindow emptyTitle
  let s ← get
  return (h, h', objectOf s h, objectOf s h')

set_option maxRecDepth 100000 in
/-- Two windows have different handles, which lead to different windows. -/
theorem window_run_handlesOk_twoWindows : ∃ s gone, WindowRun WindowCall.Fits s gone ∧
    objectOf s 0 ≠ 0 ∧ objectOf s 1 ≠ 0 ∧ objectOf s 0 ≠ objectOf s 1 ∧
      WindowHandlesOk s gone := by
  have hrun : twoWindowsRun screenEntry = .ok ((0, 1, 0xC0047104, 0xC00471B4), _) :=
    eq_ok_of_value (by decide +kernel)
  obtain ⟨_, s₁, hmain, hrest⟩ := bind_eq_ok.1 hrun
  obtain ⟨h, s₂, hfirst, hrest⟩ := bind_eq_ok.1 hrest
  obtain ⟨h', s₃, hsecond, hrest⟩ := bind_eq_ok.1 hrest
  rw [get_bind_apply] at hrest
  obtain ⟨hvalue, -⟩ := Prod.mk.inj (Except.ok.inj hrest)
  simp only [Prod.mk.injEq] at hvalue
  obtain ⟨rfl, rfl, hword, hword'⟩ := hvalue
  have hwindows := ((WindowRun.booted (P := WindowCall.Fits) (screenMain_booted hmain)).call
    (c := .create emptyTitle) trivial hfirst).call (c := .create emptyTitle) trivial hsecond
  exact ⟨_, _, hwindows, by rw [hword]; decide, by rw [hword']; decide, by
    rw [hword, hword']
    decide, window_run_handlesOk hwindows⟩

/-- A window is created and destroyed, and its handle still refers to the record that was freed. -/
theorem handle_outlives_window :
    ¬ ∀ s gone, WindowRun (fun _ _ => True) s gone → WindowHandlesOk s gone := by
  intro hall
  obtain ⟨_, s₁, hmain, hrest⟩ := bind_eq_ok.1 windowRun_eq
  have h₁ : WindowRun (fun _ _ => True) s₁ ∅ := .booted (screenMain_booted hmain)
  obtain ⟨h, s₂, hcreate, hrest⟩ := bind_eq_ok.1 hrest
  have h₂ := h₁.call (c := .create emptyTitle) trivial hcreate
  rw [get_bind_apply] at hrest
  obtain ⟨ok, s₃, hdestroy, hrest⟩ := bind_eq_ok.1 hrest
  have h₃ := h₂.call (c := .destroy h) trivial (bind_of_ok hdestroy)
  rw [get_bind_apply] at hrest
  obtain ⟨hvalue, -⟩ := Prod.mk.inj (Except.ok.inj hrest)
  simp only [Prod.mk.injEq] at hvalue
  obtain ⟨rfl, -, -, hlist, hword⟩ := hvalue
  have hlive := ((hall _ _ h₃).live 0 (by decide) (by decide) (by
    show s₃.word (slotAddr s₃.handles 0) ≠ 0
    rw [hword]
    decide)).1
  rw [show s₃.windowsListHead = [] from hlist] at hlive
  cases hlive

end MeghaOS
