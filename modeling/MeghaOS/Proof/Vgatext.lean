import MeghaOS.Vgatext

/-!
# The cursor of the text display

`OnScreen` is what the next character needs of the cursor. `kdisp_putc` keeps it from wherever it
holds, since the only thing it does before the cursor is checked again is to move it one place, to
the next tab stop or to the next line. What breaks it is `kdisp_init` on a screen whose last cell is
in use, and `kdisp_ioctl` with coordinates it stores first and checks against the wrong bound.
-/

namespace MeghaOS

/-! ## Calls -/

/-- A call to the display driver. -/
inductive DispCall
  | putc (c : Int8)
  | ioctl (request : DisplayControls)
  deriving DecidableEq

namespace DisplayControls

/-- The coordinates are those of a cell, or of the end of a line that is not the last, and the
attribute is a byte. -/
def InRange : DisplayControls → Prop
  | .setcoords row column =>
    row < maxVgaRows ∧ column ≤ maxVgaColumns ∧
      row * maxVgaColumns + column < maxVgaRows * maxVgaColumns
  | .setattr attr => attr ≤ 255
  | _ => True

instance : DecidablePred InRange := fun r => by
  cases r <;> unfold InRange <;> infer_instance

end DisplayControls

namespace DispCall

/-- The request of the call, if it is one, is in range. -/
def InRange : DispCall → Prop
  | .putc _ => True
  | .ioctl request => request.InRange

/-- The state after a call. -/
def run (v : VgaText) : DispCall → VgaText
  | .putc c => v.kdispPutc c
  | .ioctl request => (v.kdispIoctl request).2

/-- A call that fails leaves cursor and attribute unchanged. -/
def KeepsOnFailure (v : VgaText) : DispCall → Prop
  | .putc _ => True
  | .ioctl request => (v.kdispIoctl request).1.1 = kernelExitFailure →
      (v.kdispIoctl request).2.row = v.row ∧ (v.kdispIoctl request).2.column = v.column ∧
        (v.kdispIoctl request).2.textAttr = v.textAttr

end DispCall

namespace VgaText

/-- The state after a sequence of calls. -/
def runs (v : VgaText) (calls : List DispCall) : VgaText := calls.foldl DispCall.run v

/-- Every write that the driver made is to a cell of the screen. -/
def WritesOk (v : VgaText) : Prop := ∀ i ∈ v.writes, i < maxVgaRows * maxVgaColumns

/-- Every write of a run is to the screen, and no call of it that fails changes cursor or
attribute. -/
def Orderly (v : VgaText) (calls : List DispCall) : Prop :=
  (v.runs calls).WritesOk ∧
    ∀ before call after, calls = before ++ call :: after → call.KeepsOnFailure (v.runs before)

/-- The display after `kdisp_init` on a screen at boot. -/
def atInit (inb : UInt32 → UInt8) (vgab : UInt32 → UInt16) : VgaText := kdispInit inb { vgab }

/-- The cursor is where the next character can be put. -/
structure OnScreen (v : VgaText) : Prop where
  row_lt : v.row < maxVgaRows
  column_le : v.column ≤ maxVgaColumns
  index_lt : v.row * maxVgaColumns + v.column < maxVgaRows * maxVgaColumns

variable {v : VgaText} {c : Int8} {calls : List DispCall}

/-! ## What the driver leaves as it was -/

/-- Telling the display controller the cursor changes nothing of the screen. -/
@[simp] theorem sUpdateCursor_row : (sUpdateCursor v).row = v.row := rfl
@[simp] theorem sUpdateCursor_column : (sUpdateCursor v).column = v.column := rfl
@[simp] theorem sUpdateCursor_textAttr : (sUpdateCursor v).textAttr = v.textAttr := rfl
@[simp] theorem sUpdateCursor_writes : (sUpdateCursor v).writes = v.writes := rfl

/-- Scrolling moves the cursor to the start of its line. -/
@[simp] theorem kdispScrollDown_column : (kdispScrollDown v).column = 0 := rfl
@[simp] theorem kdispScrollDown_textAttr : (kdispScrollDown v).textAttr = v.textAttr := rfl
@[simp] theorem kdispScrollDown_writes :
    (kdispScrollDown v).writes = v.writes ++ scrolledWords := rfl

/-- Scrolling stores to cells of the screen only, wherever the cursor is. -/
theorem scrolledWords_lt {i : UInt32} (h : i ∈ scrolledWords) : i < maxVgaRows * maxVgaColumns := by
  obtain ⟨p, hp, rfl⟩ := List.mem_map.1 h
  have hp : p < 4000 := List.mem_range.1 hp
  have hindex : p.toUInt32.toNat = p := Nat.mod_eq_of_lt (by omega)
  refine UInt32.lt_iff_toNat_lt.2 ?_
  rw [hindex]
  exact hp

/-- What was written before decides. -/
theorem kdispScrollDown_writesOk : (kdispScrollDown v).WritesOk ↔ v.WritesOk := by
  simp only [WritesOk, kdispScrollDown_writes, List.mem_append]
  exact ⟨fun h i hi => h i (.inl hi), fun h i hi => hi.elim (h i) scrolledWords_lt⟩

/-- From the row below the last, scrolling comes back to the last. -/
theorem kdispScrollDown_row (h : v.row = maxVgaRows) : (kdispScrollDown v).row = 49 := by
  simp only [kdispScrollDown, sUpdateCursor_row, h]
  rfl

/-! ## `kdisp_putc` -/

/-- A character that is stored. -/
def Printable (c : Int8) : Prop := c ≠ 13 ∧ c ≠ 10 ∧ c ≠ 9

instance : DecidablePred Printable := fun c => inferInstanceAs (Decidable (c ≠ 13 ∧ c ≠ 10 ∧ c ≠ 9))

/-- A character that is stored goes to the cell under the cursor. -/
theorem putCharacter_printable (h : Printable c) :
    (putCharacter c v).writes = v.writes ++ [v.row * maxVgaColumns + v.column] := by
  obtain ⟨hr, hn, ht⟩ := h
  simp [putCharacter, hr, hn, ht]

/-- The attribute stays. -/
@[simp] theorem putCharacter_textAttr : (putCharacter c v).textAttr = v.textAttr := by
  unfold putCharacter
  split <;> [rfl; split <;> [rfl; split <;> rfl]]

/-- The only index `kdisp_putc` may write to is that of the cursor. -/
theorem putCharacter_writes :
    (putCharacter c v).writes = v.writes ∨
      (putCharacter c v).writes = v.writes ++ [v.row * maxVgaColumns + v.column] := by
  by_cases h : Printable c
  · exact .inr (putCharacter_printable h)
  · left
    unfold putCharacter
    split <;> [rfl; split <;> [rfl; split <;> [rfl; exact absurd ⟨‹_›, ‹_›, ‹_›⟩ h]]]

/-- A character moves the cursor along its line, or to the start of the next. -/
theorem putCharacter_row (h : v.row < maxVgaRows) :
    (putCharacter c v).row < maxVgaRows ∨
      (putCharacter c v).row = maxVgaRows ∧ (putCharacter c v).column = 0 := by
  by_cases hn : c = 10
  · subst hn
    show v.row + 1 < maxVgaRows ∨ v.row + 1 = maxVgaRows ∧ (0 : UInt32) = 0
    grind
  · left
    simp only [putCharacter, if_neg hn]
    split <;> [exact h; split <;> exact h]

/-- The middle of `kdisp_putc`, where a full line is left. -/
def wrap (v : VgaText) : VgaText :=
  if v.column ≥ maxVgaColumns then { v with row := v.row + 1, column := 0 } else v

/-- A cursor behind a line moves to the next. -/
theorem wrap_bounds (h : v.row < maxVgaRows ∨ v.row = maxVgaRows ∧ v.column = 0) :
    v.wrap.row ≤ maxVgaRows ∧ v.wrap.column < maxVgaColumns := by
  unfold wrap
  split <;> grind

/-- Moving the cursor writes nothing. -/
@[simp] theorem wrap_writes : v.wrap.writes = v.writes := by unfold wrap; split <;> rfl
@[simp] theorem wrap_textAttr : v.wrap.textAttr = v.textAttr := by unfold wrap; split <;> rfl

/-- The end of `kdisp_putc`, where a full screen is scrolled. -/
def scroll (v : VgaText) : VgaText := if v.row ≥ maxVgaRows then kdispScrollDown v else v

/-- A cursor below the screen moves up. -/
theorem scroll_bounds (h : v.row ≤ maxVgaRows) (hc : v.column < maxVgaColumns) :
    v.scroll.row < maxVgaRows ∧ v.scroll.column < maxVgaColumns := by
  unfold scroll
  split
  case isTrue hge =>
    have hrow : v.row = maxVgaRows := by grind
    rw [kdispScrollDown_row hrow, kdispScrollDown_column]
    decide
  case isFalse hlt => exact ⟨by grind, hc⟩

/-- Scrolling keeps the writes on the screen. -/
theorem scroll_writesOk : v.scroll.WritesOk ↔ v.WritesOk := by
  unfold scroll
  split
  · exact kdispScrollDown_writesOk
  · rfl

/-- So does moving the cursor. -/
theorem wrap_writesOk : v.wrap.WritesOk ↔ v.WritesOk := by rw [WritesOk, wrap_writes, WritesOk]

/-- The attribute stays. -/
@[simp] theorem scroll_textAttr : v.scroll.textAttr = v.textAttr := by unfold scroll; split <;> rfl

/-- `kdisp_putc` in its four parts. -/
theorem kdispPutc_eq : kdispPutc c v = sUpdateCursor (putCharacter c v).wrap.scroll := rfl

/-- Only the `switch` of `kdisp_putc` may write elsewhere. -/
theorem kdispPutc_writesOk : (kdispPutc c v).WritesOk ↔ (putCharacter c v).WritesOk := by
  rw [kdispPutc_eq, WritesOk, sUpdateCursor_writes]
  exact scroll_writesOk.trans wrap_writesOk

/-- The attribute stays. -/
@[simp] theorem kdispPutc_textAttr : (kdispPutc c v).textAttr = v.textAttr := by
  simp [kdispPutc_eq]

/-- After `kdisp_putc` the cursor is on a cell. -/
theorem kdispPutc_bounds (h : v.row < maxVgaRows) :
    (kdispPutc c v).row < maxVgaRows ∧ (kdispPutc c v).column < maxVgaColumns := by
  obtain ⟨hrow, hcolumn⟩ := wrap_bounds (putCharacter_row (c := c) h)
  rw [kdispPutc_eq, sUpdateCursor_row, sUpdateCursor_column]
  exact scroll_bounds hrow hcolumn

/-- A position inside the screen is that of a cell. -/
theorem OnScreen.of_lt (hr : v.row < maxVgaRows) (hc : v.column < maxVgaColumns) : OnScreen v :=
  ⟨hr, by grind, by grind⟩

/-- `kdisp_putc` leaves the cursor on the screen. -/
theorem OnScreen.kdispPutc (h : OnScreen v) : OnScreen (kdispPutc c v) :=
  OnScreen.of_lt (kdispPutc_bounds h.row_lt).1 (kdispPutc_bounds h.row_lt).2

/-- `kdisp_putc` writes to the screen when the cursor is on it. -/
theorem OnScreen.writesOk (h : OnScreen v) (hw : v.WritesOk) :
    (VgaText.kdispPutc c v).WritesOk := by
  refine kdispPutc_writesOk.2 fun i hi => ?_
  rcases putCharacter_writes (c := c) (v := v) with heq | heq
  · exact hw i (heq ▸ hi)
  · rw [heq, List.mem_append, List.mem_singleton] at hi
    rcases hi with hi | rfl
    · exact hw i hi
    · exact h.index_lt

/-- A stored character is written at the cursor. -/
theorem writesOk_printable_iff (hp : Printable c) :
    (VgaText.kdispPutc c v).WritesOk ↔
      v.WritesOk ∧ v.row * maxVgaColumns + v.column < maxVgaRows * maxVgaColumns := by
  rw [kdispPutc_writesOk]
  simp only [WritesOk, putCharacter_printable hp, List.mem_append, List.mem_singleton, or_imp,
    forall_and, forall_eq]

/-! ## `kdisp_ioctl` -/

/-- No request writes to the screen. -/
@[simp] theorem kdispIoctl_writes {request : DisplayControls} :
    (kdispIoctl request v).2.writes = v.writes := by
  cases request with
  | setcoords row column => simp only [kdispIoctl]; split <;> rfl
  | setattr attr => simp only [kdispIoctl]; split <;> [rfl; split <;> rfl]
  | _ => rfl

/-- A request in range succeeds. -/
theorem kdispIoctl_of_inRange {request : DisplayControls} (h : request.InRange) :
    (kdispIoctl request v).1.1 = kernelExitSuccess := by
  cases request with
  | setcoords row column =>
    obtain ⟨hr, hc, -⟩ := h
    have hok : ¬ (row > maxVgaRows ∨ column > maxVgaColumns) := by grind
    simp only [kdispIoctl, if_neg hok]
  | setattr attr =>
    have hok : ¬ attr > 255 := by
      have hle : attr ≤ 255 := h
      grind
    simp only [kdispIoctl, if_neg hok]
    split <;> rfl
  | _ => rfl

/-- A request in range leaves the cursor on the screen. -/
theorem OnScreen.kdispIoctl {request : DisplayControls} (h : OnScreen v) (hr : request.InRange) :
    OnScreen (VgaText.kdispIoctl request v).2 := by
  cases request with
  | setcoords row column =>
    obtain ⟨hrow, hcolumn, hindex⟩ := hr
    have hok : ¬ (row > maxVgaRows ∨ column > maxVgaColumns) := by grind
    simp only [VgaText.kdispIoctl, if_neg hok]
    exact ⟨hrow, hcolumn, hindex⟩
  | setattr attr =>
    simp only [VgaText.kdispIoctl]
    split <;> [exact ⟨h.row_lt, h.column_le, h.index_lt⟩; split] <;>
      exact ⟨h.row_lt, h.column_le, h.index_lt⟩
  | _ => exact h

/-- An attribute that is no byte is refused after it is stored. -/
theorem kdispIoctl_setattr_refused {attr : UInt32} (h : attr > 255) :
    kdispIoctl (.setattr attr) v =
      ((kernelExitFailure, []), { v with textAttr := attr, errorNumber := .errInvalidRange }) := by
  simp only [kdispIoctl, if_pos h]

/-- Coordinates that are refused are stored before. -/
theorem kdispIoctl_setcoords_refused {row column : UInt32}
    (h : row > maxVgaRows ∨ column > maxVgaColumns) :
    kdispIoctl (.setcoords row column) v =
      ((kernelExitFailure, []), { v with row, column, errorNumber := .errInvalidRange }) := by
  simp only [kdispIoctl, if_pos h]

/-- Coordinates up to the bounds, and they are no cell's, are accepted. -/
theorem kdispIoctl_setcoords_accepted {row column : UInt32}
    (h : ¬ (row > maxVgaRows ∨ column > maxVgaColumns)) :
    kdispIoctl (.setcoords row column) v =
      ((kernelExitSuccess, []), sUpdateCursor { v with row, column }) := by
  simp only [kdispIoctl, if_neg h]

/-! ## `kdisp_init` -/

/-- The last cell holds a space. -/
def LastCellBlank (vgab : UInt32 → UInt16) : Prop := character (vgab vgaMaxIndex) = 32

instance : DecidablePred LastCellBlank := fun vgab =>
  inferInstanceAs (Decidable (character (vgab vgaMaxIndex) = 32))

/-- One more word is scanned. -/
theorem scan_succ (vgab : UInt32 → UInt16) (n : Nat) :
    scan vgab (n + 1) =
      if character (vgab n.toUInt32) ≠ 32 then n.toUInt16 else scan vgab n := by
  rw [scan, List.range_succ, List.foldl_append]
  rfl

/-- The scan of some cells ends at one of them. -/
theorem scan_lt (vgab : UInt32 → UInt16) {n : Nat} (hn : n < 4000) :
    (scan vgab (n + 1)).toNat < n + 1 := by
  induction n with
  | zero => rw [scan_succ]; split <;> [decide; exact Nat.zero_lt_one]
  | succ n ih =>
    rw [scan_succ]
    split
    · rw [Nat.toUInt16_eq, UInt16.toNat_ofNat']
      omega
    · have := ih (by omega)
      omega

/-- The scan ends at the last cell when that is in use. -/
theorem scan_of_used {vgab : UInt32 → UInt16} (h : ¬ LastCellBlank vgab) :
    scan vgab 4000 = 3999 := by
  rw [scan_succ]
  exact if_pos h

/-- The scan ends before the last cell when that is blank. -/
theorem scan_of_blank {vgab : UInt32 → UInt16} (h : LastCellBlank vgab) :
    (scan vgab 4000).toNat < 3999 := by
  rw [scan_succ, if_neg fun hne => hne h]
  exact scan_lt vgab (by decide)

section Init

variable {inb : UInt32 → UInt8} {vgab : UInt32 → UInt16}

/-- The row after `kdisp_init`. -/
theorem atInit_row : (atInit inb vgab).row =
    ((scan vgab 4000 + 1).toUInt32 / maxVgaColumns).toUInt8.toUInt32 := by
  simp only [atInit, kdispInit]
  split <;> split <;> split <;> rfl

/-- The column after it. -/
theorem atInit_column : (atInit inb vgab).column =
    ((scan vgab 4000 + 1).toUInt32 % maxVgaColumns).toUInt8.toUInt32 := by
  simp only [atInit, kdispInit]
  split <;> split <;> split <;> rfl

/-- The attribute after it. -/
theorem atInit_textAttr : (atInit inb vgab).textAttr = lightGray := by
  simp only [atInit, kdispInit]
  split <;> split <;> split <;> rfl

/-- `kdisp_init` writes to the screen when it scrolls, and only then. -/
theorem atInit_writesOk : (atInit inb vgab).WritesOk := by
  have hblank : VgaText.WritesOk { vgab } := fun i hi => absurd hi List.not_mem_nil
  unfold atInit kdispInit
  extract_lets h scrolled cursor grey ioas port
  have hscrolled : scrolled.WritesOk := by
    by_cases hfull : h.toUInt32 > vgaMaxIndex
    · rw [show scrolled = kdispScrollDown { vgab } from if_pos hfull]
      exact kdispScrollDown_writesOk.2 hblank
    · rw [show scrolled = { vgab } from if_neg hfull]
      exact hblank
  clear_value scrolled
  have hgrey : grey.WritesOk := hscrolled
  have hport : port.WritesOk := by
    show (if inb 0x3CC &&& 1 ≠ 0 then _ else grey : VgaText).WritesOk
    split <;> exact hgrey
  split <;> exact hport

/-- `kdisp_init` leaves the cursor on the screen when the last cell is blank. -/
theorem onScreen_atInit (h : LastCellBlank vgab) : OnScreen (atInit inb vgab) := by
  have hscan := scan_of_blank h
  have hcell : ((scan vgab 4000 + 1).toUInt32).toNat = (scan vgab 4000).toNat + 1 := by
    rw [UInt16.toNat_toUInt32, UInt16.toNat_add, UInt16.toNat_one]
    omega
  apply OnScreen.of_lt
  · rw [atInit_row, UInt32.lt_iff_toNat_lt, UInt8.toNat_toUInt32, UInt32.toNat_toUInt8,
      UInt32.toNat_div, hcell]
    show ((scan vgab 4000).toNat + 1) / 80 % 2 ^ 8 < 50
    omega
  · rw [atInit_column, UInt32.lt_iff_toNat_lt, UInt8.toNat_toUInt32, UInt32.toNat_toUInt8,
      UInt32.toNat_mod, hcell]
    show ((scan vgab 4000).toNat + 1) % 80 % 2 ^ 8 < 80
    omega

/-- `kdisp_init` leaves the cursor below the screen when the last cell is in use, though it
scrolls. -/
theorem atInit_of_used (h : ¬ LastCellBlank vgab) :
    (atInit inb vgab).row = maxVgaRows ∧ (atInit inb vgab).column = 0 := by
  rw [atInit_row, atInit_column, scan_of_used h]
  decide

end Init

/-! ## Runs -/

/-- A run call by call. -/
@[simp] theorem runs_nil : v.runs [] = v := rfl
@[simp] theorem runs_cons {call : DispCall} : v.runs (call :: calls) = (call.run v).runs calls :=
  rfl

/-- A call in range keeps the cursor on the screen. -/
theorem OnScreen.run {call : DispCall} (h : OnScreen v) (hr : call.InRange) :
    OnScreen (call.run v) := by
  cases call with
  | putc c => exact h.kdispPutc
  | ioctl request => exact h.kdispIoctl hr

/-- A call writes to the screen when the cursor is on it. -/
theorem OnScreen.writesOk_run {call : DispCall} (h : OnScreen v) (hw : v.WritesOk) :
    (call.run v).WritesOk := by
  cases call with
  | putc c => exact h.writesOk hw
  | ioctl request =>
    show ∀ i ∈ (VgaText.kdispIoctl request v).2.writes, _
    rw [kdispIoctl_writes]
    exact hw

/-- A call in range does not fail. -/
theorem keepsOnFailure_of_inRange {call : DispCall} (hr : call.InRange) :
    call.KeepsOnFailure v := by
  cases call with
  | putc c => trivial
  | ioctl request =>
    intro hfail
    rw [kdispIoctl_of_inRange hr] at hfail
    exact absurd hfail (by decide)

/-- A run of calls in range, from a cursor on the screen, writes to the screen. -/
theorem OnScreen.writesOk_runs (h : OnScreen v) (hw : v.WritesOk)
    (hr : ∀ call ∈ calls, call.InRange) :
    (v.runs calls).WritesOk := by
  induction calls generalizing v with
  | nil => exact hw
  | cons call calls ih =>
    rw [runs_cons]
    exact ih (h.run (hr call List.mem_cons_self)) (h.writesOk_run hw)
      fun call hcall => hr call (List.mem_cons_of_mem _ hcall)

/-- A run of calls in range, from a cursor on the screen, is orderly. -/
theorem OnScreen.orderly (h : OnScreen v) (hw : v.WritesOk) (hr : ∀ call ∈ calls, call.InRange) :
    v.Orderly calls := by
  refine ⟨h.writesOk_runs hw hr, fun before call after heq => ?_⟩
  refine keepsOnFailure_of_inRange (hr call ?_)
  rw [heq]
  exact List.mem_append_right _ List.mem_cons_self

/-- What a run writes is still recorded when the run goes on. -/
theorem WritesOk.of_run {call : DispCall} (h : (call.run v).WritesOk) : v.WritesOk := by
  cases call with
  | putc c =>
    intro i hi
    refine kdispPutc_writesOk.1 h i ?_
    rcases putCharacter_writes (c := c) (v := v) with heq | heq <;> rw [heq] <;> simp [hi]
  | ioctl request =>
    intro i hi
    refine h i ?_
    show i ∈ (VgaText.kdispIoctl request v).2.writes
    rwa [kdispIoctl_writes]

/-- A request between two stored characters, from a cursor inside the screen, is orderly exactly
when it is in range. -/
theorem inRange_of_orderly {request : DisplayControls} (hr : v.row < maxVgaRows)
    (hc : v.column < maxVgaColumns) (ha : v.textAttr = lightGray) (hp : Printable c)
    (hkeeps : (DispCall.ioctl request).KeepsOnFailure v)
    (hw : (kdispPutc c (kdispIoctl request v).2).WritesOk) : request.InRange := by
  cases request with
  | setattr attr =>
    by_contra hattr
    have hbig : attr > 255 := by
      have hnot : ¬ attr ≤ 255 := hattr
      grind
    rw [DispCall.KeepsOnFailure, kdispIoctl_setattr_refused hbig] at hkeeps
    have heq : attr = lightGray := (hkeeps rfl).2.2.trans ha
    rw [heq] at hbig
    exact absurd hbig (by decide)
  | setcoords row column =>
    by_cases hrefused : row > maxVgaRows ∨ column > maxVgaColumns
    · rw [DispCall.KeepsOnFailure, kdispIoctl_setcoords_refused hrefused] at hkeeps
      obtain ⟨hrow, hcolumn, -⟩ := hkeeps rfl
      have hrow : row = v.row := hrow
      have hcolumn : column = v.column := hcolumn
      grind
    · rw [kdispIoctl_setcoords_accepted hrefused] at hw
      have hindex : row * maxVgaColumns + column < maxVgaRows * maxVgaColumns :=
        ((writesOk_printable_iff hp).1 hw).2
      exact ⟨by grind, by grind, hindex⟩
  | _ => trivial

/-- After `kdisp_init`, a stored character goes to the screen exactly when the last cell was
blank. -/
theorem writesOk_putc_atInit_iff {inb : UInt32 → UInt8} {vgab : UInt32 → UInt16}
    (hp : Printable c) :
    (kdispPutc c (atInit inb vgab)).WritesOk ↔ LastCellBlank vgab := by
  constructor
  · intro hw
    by_contra hused
    have hindex := ((writesOk_printable_iff hp).1 hw).2
    rw [(atInit_of_used hused).1, (atInit_of_used hused).2] at hindex
    exact absurd hindex (by decide)
  · intro hblank
    exact (onScreen_atInit hblank).writesOk atInit_writesOk

/-- Every run from `kdisp_init` on a screen whose last cell is blank, with coordinates and
attributes in range, is orderly. A request that a run makes between two stored characters shows that
neither condition can be left out. -/
theorem orderly_atInit (inb : UInt32 → UInt8) (vgab : UInt32 → UInt16) :
    (∀ calls, LastCellBlank vgab → (∀ call ∈ calls, call.InRange) →
      (atInit inb vgab).Orderly calls) ∧
      ∀ c request, Printable c →
        ((atInit inb vgab).Orderly [.putc c, .ioctl request, .putc c] ↔
          LastCellBlank vgab ∧ request.InRange) := by
  have hrun : ∀ calls, LastCellBlank vgab → (∀ call ∈ calls, call.InRange) →
      (atInit inb vgab).Orderly calls := by
    intro calls hblank hr
    exact (onScreen_atInit hblank).orderly atInit_writesOk hr
  refine ⟨hrun, fun c request hp => ⟨fun horderly => ?_, fun ⟨hblank, hr⟩ => ?_⟩⟩
  · obtain ⟨hw, hkeeps⟩ := horderly
    have hthird : (DispCall.run (DispCall.run (kdispPutc c (atInit inb vgab)) (.ioctl request))
        (.putc c)).WritesOk := hw
    have hsecond : (DispCall.run (kdispPutc c (atInit inb vgab)) (.ioctl request)).WritesOk :=
      hthird.of_run
    have hfirst : (kdispPutc c (atInit inb vgab)).WritesOk := hsecond.of_run
    have hblank := (writesOk_putc_atInit_iff hp).1 hfirst
    have hstart : OnScreen (atInit inb vgab) := onScreen_atInit hblank
    obtain ⟨hrow, hcolumn⟩ := kdispPutc_bounds (c := c) hstart.row_lt
    have hattr : (kdispPutc c (atInit inb vgab)).textAttr = lightGray := by
      rw [kdispPutc_textAttr, atInit_textAttr]
    exact ⟨hblank, inRange_of_orderly hrow hcolumn hattr hp
      (hkeeps [.putc c] (.ioctl request) [.putc c] rfl) hw⟩
  · refine hrun _ hblank fun call hcall => ?_
    simp only [List.mem_cons, List.not_mem_nil, or_false] at hcall
    rcases hcall with rfl | rfl | rfl <;> trivial

/-- On a blank screen, a character, coordinates, a colour and a tab. -/
theorem orderly_atInit_blank :
    LastCellBlank (fun _ => 32) ∧
      (atInit (fun _ => 0) fun _ => 32).Orderly
        [.putc 65, .ioctl (.setcoords 30 80), .ioctl (.setattr 0x1F), .putc 9] ∧
      (atInit (fun _ => 0) fun _ => 32).Orderly [.putc 65, .ioctl (.setcoords 49 79),
        .putc 65] := by
  have hblank : LastCellBlank (fun _ => 32) := by decide
  refine ⟨hblank, (orderly_atInit _ _).1 _ hblank ?_,
    ((orderly_atInit _ _).2 65 (.setcoords 49 79) (by decide)).2 ⟨hblank, by decide⟩⟩
  intro call hcall
  simp only [List.mem_cons, List.not_mem_nil, or_false] at hcall
  rcases hcall with rfl | rfl | rfl | rfl
  · trivial
  · show DisplayControls.InRange (.setcoords 30 80)
    decide
  · show DisplayControls.InRange (.setattr 0x1F)
    decide
  · trivial

/-- A full screen sends the first character below it, and so do the coordinates one row below it;
an attribute that is refused is kept. -/
theorem not_orderly :
    ¬ (atInit (fun _ => 0) fun _ => 65).Orderly [.putc 65] ∧
      ¬ (atInit (fun _ => 0) fun _ => 32).Orderly [.ioctl (.setcoords 50 0), .putc 65] ∧
      ¬ (atInit (fun _ => 0) fun _ => 32).Orderly [.ioctl (.setattr 256)] := by
  have hp : Printable 65 := by decide
  refine ⟨fun h => ?_, fun h => ?_, fun h => ?_⟩
  · exact absurd ((writesOk_putc_atInit_iff hp).1 h.1) (by decide)
  · have hindex := ((writesOk_printable_iff hp).1 h.1).2
    rw [DispCall.run, kdispIoctl_setcoords_accepted (by decide)] at hindex
    exact absurd hindex (by decide)
  · have hkeeps := h.2 [] (.ioctl (.setattr 256)) [] rfl
    rw [DispCall.KeepsOnFailure, kdispIoctl_setattr_refused (by decide)] at hkeeps
    have hattr : 256 = (atInit (fun _ => 0) fun _ => 32).textAttr := (hkeeps rfl).2.2
    rw [atInit_textAttr] at hattr
    exact absurd hattr (by decide)

end VgaText

end MeghaOS
