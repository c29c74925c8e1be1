import Mathlib.Tactic.Common

/-!
# Text terminals

A `Terminal` is a grid of cells with a cursor. It wraps at the end of a line, and at the end of the
last line it scrolls: all lines move up by one and the last becomes blank. What a cell holds is
arbitrary, and what is printed does not depend on it: writing and then rendering every cell is
rendering and then writing (`write_map`).
-/

namespace MeghaOS

/-- A grid of cells, by row and column, and the position of the cursor. -/
structure Terminal (α : Type) where
  cell : Nat → Nat → α
  row : Nat
  column : Nat

namespace Terminal

variable {α β : Type}

/-- The size of the grid, and the distance of the tab stops. -/
structure Shape where
  rows : Nat
  columns : Nat
  tabStop : Nat

/-- What is written to a terminal. -/
inductive Input (α : Type)
  | print (a : α)
  | newline
  | carriageReturn
  | tab

/-- Render what is printed. -/
def Input.map (f : α → β) : Input α → Input β
  | print a => print (f a)
  | newline => newline
  | carriageReturn => carriageReturn
  | tab => tab

/-- Go to the start of the next line, which below the last line is a new blank one. -/
def nextLine (shape : Shape) (blank : α) (t : Terminal α) : Terminal α :=
  if t.row + 1 < shape.rows then { t with row := t.row + 1, column := 0 }
  else { t with
    cell := fun r c => if r + 1 < shape.rows then t.cell (r + 1) c else blank
    column := 0 }

/-- Go to a later column, or to the next line when the line ends before it. -/
def advance (shape : Shape) (blank : α) (column : Nat) (t : Terminal α) : Terminal α :=
  if column < shape.columns then { t with column } else t.nextLine shape blank

/-- The cell under the cursor receives what is printed. -/
def print (a : α) (t : Terminal α) : Terminal α :=
  { t with cell := fun r c => if r = t.row ∧ c = t.column then a else t.cell r c }

/-- Write to a terminal. -/
def input (shape : Shape) (blank : α) (t : Terminal α) : Input α → Terminal α
  | .print a => (t.print a).advance shape blank (t.column + 1)
  | .newline => t.nextLine shape blank
  | .carriageReturn => { t with column := 0 }
  | .tab => t.advance shape blank ((t.column / shape.tabStop + 1) * shape.tabStop)

/-- Write one after the other. -/
def write (shape : Shape) (blank : α) (t : Terminal α) (inputs : List (Input α)) : Terminal α :=
  inputs.foldl (input shape blank) t

/-- Render every cell. -/
def map (f : α → β) (t : Terminal α) : Terminal β where
  cell r c := f (t.cell r c)
  row := t.row
  column := t.column

variable {shape : Shape} {blank : α} {t : Terminal α}

/-! ## The cursor -/

/-- The cursor is on a cell. -/
structure InRange (shape : Shape) (t : Terminal α) : Prop where
  row : t.row < shape.rows
  column : t.column < shape.columns

theorem InRange.nextLine (h : InRange shape t) : InRange shape (t.nextLine shape blank) := by
  have hcolumns : 0 < shape.columns := Nat.zero_lt_of_lt h.column
  unfold Terminal.nextLine
  split
  · exact ⟨‹_›, hcolumns⟩
  · exact ⟨h.row, hcolumns⟩

theorem InRange.advance (h : InRange shape t) (column : Nat) :
    InRange shape (t.advance shape blank column) := by
  unfold Terminal.advance
  split
  · exact ⟨h.row, ‹_›⟩
  · exact h.nextLine

/-- Writing keeps the cursor on a cell. -/
theorem InRange.input (h : InRange shape t) (i : Input α) :
    InRange shape (t.input shape blank i) := by
  cases i with
  | print a => exact InRange.advance (t := t.print a) ⟨h.row, h.column⟩ _
  | newline => exact h.nextLine
  | carriageReturn => exact ⟨h.row, Nat.zero_lt_of_lt h.column⟩
  | tab => exact h.advance _

/-- Writing keeps the cursor on a cell. -/
theorem InRange.write (h : InRange shape t) (inputs : List (Input α)) :
    InRange shape (t.write shape blank inputs) := by
  induction inputs generalizing t with
  | nil => exact h
  | cons i inputs ih => exact ih (h.input i)

/-! ## What the cells hold -/

theorem nextLine_cell {P : α → Prop} (hblank : P blank) (ht : ∀ r c, P (t.cell r c)) (r c : Nat) :
    P ((t.nextLine shape blank).cell r c) := by
  unfold nextLine
  split
  · exact ht r c
  · dsimp only
    split
    · exact ht (r + 1) c
    · exact hblank

theorem advance_cell {P : α → Prop} (hblank : P blank) (ht : ∀ r c, P (t.cell r c))
    (column r c : Nat) :
    P ((t.advance shape blank column).cell r c) := by
  unfold advance
  split
  · exact ht r c
  · exact nextLine_cell hblank ht r c

theorem input_cell {P : α → Prop} (hblank : P blank) (ht : ∀ r c, P (t.cell r c)) {i : Input α}
    (hi : ∀ a, i = .print a → P a) (r c : Nat) : P ((t.input shape blank i).cell r c) := by
  cases i with
  | print a =>
    refine advance_cell hblank (fun r c => ?_) _ r c
    show P (if r = t.row ∧ c = t.column then a else t.cell r c)
    split
    · exact hi a rfl
    · exact ht r c
  | newline => exact nextLine_cell hblank ht r c
  | carriageReturn => exact ht r c
  | tab => exact advance_cell hblank ht _ r c

/-- Every cell is blank, shows what was printed, or is one of those there were. -/
theorem write_cell {P : α → Prop} (hblank : P blank) (ht : ∀ r c, P (t.cell r c))
    {inputs : List (Input α)}
    (hinputs : ∀ a, .print a ∈ inputs → P a) (r c : Nat) :
      P ((t.write shape blank inputs).cell r c) := by
  induction inputs generalizing t with
  | nil => exact ht r c
  | cons i inputs ih =>
    refine ih (input_cell hblank ht fun a ha => ?_) fun a ha => hinputs a (.tail _ ha)
    exact hinputs a (ha ▸ .head _)

/-- What is printed can be seen, when there is more than one line. -/
theorem print_shown (h : InRange shape t) (hrows : 2 ≤ shape.rows) (a : α) :
    ∃ r < shape.rows, ∃ c < shape.columns, (t.input shape blank (.print a)).cell r c = a := by
  obtain ⟨hrow, hcolumn⟩ := h
  have hprint : (t.print a).cell t.row t.column = a := if_pos ⟨rfl, rfl⟩
  show ∃ r < shape.rows, ∃ c < shape.columns,
    ((t.print a).advance shape blank (t.column + 1)).cell r c = a
  unfold advance
  split
  · exact ⟨t.row, hrow, t.column, hcolumn, hprint⟩
  unfold nextLine
  split
  · exact ⟨t.row, hrow, t.column, hcolumn, hprint⟩
  · -- the line has moved up
    have hlast : ¬ t.row + 1 < shape.rows := ‹_›
    refine ⟨t.row - 1, by omega, t.column, hcolumn, ?_⟩
    have hup : t.row - 1 + 1 = t.row := by omega
    show (if t.row - 1 + 1 < shape.rows then (t.print a).cell (t.row - 1 + 1) t.column else blank) =
      a
    rw [hup, if_pos hrow, hprint]

/-! ## Rendering -/

theorem nextLine_map (f : α → β) :
    (t.map f).nextLine shape (f blank) = (t.nextLine shape blank).map f := by
  unfold nextLine map
  dsimp only
  split
  · rfl
  · exact congrArg (fun cell => Terminal.mk cell t.row 0)
      (funext₂ fun r c => (apply_ite f _ _ _).symm)

theorem advance_map (f : α → β) (column : Nat) :
    (t.map f).advance shape (f blank) column = (t.advance shape blank column).map f := by
  unfold advance
  split
  · rfl
  · exact nextLine_map f

theorem print_map (f : α → β) (a : α) : (t.map f).print (f a) = (t.print a).map f :=
  congrArg (fun cell => Terminal.mk cell t.row t.column)
    (funext₂ fun _ _ => (apply_ite f _ _ _).symm)

theorem input_map (f : α → β) (i : Input α) :
    (t.map f).input shape (f blank) (i.map f) = (t.input shape blank i).map f := by
  cases i with
  | print a =>
    show ((t.map f).print (f a)).advance shape (f blank) (t.column + 1) = _
    rw [print_map, advance_map]
    rfl
  | newline => exact nextLine_map f
  | carriageReturn => rfl
  | tab => exact advance_map f _

/-- Rendering before or after writing makes no difference. -/
theorem write_map (f : α → β) (inputs : List (Input α)) :
    (t.map f).write shape (f blank) (inputs.map (Input.map f)) =
      (t.write shape blank inputs).map f := by
  induction inputs generalizing t with
  | nil => rfl
  | cons i inputs ih =>
    rw [List.map_cons, write, List.foldl_cons, input_map]
    exact ih

end Terminal

end MeghaOS
