import MeghaOS.Lib.Terminal
import MeghaOS.Proof.Vgatext

/-!
# The text display as a terminal

`kdisp_putc` is a step of a terminal with 50 lines of 80 columns, whose cells are the words that
`cell` makes (`Shows.kdispPutc`). The word of a character of `0x80` or above is not the one it
should be: the character is widened with its sign, and the attribute is lost. Since what is printed
has no influence on where it is printed, two terminals that differ in this alone differ in the end
in the cells that still show such a character.
-/

namespace MeghaOS

open Terminal

namespace VgaText

variable {v : VgaText} {t : Terminal UInt16} {c : Int8} {attr : UInt32}

/-- The lines, columns and tab stops of the display. -/
def vgaShape : Shape := ⟨50, 80, 4⟩

/-- The index of the word of a cell. -/
def cellIndex (r c : Nat) : UInt32 := (r * 80 + c).toUInt32

/-- The display shows what is on the terminal, at least in the cells of the screen. -/
structure Shows (v : VgaText) (t : Terminal UInt16) : Prop where
  cells : ∀ r < 50, ∀ c < 80, v.vgab (cellIndex r c) = t.cell r c
  row : v.row.toNat = t.row
  column : v.column.toNat = t.column

/-! ## Cells -/

/-- The index of a cell does not wrap. -/
theorem toNat_cellIndex {r c : Nat} (hr : r < 50) (hc : c < 80) :
    (cellIndex r c).toNat = r * 80 + c :=
  Nat.mod_eq_of_lt (by omega)

/-- The first loop of `kdisp_scrollDown`, after some turns. -/
theorem foldl_copyLines (vgab : UInt32 → UInt16) {n : Nat} (hn : n ≤ 3920) (i : UInt32) :
    (List.range n).foldl
        (fun vgab p => Function.update vgab p.toUInt32 (vgab (p.toUInt32 + maxVgaColumns))) vgab i =
      if i.toNat < n then vgab (i + maxVgaColumns) else vgab i := by
  induction n generalizing i with
  | zero => rfl
  | succ n ih =>
    have hp : n.toUInt32.toNat = n := Nat.mod_eq_of_lt (by omega)
    have hread : (n.toUInt32 + maxVgaColumns).toNat = n + 80 := by
      rw [UInt32.toNat_add, hp]
      exact Nat.mod_eq_of_lt (show n + 80 < 2 ^ 32 by omega)
    rw [List.range_succ, List.foldl_append, List.foldl_cons, List.foldl_nil]
    by_cases hi : i = n.toUInt32
    · rw [hi, Function.update_self, ih (by omega), if_neg (by omega), if_pos (by omega)]
    · have hne : i.toNat ≠ n := fun heq => hi (UInt32.toNat_inj.1 (heq.trans hp.symm))
      rw [Function.update_of_ne hi, ih (by omega)]
      by_cases hlt : i.toNat < n
      · rw [if_pos hlt, if_pos (by omega)]
      · rw [if_neg hlt, if_neg (by omega)]

/-- The second loop of `kdisp_scrollDown`, after some turns. -/
theorem foldl_emptyLastLine (attr : UInt32) (vgab : UInt32 → UInt16) {n : Nat} (hn : n ≤ 80)
    (i : UInt32) :
    (List.range' 3920 n).foldl (fun vgab p => Function.update vgab p.toUInt32 (cell attr 32)) vgab
      i =
      if 3920 ≤ i.toNat ∧ i.toNat < 3920 + n then cell attr 32 else vgab i := by
  induction n generalizing i with
  | zero => exact (if_neg (by omega)).symm
  | succ n ih =>
    have hp : (3920 + n).toUInt32.toNat = 3920 + n := Nat.mod_eq_of_lt (by omega)
    rw [List.range'_1_concat, List.foldl_append, List.foldl_cons, List.foldl_nil]
    by_cases hi : i = (3920 + n).toUInt32
    · rw [hi, Function.update_self, if_pos (by omega)]
    · have hne : i.toNat ≠ 3920 + n := fun heq => hi (UInt32.toNat_inj.1 (heq.trans hp.symm))
      rw [Function.update_of_ne hi, ih (by omega)]
      by_cases hin : 3920 ≤ i.toNat ∧ i.toNat < 3920 + n
      · rw [if_pos hin, if_pos (by omega)]
      · rw [if_neg hin, if_neg (by omega)]

/-- The screen after `kdisp_scrollDown`. -/
theorem kdispScrollDown_cell {r c : Nat} (hr : r < 50) (hc : c < 80) :
    (kdispScrollDown v).vgab (cellIndex r c) =
      if r + 1 < 50 then v.vgab (cellIndex (r + 1) c) else cell v.textAttr 32 := by
  have hindex := toNat_cellIndex hr hc
  show emptyLastLine v.textAttr (copyLines v.vgab) (cellIndex r c) = _
  rw [emptyLastLine, foldl_emptyLastLine v.textAttr _ (Nat.le_refl 80), copyLines,
    foldl_copyLines v.vgab (Nat.le_refl 3920), hindex]
  by_cases hlast : r + 1 < 50
  · have hbelow : cellIndex r c + maxVgaColumns = cellIndex (r + 1) c := by
      refine UInt32.toNat_inj.1 ?_
      rw [UInt32.toNat_add, hindex, toNat_cellIndex hlast hc]
      show (r * 80 + c + 80) % 2 ^ 32 = (r + 1) * 80 + c
      omega
    rw [if_neg (by omega), if_pos (by omega), if_pos hlast, hbelow]
  · rw [if_pos (by omega), if_neg hlast]

/-! ## The simulation -/

/-- Telling the display controller the cursor changes no cell. -/
@[simp] theorem sUpdateCursor_vgab : (sUpdateCursor v).vgab = v.vgab := rfl

/-- The screen shows the same after it. -/
theorem Shows.sUpdateCursor (h : Shows v t) : Shows (VgaText.sUpdateCursor v) t :=
    ⟨h.cells, h.row, h.column⟩

/-- The end of `kdisp_putc` does nothing while the cursor is on the screen. -/
theorem scroll_of_lt (h : v.row.toNat < 50) : v.scroll = v :=
  if_neg fun hge => absurd (UInt32.le_iff_toNat_le.1 hge) (Nat.not_le.2 h)

/-- A cursor on its line stays there. -/
theorem wrap_of_lt (h : v.column.toNat < 80) : v.wrap = v :=
  if_neg fun hge => absurd (UInt32.le_iff_toNat_le.1 hge) (Nat.not_le.2 h)

/-- A cursor that was moved to the start of the next line. -/
theorem Shows.scroll (hcells : ∀ r < 50, ∀ c < 80, v.vgab (cellIndex r c) = t.cell r c)
    (hrow : v.row.toNat = t.row + 1) (hcolumn : v.column = 0) (ht : t.row < 50) :
    Shows v.scroll (t.nextLine vgaShape (cell v.textAttr 32)) := by
  by_cases hlast : t.row + 1 < 50
  · have hnext : t.nextLine vgaShape (cell v.textAttr 32) =
      { t with row := t.row + 1, column := 0 } :=
      if_pos hlast
    have hlt : v.row.toNat < 50 := by omega
    rw [scroll_of_lt hlt, hnext]
    exact ⟨hcells, hrow, by rw [hcolumn]; rfl⟩
  · have hbelow : v.row = maxVgaRows := UInt32.toNat_inj.1 (by show v.row.toNat = 50; omega)
    have hnext : t.nextLine vgaShape (cell v.textAttr 32) =
        { t with
          cell := fun r c => if r + 1 < 50 then t.cell (r + 1) c else cell v.textAttr 32
          column := 0 } := if_neg hlast
    rw [VgaText.scroll, if_pos (by rw [hbelow]; exact UInt32.le_refl _), hnext]
    refine ⟨fun r hr c hc => ?_, ?_, rfl⟩
    · rw [kdispScrollDown_cell hr hc]
      by_cases hr' : r + 1 < 50
      · rw [if_pos hr', hcells (r + 1) hr' c hc]
        exact (if_pos hr').symm
      · rw [if_neg hr']
        exact (if_neg hr').symm
    · rw [kdispScrollDown_row hbelow]
      show 49 = t.row
      omega

/-- A cursor that was moved to a later column of its line. -/
theorem Shows.wrap_scroll (hcells : ∀ r < 50, ∀ c < 80, v.vgab (cellIndex r c) = t.cell r c)
    (hrow : v.row.toNat = t.row) (ht : t.row < 50) {column : Nat}
    (hcolumn : v.column.toNat = column) :
    Shows v.wrap.scroll (t.advance vgaShape (cell v.textAttr 32) column) := by
  by_cases hlt : column < 80
  · have hnext : t.advance vgaShape (cell v.textAttr 32) column = { t with column } := if_pos hlt
    have hrow' : v.row.toNat < 50 := by omega
    have hcolumn' : v.column.toNat < 80 := by omega
    rw [wrap_of_lt hcolumn', scroll_of_lt hrow', hnext]
    exact ⟨hcells, hrow, hcolumn⟩
  · have hwrap : v.wrap = { v with row := v.row + 1, column := 0 } :=
      if_pos (UInt32.le_iff_toNat_le.2 (by rw [hcolumn]; exact Nat.not_lt.1 hlt))
    have hnext : t.advance vgaShape (cell v.textAttr 32) column = t.nextLine vgaShape
      (cell v.textAttr 32) :=
      if_neg hlt
    rw [hwrap, hnext]
    refine Shows.scroll (v := { v with row := v.row + 1, column := 0 }) hcells ?_ rfl ht
    show (v.row + 1).toNat = t.row + 1
    rw [UInt32.toNat_add, hrow]
    exact Nat.mod_eq_of_lt (show t.row + 1 < 2 ^ 32 by omega)

/-- What a character means to a terminal whose cells are made by `render`. -/
def inputOf {α : Type} (render : Int8 → α) (c : Int8) : Input α :=
  if c = 13 then .carriageReturn
  else if c = 10 then .newline
  else if c = 9 then .tab
  else .print (render c)

/-- The word that `kdisp_putc` stores for a character. -/
def storedCell (attr : UInt32) (c : Int8) : UInt16 := cell attr c.toInt32.toUInt32

/-- A coordinate of the screen moves on without wrapping. -/
theorem toNat_add_small {a b : UInt32} (ha : a.toNat < 80) (hb : b.toNat ≤ 4) :
    (a + b).toNat = a.toNat + b.toNat := by
  rw [UInt32.toNat_add]
  exact Nat.mod_eq_of_lt (by omega)

/-- The index that `kdisp_putc` writes to is that of the cell under the cursor. -/
theorem Shows.index (h : Shows v t) (hrow : t.row < 50) (hcolumn : t.column < 80) :
    v.row * maxVgaColumns + v.column = cellIndex t.row t.column := by
  refine UInt32.toNat_inj.1 ?_
  rw [toNat_cellIndex hrow hcolumn, UInt32.toNat_add, UInt32.toNat_mul, h.row, h.column]
  show (t.row * 80 % 2 ^ 32 + t.column) % 2 ^ 32 = t.row * 80 + t.column
  omega

/-- A tab moves to the next stop. -/
theorem Shows.tab (h : Shows v t) (hrow : t.row < 50) (hcolumn : t.column < 80) :
    Shows (wrap { v with column := v.column + (tabstop - v.column % tabstop) }).scroll
      (t.input vgaShape (cell v.textAttr 32) .tab) := by
  refine Shows.wrap_scroll (v := { v with column := v.column + (tabstop - v.column % tabstop) })
    h.cells
    h.row hrow ?_
  have hmod : (v.column % tabstop).toNat = t.column % 4 := by
    rw [UInt32.toNat_mod, h.column]
    rfl
  have hlt : t.column % 4 < 4 := Nat.mod_lt _ (by decide)
  have hstop : (tabstop - v.column % tabstop).toNat = 4 - t.column % 4 := by
    rw [UInt32.toNat_sub_of_le, hmod]
    · rfl
    · rw [UInt32.le_iff_toNat_le, hmod]
      exact Nat.le_of_lt hlt
  show (v.column + (tabstop - v.column % tabstop)).toNat = (t.column / 4 + 1) * 4
  rw [toNat_add_small (by rw [h.column]; exact hcolumn) (by omega), hstop, h.column]
  omega

/-- A character that is stored is shown. -/
theorem Shows.print (h : Shows v t) (hrow : t.row < 50) (hcolumn : t.column < 80) (word : UInt16) :
    Shows (wrap { v with
        vgab := Function.update v.vgab (v.row * maxVgaColumns + v.column) word
        writes := v.writes ++ [v.row * maxVgaColumns + v.column]
        column := v.column + 1 }).scroll
      (t.input vgaShape (cell v.textAttr 32) (.print word)) := by
  refine Shows.wrap_scroll (t := t.print word)
    (v := { v with
      vgab := Function.update v.vgab (v.row * maxVgaColumns + v.column) word
      writes := v.writes ++ [v.row * maxVgaColumns + v.column]
      column := v.column + 1 }) (fun r hr c hc => ?_) h.row hrow ?_
  · show Function.update v.vgab (v.row * maxVgaColumns + v.column) word (cellIndex r c) =
      if r = t.row ∧ c = t.column then word else t.cell r c
    rw [h.index hrow hcolumn]
    by_cases hhere : r = t.row ∧ c = t.column
    · rw [if_pos hhere, hhere.1, hhere.2, Function.update_self]
    · have hne : cellIndex r c ≠ cellIndex t.row t.column := by
        intro heq
        have heq := congrArg UInt32.toNat heq
        rw [toNat_cellIndex hr hc, toNat_cellIndex hrow hcolumn] at heq
        omega
      rw [if_neg hhere, Function.update_of_ne hne, h.cells r hr c hc]
  · show (v.column + 1).toNat = t.column + 1
    rw [toNat_add_small (by rw [h.column]; exact hcolumn) (by decide), h.column]
    rfl

/-- One character. -/
theorem Shows.kdispPutc (h : Shows v t) (ht : InRange vgaShape t) (c : Int8) :
    Shows (VgaText.kdispPutc c v)
      (t.input vgaShape (cell v.textAttr 32) (inputOf (storedCell v.textAttr) c)) := by
  have hrow : t.row < 50 := ht.row
  have hcolumn : t.column < 80 := ht.column
  rw [kdispPutc_eq]
  refine Shows.sUpdateCursor ?_
  unfold putCharacter inputOf
  by_cases hcr : c = 13
  · rw [if_pos hcr, if_pos hcr]
    exact Shows.wrap_scroll (v := { v with column := 0 }) h.cells h.row hrow rfl
  rw [if_neg hcr, if_neg hcr]
  by_cases hnl : c = 10
  · rw [if_pos hnl, if_pos hnl]
    have hnext : (v.row + 1).toNat = t.row + 1 := by
      rw [toNat_add_small (by rw [h.row]; omega) (by decide), h.row]
      rfl
    exact Shows.scroll (v := { v with column := 0, row := v.row + 1 }) h.cells hnext rfl hrow
  rw [if_neg hnl, if_neg hnl]
  by_cases htab : c = 9
  · rw [if_pos htab, if_pos htab]
    exact h.tab hrow hcolumn
  · rw [if_neg htab, if_neg htab]
    exact h.print hrow hcolumn (storedCell v.textAttr c)

/-- `kdisp_putc` for each character of a string. -/
def puts (v : VgaText) (string : List Int8) : VgaText := string.foldl (fun v c => v.kdispPutc c) v

/-- A string is written to the terminal. -/
theorem Shows.puts (h : Shows v t) (ht : InRange vgaShape t) (string : List Int8) :
    Shows (v.puts string)
      (t.write vgaShape (cell v.textAttr 32) (string.map (inputOf (storedCell v.textAttr)))) := by
  induction string generalizing v t with
  | nil => exact h
  | cons c string ih =>
    have hnext := ih (h.kdispPutc ht c) (ht.input _)
    rw [kdispPutc_textAttr] at hnext
    exact hnext

/-! ## The reference terminal -/

/-- The word of a character: the character in the low half, the attribute in the high half. -/
def referenceCell (attr : UInt32) (c : Int8) :
    UInt16 := attr.toUInt8.toUInt16 <<< 8 ||| c.toUInt8.toUInt16

/-- What the display shows. -/
def display (v : VgaText) : Terminal UInt16 where
  cell r c := v.vgab (cellIndex r c)
  row := v.row.toNat
  column := v.column.toNat

/-- What a terminal shows after a string, with the attribute of the display. -/
def reference (v : VgaText) (string : List Int8) : Terminal UInt16 :=
  v.display.write vgaShape (referenceCell v.textAttr 32)
    (string.map (inputOf (referenceCell v.textAttr)))

/-- Widening a character keeps its sign. -/
theorem toUInt16_toInt32 (c : Int8) : c.toInt32.toUInt32.toUInt16 =
    if 0 ≤ c then c.toUInt8.toUInt16 else (255 : UInt8).toUInt16 <<< 8 ||| c.toUInt8.toUInt16 := by
  have hall : ∀ b : BitVec 8, (Int8.ofUInt8 ⟨b⟩).toInt32.toUInt32.toUInt16 =
      if 0 ≤ Int8.ofUInt8 ⟨b⟩ then (UInt8.ofBitVec b).toUInt16
      else (255 : UInt8).toUInt16 <<< 8 ||| (UInt8.ofBitVec b).toUInt16 := by decide +kernel
  exact hall c.toUInt8.toBitVec

/-- The attribute of a word. -/
theorem toNat_highHalf (a b : UInt8) :
    (a.toUInt16 <<< 8 ||| b.toUInt16).toNat = a.toNat * 256 + b.toNat := by
  have ha := a.toNat_lt
  have hb := b.toNat_lt
  have hshift : (a.toUInt16 <<< 8).toNat = a.toNat <<< 8 := by
    rw [UInt16.toNat_shiftLeft, UInt8.toNat_toUInt16]
    show a.toNat <<< 8 % 2 ^ 16 = _
    rw [Nat.shiftLeft_eq]
    omega
  rw [UInt16.toNat_or, hshift, UInt8.toNat_toUInt16, ← Nat.shiftLeft_add_eq_or_of_lt hb,
    Nat.shiftLeft_eq]

/-- The word that is stored: attribute and character. -/
theorem storedCell_eq (attr : UInt32) (c : Int8) : storedCell attr c =
    attr.toUInt8.toUInt16 <<< 8 ||| c.toInt32.toUInt32.toUInt16 := by
  have hshift : (attr <<< 8).toUInt16 = attr.toUInt8.toUInt16 <<< 8 := by
    refine UInt16.toNat_inj.1 ?_
    rw [UInt32.toUInt16_shiftLeft _ _ (by decide), UInt16.toNat_shiftLeft, UInt16.toNat_shiftLeft,
      UInt32.toNat_toUInt16, UInt8.toNat_toUInt16, UInt32.toNat_toUInt8]
    show (attr.toNat % 2 ^ 16) <<< 8 % 2 ^ 16 = (attr.toNat % 2 ^ 8) <<< 8 % 2 ^ 16
    rw [Nat.shiftLeft_eq, Nat.shiftLeft_eq]
    omega
  rw [storedCell, cell, UInt32.toUInt16_or, hshift]

/-- `kdisp_putc` stores the word of a character below `0x80`, and of every character when all bits
of the attribute are set. -/
theorem storedCell_eq_iff : storedCell attr c = referenceCell attr c ↔ attr.toUInt8 =
    255 ∨ 0 ≤ c := by
  rw [storedCell_eq, toUInt16_toInt32, referenceCell]
  by_cases hc : 0 ≤ c
  · rw [if_pos hc]
    exact iff_of_true rfl (.inr hc)
  · have hones : ∀ a : BitVec 8, (UInt8.ofBitVec a).toUInt16 <<< 8
      ||| (255 : UInt8).toUInt16 <<< 8 =
        (255 : UInt8).toUInt16 <<< 8 := by decide +kernel
    have hones : attr.toUInt8.toUInt16 <<< 8 ||| (255 : UInt8).toUInt16 <<< 8 =
        (255 : UInt8).toUInt16 <<< 8 := hones attr.toUInt8.toBitVec
    rw [if_neg hc, ← UInt16.or_assoc, hones, or_iff_left hc, ← UInt16.toNat_inj, toNat_highHalf,
      toNat_highHalf, ← UInt8.toNat_inj]
    show 255 * 256 + c.toUInt8.toNat = _ ↔ _ = 255
    omega

/-- What a terminal shows after a string, with what was printed still as characters. -/
def marked (v : VgaText) (string : List Int8) : Terminal (UInt16 ⊕ Int8) :=
  (v.display.map Sum.inl).write vgaShape (.inl (cell v.textAttr 32)) (string.map (inputOf Sum.inr))

/-- A cell of the screen still shows a character that the string printed. -/
def StillShown (v : VgaText) (string : List Int8) (c : Int8) : Prop :=
  ∃ row < 50, ∃ column < 80, (v.marked string).cell row column = .inr c

variable {string : List Int8}

/-- A cursor on the screen is one of the terminal. -/
theorem display_inRange (hrow : v.row < maxVgaRows) (hcolumn : v.column < maxVgaColumns) :
    InRange vgaShape v.display :=
  ⟨UInt32.lt_iff_toNat_lt.1 hrow, UInt32.lt_iff_toNat_lt.1 hcolumn⟩

/-- What is typed may be rendered otherwise. -/
theorem inputOf_map {α β : Type} (f : α → β) (render : Int8 → α) (c : Int8) :
    (inputOf render c).map f = inputOf (fun c => f (render c)) c := by
  unfold inputOf
  split <;> [rfl; split <;> [rfl; split <;> rfl]]

/-- The words of a terminal are made from the characters it shows. -/
theorem write_eq_marked (render : Int8 → UInt16) :
    v.display.write vgaShape (cell v.textAttr 32) (string.map (inputOf render)) =
      (v.marked string).map (Sum.elim id render) := by
  have hinputs : string.map (inputOf render) =
      (string.map (inputOf Sum.inr)).map (Input.map (Sum.elim (id : UInt16 → UInt16) render)) := by
    rw [List.map_map]
    exact List.map_congr_left fun c _ =>
      (inputOf_map (Sum.elim (id : UInt16 → UInt16) render) Sum.inr c).symm
  rw [hinputs, marked, ← write_map]
  rfl

/-- The two terminals print the same, each with its own cells. -/
theorem reference_eq_marked :
    v.reference string = (v.marked string).map (Sum.elim id (referenceCell v.textAttr)) := by
  have hblank : referenceCell v.textAttr 32 = cell v.textAttr 32 :=
    (storedCell_eq_iff.2 (.inr (by decide))).symm
  rw [reference, hblank, write_eq_marked]

/-- The screen shows what the terminal prints with the words that are stored. -/
theorem puts_shows (hrow : v.row < maxVgaRows) (hcolumn : v.column < maxVgaColumns)
    (string : List Int8) :
    Shows (v.puts string) ((v.marked string).map (Sum.elim id (storedCell v.textAttr))) := by
  have hself : Shows v v.display := ⟨fun _ _ _ _ => rfl, rfl, rfl⟩
  rw [← write_eq_marked]
  exact hself.puts (display_inRange hrow hcolumn) string

/-- The display shows what the terminal shows if and only if their words of the characters that can
be seen agree. -/
theorem shows_reference_iff (hrow : v.row < maxVgaRows) (hcolumn : v.column < maxVgaColumns) :
    Shows (v.puts string) (v.reference string) ↔
      v.textAttr.toUInt8 = 255 ∨ ∀ c, StillShown v string c → 0 ≤ c := by
  obtain ⟨hcells, hputsRow, hputsColumn⟩ := puts_shows hrow hcolumn string
  rw [reference_eq_marked]
  constructor
  · rintro ⟨hcells', -, -⟩
    refine or_iff_not_imp_left.2 fun hattr c hc => ?_
    obtain ⟨r, hr, k, hk, hmark⟩ := hc
    have heq := (hcells r hr k hk).symm.trans (hcells' r hr k hk)
    simp only [Terminal.map, hmark, Sum.elim_inr] at heq
    exact (storedCell_eq_iff.1 heq).resolve_left hattr
  · intro hcond
    refine ⟨fun r hr k hk => (hcells r hr k hk).trans ?_, hputsRow, hputsColumn⟩
    simp only [Terminal.map]
    cases hmark : (v.marked string).cell r k with
    | inl word => rfl
    | inr c => exact storedCell_eq_iff.2 (hcond.imp_right fun h => h c ⟨r, hr, k, hk, hmark⟩)

/-- What the string printed is one of its characters. -/
theorem StillShown.mem {c : Int8} (h : StillShown v string c) : c ∈ string ∧ Printable c := by
  obtain ⟨r, -, k, -, hmark⟩ := h
  refine write_cell (P := fun word : UInt16 ⊕ Int8 => word = .inr c → c ∈ string ∧ Printable c)
    (fun heq => by cases heq) (fun r k heq => by cases heq) (fun a ha => ?_) r k hmark
  rintro rfl
  obtain ⟨d, hd, heq⟩ := List.mem_map.1 ha
  unfold inputOf at heq
  by_cases h13 : d = 13
  · rw [if_pos h13] at heq; cases heq
  by_cases h10 : d = 10
  · rw [if_neg h13, if_pos h10] at heq; cases heq
  by_cases h9 : d = 9
  · rw [if_neg h13, if_neg h10, if_pos h9] at heq; cases heq
  · rw [if_neg h13, if_neg h10, if_neg h9] at heq
    cases heq
    exact ⟨hd, h13, h10, h9⟩

/-- The last character of a string is shown if it is printed. -/
theorem stillShown_last (hrow : v.row < maxVgaRows) (hcolumn : v.column < maxVgaColumns) {c : Int8}
    (hc : Printable c) : StillShown v (string ++ [c]) c := by
  obtain ⟨h13, h10, h9⟩ := hc
  have hprint : inputOf (Sum.inr : Int8 → UInt16 ⊕ Int8) c = .print (.inr c) := by
    rw [inputOf, if_neg h13, if_neg h10, if_neg h9]
  have hin : InRange vgaShape (v.marked string) := by
    obtain ⟨hstartRow, hstartColumn⟩ := display_inRange hrow hcolumn
    have hstart : InRange vgaShape (v.display.map (Sum.inl : UInt16 → UInt16 ⊕ Int8)) :=
      ⟨hstartRow, hstartColumn⟩
    exact hstart.write _
  have hstep : v.marked (string ++ [c]) =
      (v.marked string).input vgaShape (.inl (cell v.textAttr 32)) (.print (.inr c)) := by
    rw [marked, marked, write, List.map_append, List.foldl_append, ← hprint]
    rfl
  rw [StillShown, hstep]
  exact print_shown hin (by decide) _

/-- Writing a string from a cursor on the screen gives what a terminal gives if and only if no
character of `0x80` or above that the string printed can still be seen, or all bits of the attribute
are set. It does so at every point of the string if and only if it prints no such character, or all
those bits are set. -/
theorem puts_refines_iff (v : VgaText) (string : List Int8) (hrow : v.row < maxVgaRows)
    (hcolumn : v.column < maxVgaColumns) :
    (Shows (v.puts string) (v.reference string) ↔
      v.textAttr.toUInt8 = 255 ∨ ∀ c, StillShown v string c → 0 ≤ c) ∧
    ((∀ start, start <+: string → Shows (v.puts start) (v.reference start)) ↔
      v.textAttr.toUInt8 = 255 ∨ ∀ c ∈ string, Printable c → 0 ≤ c) := by
  refine ⟨shows_reference_iff hrow hcolumn, fun hall => ?_, fun hcond start hstart => ?_⟩
  · refine or_iff_not_imp_left.2 fun hattr c hc hprint => ?_
    obtain ⟨xs, ys, rfl⟩ := List.append_of_mem hc
    have hshows := hall (xs ++ [c]) ⟨ys, by rw [List.append_assoc]; rfl⟩
    exact ((shows_reference_iff hrow hcolumn).1 hshows).resolve_left hattr c
      (stillShown_last hrow hcolumn hprint)
  · refine (shows_reference_iff hrow hcolumn).2 (hcond.imp_right fun h c hc => ?_)
    obtain ⟨hmem, hprint⟩ := hc.mem
    exact h c (hstart.subset hmem) hprint

/-- The letters `AB`, on a blank screen. -/
theorem puts_refines_letters :
    Shows (VgaText.puts { vgab := fun _ => 0x720, textAttr := 7 } [65, 66])
      (reference { vgab := fun _ => 0x720, textAttr := 7 } [65, 66]) := by
  have hletters : ∀ c ∈ ([65, 66] : List Int8), Printable c → 0 ≤ c := by
    intro c hc _
    simp only [List.mem_cons, List.not_mem_nil, or_false] at hc
    rcases hc with rfl | rfl <;> decide
  exact (puts_refines_iff { vgab := fun _ => 0x720, textAttr := 7 } [65, 66] (by decide)
    (by decide)).2.2 (.inr hletters) _ (List.prefix_refl _)

/-- The character `0x80` is stored with all bits of the attribute set. -/
theorem puts_not_refines :
    ¬ ∀ (v : VgaText) (string : List Int8), v.row < maxVgaRows → v.column < maxVgaColumns →
      Shows (v.puts string) (v.reference string) := by
  intro h
  have hshows := h { vgab := fun _ => 0x720, textAttr := 7 } [-128] (by decide) (by decide)
  have hcell := hshows.cells 0 (by decide) 0 (by decide)
  revert hcell
  decide +kernel

end VgaText

end MeghaOS
