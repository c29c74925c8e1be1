import MeghaOS.Decorations
import MeghaOS.Proof.Blit

/-!
# Where the decorations of a window are drawn

The rectangles of the decorations lie in the buffer of the window whenever its cell has room for
them, also the line that begins one pixel to the left of the window, in the row above. The title is
not clipped: each of its characters is drawn where the ones before it end, and one from 128 on has
no glyph (`decorations_confined_iff`).
-/

namespace MeghaOS

open Exec

/-! ## Both uses of the drawing functions -/

section Mapped

/-- The drawing functions of the kernel are the general ones on its memory: a pixel is a word. -/
theorem gOps_pixelBytes (color : Nat) : gOps.pixelBytes color = wordBytes color := rfl

/-- A row of a rectangle. -/
theorem rectRow_eq (color lw row : Nat) : rectRow color lw row = gOps.rectRow color lw row := by
  induction lw generalizing row with
  | zero => rfl
  | succ lw ih =>
    rw [rectRow, DrawOps.rectRow, gOps_pixelBytes, writeBytes_eq]
    simp only [ih]
    rfl

/-- The rows of a rectangle. -/
theorem rectRows_eq (bytesPerRow w color h start : Nat) :
    rectRows bytesPerRow w color h start = gOps.rectRows bytesPerRow w color h start := by
  induction h generalizing start with
  | zero => rfl
  | succ h ih => simp only [rectRows, DrawOps.rectRows, rectRow_eq, ih]

/-- A row of a glyph. -/
theorem fontRow_eq (glyph fg bg n x row : Nat) :
    fontRow glyph fg bg n x row = gOps.fontRow glyph fg bg n x row := by
  induction n generalizing x row with
  | zero => rfl
  | succ n ih =>
    simp only [fontRow, DrawOps.fontRow, gOps_pixelBytes, writeBytes_eq, ih]
    rfl

/-- The rows of a glyph. -/
theorem fontRows_eq (bytesPerRow fg bg n glyph start : Nat) :
    fontRows bytesPerRow fg bg n glyph start = gOps.fontRows bytesPerRow fg bg n glyph start := by
  induction n generalizing glyph start with
  | zero => rfl
  | succ n ih => simp only [fontRows, DrawOps.fontRows, fontRow_eq, ih]

/-- A glyph. -/
theorem kgraphicsDrawfont_eq (g : KGraphicsArea) (x y a fg bg : Nat) :
    kgraphicsDrawfont g x y a fg bg = gOps.drawfont g x y a fg bg := by
  simp only [kgraphicsDrawfont, DrawOps.drawfont, fontRows_eq]
  rfl

/-- A text. -/
theorem drawstringFrom_eq (g : KGraphicsArea) (sx fg bg n x y ch : Nat) :
    drawstringFrom g sx fg bg n x y ch = gOps.drawstringFrom g sx fg bg n x y ch := by
  induction n generalizing x y ch with
  | zero => rfl
  | succ n ih =>
    simp only [drawstringFrom, DrawOps.drawstringFrom, kgraphicsDrawfont_eq, ih]
    rfl

/-- The compositor draws with these functions. -/
theorem drawWindowDecorations_eq (wa : KGraphicsArea) (title : Nat) :
    drawWindowDecorations wa title = gOps.windowDecorations wa title := by
  simp only [drawWindowDecorations, DrawOps.windowDecorations, DrawOps.borders, kgraphicsInborder,
    DrawOps.inborder, kgraphicsHline, DrawOps.hline, kgraphicsVline, DrawOps.vline,
      kgraphicsRect, DrawOps.rect,
    kgraphicsDrawstring, DrawOps.drawstring, rectRows_eq, drawstringFrom_eq]

end Mapped

/-! ## What a program draws -/

/-- The program returns, reads the bytes of glyphs at the addresses `R` and writes at the addresses
`W`. -/
def Draws (x : Exec Canvas Unit) (R W : Nat → Prop) : Prop :=
  ∀ s, ∃ s', x s = .ok ((), s') ∧ (∀ a, a ∈ s'.glyphReads ↔ R a ∨ a ∈ s.glyphReads) ∧
    (∀ a, a ∈ s'.writes ↔ W a ∨ a ∈ s.writes) ∧ ∀ a, ¬ W a → s'.mem a = s.mem a

namespace Draws

variable {x y : Exec Canvas Unit} {R R' W W' : Nat → Prop}

/-- The addresses may be described otherwise. -/
theorem congr (h : Draws x R W) (hR : ∀ a, R a ↔ R' a) (hW : ∀ a, W a ↔ W' a) : Draws x R' W' := by
  obtain rfl : R = R' := funext fun a => propext (hR a)
  obtain rfl : W = W' := funext fun a => propext (hW a)
  exact h

/-- A program that does nothing. -/
theorem nothing : Draws (return) (fun _ => False) fun _ => False :=
  fun s => ⟨s, rfl, by simp, by simp, fun _ _ => rfl⟩

/-- Two programs in sequence. -/
theorem bind (hx : Draws x R W) (hy : Draws y R' W') :
    Draws (x >>= fun _ => y) (fun a => R a ∨ R' a) fun a => W a ∨ W' a := by
  intro s
  obtain ⟨s₁, hrun₁, hreads₁, hwrites₁, hmem₁⟩ := hx s
  obtain ⟨s₂, hrun₂, hreads₂, hwrites₂, hmem₂⟩ := hy s₁
  refine ⟨s₂, by rw [bind_of_ok hrun₁, hrun₂], fun a => ?_, fun a => ?_, fun a ha => ?_⟩
  · rw [hreads₂, hreads₁, or_left_comm, or_assoc]
  · rw [hwrites₂, hwrites₁, or_left_comm, or_assoc]
  · rw [not_or] at ha
    rw [hmem₂ a ha.2, hmem₁ a ha.1]

end Draws

/-- So many bytes from an address on, in 32 bits. -/
def Span (p len a : Nat) : Prop := ∃ t < len, a = u32 (p + t)

/-- A block of rows of so many bytes. -/
def Block (p bytesPerRow h len a : Nat) : Prop := ∃ r < h, Span (p + r * bytesPerRow) len a

/-- A range of no bytes. -/
theorem span_zero (p a : Nat) : ¬ Span p 0 a := by
  rintro ⟨t, ht, -⟩
  exact Nat.not_lt_zero t ht

/-- A span is its first bytes and the rest. -/
theorem span_add (p len len' a : Nat) : Span p (len + len') a ↔ Span p len a ∨
    Span (p + len) len' a := by
  constructor
  · rintro ⟨t, ht, rfl⟩
    rcases Nat.lt_or_ge t len with hlt | hge
    · exact .inl ⟨t, hlt, rfl⟩
    · exact .inr ⟨t - len, by omega, by rw [Nat.add_assoc, Nat.add_sub_cancel' hge]⟩
  · rintro (⟨t, ht, rfl⟩ | ⟨t, ht, rfl⟩)
    · exact ⟨t, by omega, rfl⟩
    · exact ⟨len + t, by omega, by rw [Nat.add_assoc]⟩

/-- A block is its first row and the rest. -/
theorem block_succ (p bytesPerRow h len a : Nat) :
    Block p bytesPerRow (h + 1) len a ↔ Span p len a ∨ Block (p + bytesPerRow)
      bytesPerRow h len a := by
  have hrow (r : Nat) : p + (r + 1) * bytesPerRow = p + bytesPerRow + r * bytesPerRow := by
    rw [Nat.succ_mul, Nat.add_comm (r * bytesPerRow), Nat.add_assoc]
  constructor
  · rintro ⟨r, hr, ha⟩
    cases r with
    | zero => exact .inl (by simpa using ha)
    | succ r => exact .inr ⟨r, Nat.lt_of_succ_lt_succ hr, hrow r ▸ ha⟩
  · rintro (ha | ⟨r, hr, ha⟩)
    · exact ⟨0, Nat.succ_pos h, by simpa using ha⟩
    · exact ⟨r + 1, Nat.succ_lt_succ hr, (hrow r).symm ▸ ha⟩

section Draws

variable {px : Nat}

/-- A pixel writes its bytes. -/
theorem draws_storePixel (bytes : List Nat) (p : Nat) :
    Draws (storePixel (canvasOps px).store bytes (u32 p)) (fun _ => False)
    (Span p bytes.length) := by
  induction bytes generalizing p with
  | nil => exact Draws.nothing.congr (fun _ => .rfl) fun a => iff_of_false id (span_zero p a)
  | cons byte rest ih =>
    have hstore : Draws ((canvasOps px).store (u32 p) byte) (fun _ => False) (Span p 1) := by
      have hspan (a : Nat) : Span p 1 a ↔ a = u32 p := by simp [Span]
      intro s
      refine ⟨_, rfl, by simp, fun a => ?_, fun a ha => ?_⟩
      · rw [hspan]
        exact List.mem_cons
      · rw [hspan] at ha
        exact Function.update_of_ne ha _ _
    have hrest := ih (p + 1)
    rw [← u32_add] at hrest
    refine (hstore.bind hrest).congr (fun _ => or_self_iff) fun a => ?_
    rw [List.length_cons, Nat.add_comm rest.length, span_add]

/-- A colour has the bytes of a pixel, which are four at most. -/
theorem length_pixelBytes (hpx : px ≤ 4) (color : Nat) :
    ((canvasOps px).pixelBytes color).length = px := by
  show (List.take px (wordBytes color)).length = px
  rw [List.length_take]
  exact Nat.min_eq_left hpx

/-- A pixel is stored in its bytes. -/
theorem draws_pixel (hpx : px ≤ 4) (color p : Nat) :
    Draws (storePixel (canvasOps px).store ((canvasOps px).pixelBytes color) (u32 p))
    (fun _ => False) (Span p px) := by
  have hpixel : Draws (storePixel (canvasOps px).store ((canvasOps px).pixelBytes color)
    (u32 p)) _ _ :=
    draws_storePixel _ p
  rw [length_pixelBytes hpx] at hpixel
  exact hpixel

/-- A row of a rectangle writes its pixels. -/
theorem draws_rectRow (hpx : px ≤ 4) (color lw p : Nat) :
    Draws ((canvasOps px).rectRow color lw (u32 p)) (fun _ => False) (Span p (lw * px)) := by
  induction lw generalizing p with
  | zero =>
    rw [Nat.zero_mul]
    exact Draws.nothing.congr (fun _ => .rfl) fun a => iff_of_false id (span_zero p a)
  | succ lw ih =>
    have hrest := ih (p + px)
    rw [← u32_add] at hrest
    refine ((draws_pixel hpx color p).bind hrest).congr (fun _ => or_self_iff) fun a => ?_
    rw [Nat.succ_mul, Nat.add_comm (lw * px), span_add]

/-- A rectangle writes its block. -/
theorem draws_rectRows (hpx : px ≤ 4) (bytesPerRow w color h p : Nat) :
    Draws ((canvasOps px).rectRows bytesPerRow w color h (u32 p)) (fun _ => False)
      (Block p bytesPerRow h (w * px)) := by
  induction h generalizing p with
  | zero => exact Draws.nothing.congr (fun _ => .rfl) fun a => iff_of_false id (by simp [Block])
  | succ h ih =>
    have hrest := ih (p + bytesPerRow)
    rw [← u32_add] at hrest
    refine ((draws_rectRow hpx color w p).bind hrest).congr (fun _ => or_self_iff) fun a => ?_
    rw [block_succ]

/-- A rectangle writes its rows. -/
theorem draws_rect (hpx : px ≤ 4) (g : KGraphicsArea) (x y w h color : Nat) :
    Draws ((canvasOps px).rect g x y w h color) (fun _ => False)
      (Block (g.pixelAddress x y) g.bytesPerRow h (w * px)) := by
  rw [DrawOps.rect, pixel_eq]
  exact draws_rectRows hpx _ _ _ _ _

/-- What is drawn after a byte of a glyph was read. -/
theorem draws_loadGlyph {f : Nat → Exec Canvas Unit} {R W : Nat → Prop} {p : Nat}
    (hf : ∀ bits, Draws (f bits) R W) :
    Draws ((canvasOps px).loadGlyph p >>= f) (fun a => a = p ∨ R a) W := by
  intro s
  obtain ⟨s', hrun, hreads, hwrites, hmem⟩ :=
    hf (s.mem p).toNat { s with glyphReads := p :: s.glyphReads }
  refine ⟨s', hrun, fun a => ?_, hwrites, hmem⟩
  rw [hreads, List.mem_cons, or_left_comm, or_assoc]

/-- A row of a glyph reads one byte of the font. -/
theorem draws_fontRow (hpx : px ≤ 4) (glyph fg bg n x p : Nat) :
    Draws ((canvasOps px).fontRow glyph fg bg n x (u32 p)) (fun a => 0 < n ∧ a = glyph)
    (Span p (n * px)) := by
  induction n generalizing x p with
  | zero =>
    rw [Nat.zero_mul]
    exact Draws.nothing.congr (fun a => by simp) fun a => iff_of_false id (span_zero p a)
  | succ n ih =>
    have hrest := ih (x + 1) (p + px)
    rw [← u32_add] at hrest
    refine (draws_loadGlyph fun bits => (draws_pixel hpx _ p).bind hrest).congr
      (fun a => ?_) fun a => ?_
    · constructor
      · rintro (rfl | h | ⟨-, rfl⟩)
        · exact ⟨Nat.succ_pos n, rfl⟩
        · exact h.elim
        · exact ⟨Nat.succ_pos n, rfl⟩
      · rintro ⟨-, rfl⟩
        exact .inl rfl
    · rw [Nat.succ_mul, Nat.add_comm (n * px), span_add]

/-- A glyph reads its bytes and writes its cell. -/
theorem draws_fontRows (hpx : px ≤ 4) (bytesPerRow fg bg n glyph p : Nat) :
    Draws ((canvasOps px).fontRows bytesPerRow fg bg n (u32 glyph) (u32 p)) (Span glyph n)
      (Block p bytesPerRow n (gxmodeFontWidth * px)) := by
  induction n generalizing glyph p with
  | zero => exact Draws.nothing.congr (fun a => iff_of_false id (span_zero glyph a)) fun a =>
      iff_of_false id (by simp [Block])
  | succ n ih =>
    have hrest := ih (glyph + 1) (p + bytesPerRow)
    rw [← u32_add glyph 1, ← u32_add p bytesPerRow] at hrest
    refine ((draws_fontRow hpx (u32 glyph) fg bg gxmodeFontWidth 0 p).bind hrest).congr
      (fun a => ?_) fun a => ?_
    · rw [Nat.add_comm n, span_add]
      simp [Span]
    · rw [block_succ]

/-- A character reads its glyph and writes its cell. -/
theorem draws_drawfont (hpx : px ≤ 4) (g : KGraphicsArea) (x y a fg bg : Nat) :
    Draws ((canvasOps px).drawfont g x y a fg bg)
      (Span (kbootGetFontData + a * bootFontsGlyphBytes) gxmodeFontHeight)
      (Block (g.pixelAddress x y) g.bytesPerRow gxmodeFontHeight (gxmodeFontWidth * px)) := by
  have hrows := draws_fontRows hpx g.bytesPerRow fg bg gxmodeFontHeight
    (kbootGetFontData + a * bootFontsGlyphBytes) (g.pixelAddress x y)
  rw [← pixel_eq] at hrows
  exact hrows

end Draws

/-! ## The buffer of a window -/

/-- A canvas on which only the glyphs of the font were read and only the buffer of the window was
written. -/
structure Canvas.Confined (g : KGraphicsArea) (s : Canvas) : Prop where
  glyphs : ∀ a ∈ s.glyphReads,
    kbootGetFontData ≤ a ∧ a < kbootGetFontData + bootFontsGlyphCount * bootFontsGlyphBytes
  writes : ∀ a ∈ s.writes, g.buffer ≤ a ∧ a < g.buffer + g.bufferSizeBytes

/-- What a program draws is confined. -/
def Confines (g : KGraphicsArea) (R W : Nat → Prop) : Prop :=
  (∀ a, R a → kbootGetFontData ≤ a ∧
    a < kbootGetFontData + bootFontsGlyphCount * bootFontsGlyphBytes) ∧
    ∀ a, W a → g.buffer ≤ a ∧ a < g.buffer + g.bufferSizeBytes

section Confined

variable {g : KGraphicsArea} {x : Exec Canvas Unit} {R W : Nat → Prop} {s s' : Canvas}
  {mem : Memory}

/-- A program that returns leaves a confined canvas if and only if what it draws, and what was drawn
before, is confined. -/
theorem Draws.run (h : Draws x R W) (g : KGraphicsArea) (s : Canvas) :
    ∃ s', x s = .ok ((), s') ∧ (s'.Confined g ↔ Confines g R W ∧ s.Confined g) ∧
      ∀ a, ¬ W a → s'.mem a = s.mem a := by
  obtain ⟨s', hrun, hreads, hwrites, hmem⟩ := h s
  refine ⟨s', hrun, ?_, hmem⟩
  constructor
  · intro hs'
    exact ⟨⟨fun a ha => hs'.glyphs a ((hreads a).2 (.inl ha)), fun a ha =>
      hs'.writes a ((hwrites a).2 (.inl ha))⟩,
      ⟨fun a ha => hs'.glyphs a ((hreads a).2 (.inr ha)), fun a ha =>
        hs'.writes a ((hwrites a).2 (.inr ha))⟩⟩
  · rintro ⟨⟨hR, hW⟩, hs⟩
    exact ⟨fun a ha => ((hreads a).1 ha).elim (hR a) (hs.glyphs a),
      fun a ha => ((hwrites a).1 ha).elim (hW a) (hs.writes a)⟩

/-- A confined canvas was confined before. -/
def Shrinks (g : KGraphicsArea) (s s' : Canvas) : Prop := s'.Confined g → s.Confined g

instance : IsPreorder Canvas (Shrinks g) where
  refl _ := id
  trans _ _ _ h h' := h ∘ h'

/-- A program that draws only adds accesses. -/
theorem Draws.shrinks (h : Draws x R W) : Ensures (Shrinks g) x := by
  intro s _ s' hrun hs'
  obtain ⟨s'', hrun', hiff, -⟩ := h.run g s
  obtain rfl : s' = s'' := by
    rw [hrun] at hrun'
    exact congrArg Prod.snd (Except.ok.inj hrun')
  exact (hiff.1 hs').2

/-! ## The title -/

/-- The string at an address. -/
structure TextAt (mem : Memory) (p : Nat) (cs : List UInt8) : Prop where
  chars : ∀ i, (hi : i < cs.length) → mem (p + i) = cs[i] ∧ cs[i] ≠ 0
  nul : mem (p + cs.length) = 0
  fits : p + cs.length < 2 ^ 32

/-- The rest of a text. -/
theorem TextAt.tail {p : Nat} {c : UInt8} {cs : List UInt8} (h : TextAt mem p (c :: cs)) :
    TextAt mem (u32 (p + 1)) cs := by
  have hfits := h.fits
  have hnul := h.nul
  rw [List.length_cons] at hfits hnul
  rw [u32_of_lt (by omega)]
  refine ⟨fun i hi => ?_, by rw [Nat.add_assoc, Nat.add_comm 1]; exact hnul, by omega⟩
  have := h.chars (i + 1) (Nat.succ_lt_succ hi)
  rwa [List.getElem_cons_succ, Nat.add_comm i 1, ← Nat.add_assoc] at this

/-- The string lies outside of the buffer of the window. -/
def Clear (g : KGraphicsArea) (p : Nat) (cs : List UInt8) : Prop :=
  ∀ i ≤ cs.length, p + i < g.buffer ∨ g.buffer + g.bufferSizeBytes ≤ p + i

/-- The rest of a text is clear too. -/
theorem Clear.tail {p : Nat} {c : UInt8} {cs : List UInt8} (h : Clear g p (c :: cs))
    (hfits : p + (c :: cs).length < 2 ^ 32) : Clear g (u32 (p + 1)) cs := by
  rw [List.length_cons] at hfits
  rw [u32_of_lt (by omega)]
  intro i hi
  rw [Nat.add_assoc, Nat.add_comm 1]
  exact h (i + 1) (Nat.succ_le_succ hi)

/-- A string outside of the buffer survives what is written inside. -/
theorem TextAt.kept {p : Nat} {cs : List UInt8} (h : TextAt s.mem p cs) (hclear : Clear g p cs)
    (hmem : ∀ a, a < g.buffer ∨ g.buffer + g.bufferSizeBytes ≤ a → s'.mem a = s.mem a) :
      TextAt s'.mem p cs where
  chars i hi := by rw [hmem _ (hclear i (Nat.le_of_lt hi))]; exact h.chars i hi
  nul := by rw [hmem _ (hclear _ (Nat.le_refl _))]; exact h.nul
  fits := h.fits

/-- The characters of a text that are drawn, each with its position: a newline goes back to `sx`. -/
def layout (sx : Nat) : List UInt8 → Nat → Nat → List (UInt8 × Nat × Nat)
  | [], _, _ => []
  | c :: cs, x, y =>
    if c = 10 then layout sx cs sx (u32 (y + (gxmodeFontHeight + 1)))
    else (c, x, y) :: layout sx cs (u32 (x + gxmodeFontWidth)) y

/-- The cell of a character lies in the buffer. -/
def CellInside (g : KGraphicsArea) (px x y : Nat) : Prop :=
  ∀ r < gxmodeFontHeight, ∀ t < gxmodeFontWidth * px,
    g.buffer ≤ u32 (g.pixelAddress x y + r * g.bytesPerRow + t) ∧
      u32 (g.pixelAddress x y + r * g.bytesPerRow + t) < g.buffer + g.bufferSizeBytes

/-- A character is confined when it has a glyph and its cell lies in the buffer. -/
theorem confines_drawfont_iff {px x y : Nat} (c : UInt8) :
    Confines g (Span (kbootGetFontData + c.toNat * bootFontsGlyphBytes) gxmodeFontHeight)
        (Block (g.pixelAddress x y) g.bytesPerRow gxmodeFontHeight (gxmodeFontWidth * px)) ↔
      c.toNat < bootFontsGlyphCount ∧ CellInside g px x y := by
  have hlt := c.toNat_lt
  refine and_congr ⟨fun h => ?_, ?_⟩ ⟨fun h r hr t ht => h _ ⟨r, hr, t, ht, rfl⟩, ?_⟩
  · have hfirst := h _ ⟨0, by decide, rfl⟩
    rw [Nat.add_zero, u32_of_lt (by simp only [kbootGetFontData, bootFontsGlyphBytes]; omega)]
      at hfirst
    simp only [kbootGetFontData, bootFontsGlyphBytes, bootFontsGlyphCount] at hfirst ⊢
    omega
  · rintro hc a ⟨t, ht, rfl⟩
    simp only [kbootGetFontData, bootFontsGlyphBytes, bootFontsGlyphCount, gxmodeFontHeight]
      at hc ht ⊢
    rw [u32_of_lt (by omega)]
    omega
  · rintro h a ⟨r, hr, t, ht, rfl⟩
    exact h r hr t ht

/-- The text is read without being drawn. -/
theorem loadText_apply (px p : Nat) (s : Canvas) :
    (canvasOps px).loadText p s = .ok ((s.mem p).toNat, s) := rfl

/-- Whatever the text is, what was drawn stays recorded. -/
theorem drawstringFrom_shrinks {px : Nat} (hpx : px ≤ 4) (sx fg bg n x y ch : Nat) :
    Ensures (Shrinks g) ((canvasOps px).drawstringFrom g sx fg bg n x y ch) := by
  induction n generalizing x y ch with
  | zero => exact .halt _
  | succ n ih =>
    have hload : Ensures (Shrinks g) ((canvasOps px).loadText ch) := by
      rintro s _ _ ⟨⟩
      exact id
    exact hload.bind fun c => .ite (.pure _) (.ite (ih _ _ _)
      ((draws_drawfont hpx g x y c fg bg).shrinks.bind fun _ => ih _ _ _))

/-- The text is drawn and confined if and only if every character is. -/
theorem drawstringFrom_confined_iff {px : Nat} (hpx : px ≤ 4) (sx fg bg : Nat) {cs : List UInt8}
    {n x y ch : Nat}
    (hn : cs.length < n) (htext : TextAt s.mem ch cs) (hclear : Clear g ch cs) (hs : s.Confined g) :
    (∃ s', (canvasOps px).drawstringFrom g sx fg bg n x y ch s = .ok ((), s') ∧ s'.Confined g) ↔
      ∀ p ∈ layout sx cs x y, p.1.toNat < bootFontsGlyphCount ∧ CellInside g px p.2.1 p.2.2 := by
  induction cs generalizing n x y ch s with
  | nil =>
    obtain ⟨n, rfl⟩ := Nat.exists_eq_add_one_of_ne_zero (Nat.ne_of_gt hn)
    have hrun : (canvasOps px).drawstringFrom g sx fg bg (n + 1) x y ch s = .ok ((), s) := by
      have hnul : s.mem ch = 0 := htext.nul
      rw [DrawOps.drawstringFrom, bind_of_ok (loadText_apply px ch s), hnul]
      rfl
    exact iff_of_true ⟨s, hrun, hs⟩ (by simp [layout])
  | cons c cs ih =>
    obtain ⟨n, rfl⟩ := Nat.exists_eq_add_one_of_ne_zero (Nat.ne_of_gt (Nat.zero_lt_of_lt hn))
    obtain ⟨hc, hne⟩ := htext.chars 0 (by simp)
    rw [Nat.add_zero, List.getElem_cons_zero] at hc
    rw [List.getElem_cons_zero] at hne
    have hne' : c.toNat ≠ 0 := fun h => hne (UInt8.toNat_inj.1 h)
    rw [DrawOps.drawstringFrom, bind_of_ok (loadText_apply px ch s), hc, if_neg hne', layout]
    by_cases hnl : c = 10
    · have hnl' : c.toNat = 10 := congrArg UInt8.toNat hnl
      rw [if_pos hnl, if_pos hnl']
      exact ih (Nat.lt_of_succ_lt_succ hn) htext.tail (hclear.tail htext.fits) hs
    · have hnl' : c.toNat ≠ 10 := fun h => hnl (UInt8.toNat_inj.1 h)
      rw [if_neg hnl, if_neg hnl', List.forall_mem_cons]
      obtain ⟨s₁, hrun₁, hiff, hmem⟩ := (draws_drawfont hpx g x y c.toNat fg bg).run g s
      rw [bind_of_ok hrun₁]
      rw [confines_drawfont_iff, and_iff_left hs] at hiff
      -- the rest of the text is still there when the character was drawn in the buffer
      have htail (hchar : c.toNat < bootFontsGlyphCount ∧ CellInside g px x y) :
          TextAt s₁.mem (u32 (ch + 1)) cs := by
        refine (htext.kept hclear fun a ha => hmem a ?_).tail
        rintro ⟨r, hr, t, ht, rfl⟩
        have := hchar.2 r hr t ht
        omega
      constructor
      · rintro ⟨s', hrun, hs'⟩
        have hs₁ : s₁.Confined g := drawstringFrom_shrinks hpx sx fg bg n _ y _ s₁ _ s' hrun hs'
        have hchar := hiff.1 hs₁
        exact ⟨hchar, (ih (Nat.lt_of_succ_lt_succ hn) (htail hchar) (hclear.tail htext.fits) hs₁).1
          ⟨s', hrun, hs'⟩⟩
      · rintro ⟨hchar, hrest⟩
        exact (ih (Nat.lt_of_succ_lt_succ hn) (htail hchar) (hclear.tail htext.fits)
          (hiff.2 hchar)).2 hrest

/-! ## The rectangles -/

/-- The area of a window: its rows follow one another, its buffer has room for them and lies in the
address space, and the decorations fit. -/
structure WindowBuffer (g : KGraphicsArea) (px : Nat) : Prop where
  pixel : g.bytesPerPixel = px
  row : g.bytesPerRow = g.widthPx * px
  size : g.heightPx * g.bytesPerRow ≤ g.bufferSizeBytes
  fits : g.buffer + g.bufferSizeBytes ≤ 2 ^ 32
  width : 2 * windowBorderWidthPx ≤ g.widthPx
  height : windowTitleBarHeightPx + windowBorderWidthPx ≤ g.heightPx
  pixel_pos : 0 < px
  pixel_le : px ≤ 4

/-- What is written lies in the buffer. -/
def InsideBuffer (g : KGraphicsArea) (W : Nat → Prop) : Prop := ∀ a, W a → g.buffer ≤ a ∧
    a < g.buffer + g.bufferSizeBytes

/-- A rectangle in the window lies in its buffer. -/
theorem WindowBuffer.block_inside {px x y w h : Nat} (hg : WindowBuffer g px)
    (hx : x + w ≤ g.widthPx)
    (hy : y + h ≤ g.heightPx) :
      InsideBuffer g (Block (g.pixelAddress x y) g.bytesPerRow h (w * px)) := by
  rintro a ⟨r, hr, t, ht, rfl⟩
  have hrow := hg.row
  have hsize := hg.size
  have hfits := hg.fits
  have hcols : (x + w) * px ≤ g.widthPx * px := Nat.mul_le_mul_right px hx
  have hrows : (y + r + 1) * g.bytesPerRow ≤ g.heightPx * g.bytesPerRow :=
    Nat.mul_le_mul_right _ (by omega)
  rw [Nat.add_mul] at hcols
  rw [Nat.add_mul, Nat.add_mul, Nat.one_mul] at hrows
  unfold KGraphicsArea.pixelAddress
  rw [hg.pixel, u32_of_lt (by omega)]
  omega

/-- So does the line that begins a pixel to the left of the window. -/
theorem WindowBuffer.line_inside {px : Nat} (hg : WindowBuffer g px) :
    InsideBuffer g (Block (g.pixelAddress (u32Sub windowTitleBarLeftPx 1)
      (u32Sub windowTitleBarHeightPx 1))
      g.bytesPerRow 1 (g.widthPx * px)) := by
  rintro a ⟨r, hr, t, ht, rfl⟩
  obtain rfl : r = 0 := by omega
  have hrow := hg.row
  have hsize := hg.size
  have hfits := hg.fits
  have hpos := hg.pixel_pos
  have hheight := hg.height
  have hwidth := hg.width
  simp only [windowTitleBarHeightPx, windowBorderWidthPx] at hheight hwidth
  have hpx : 1 * px ≤ g.widthPx * px := Nat.mul_le_mul_right px (by omega)
  have hrows : 23 * g.bytesPerRow ≤ g.heightPx * g.bytesPerRow := Nat.mul_le_mul_right _ hheight
  -- the address wraps around by the bytes of one pixel
  have haddr : u32 (g.pixelAddress (u32Sub windowTitleBarLeftPx 1)
    (u32Sub windowTitleBarHeightPx 1) +
      0 * g.bytesPerRow + t) = g.buffer + 19 * g.bytesPerRow + t - px := by
    rw [show u32Sub windowTitleBarLeftPx 1 = 2 ^ 32 - 1 from rfl,
      show u32Sub windowTitleBarHeightPx 1 = 19 from rfl, KGraphicsArea.pixelAddress, hg.pixel, u32]
    omega
  rw [haddr]
  omega

/-- The program reads no glyph and writes in the buffer of the window. -/
def DrawsInside (g : KGraphicsArea) (x : Exec Canvas Unit) : Prop :=
  ∃ W, Draws x (fun _ => False) W ∧ InsideBuffer g W

/-- Two programs that draw inside. -/
theorem DrawsInside.bind {x y : Exec Canvas Unit} (hx : DrawsInside g x) (hy : DrawsInside g y) :
    DrawsInside g (x >>= fun _ => y) := by
  obtain ⟨W, hdraws, hinside⟩ := hx
  obtain ⟨W', hdraws', hinside'⟩ := hy
  exact ⟨_, (hdraws.bind hdraws').congr (fun _ => or_self_iff) fun _ => .rfl,
    fun a ha => ha.elim (hinside a) (hinside' a)⟩

/-- A rectangle inside the area is drawn inside. -/
theorem WindowBuffer.rect {px x y w h : Nat} (hg : WindowBuffer g px) (color : Nat)
    (hx : x + w ≤ g.widthPx)
    (hy : y + h ≤ g.heightPx) : DrawsInside g ((canvasOps px).rect g x y w h color) :=
  ⟨_, draws_rect hg.pixel_le g x y w h color, hg.block_inside hx hy⟩

/-- The sides of a window are numbers of 32 bits. -/
theorem WindowBuffer.sides_lt {px : Nat} (hg : WindowBuffer g px) :
    g.widthPx < 2 ^ 32 ∧ g.heightPx < 2 ^ 32 := by
  have hrow := hg.row
  have hsize := hg.size
  have hfits := hg.fits
  have hwidth := hg.width
  have hheight := hg.height
  simp only [windowTitleBarHeightPx, windowBorderWidthPx] at hheight hwidth
  have hcols : g.widthPx * 1 ≤ g.widthPx * px := Nat.mul_le_mul_left _ hg.pixel_pos
  have hrows : 23 * g.bytesPerRow ≤ g.heightPx * g.bytesPerRow := Nat.mul_le_mul_right _ hheight
  have hrows' : g.heightPx * 6 ≤ g.heightPx * g.bytesPerRow := Nat.mul_le_mul_left _ (by omega)
  omega

/-- A subtraction that does not wrap. -/
theorem u32Sub_of_le {a b : Nat} (ha : a < 2 ^ 32) (h : b ≤ a) : u32Sub a b = a - b := by
  unfold u32Sub
  omega

/-- The border of a rectangle in the window lies in the buffer. -/
theorem WindowBuffer.inborder {px x y w h th : Nat} (hg : WindowBuffer g px) (color : Nat)
    (hx : x + w ≤ g.widthPx) (hy : y + h ≤ g.heightPx) (hw : th ≤ w) (hh : th ≤ h) :
    DrawsInside g ((canvasOps px).inborder g x y w h th color) := by
  obtain ⟨hwidth, hheight⟩ := hg.sides_lt
  unfold DrawOps.inborder
  rw [u32Sub_of_le (show x + w < 2 ^ 32 by omega) (by omega),
    u32Sub_of_le (show y + h < 2 ^ 32 by omega) (by omega)]
  have htop := hg.rect color hx (show y + th ≤ g.heightPx by omega)
  have hleft := hg.rect color (show x + th ≤ g.widthPx by omega) hy
  have hright := hg.rect color (show x + w - th + th ≤ g.widthPx by omega) hy
  have hbottom := hg.rect color hx (show y + h - th + th ≤ g.heightPx by omega)
  exact htop.bind (hleft.bind (hright.bind hbottom))

/-- Everything behind the title lies in the buffer. -/
theorem WindowBuffer.borders {px : Nat} (hg : WindowBuffer g px) :
    DrawsInside g ((canvasOps px).borders g) := by
  obtain ⟨hwidth, hheight⟩ := hg.sides_lt
  have hminWidth := hg.width
  have hminHeight := hg.height
  simp only [windowTitleBarHeightPx, windowBorderWidthPx] at hminHeight hminWidth
  have hline : DrawsInside g ((canvasOps px).hline g (u32Sub windowTitleBarLeftPx 1)
      (u32Sub windowTitleBarHeightPx 1) g.widthPx 1 colorWhite) :=
    ⟨_, draws_rect hg.pixel_le g _ _ _ _ _, hg.line_inside⟩
  have houter : DrawsInside g ((canvasOps px).inborder g 0 0 g.widthPx g.heightPx 3
    windowBorderColor1) :=
    hg.inborder _ (by omega) (by omega) (by omega) (by omega)
  have hinner :
      DrawsInside g ((canvasOps px).inborder g 1 1 (g.widthPx - 2)
        (g.heightPx - 2) 1 windowBorderColor2) :=
    hg.inborder _ (by omega) (by omega) (by omega) (by omega)
  have hactive : DrawsInside g ((canvasOps px).rect g 3 20 (g.widthPx - 6)
    (g.heightPx - 23) windowBgColor) :=
    hg.rect _ (by omega) (by omega)
  unfold DrawOps.borders
  rw [u32Sub_of_le hwidth (by omega), u32Sub_of_le hheight (by omega), windowWorkingAreaWidthPx,
    windowWorkingAreaHeightPx, u32Sub_of_le hwidth hminWidth, u32Sub_of_le hheight hminHeight]
  exact hline.bind (houter.bind (hinner.bind hactive))

/-- A character that is not cut off by the window is drawn in the buffer. -/
theorem WindowBuffer.cellInside {px x y : Nat} (hg : WindowBuffer g px)
    (hx : x + gxmodeFontWidth ≤ g.widthPx)
    (hy : y + gxmodeFontHeight ≤ g.heightPx) : CellInside g px x y :=
  fun r hr t ht => hg.block_inside hx hy _ ⟨r, hr, t, ht, rfl⟩

/-- The decorations are drawn, with the glyphs of the font and in the buffer of the window, if and
only if every character of the title has a glyph and a cell in the buffer. -/
theorem WindowBuffer.confined_iff {px : Nat} (hg : WindowBuffer g px) {title : Nat}
    {cs : List UInt8}
    (htext : TextAt mem title cs) (hclear : Clear g title cs) :
    (∃ s', (canvasOps px).windowDecorations g title ⟨mem, [], []⟩ = .ok ((), s') ∧ s'.Confined g) ↔
      ∀ p ∈ layout windowTitleLeftPx cs windowTitleLeftPx windowTitleTopPx,
        p.1.toNat < bootFontsGlyphCount ∧ CellInside g px p.2.1 p.2.2 := by
  have hbar : InsideBuffer g
    (Block (g.pixelAddress windowTitleBarLeftPx windowTitleBarTopPx) g.bytesPerRow
      windowTitleBarHeightPx (g.widthPx * px)) :=
    hg.block_inside (Nat.le_of_eq (Nat.zero_add _)) (Nat.le_trans (by decide) hg.height)
  obtain ⟨W, hborders, hinside⟩ := hg.borders
  obtain ⟨s₁, hrun₁, hiff₁, hmem₁⟩ :=
    (draws_rect hg.pixel_le g windowTitleBarLeftPx windowTitleBarTopPx g.widthPx
    windowTitleBarHeightPx windowTitleBarBgColor).run g ⟨mem, [], []⟩
  have hempty : Canvas.Confined g ⟨mem, [], []⟩ := ⟨by simp, by simp⟩
  have hs₁ : s₁.Confined g := hiff₁.2 ⟨⟨fun _ => False.elim, hbar⟩, hempty⟩
  have htext₁ : TextAt s₁.mem title cs :=
    htext.kept (s := ⟨mem, [], []⟩) hclear fun a ha => hmem₁ a fun hW => by have := hbar a hW; omega
  rw [DrawOps.windowDecorations, bind_of_ok hrun₁,
    ← drawstringFrom_confined_iff hg.pixel_le windowTitleLeftPx windowTitleBarFgColor
      windowTitleBarBgColor
      (show cs.length < 2 ^ 32 from Nat.lt_of_le_of_lt (Nat.le_add_left _ _) htext.fits)
        htext₁ hclear hs₁]
  constructor
  · rintro ⟨s₃, hrun, hs₃⟩
    obtain ⟨_, s₂, hrun₂, hrun₃⟩ := bind_eq_ok.1 hrun
    exact ⟨s₂, hrun₂, hborders.shrinks s₂ _ s₃ hrun₃ hs₃⟩
  · rintro ⟨s₂, hrun₂, hs₂⟩
    obtain ⟨s₃, hrun₃, hiff₃, -⟩ := hborders.run g s₂
    have hrun : ((canvasOps px).drawstring g windowTitleLeftPx windowTitleTopPx title
      windowTitleBarFgColor
      windowTitleBarBgColor) s₁ = .ok ((), s₂) := hrun₂
    refine ⟨s₃, by rw [bind_of_ok hrun, hrun₃], hiff₃.2 ⟨⟨fun _ => False.elim, hinside⟩, hs₂⟩⟩

end Confined

/-! ## The windows of the grid -/

/-- The area of a window in its grid, with its buffer. -/
def gridWindowArea (gxBackfb : KGraphicsArea) (buffer : Nat) : KGraphicsArea :=
  { newWindowArea gxBackfb with buffer }

/-- The pages of a buffer have room for what was asked for. -/
theorem le_pageframesToBytes_ceiling {n : Nat} (hn : n ≤ 2 ^ 32 - 2 * 4096) :
    n ≤ pageframesToBytes (bytesToPageframesCeiling n) := by
  have hmask (k : Nat) (hk : k < 2 ^ 20) : k &&& 0xFFFFF = k := by
    have : k &&& (2 ^ 20 - 1) = k % 2 ^ 20 := Nat.and_two_pow_sub_one_eq_mod k 20
    rw [Nat.mod_eq_of_lt hk] at this
    exact this
  have hbytes (k : Nat) (hk : k < 2 ^ 20) : pageframesToBytes k = k * 4096 := by
    rw [pageframesToBytes, Nat.shiftLeft_eq, u32_of_lt (by omega)]
  unfold bytesToPageframesCeiling bytesToPageframesFloor alignUp
  by_cases haligned : isAligned n pageFrameSizeBytes = true
  · have hmod := isAligned_page_iff.1 haligned
    rw [if_pos haligned, hmask _ (by simp only [pageFrameSizeBytes]; omega),
      hbytes _ (by simp only [pageFrameSizeBytes]; omega)]
    simp only [pageFrameSizeBytes]
    omega
  · have hup : u32 ((n / pageFrameSizeBytes + 1) * pageFrameSizeBytes) / pageFrameSizeBytes =
        n / 4096 + 1 := by
      simp only [pageFrameSizeBytes]
      rw [u32_of_lt (by omega)]
      exact Nat.mul_div_cancel _ (by decide)
    rw [if_neg haligned, hup, hmask _ (by omega), hbytes _ (by omega)]
    omega

/-- The grid of a screen has windows with a buffer for all of their pixels. -/
theorem gridWindowArea_buffer {gxBackfb : KGraphicsArea} {px buffer : Nat}
    (hpixel : gxBackfb.bytesPerPixel = px)
    (hpos : 0 < px) (hpx : px ≤ 4) (hwidth : gxBackfb.widthPx < 2 ^ 16)
    (hheight : gxBackfb.heightPx < 2 ^ 16)
    (hcols : 2 * windowBorderWidthPx ≤ winmanGridCellWidthPx gxBackfb)
    (hrows : windowTitleBarHeightPx + windowBorderWidthPx ≤ winmanGridCellHeightPx gxBackfb)
    (hfits : buffer + (newWindowArea gxBackfb).bufferSizeBytes ≤ 2 ^ 32) :
    WindowBuffer (gridWindowArea gxBackfb buffer) px := by
  have hw : winmanGridCellWidthPx gxBackfb ≤ 32767 := by
    simp only [winmanGridCellWidthPx, winmanGridColsMax]
    omega
  have hh : winmanGridCellHeightPx gxBackfb ≤ 32767 := by
    simp only [winmanGridCellHeightPx, winmanGridRowsMax]
    omega
  have hrow : winmanGridCellWidthPx gxBackfb * px ≤ 32767 * 4 := Nat.mul_le_mul hw hpx
  have harea : winmanGridCellWidthPx gxBackfb * winmanGridCellHeightPx gxBackfb * px ≤
    32767 * 32767 * 4 :=
    Nat.mul_le_mul (Nat.mul_le_mul hw hh) hpx
  have hbytesPerRow : u32 (winmanGridCellWidthPx gxBackfb * px) = winmanGridCellWidthPx
    gxBackfb * px :=
    u32_of_lt (by omega)
  have hsize : getWindowAreaSizeBytes gxBackfb =
      winmanGridCellWidthPx gxBackfb * winmanGridCellHeightPx gxBackfb * px := by
    rw [getWindowAreaSizeBytes, hpixel, u32_of_lt (by omega)]
  refine ⟨hpixel, ?_, ?_, hfits, hcols, hrows, hpos, hpx⟩
  · show u32 (winmanGridCellWidthPx gxBackfb * gxBackfb.bytesPerPixel) =
      winmanGridCellWidthPx gxBackfb * px
    rw [hpixel, hbytesPerRow]
  · show winmanGridCellHeightPx gxBackfb * u32
      (winmanGridCellWidthPx gxBackfb * gxBackfb.bytesPerPixel) ≤
      pageframesToBytes (bytesToPageframesCeiling (getWindowAreaSizeBytes gxBackfb))
    rw [hpixel, hbytesPerRow, hsize]
    refine Nat.le_trans (Nat.le_of_eq ?_) (le_pageframesToBytes_ceiling (by omega))
    ring

/-- In every grid whose cells have room for the decorations, these are drawn with the glyphs of the
font and in the buffer of the window if and only if every character of the title has a glyph, and a
cell in the buffer. -/
theorem decorations_confined_iff {gxBackfb : KGraphicsArea} {px buffer title : Nat} {mem : Memory}
    {cs : List UInt8} (hpixel : gxBackfb.bytesPerPixel = px) (hpos : 0 < px) (hpx : px ≤ 4)
    (hwidth : gxBackfb.widthPx < 2 ^ 16) (hheight : gxBackfb.heightPx < 2 ^ 16)
    (hcols : 2 * windowBorderWidthPx ≤ winmanGridCellWidthPx gxBackfb)
    (hrows : windowTitleBarHeightPx + windowBorderWidthPx ≤ winmanGridCellHeightPx gxBackfb)
    (hfits : buffer + (newWindowArea gxBackfb).bufferSizeBytes ≤ 2 ^ 32)
    (htext : TextAt mem title cs)
    (hclear : Clear (gridWindowArea gxBackfb buffer) title cs) :
    (∃ s', (canvasOps px).windowDecorations (gridWindowArea gxBackfb buffer) title ⟨mem, [], []⟩ =
      .ok ((), s') ∧
        s'.Confined (gridWindowArea gxBackfb buffer)) ↔
      ∀ p ∈ layout windowTitleLeftPx cs windowTitleLeftPx windowTitleTopPx,
        p.1.toNat < bootFontsGlyphCount ∧ CellInside (gridWindowArea gxBackfb buffer) px
          p.2.1 p.2.2 :=
  (gridWindowArea_buffer hpixel hpos hpx hwidth hheight hcols hrows hfits).confined_iff htext hclear

/-- The screen that the kernel asks for. -/
def defaultBackfb : KGraphicsArea := ⟨800, 600, 4, 3200, 0, 0⟩

/-- A string of two characters. -/
def pairMemory (c c' : UInt8) : Memory := fun a =>
  if a = 0x1000 then c else if a = 0x1001 then c' else 0

/-- The text of two letters. -/
theorem textAt_pair {c c' : UInt8} (hc : c ≠ 0) (hc' : c' ≠ 0) :
    TextAt (pairMemory c c') 0x1000 [c, c'] where
  chars i hi := by
    have htwo : i < 2 := hi
    obtain rfl | rfl : i = 0 ∨ i = 1 := by omega
    · exact ⟨rfl, hc⟩
    · exact ⟨rfl, hc'⟩
  nul := rfl
  fits := show 0x1000 + 2 < 2 ^ 32 by decide

/-- It lies apart from the buffer. -/
theorem clear_pair (c c' : UInt8) :
    Clear (gridWindowArea defaultBackfb 0x200000) 0x1000 [c, c'] := by
  intro i hi
  have hi' : i ≤ 2 := hi
  exact .inl (show 0x1000 + i < 0x200000 by omega)

/-- The title has two letters. -/
theorem decorations_confined_letters :
    ∃ s', (canvasOps 4).windowDecorations (gridWindowArea defaultBackfb 0x200000) 0x1000
        ⟨pairMemory 0x4F 0x53, [], []⟩ = .ok ((), s') ∧
      s'.Confined (gridWindowArea defaultBackfb 0x200000) := by
  refine (decorations_confined_iff rfl (by decide) (by decide) (by decide) (by decide)
    (by decide) (by decide)
    (by decide) (textAt_pair (by decide) (by decide)) (clear_pair 0x4F 0x53)).2 ?_
  have hg : WindowBuffer (gridWindowArea defaultBackfb 0x200000) 4 :=
    gridWindowArea_buffer rfl (by decide) (by decide) (by decide) (by decide) (by decide)
      (by decide) (by decide)
  intro p hp
  have hlayout : layout windowTitleLeftPx [0x4F, 0x53] windowTitleLeftPx windowTitleTopPx =
      [(0x4F, 7, 4), (0x53, 15, 4)] := by decide
  rw [hlayout] at hp
  obtain rfl | rfl : p = (0x4F, 7, 4) ∨ p = (0x53, 15, 4) := by simpa using hp
  · exact ⟨by decide, hg.cellInside (by decide) (by decide)⟩
  · exact ⟨by decide, hg.cellInside (by decide) (by decide)⟩

/-- The second character of the title is a byte that has no glyph. -/
theorem decorations_no_glyph :
    ¬ ∃ s', (canvasOps 4).windowDecorations (gridWindowArea defaultBackfb 0x200000) 0x1000
        ⟨pairMemory 0x41 0x80, [], []⟩ = .ok ((), s') ∧
      s'.Confined (gridWindowArea defaultBackfb 0x200000) := by
  intro hconfined
  have hchars := (decorations_confined_iff rfl (by decide) (by decide) (by decide)
    (by decide) (by decide)
    (by decide) (by decide) (textAt_pair (by decide) (by decide)) (clear_pair 0x41 0x80)).1
    hconfined
  exact absurd (hchars (0x80, 15, 4) (by decide)).1 (by decide)

end MeghaOS
