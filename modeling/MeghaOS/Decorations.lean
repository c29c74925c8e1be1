import MeghaOS.Blit
import MeghaOS.Compositor

/-!
# Drawing in a recorded memory (`kgraphics.c`, `compositor.c`)

The functions that draw the decorations of a window, stated over the accesses to memory that they
make. With the accesses of the compositor (`gOps`) they are those of the modules on graphics, and in
a `Canvas` they record which bytes of the glyphs are read and which addresses are written.
-/

namespace MeghaOS

open Exec

/-- The accesses to memory of the drawing functions, and the size of `GxColor` in the build. -/
structure DrawOps (σ : Type) where
  sizeofPixel : Nat
  fontsData : Exec σ Nat
  loadText : Nat → Exec σ Nat
  loadGlyph : Nat → Exec σ Nat
  store : Nat → Nat → Exec σ Unit

namespace DrawOps

variable {σ : Type} (ops : DrawOps σ)

/-- The bytes of a pixel of a colour. -/
def pixelBytes (color : Nat) : List Nat := (wordBytes color).take ops.sizeofPixel

/-- The inner loop of `kgraphics_rect`. -/
def rectRow (color : Nat) : Nat → Nat → Exec σ Unit
  | 0, _ => return
  | lw + 1, row => do
    storePixel ops.store (ops.pixelBytes color) row
    rectRow color lw (u32 (row + ops.sizeofPixel))

/-- The outer loop of `kgraphics_rect`. -/
def rectRows (bytesPerRow w color : Nat) : Nat → Nat → Exec σ Unit
  | 0, _ => return
  | h + 1, start => do
    ops.rectRow color w start
    rectRows bytesPerRow w color h (u32 (start + bytesPerRow))

/-- `kgraphics_rect`. -/
def rect (g : KGraphicsArea) (x y w h color : Nat) : Exec σ Unit :=
  ops.rectRows g.bytesPerRow w color h (g.pixel x y)

/-- `kgraphics_hline`. -/
def hline (g : KGraphicsArea) (x y w th color : Nat) : Exec σ Unit := ops.rect g x y w th color

/-- `kgraphics_vline`. -/
def vline (g : KGraphicsArea) (x y h th color : Nat) : Exec σ Unit := ops.rect g x y th h color

/-- `kgraphics_inborder`. -/
def inborder (g : KGraphicsArea) (x y w h th color : Nat) : Exec σ Unit := do
  ops.hline g x y w th color
  ops.vline g x y h th color
  ops.vline g (u32Sub (x + w) th) y h th color
  ops.hline g x (u32Sub (y + h) th) w th color

/-- The inner loop of `kgraphics_drawfont` from column `x` on. -/
def fontRow (glyph fg bg : Nat) : Nat → Nat → Nat → Exec σ Unit
  | 0, _, _ => return
  | n + 1, x, row => do
    let bits ← ops.loadGlyph glyph
    storePixel ops.store (ops.pixelBytes (if bits.testBit (7 - x) then fg else bg)) row
    fontRow glyph fg bg n (x + 1) (u32 (row + ops.sizeofPixel))

/-- The outer loop of `kgraphics_drawfont`. -/
def fontRows (bytesPerRow fg bg : Nat) : Nat → Nat → Nat → Exec σ Unit
  | 0, _, _ => return
  | n + 1, glyph, start => do
    ops.fontRow glyph fg bg gxmodeFontWidth 0 start
    fontRows bytesPerRow fg bg n (u32 (glyph + 1)) (u32 (start + bytesPerRow))

/-- `kgraphics_drawfont`. -/
def drawfont (g : KGraphicsArea) (x y a fg bg : Nat) : Exec σ Unit := do
  let glyph := u32 ((← ops.fontsData) + a * bootFontsGlyphBytes)
  ops.fontRows g.bytesPerRow fg bg gxmodeFontHeight glyph (g.pixel x y)

/-- The loop of `kgraphics_drawstring`. -/
def drawstringFrom (g : KGraphicsArea) (sx fg bg : Nat) : Nat → Nat → Nat → Nat → Exec σ Unit
  | 0, _, _, _ => halt .hang
  | n + 1, x, y, ch => do
    let c ← ops.loadText ch
    if c = 0 then return
    else if c = 10 then
      drawstringFrom g sx fg bg n sx (u32 (y + (gxmodeFontHeight + 1))) (u32 (ch + 1))
    else
      ops.drawfont g x y c fg bg
      drawstringFrom g sx fg bg n (u32 (x + gxmodeFontWidth)) y (u32 (ch + 1))

/-- `kgraphics_drawstring`. -/
def drawstring (g : KGraphicsArea) (x y text fg bg : Nat) : Exec σ Unit :=
  ops.drawstringFrom g x fg bg (2 ^ 32) x y text

/-- `drawWindowDecorations`, behind the title. -/
def borders (wa : KGraphicsArea) : Exec σ Unit := do
  ops.hline wa (u32Sub windowTitleBarLeftPx 1) (u32Sub windowTitleBarHeightPx 1)
    wa.widthPx 1 colorWhite
  ops.inborder wa windowTitleBarLeftPx windowTitleBarTopPx wa.widthPx wa.heightPx
    windowBorderWidthPx
    windowBorderColor1
  ops.inborder wa (windowTitleBarLeftPx + 1) (windowTitleBarTopPx + 1) (u32Sub wa.widthPx 2)
    (u32Sub wa.heightPx 2) 1 windowBorderColor2
  ops.rect wa windowWorkingAreaLeftPx windowWorkingAreaTopPx (windowWorkingAreaWidthPx wa)
    (windowWorkingAreaHeightPx wa) windowBgColor

/-- `drawWindowDecorations`. -/
def windowDecorations (wa : KGraphicsArea) (title : Nat) : Exec σ Unit := do
  ops.rect wa windowTitleBarLeftPx windowTitleBarTopPx wa.widthPx windowTitleBarHeightPx
    windowTitleBarBgColor
  ops.drawstring wa windowTitleLeftPx windowTitleTopPx title windowTitleBarFgColor
    windowTitleBarBgColor
  ops.borders wa

end DrawOps

/-- The accesses of the compositor, through the page tables. -/
def gOps : DrawOps GState where
  sizeofPixel := sizeofGxColor
  fontsData := do return (← get).fontsData
  loadText := readByte
  loadGlyph := readByte
  store := writeByte

/-- A mapped memory, the addresses at which bytes of glyphs were read and those that were
written. -/
structure Canvas where
  mem : Memory
  glyphReads : List Nat
  writes : List Nat

/-- `kboot_getFontData`: the glyphs come first in the boot information, at `MEM_START_BOOT_INFO`. -/
abbrev kbootGetFontData : Nat := 0xC0002000

/-- `BOOT_FONTS_GLYPH_COUNT`. -/
abbrev bootFontsGlyphCount : Nat := 128

/-- The accesses to a recorded memory, in a build with pixels of so many bytes. -/
def canvasOps (sizeofPixel : Nat) : DrawOps Canvas where
  sizeofPixel
  fontsData := return kbootGetFontData
  loadText p := do return ((← get).mem p).toNat
  loadGlyph p := do
    modify fun s => { s with glyphReads := p :: s.glyphReads }
    return ((← get).mem p).toNat
  store p value := modify fun s =>
    { s with mem := Function.update s.mem p (.ofNat value), writes := p :: s.writes }

end MeghaOS
