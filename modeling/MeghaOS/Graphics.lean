import MeghaOS.GState

/-!
# Kernel graphics (`kgraphics.c`)

The kernel draws into a `KGraphicsArea` pixel by pixel. Every byte is reached through the current
page directory, and an access to a page that is not there runs the page fault handler. The pixels
are those of the default build, with 32 bits.
-/

namespace MeghaOS

open Exec

/-! ## Bytes of memory -/

/-- The page frame that the current page directory gives for an address. -/
def KState.frameOfVa (s : KState) (va : Nat) : Nat :=
  (s.entry (s.entry s.cr3 (pdeIndex va)).pageFrame (pteIndex va)).pageFrame

/-- Read the byte at an address. -/
def readByte (va : Nat) : G Nat := do
  kernel (touch va)
  let s ← get
  return s.bytes (s.kernel.frameOfVa va) (pageOffset va)

/-- Write the byte at an address. -/
def writeByte (va value : Nat) : G Unit := do
  kernel (touch va)
  modify fun s =>
    let frame := s.kernel.frameOfVa va
    { s with bytes := fun f i => if f = frame ∧ i = pageOffset va then value else s.bytes f i }

/-- Read the next `n` bytes. -/
def readBytes : Nat → Nat → G (List Nat)
  | 0, _ => return []
  | n + 1, va => do
    let byte ← readByte va
    let rest ← readBytes n (u32 (va + 1))
    return byte :: rest

/-- Write the next bytes. -/
def writeBytes : List Nat → Nat → G Unit
  | [], _ => return
  | byte :: rest, va => do
    writeByte va byte
    writeBytes rest (u32 (va + 1))

/-- The bytes of a 32-bit word, the lowest one first. -/
def wordBytes (n : Nat) : List Nat :=
  [n % 256, n / 2 ^ 8 % 256, n / 2 ^ 16 % 256, n / 2 ^ 24 % 256]

/-! ## Colours -/

/-- `sizeof (GxColor)`. -/
abbrev sizeofGxColor : Nat := 4

abbrev colorWhite : Nat := 0xFFFFFF
abbrev windowTitleBarBgColor : Nat := 0x003971
abbrev windowTitleBarFgColor : Nat := 0xFFFFFF
abbrev windowBgColor : Nat := 0xDFDFDF
abbrev windowBorderColor1 : Nat := 0xAAAAAA
abbrev windowBorderColor2 : Nat := 0xF2F2F2

/-! ## Drawing -/

/-- The address of a pixel of an area. -/
def KGraphicsArea.pixel (g : KGraphicsArea) (x y : Nat) : Nat :=
  u32 (g.buffer + u32 (y * g.bytesPerRow) + u32 (x * g.bytesPerPixel))

/-- The inner loop of `kgraphics_rect`. -/
def rectRow (color : Nat) : Nat → Nat → G Unit
  | 0, _ => return
  | lw + 1, row => do
    writeBytes (wordBytes color) row
    rectRow color lw (u32 (row + sizeofGxColor))

/-- The outer loop of `kgraphics_rect`. -/
def rectRows (bytesPerRow w color : Nat) : Nat → Nat → G Unit
  | 0, _ => return
  | h + 1, start => do
    rectRow color w start
    rectRows bytesPerRow w color h (u32 (start + bytesPerRow))

/-- `kgraphics_rect`. -/
def kgraphicsRect (g : KGraphicsArea) (x y w h color : Nat) : G Unit :=
  rectRows g.bytesPerRow w color h (g.pixel x y)

/-- `kgraphics_hline`. -/
def kgraphicsHline (g : KGraphicsArea) (x y w th color : Nat) : G Unit :=
  kgraphicsRect g x y w th color

/-- `kgraphics_vline`. -/
def kgraphicsVline (g : KGraphicsArea) (x y h th color : Nat) : G Unit :=
  kgraphicsRect g x y th h color

/-- `kgraphics_inborder`. -/
def kgraphicsInborder (g : KGraphicsArea) (x y w h th color : Nat) : G Unit := do
  kgraphicsHline g x y w th color
  kgraphicsVline g x y h th color
  kgraphicsVline g (u32Sub (x + w) th) y h th color
  kgraphicsHline g x (u32Sub (y + h) th) w th color

/-- The inner loop of `kgraphics_drawfont` from column `x` on. -/
def fontRow (glyph fg bg : Nat) : Nat → Nat → Nat → G Unit
  | 0, _, _ => return
  | n + 1, x, row => do
    let bits ← readByte glyph
    writeBytes (wordBytes (if bits.testBit (7 - x) then fg else bg)) row
    fontRow glyph fg bg n (x + 1) (u32 (row + sizeofGxColor))

/-- The outer loop of `kgraphics_drawfont`. -/
def fontRows (bytesPerRow fg bg : Nat) : Nat → Nat → Nat → G Unit
  | 0, _, _ => return
  | n + 1, glyph, start => do
    fontRow glyph fg bg 8 0 start
    fontRows bytesPerRow fg bg n (u32 (glyph + 1)) (u32 (start + bytesPerRow))

/-- `CONFIG_GXMODE_FONT_WIDTH` and `CONFIG_GXMODE_FONT_HEIGHT`. -/
abbrev gxmodeFontWidth : Nat := 8
abbrev gxmodeFontHeight : Nat := 16

/-- `BOOT_FONTS_GLYPH_BYTES`. -/
abbrev bootFontsGlyphBytes : Nat := 16

/-- `kgraphics_drawfont`. -/
def kgraphicsDrawfont (g : KGraphicsArea) (x y a fg bg : Nat) : G Unit := do
  let glyph := u32 ((← get).fontsData + a * bootFontsGlyphBytes)
  fontRows g.bytesPerRow fg bg gxmodeFontHeight glyph (g.pixel x y)

/-- The loop of `kgraphics_drawstring`. A text without an end is read over and over again. -/
def drawstringFrom (g : KGraphicsArea) (sx fg bg : Nat) : Nat → Nat → Nat → Nat → G Unit
  | 0, _, _, _ => halt .hang
  | n + 1, x, y, ch => do
    let c ← readByte ch
    if c = 0 then return
    else if c = 10 then
      drawstringFrom g sx fg bg n sx (u32 (y + (gxmodeFontHeight + 1))) (u32 (ch + 1))
    else
      kgraphicsDrawfont g x y c fg bg
      drawstringFrom g sx fg bg n (u32 (x + gxmodeFontWidth)) y (u32 (ch + 1))

/-- `kgraphics_drawstring`. -/
def kgraphicsDrawstring (g : KGraphicsArea) (x y text fg bg : Nat) : G Unit :=
  drawstringFrom g x fg bg (2 ^ 32) x y text

/-- The inner loop of `kgraphics_blit`; the result is the address of the next source pixel. -/
def blitRow (bytesPerPixel : Nat) : Nat → Nat → Nat → G Nat
  | 0, _, bytes => return bytes
  | lw + 1, row, bytes => do
    writeBytes (← readBytes sizeofGxColor bytes) row
    blitRow bytesPerPixel lw (u32 (row + sizeofGxColor)) (u32 (bytes + bytesPerPixel))

/-- The outer loop of `kgraphics_blit`. -/
def blitRows (bytesPerPixel bytesPerRow w : Nat) : Nat → Nat → Nat → G Unit
  | 0, _, _ => return
  | h + 1, start, bytes => do
    let bytes ← blitRow bytesPerPixel w start bytes
    blitRows bytesPerPixel bytesPerRow w h (u32 (start + bytesPerRow)) bytes

/-- `kgraphics_blit`. -/
def kgraphicsBlit (destg : KGraphicsArea) (x y : Nat) (srcg : KGraphicsArea) : G Unit := do
  kernel (kAssert (destg.bytesPerPixel = srcg.bytesPerPixel) "Graphics area mismatch")
  blitRows destg.bytesPerPixel destg.bytesPerRow srcg.widthPx srcg.heightPx (destg.pixel x y)
    srcg.buffer

/-! ## The back buffer -/

/-- `BootGraphicsModeInfo` and the address of the glyphs, without what is only logged. -/
structure BootGraphicsModeInfo where
  xResolution : Nat
  yResolution : Nat
  bitsPerPixel : Nat
  framebufferPhysicalPtr : Nat
  bytesPerScanLine : Nat
  fontData : Nat

/-- Reserve and commit pages of a buffer of the screen. -/
def mapScreenBuffer (pa : Option Nat) (szPages : Nat) : G Nat := do
  let context := (← get).kernel.context
  let (buffer, _) ← kernel (kvmmMemmap context 0 pa szPages
    (vmmMemmapFlagImmcommit ||| vmmMemmapFlagKernelPage))
  if buffer ≠ 0 then kernel (kvmmSetAddressSpaceMetadata context buffer)
  return buffer

/-- `kgraphics_init`; the area of the hardware's buffer is used by the timer alone. -/
def kgraphicsInit (gmi : BootGraphicsModeInfo) : G Bool := do
  kernel (kernelPhaseValidate .vmmReady)
  modify fun s => { s with fontsData := gmi.fontData }
  let szPages := bytesToPageframesCeiling (u32 (gmi.bytesPerScanLine * gmi.yResolution))
  if gmi.framebufferPhysicalPtr = 0 then kernel (returnError .errDeviceNotReady false)
  else if (← mapScreenBuffer (some gmi.framebufferPhysicalPtr) szPages) = 0 then return false
  else
    let buffer ← mapScreenBuffer none szPages
    modify fun s => { s with
      gxBackfb := ⟨gmi.xResolution, gmi.yResolution, gmi.bitsPerPixel / 8, gmi.bytesPerScanLine,
        buffer, pageframesToBytes szPages⟩ }
    if buffer = 0 then return false
    else
      kernel (kAssert ((← get).kernel.phase = .kmallocReady) "Current state is unsuitable")
      modify fun s => { s with graphicsReady := true }
      return true

end MeghaOS
