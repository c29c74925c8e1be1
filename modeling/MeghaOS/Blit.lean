import MeghaOS.Graphics
import MeghaOS.Memory

/-!
# Copying an area into another one (`kgraphics.c`, `cm/graphics.c`)

The two blits have the same loops, which are stated here over any way to load and to store a byte
and for pixels of any size: `kgraphicsBlit`, which reaches the bytes through the page tables, is one
use of them (`kgraphicsBlit_eq`), and the blits in a memory that is mapped are another.
-/

namespace MeghaOS

open Exec

section Blit

variable {m : Type → Type} [Monad m] {β : Type} (load : Nat → m β) (store : Nat → β → m Unit)

/-- Load the bytes of a pixel. -/
def loadPixel : Nat → Nat → m (List β)
  | 0, _ => return []
  | n + 1, p => do
    let byte ← load p
    let rest ← loadPixel n (u32 (p + 1))
    return byte :: rest

/-- Store the bytes of a pixel. -/
def storePixel : List β → Nat → m Unit
  | [], _ => return
  | byte :: rest, p => do
    store p byte
    storePixel rest (u32 (p + 1))

/-- The inner loop, for pixels of `sizeofPixel` bytes; the result is the address of the next source
pixel. -/
def blitPixels (sizeofPixel bytesPerPixel : Nat) : Nat → Nat → Nat → m Nat
  | 0, _, bytes => return bytes
  | lw + 1, row, bytes => do
    storePixel store (← loadPixel load sizeofPixel bytes) row
    blitPixels sizeofPixel bytesPerPixel lw (u32 (row + sizeofPixel)) (u32 (bytes + bytesPerPixel))

/-- The outer loop. -/
def blitLines (sizeofPixel bytesPerPixel bytesPerRow w : Nat) : Nat → Nat → Nat → m Unit
  | 0, _, _ => return
  | h + 1, start, bytes => do
    let bytes ← blitPixels load store sizeofPixel bytesPerPixel w start bytes
    blitLines sizeofPixel bytesPerPixel bytesPerRow w h (u32 (start + bytesPerRow)) bytes

/-- The body of both functions. -/
def blitBody (sizeofPixel : Nat) (destg : KGraphicsArea) (x y : Nat) (srcg : KGraphicsArea) :
    m Unit :=
  blitLines load store sizeofPixel destg.bytesPerPixel destg.bytesPerRow srcg.widthPx srcg.heightPx
    (destg.pixel x y) srcg.buffer

end Blit

/-- `kgraphics_blit` between areas in mapped memory, for a build with pixels of so many bytes. -/
def mappedKgraphicsBlit (sizeofPixel : Nat) (destg : KGraphicsArea) (x y : Nat)
    (srcg : KGraphicsArea) :
    Exec Memory Unit :=
  if destg.bytesPerPixel = srcg.bytesPerPixel then
    blitBody loadByte storeByte sizeofPixel destg x y srcg
  else halt (.panic "Assertion failed: Graphics area mismatch")

/-- `graphics_blit`, whose `GraphicsContext` has the same fields. -/
def graphicsBlit (sizeofPixel : Nat) (destg : KGraphicsArea) (x y : Nat) (srcg : KGraphicsArea) :
    Exec Memory Unit :=
  blitBody loadByte storeByte sizeofPixel destg x y srcg

end MeghaOS
