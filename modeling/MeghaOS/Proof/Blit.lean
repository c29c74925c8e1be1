import MeghaOS.Blit
import MeghaOS.Compositor
import MeghaOS.Lib.Blocks
import MeghaOS.Lib.Exec

/-!
# What a blit copies

The loops of a blit advance the pointer into the destination by its row, and the pointer into the
source by the pixels that were copied: the rows of the source are taken to follow one another
without a gap. So the pixel `k` that is copied is read behind the `k` pixels before it, which is the
right place for every pixel when the source has no gaps, and otherwise only where the memory happens
to hold the same bytes (`blits_iff`).
-/

namespace MeghaOS

open Exec

/-! ## Both uses of the loops -/

section Mapped

/-- The kernel reads a pixel byte by byte, as the general blit does. -/
theorem readBytes_eq (n va : Nat) : readBytes n va = loadPixel readByte n va := by
  induction n generalizing va with
  | zero => rfl
  | succ n ih => simp only [readBytes, loadPixel, ih]

/-- It writes it so. -/
theorem writeBytes_eq (bytes : List Nat) (va : Nat) :
    writeBytes bytes va = storePixel writeByte bytes va := by
  induction bytes generalizing va with
  | nil => rfl
  | cons byte rest ih => simp only [writeBytes, storePixel, ih]

/-- It copies a row pixel by pixel. -/
theorem blitRow_eq (bytesPerPixel lw row bytes : Nat) :
    blitRow bytesPerPixel lw row bytes =
      blitPixels readByte writeByte sizeofGxColor bytesPerPixel lw row bytes := by
  induction lw generalizing row bytes with
  | zero => rfl
  | succ lw ih => simp only [blitRow, blitPixels, readBytes_eq, writeBytes_eq, ih]

/-- It copies an area row by row. -/
theorem blitRows_eq (bytesPerPixel bytesPerRow w h start bytes : Nat) :
    blitRows bytesPerPixel bytesPerRow w h start bytes =
      blitLines readByte writeByte sizeofGxColor bytesPerPixel bytesPerRow w h start bytes := by
  induction h generalizing start bytes with
  | zero => rfl
  | succ h ih => simp only [blitRows, blitLines, blitRow_eq, ih]

/-- The blit of the compositor has the loops of both blits. -/
theorem kgraphicsBlit_eq (destg : KGraphicsArea) (x y : Nat) (srcg : KGraphicsArea) :
    kgraphicsBlit destg x y srcg =
      kernel (kAssert (destg.bytesPerPixel = srcg.bytesPerPixel) "Graphics area mismatch") >>=
        fun _ => blitBody readByte writeByte sizeofGxColor destg x y srcg := by
  simp only [kgraphicsBlit, blitBody, blitRows_eq]

end Mapped

/-! ## Areas -/

namespace KGraphicsArea

/-- The address of a pixel. -/
def pixelAddress (g : KGraphicsArea) (x y : Nat) :
    Nat := g.buffer + y * g.bytesPerRow + x * g.bytesPerPixel

/-- An area of pixels of so many bytes: a row has room for its pixels, and ends in the address
space. -/
structure Laid (g : KGraphicsArea) (sizeofPixel : Nat) : Prop where
  pixel : g.bytesPerPixel = sizeofPixel
  row : g.widthPx * sizeofPixel ≤ g.bytesPerRow
  fits : ∀ y < g.heightPx, g.buffer + y * g.bytesPerRow + g.widthPx * sizeofPixel ≤ 2 ^ 32
  buffer_lt : g.buffer < 2 ^ 32

end KGraphicsArea

/-- The bytes at the next addresses. -/
def bytesAt (m : Memory) (p n : Nat) : List UInt8 := (List.range n).map fun b => m (p + b)

section Run

variable {m : Memory} {p n : Nat}

/-- The bytes of a range, as many as asked for. -/
@[simp] theorem length_bytesAt : (bytesAt m p n).length = n := by simp [bytesAt]

/-- They are those of the memory. -/
@[simp] theorem getElem_bytesAt {b : Nat} (hb : b < (bytesAt m p n).length) : (bytesAt m p n)[b] =
    m (p + b) := by
  simp [bytesAt]

/-- The first of them, and the rest. -/
theorem bytesAt_succ : bytesAt m p (n + 1) = m p :: bytesAt m (p + 1) n := by
  simp only [bytesAt, List.range_succ_eq_map, List.map_cons, List.map_map, Nat.add_zero,
    List.cons.injEq, true_and]
  refine List.map_congr_left fun b _ => congrArg m ?_
  exact Nat.add_right_comm p b 1

/-- Two runs of bytes are the same when they agree byte for byte. -/
theorem bytesAt_eq_iff {m' : Memory} {p' : Nat} :
    bytesAt m p n = bytesAt m' p' n ↔ ∀ b < n, m (p + b) = m' (p' + b) := by
  simp [bytesAt, List.map_inj_left]

/-- An address below 2^32 is itself. -/
theorem u32_of_lt {a : Nat} (h : a < 2 ^ 32) : u32 a = a := Nat.mod_eq_of_lt h

/-- An address may be cut before an offset is added. -/
theorem u32_add (a b : Nat) : u32 (u32 a + b) = u32 (a + b) := Nat.mod_add_mod a _ b

/-- A pixel that does not wrap is loaded. -/
theorem loadPixel_loadByte (h : p + n ≤ 2 ^ 32) :
    loadPixel loadByte n (u32 p) m = .ok (bytesAt m p n, m) := by
  induction n generalizing p with
  | zero => rfl
  | succ n ih =>
    have hload : loadByte (u32 p) m = .ok (m p, m) := by
      rw [u32_of_lt (by omega)]
      rfl
    rw [loadPixel, bind_of_ok hload, u32_add, bind_of_ok (ih (by omega)), bytesAt_succ]
    rfl

/-- It is stored. -/
theorem storePixel_storeByte {bytes : List UInt8} (h : p + bytes.length ≤ 2 ^ 32) :
    storePixel storeByte bytes (u32 p) m = .ok ((), written m p bytes) := by
  induction bytes generalizing p m with
  | nil =>
    rw [written_nil]
    rfl
  | cons byte rest ih =>
    rw [List.length_cons] at h
    have hstore : storeByte (u32 p) byte m = .ok ((), Function.update m p byte) := by
      rw [u32_of_lt (by omega)]
      rfl
    rw [storePixel, bind_of_ok hstore, u32_add, ih (by omega), written_cons]

end Run

/-! ## The loops -/

section Loops

variable {destg srcg : KGraphicsArea} {m : Memory} {x y px : Nat}

/-- The address of the pixel that the pixel `k` of the source is copied to. -/
def blitDest (destg : KGraphicsArea) (x y w k : Nat) :
    Nat := destg.pixelAddress (x + k % w) (y + k / w)

/-- The memory after the loops have copied `k` pixels. -/
def copied (destg : KGraphicsArea) (x y : Nat) (srcg : KGraphicsArea) (m : Memory) : Nat → Memory :=
  storeBlocks (blitDest destg x y srcg.widthPx)
    (fun k m' => bytesAt m' (srcg.buffer + k * srcg.bytesPerPixel) srcg.bytesPerPixel) m

/-- The memory in which the first `k` pixels of the source, row after row, have been drawn. -/
def drawn (destg : KGraphicsArea) (x y : Nat) (srcg : KGraphicsArea) (m : Memory) : Nat → Memory :=
  storeBlocks (blitDest destg x y srcg.widthPx)
    (fun k _ => bytesAt m (srcg.pixelAddress (k % srcg.widthPx) (k / srcg.widthPx))
      srcg.bytesPerPixel) m

/-- The source fits into the destination at a position. -/
structure FitsAt (destg : KGraphicsArea) (x y : Nat) (srcg : KGraphicsArea) : Prop where
  width : x + srcg.widthPx ≤ destg.widthPx
  height : y + srcg.heightPx ≤ destg.heightPx

/-- A pixel in a row before another one, or before it in the same row, lies before it. -/
theorem pixelAddress_add_le (hg : destg.Laid px) {i j i' j' : Nat} (hi : i < destg.widthPx)
    (h : j < j' ∨ j = j' ∧ i < i') : destg.pixelAddress i j + px ≤ destg.pixelAddress i' j' := by
  have hpixel : (i + 1) * px ≤ destg.widthPx * px := Nat.mul_le_mul_right px hi
  rw [Nat.add_mul, Nat.one_mul] at hpixel
  have hrow := hg.row
  unfold KGraphicsArea.pixelAddress
  rw [hg.pixel]
  rcases h with hlt | ⟨rfl, hlt⟩
  · have hrows : (j + 1) * destg.bytesPerRow ≤ j' * destg.bytesPerRow := Nat.mul_le_mul_right _ hlt
    rw [Nat.add_mul, Nat.one_mul] at hrows
    omega
  · have hpixels : (i + 1) * px ≤ i' * px := Nat.mul_le_mul_right px hlt
    rw [Nat.add_mul, Nat.one_mul] at hpixels
    omega

/-- A pixel ends in the address space. -/
theorem pixelAddress_lt (hg : destg.Laid px) {i j : Nat} (hi : i < destg.widthPx)
    (hj : j < destg.heightPx) :
    destg.pixelAddress i j + px ≤ 2 ^ 32 := by
  have hpixel : (i + 1) * px ≤ destg.widthPx * px := Nat.mul_le_mul_right px hi
  rw [Nat.add_mul, Nat.one_mul] at hpixel
  have hfits := hg.fits j hj
  unfold KGraphicsArea.pixelAddress
  rw [hg.pixel]
  omega

/-- A width of pixels that are indexed row after row is positive. -/
theorem width_pos {w h k : Nat} (hk : k < w * h) : 0 < w := Nat.pos_of_lt_mul_right hk

/-- The pixels that are copied to lie apart. -/
theorem apart_blitDest (hg : destg.Laid px) (hfit : FitsAt destg x y srcg) :
    BlocksApart (blitDest destg x y srcg.widthPx) px (srcg.widthPx * srcg.heightPx) := by
  intro k hk l hl
  have hwidth := hfit.width
  have hcol : l % srcg.widthPx < srcg.widthPx := Nat.mod_lt l (width_pos hk)
  refine .inr (pixelAddress_add_le hg (by omega) ?_)
  rcases Nat.lt_or_eq_of_le (Nat.div_le_div_right (Nat.le_of_lt hl)) with hlt | heq
  · exact .inl (Nat.add_lt_add_left hlt y)
  · have hl' := Nat.div_add_mod l srcg.widthPx
    have hk' := Nat.div_add_mod k srcg.widthPx
    rw [heq] at hl'
    exact .inr ⟨by rw [heq], by omega⟩

/-- The column and the row of a pixel of the source. -/
theorem rowMajor {w i j : Nat} (hi : i < w) : (j * w + i) % w = i ∧ (j * w + i) / w = j := by
  have hpos : 0 < w := Nat.lt_of_le_of_lt (Nat.zero_le i) hi
  refine ⟨by rw [Nat.mul_comm, Nat.mul_add_mod, Nat.mod_eq_of_lt hi], ?_⟩
  rw [Nat.add_comm, Nat.add_mul_div_right _ _ hpos, Nat.div_eq_of_lt hi, Nat.zero_add]

/-- The address at which the loop over the row `j` has arrived, in 32 bits. -/
theorem blitDest_rowMajor {i j : Nat} (hi : i < srcg.widthPx) :
    blitDest destg x y srcg.widthPx (j * srcg.widthPx + i) = destg.pixelAddress
      (x + i) (y + j) := by
  obtain ⟨hmod, hdiv⟩ := rowMajor (j := j) hi
  rw [blitDest, hmod, hdiv]

/-- The pixels of the source that are read end in the address space. -/
theorem sourcePixel_le (hs : srcg.Laid px) {i j : Nat} (hi : i < srcg.widthPx)
    (hj : j < srcg.heightPx) :
    srcg.buffer + (j * srcg.widthPx + i) * px + px ≤ 2 ^ 32 := by
  have hpixel : (i + 1) * px ≤ srcg.widthPx * px := Nat.mul_le_mul_right px hi
  have hrows : j * (srcg.widthPx * px) ≤ j * srcg.bytesPerRow := Nat.mul_le_mul_left j hs.row
  have hfits := hs.fits j hj
  rw [Nat.add_mul, Nat.one_mul] at hpixel
  rw [Nat.add_mul, Nat.mul_assoc]
  omega

/-- The inner loop copies the rest of a row. -/
theorem blitPixels_eq (hg : destg.Laid px) (hs : srcg.Laid px) (hfit : FitsAt destg x y srcg)
    {lw i j : Nat} (hi : i + lw ≤ srcg.widthPx) (hj : j < srcg.heightPx) :
    blitPixels loadByte storeByte px px lw (u32 (destg.pixelAddress (x + i) (y + j)))
        (u32 (srcg.buffer + (j * srcg.widthPx + i) * px))
          (copied destg x y srcg m (j * srcg.widthPx + i)) =
      .ok (u32 (srcg.buffer + (j * srcg.widthPx + i + lw) * px),
        copied destg x y srcg m (j * srcg.widthPx + i + lw)) := by
  induction lw generalizing i with
  | zero => rfl
  | succ lw ih =>
    have hlt : i < srcg.widthPx := by omega
    have hread := sourcePixel_le hs hlt hj
    have hdest : destg.pixelAddress (x + i) (y + j) + px ≤ 2 ^ 32 :=
      pixelAddress_lt hg (by have := hfit.width; omega) (by have := hfit.height; omega)
    have hnextDest : u32 (u32 (destg.pixelAddress (x + i) (y + j)) + px) =
        u32 (destg.pixelAddress (x + (i + 1)) (y + j)) := by
      rw [u32_add, KGraphicsArea.pixelAddress, KGraphicsArea.pixelAddress, hg.pixel,
        ← Nat.add_assoc x,
        Nat.add_mul (x + i), Nat.one_mul, ← Nat.add_assoc]
    have hnextSrc : u32 (u32 (srcg.buffer + (j * srcg.widthPx + i) * px) + px) =
        u32 (srcg.buffer + (j * srcg.widthPx + (i + 1)) * px) := by
      rw [u32_add, ← Nat.add_assoc (j * _), Nat.add_mul _ 1, Nat.one_mul, ← Nat.add_assoc]
    have hcopied : written (copied destg x y srcg m (j * srcg.widthPx + i))
      (destg.pixelAddress (x + i) (y + j))
        (bytesAt (copied destg x y srcg m (j * srcg.widthPx + i))
          (srcg.buffer + (j * srcg.widthPx + i) * px) px) =
        copied destg x y srcg m (j * srcg.widthPx + (i + 1)) := by
      rw [← Nat.add_assoc, copied, storeBlocks, blitDest_rowMajor hlt, hs.pixel]
    have hindex : j * srcg.widthPx + (i + 1) + lw = j * srcg.widthPx + i + (lw + 1) := by omega
    rw [blitPixels, bind_of_ok (loadPixel_loadByte hread),
      bind_of_ok (storePixel_storeByte (by rw [length_bytesAt]; exact hdest)), hnextDest,
        hnextSrc, hcopied,
      ih (by omega), hindex]

/-- The outer loop copies the rows from `j` on. -/
theorem blitLines_eq (hg : destg.Laid px) (hs : srcg.Laid px)
    (hfit : FitsAt destg x y srcg) {h j : Nat}
    (hj : j + h = srcg.heightPx) :
    blitLines loadByte storeByte px px destg.bytesPerRow srcg.widthPx h
      (u32 (destg.pixelAddress x (y + j)))
        (u32 (srcg.buffer + j * srcg.widthPx * px)) (copied destg x y srcg m (j * srcg.widthPx)) =
      .ok ((), copied destg x y srcg m (srcg.widthPx * srcg.heightPx)) := by
  induction h generalizing j with
  | zero =>
    obtain rfl : j = srcg.heightPx := hj
    rw [Nat.mul_comm srcg.widthPx]
    rfl
  | succ h ih =>
    have hrow := blitPixels_eq (m := m) hg hs hfit (show 0 + srcg.widthPx ≤ srcg.widthPx by omega)
      (show j < srcg.heightPx by omega)
    have hnextRow : u32 (u32 (destg.pixelAddress x (y + j)) + destg.bytesPerRow) =
        u32 (destg.pixelAddress x (y + (j + 1))) := by
      rw [u32_add, KGraphicsArea.pixelAddress, KGraphicsArea.pixelAddress, ← Nat.add_assoc y,
        Nat.add_mul (y + j), Nat.one_mul, Nat.add_right_comm, Nat.add_assoc destg.buffer]
    rw [Nat.add_zero, Nat.add_zero] at hrow
    rw [blitLines, bind_of_ok hrow, hnextRow, ← Nat.succ_mul]
    exact ih (by omega)

/-- The address of a pixel, with wrapping. -/
theorem pixel_eq (g : KGraphicsArea) (x y : Nat) : g.pixel x y = u32 (g.pixelAddress x y) := by
  simp only [KGraphicsArea.pixel, KGraphicsArea.pixelAddress, u32]
  omega

/-- What both blits leave in memory. -/
theorem blitBody_eq (hg : destg.Laid px) (hs : srcg.Laid px) (hfit : FitsAt destg x y srcg) :
    blitBody loadByte storeByte px destg x y srcg m =
      .ok ((), copied destg x y srcg m (srcg.widthPx * srcg.heightPx)) := by
  have hbuffer : srcg.buffer = u32 (srcg.buffer + 0 * srcg.widthPx * px) := by
    rw [Nat.zero_mul, Nat.zero_mul, Nat.add_zero, u32_of_lt hs.buffer_lt]
  have hlines := blitLines_eq (m := m) hg hs hfit (Nat.zero_add srcg.heightPx)
  rw [← hbuffer, Nat.zero_mul, Nat.add_zero] at hlines
  rw [blitBody, pixel_eq, hg.pixel]
  exact hlines

/-- A blit draws the pixels of the source, as they were at the call, at a position of the
destination, and changes no other byte. -/
def Blits (px : Nat) (destg : KGraphicsArea) (x y : Nat) (srcg : KGraphicsArea) (m : Memory)
    (blit : Exec Memory Unit) : Prop :=
  ∃ m', blit m = .ok ((), m') ∧
    (∀ i < srcg.widthPx, ∀ j < srcg.heightPx, ∀ b < px,
      m' (destg.pixelAddress (x + i) (y + j) + b) = m (srcg.pixelAddress i j + b)) ∧
    ∀ a, (∀ i < srcg.widthPx, ∀ j < srcg.heightPx,
      a < destg.pixelAddress (x + i) (y + j) ∨ destg.pixelAddress (x + i) (y + j) + px ≤ a) →
        m' a = m a

/-- A pixel of the source has an index, row after row. -/
theorem forall_pixel_iff {w h : Nat} {P : Nat → Nat → Prop} :
    (∀ k < w * h, P (k % w) (k / w)) ↔ ∀ i < w, ∀ j < h, P i j := by
  constructor
  · intro hall i hi j hj
    obtain ⟨hmod, hdiv⟩ := rowMajor (j := j) hi
    have hlt : j * w + i < w * h := by
      have := Nat.mul_le_mul_left w (Nat.succ_le_of_lt hj)
      rw [Nat.mul_succ, Nat.mul_comm w j] at this
      omega
    have := hall _ hlt
    rwa [hmod, hdiv] at this
  · intro hall k hk
    exact hall _ (Nat.mod_lt k (width_pos hk)) _ (Nat.div_lt_of_lt_mul hk)

/-- A pixel that was drawn keeps the bytes of the source. -/
theorem drawn_pixel (hg : destg.Laid px) (hs : srcg.Laid px)
    (hfit : FitsAt destg x y srcg) {k b : Nat}
    (hk : k < srcg.widthPx * srcg.heightPx) (hb : b < px) :
    drawn destg x y srcg m (srcg.widthPx * srcg.heightPx) (blitDest destg x y srcg.widthPx k + b) =
      m (srcg.pixelAddress (k % srcg.widthPx) (k / srcg.widthPx) + b) := by
  rw [drawn, storeBlocks_block (fun k m' => by rw [length_bytesAt, hs.pixel])
    (apart_blitDest hg hfit) hk hb,
    List.get_eq_getElem, getElem_bytesAt]

/-- Bytes outside of the pixels that are drawn are kept. -/
theorem drawn_outside (hs : srcg.Laid px) {n a : Nat}
    (ha : ∀ k < n, a < blitDest destg x y srcg.widthPx k ∨
      blitDest destg x y srcg.widthPx k + px ≤ a) :
    drawn destg x y srcg m n a = m a :=
  storeBlocks_outside (fun k m' => by rw [length_bytesAt, hs.pixel]) ha

/-- The memory with all pixels drawn is the one that a blit is to leave. -/
theorem eq_drawn_iff (hg : destg.Laid px) (hs : srcg.Laid px) (hfit : FitsAt destg x y srcg)
    {m' : Memory} :
    m' = drawn destg x y srcg m (srcg.widthPx * srcg.heightPx) ↔
      (∀ i < srcg.widthPx, ∀ j < srcg.heightPx, ∀ b < px,
        m' (destg.pixelAddress (x + i) (y + j) + b) = m (srcg.pixelAddress i j + b)) ∧
      ∀ a, (∀ i < srcg.widthPx, ∀ j < srcg.heightPx,
        a < destg.pixelAddress (x + i) (y + j) ∨ destg.pixelAddress (x + i) (y + j) + px ≤ a) →
          m' a = m a := by
  constructor
  · rintro rfl
    refine ⟨forall_pixel_iff.1 fun k hk b hb => drawn_pixel hg hs hfit hk hb, fun a ha => ?_⟩
    exact drawn_outside hs (forall_pixel_iff.2 ha)
  · rintro ⟨hpixels, hrest⟩
    have hpixels' := forall_pixel_iff.2 hpixels
    funext a
    by_cases ha : ∀ k < srcg.widthPx * srcg.heightPx,
        a < blitDest destg x y srcg.widthPx k ∨ blitDest destg x y srcg.widthPx k + px ≤ a
    · rw [drawn_outside hs ha]
      exact hrest a (forall_pixel_iff.1 ha)
    · push Not at ha
      obtain ⟨k, hk, hle, hlt⟩ := ha
      obtain ⟨b, rfl⟩ := Nat.exists_eq_add_of_le hle
      have hb : b < px := Nat.lt_of_add_lt_add_left hlt
      rw [drawn_pixel hg hs hfit hk hb]
      exact hpixels' k hk b hb

/-- A blit is right if and only if every pixel of the source, row after row, is found behind the
ones before it when those have been drawn. -/
theorem blits_iff (hg : destg.Laid px) (hs : srcg.Laid px) (hfit : FitsAt destg x y srcg) :
    (Blits px destg x y srcg m (mappedKgraphicsBlit px destg x y srcg) ∧
      Blits px destg x y srcg m (graphicsBlit px destg x y srcg)) ↔
      ∀ k < srcg.widthPx * srcg.heightPx, ∀ b < px,
        drawn destg x y srcg m k (srcg.buffer + k * px + b) =
          m (srcg.pixelAddress (k % srcg.widthPx) (k / srcg.widthPx) + b) := by
  have hsame : mappedKgraphicsBlit px destg x y srcg = graphicsBlit px destg x y srcg :=
    if_pos (hg.pixel.trans hs.pixel.symm)
  rw [hsame, and_self]
  calc Blits px destg x y srcg m (graphicsBlit px destg x y srcg)
      ↔ copied destg x y srcg m (srcg.widthPx * srcg.heightPx) =
          drawn destg x y srcg m (srcg.widthPx * srcg.heightPx) := by
        rw [eq_drawn_iff hg hs hfit, Blits, graphicsBlit, blitBody_eq hg hs hfit]
        simp
    _ ↔ ∀ k < srcg.widthPx * srcg.heightPx,
          bytesAt (drawn destg x y srcg m k) (srcg.buffer + k * srcg.bytesPerPixel)
            srcg.bytesPerPixel =
            bytesAt m (srcg.pixelAddress (k % srcg.widthPx) (k / srcg.widthPx))
              srcg.bytesPerPixel :=
        storeBlocks_eq_iff (fun k m' => by rw [length_bytesAt, hs.pixel])
          (fun k m' => by rw [length_bytesAt, hs.pixel]) (apart_blitDest hg hfit)
    _ ↔ _ := by
        simp only [bytesAt_eq_iff, hs.pixel]

/-- The pixels of the source, taken row after row, are not drawn over. -/
def Unharmed (px : Nat) (destg : KGraphicsArea) (x y : Nat) (srcg : KGraphicsArea) : Prop :=
  ∀ a, srcg.buffer ≤ a → a < srcg.buffer + srcg.widthPx * srcg.heightPx * px →
    ∀ i < srcg.widthPx, ∀ j < srcg.heightPx,
      a < destg.pixelAddress (x + i) (y + j) ∨ destg.pixelAddress (x + i) (y + j) + px ≤ a

/-- What is not drawn over is read as it was at the call. -/
theorem drawn_source (hs : srcg.Laid px) (hsafe : Unharmed px destg x y srcg) {k b : Nat}
    (hk : k < srcg.widthPx * srcg.heightPx) (hb : b < px) :
    drawn destg x y srcg m k (srcg.buffer + k * px + b) = m (srcg.buffer + k * px + b) := by
  have hpixel : (k + 1) * px ≤ srcg.widthPx * srcg.heightPx * px := Nat.mul_le_mul_right px hk
  rw [Nat.add_mul, Nat.one_mul] at hpixel
  have hout := forall_pixel_iff.2 (hsafe (srcg.buffer + k * px + b) (by omega) (by omega))
  exact drawn_outside hs fun l hl => hout l (Nat.lt_trans hl hk)

/-- Rows that follow one another without a gap have their pixels where the loops read them. -/
theorem pixelAddress_packed (hs : srcg.Laid px)
    (hrows : srcg.bytesPerRow = srcg.widthPx * px ∨ srcg.heightPx ≤ 1) {k : Nat}
    (hk : k < srcg.widthPx * srcg.heightPx) :
    srcg.pixelAddress (k % srcg.widthPx) (k / srcg.widthPx) = srcg.buffer + k * px := by
  unfold KGraphicsArea.pixelAddress
  rw [hs.pixel]
  rcases hrows with heq | hone
  · have hindex := Nat.div_add_mod k srcg.widthPx
    calc srcg.buffer + k / srcg.widthPx * srcg.bytesPerRow + k % srcg.widthPx * px
        = srcg.buffer + (srcg.widthPx * (k / srcg.widthPx) + k % srcg.widthPx) * px := by
          rw [heq]
          ring
      _ = srcg.buffer + k * px := by rw [hindex]
  · have hlt : k < srcg.widthPx :=
      Nat.lt_of_lt_of_le hk (Nat.le_trans (Nat.mul_le_mul_left _ hone)
        (Nat.le_of_eq (Nat.mul_one _)))
    rw [Nat.div_eq_of_lt hlt, Nat.mod_eq_of_lt hlt, Nat.zero_mul, Nat.add_zero]

/-- A source without gaps that is not drawn over is copied. -/
theorem drawn_source_of_packed (hs : srcg.Laid px) (hsafe : Unharmed px destg x y srcg)
    (hrows : srcg.bytesPerRow = srcg.widthPx * px ∨ srcg.heightPx ≤ 1) :
    ∀ k < srcg.widthPx * srcg.heightPx, ∀ b < px,
      drawn destg x y srcg m k (srcg.buffer + k * px + b) =
        m (srcg.pixelAddress (k % srcg.widthPx) (k / srcg.widthPx) + b) := by
  intro k hk b hb
  rw [drawn_source hs hsafe hk hb, pixelAddress_packed hs hrows hk]

end Loops

/-! ## A window and its working area -/

/-- The back buffer of a screen of 14 by 50 pixels. -/
def testBackfb : KGraphicsArea := ⟨14, 50, 4, 56, 0x100000, 4096⟩

/-- The area of a window in its grid. -/
def testWindowArea : KGraphicsArea := { newWindowArea testBackfb with buffer := 0x200000 }

/-- The area of the test has its rows apart. -/
theorem testBackfb_laid : testBackfb.Laid 4 := ⟨rfl, by decide, by decide, by decide⟩

/-- A memory in which neighbouring bytes differ. -/
def testMemory : Memory := fun a => .ofNat a

/-- The area of a window has no gaps. -/
theorem blits_testWindowArea :
    Blits 4 testBackfb 7 25 testWindowArea testMemory
      (mappedKgraphicsBlit 4 testBackfb 7 25 testWindowArea) ∧
      Blits 4 testBackfb 7 25 testWindowArea testMemory
        (graphicsBlit 4 testBackfb 7 25 testWindowArea) := by
  have hs : testWindowArea.Laid 4 := ⟨rfl, by decide, by decide, by decide⟩
  have hsafe : Unharmed 4 testBackfb 7 25 testWindowArea := by
    intro a hge _ i hi j hj
    have hge' : 0x200000 ≤ a := hge
    have hi' : i < 7 := hi
    have hj' : j < 25 := hj
    refine .inr ?_
    show 0x100000 + (25 + j) * 56 + (7 + i) * 4 + 4 ≤ a
    omega
  exact (blits_iff testBackfb_laid hs ⟨by decide, by decide⟩).2
    (drawn_source_of_packed hs hsafe (.inl rfl))

/-- The working area of that window has two rows of one pixel, 28 bytes apart: the second pixel is
read 4 bytes behind the first one. -/
theorem not_blits_workingArea :
    workingAreaOf testWindowArea = ⟨1, 2, 4, 28, 0x20023C, 56⟩ ∧
    ¬ (Blits 4 testBackfb 0 0 (workingAreaOf testWindowArea)
      (fun a => if a = 0x200258 then 1 else 0)
        (mappedKgraphicsBlit 4 testBackfb 0 0 (workingAreaOf testWindowArea)) ∧
      Blits 4 testBackfb 0 0 (workingAreaOf testWindowArea) (fun a => if a = 0x200258 then 1 else 0)
        (graphicsBlit 4 testBackfb 0 0 (workingAreaOf testWindowArea))) := by
  refine ⟨rfl, fun hblits => ?_⟩
  have hs : (workingAreaOf testWindowArea).Laid 4 := ⟨rfl, by decide, by decide, by decide⟩
  have hread := (blits_iff testBackfb_laid hs ⟨by decide, by decide⟩).1 hblits 1
    (by decide) 0 (by decide)
  rw [drawn_outside hs (by decide)] at hread
  exact absurd hread (by decide)

end MeghaOS
