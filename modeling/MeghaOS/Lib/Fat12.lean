import Mathlib.Data.List.Chain
import Mathlib.Tactic.Ring

/-!
# FAT12 volumes

The layout of a volume whose clusters are single sectors, the 12-bit entries of its FAT, and the
files of its root directory. An entry is three half-bytes: two entries share three bytes, and the
two bytes that an entry lies in can be in two sectors (`EntryStraddles`). `RootFile` is a file with
a valid chain of clusters that is long enough, and the clusters it needs are a chain too
(`RootFile.needed_isChain`).
-/

namespace MeghaOS.Fat12

/-- The layout of a volume, as its boot sector gives it. -/
structure Geometry where
  bytesPerSector : Nat
  reservedSectors : Nat
  numberOfFats : Nat
  sectorsPerFat : Nat
  rootEntries : Nat
  sectors : Nat

/-- The bytes of a volume. -/
abbrev Image : Type := Nat → UInt8

/-- Two bytes as a number, the low byte first. -/
def word (lo hi : UInt8) : Nat := lo.toNat + 256 * hi.toNat

theorem word_lt (lo hi : UInt8) : word lo hi < 2 ^ 16 := by
  have hlo := lo.toNat_lt
  have hhi := hi.toNat_lt
  unfold word
  omega

/-- The entry of cluster `n` in the two bytes that it lies in. -/
def entryOf (n : Nat) (lo hi : UInt8) : Nat := if n % 2 = 1 then
    word lo hi / 16 else word lo hi % 4096

namespace Geometry

variable (g : Geometry) (image : Image)

/-- The bytes of a sector. -/
def sectorBytes (n : Nat) : List UInt8 :=
  (List.range g.bytesPerSector).map fun i => image (n * g.bytesPerSector + i)

@[simp] theorem length_sectorBytes (n : Nat) : (g.sectorBytes image n).length =
    g.bytesPerSector := by
  simp [sectorBytes]

theorem getElem_sectorBytes {n i : Nat} (h : i < (g.sectorBytes image n).length) :
    (g.sectorBytes image n)[i] = image (n * g.bytesPerSector + i) := by
  simp [sectorBytes]

/-- The first sector of the root directory. -/
def rootSector : Nat := g.reservedSectors + g.numberOfFats * g.sectorsPerFat

/-- The first sector of the clusters. -/
def dataSector : Nat :=
  g.rootSector + (g.rootEntries * 32 + g.bytesPerSector - 1) / g.bytesPerSector

/-! ## The FAT -/

/-- Where the entry of a cluster begins in the FAT. -/
def entryOffset (n : Nat) : Nat := 3 * n / 2

/-- Byte `k` of the first FAT. -/
def fatByte (k : Nat) : UInt8 := image (g.reservedSectors * g.bytesPerSector + k)

/-- The FAT entry of a cluster. -/
def fatEntry (n : Nat) : Nat :=
  entryOf n (g.fatByte image (entryOffset n)) (g.fatByte image (entryOffset n + 1))

/-- The entry of the cluster begins in the last byte of a sector. -/
def EntryStraddles (n : Nat) : Prop := entryOffset n % g.bytesPerSector + 1 = g.bytesPerSector

instance (n : Nat) : Decidable (g.EntryStraddles n) := inferInstanceAs (Decidable (_ = _))

/-! ## Clusters -/

/-- The number of a cluster of the volume. -/
def IsCluster (c : Nat) : Prop := 2 ≤ c ∧ c < 2 + (g.sectors - g.dataSector)

instance (c : Nat) : Decidable (g.IsCluster c) := inferInstanceAs (Decidable (_ ∧ _))

/-- The bytes of a cluster. -/
def clusterBytes (c : Nat) : List UInt8 := g.sectorBytes image (g.dataSector + (c - 2))

@[simp] theorem length_clusterBytes (c : Nat) : (g.clusterBytes image c).length =
  g.bytesPerSector :=
  g.length_sectorBytes image _

theorem length_flatMap_clusterBytes (l : List Nat) :
    (l.flatMap (g.clusterBytes image)).length = l.length * g.bytesPerSector := by
  induction l with
  | nil => simp
  | cons c l ih =>
    rw [List.flatMap_cons, List.length_append, ih, length_clusterBytes,
      List.length_cons, Nat.succ_mul,
      Nat.add_comm]

/-- The clusters from `c` to the end of its chain. -/
structure Chain (c : Nat) (l : List Nat) : Prop where
  first : l.head? = some c
  clusters : ∀ d ∈ l, g.IsCluster d
  next : l.IsChain fun d d' => g.fatEntry image d = d'
  last : ∀ d ∈ l.getLast?, 0xFF8 ≤ g.fatEntry image d

/-! ## The root directory -/

/-- Byte `k` of an entry of the root directory. -/
def rootByte (e k : Nat) : UInt8 := image (g.rootSector * g.bytesPerSector + e * 32 + k)

/-- The name in an entry, in 8.3 form. -/
def name (e : Nat) : List UInt8 := (List.range 11).map (g.rootByte image e)

/-- The first cluster of an entry. -/
def firstCluster (e : Nat) : Nat := word (g.rootByte image e 26) (g.rootByte image e 27)

/-- The size in an entry. -/
def fileSize (e : Nat) : Nat :=
  word (g.rootByte image e 28) (g.rootByte image e 29) +
    2 ^ 16 * word (g.rootByte image e 30) (g.rootByte image e 31)

/-- The first entry with a name. -/
def findEntry (name : List UInt8) : Option Nat :=
  (List.range g.rootEntries).find? fun e => g.name image e = name

end Geometry

/-! ## Files -/

/-- A file of the root directory, with its chain of clusters. -/
structure RootFile (g : Geometry) (image : Image) where
  entry : Nat
  entry_lt : entry < g.rootEntries
  clusters : List Nat
  chain : g.Chain image (g.firstCluster image entry) clusters
  enough : g.fileSize image entry ≤ clusters.length * g.bytesPerSector

namespace RootFile

variable {g : Geometry} {image : Image} (file : RootFile g image)

/-- The size of the file. -/
def size : Nat := g.fileSize image file.entry

/-- The bytes of the file. -/
def contents : List UInt8 := (file.clusters.flatMap (g.clusterBytes image)).take file.size

@[simp] theorem length_contents : file.contents.length = file.size := by
  rw [contents, List.length_take, g.length_flatMap_clusterBytes]
  exact Nat.min_eq_left file.enough

/-- The clusters that hold bytes of the file. -/
def needed : List Nat :=
  file.clusters.take ((file.size + g.bytesPerSector - 1) / g.bytesPerSector)

theorem needed_isChain : file.needed.IsChain fun d d' => g.fatEntry image d = d' :=
    file.chain.next.take _

theorem isCluster_of_needed {c : Nat} (h : c ∈ file.needed) : g.IsCluster c :=
  file.chain.clusters c (List.mem_of_mem_take h)

theorem length_needed (hpos : 0 < g.bytesPerSector) :
    file.needed.length = (file.size + g.bytesPerSector - 1) / g.bytesPerSector := by
  rw [needed, List.length_take, Nat.min_eq_left]
  have henough : file.size ≤ file.clusters.length * g.bytesPerSector := file.enough
  rw [Nat.div_le_iff_le_mul_add_pred hpos]
  rw [Nat.mul_comm] at henough
  omega

theorem size_le_needed (hpos : 0 < g.bytesPerSector) :
    file.size ≤ file.needed.length * g.bytesPerSector := by
  have hround := Nat.lt_div_mul_add (a := file.size + g.bytesPerSector - 1) hpos
  rw [file.length_needed hpos]
  omega

/-- The bytes of the file are in the clusters that it needs. -/
theorem contents_eq (hpos : 0 < g.bytesPerSector) :
    file.contents = (file.needed.flatMap (g.clusterBytes image)).take file.size := by
  have hsplit : file.clusters = file.needed ++
      file.clusters.drop ((file.size + g.bytesPerSector - 1) / g.bytesPerSector) :=
    (List.take_append_drop ..).symm
  rw [contents, hsplit, List.flatMap_append, List.take_append_of_le_length]
  rw [g.length_flatMap_clusterBytes]
  exact file.size_le_needed hpos

/-- A file that is not empty needs its first cluster. -/
theorem needed_eq_cons (hpos : 0 < g.bytesPerSector) (hsize : 0 < file.size) :
    ∃ rest, file.needed = g.firstCluster image file.entry :: rest := by
  obtain ⟨rest, hrest⟩ := List.head?_eq_some_iff.1 file.chain.first
  have hcount : 0 < (file.size + g.bytesPerSector - 1) / g.bytesPerSector :=
    Nat.div_pos (by omega) hpos
  obtain ⟨n, hn⟩ := Nat.exists_eq_succ_of_ne_zero (Nat.ne_of_gt hcount)
  exact ⟨rest.take n, by rw [needed, hrest, hn, List.take_succ_cons]⟩

end RootFile

end MeghaOS.Fat12
