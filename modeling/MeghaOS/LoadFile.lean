import MeghaOS.Lib.Fat12
import MeghaOS.Memory

/-!
# Loading a file from the boot floppy (`loadFile.s`, `csh.s`, `boot.s`)

`loadFile` looks for a name in the root directory and copies the sectors of the file to a
destination, following the FAT. It reads each sector, also those of the FAT, to `buffer`, which has
the 512 bytes up to 0x8000. The BIOS is a parameter: `int13` is what reading one sector does to
memory. The code and the variables of the boot sector are kept apart from the memory.
-/

namespace MeghaOS

open Fat12 (word)

/-! ## The BIOS parameter block -/

abbrev bytesPerSector : Nat := 512
abbrev reservedSector : Nat := 1
abbrev numberOfFats : Nat := 2
abbrev rootEntries : Nat := 224
abbrev logicalSectors : Nat := 2880
abbrev sectorsPerFat : Nat := 9
abbrev sectorsPerTrack : Nat := 18
abbrev headCount : Nat := 2

/-- The volume that the block describes. -/
def bootVolume : Fat12.Geometry :=
  ⟨bytesPerSector, reservedSector, numberOfFats, sectorsPerFat, rootEntries, logicalSectors⟩

/-! ## Reading sectors -/

/-- A value in a register of 16 bits. -/
def u16 (n : Nat) : Nat := n % 2 ^ 16

/-- The label `buffer`, behind the boot sector. -/
abbrev buffer : Nat := 0x7E00

/-- The registers `CH`, `DH` and `CL` of INT 13h. -/
structure DiskAddress where
  cylinder : Nat
  head : Nat
  sector : Nat
  deriving DecidableEq

/-- `csh`. -/
def csh (ax : Nat) : DiskAddress :=
  let track := ax / sectorsPerTrack
  ⟨track / headCount % 2 ^ 8, track % headCount, ax % sectorsPerTrack + 1⟩

/-- The variables of `loadFile` and the memory; `followed` are the clusters whose sectors it has
read, and `copied` are the bytes that it has stored in the destination, with their addresses. -/
structure LoadState where
  mem : Memory
  filesector : Nat
  fileremsize : Nat
  osegoffset : Nat
  followed : List Nat
  copied : List (UInt8 × Nat)

/-- `rep movsb` with `CX` bytes left, from a segment at zero. -/
def repMovsb (es : Nat) : Nat → Nat → Nat → LoadState → LoadState
  | 0, _, _, s => s
  | cx + 1, si, di, s =>
    let dest := es * 16 + di
    let b := s.mem si
    repMovsb es cx (u16 (si + 1)) (u16 (di + 1))
      { s with mem := Function.update s.mem dest b, copied := s.copied ++ [(b, dest)] }

section

variable (int13 : DiskAddress → Nat → Memory → Memory)

/-- `readSector`, to the buffer. -/
def readSector (ax : Nat) (s : LoadState) :
    LoadState := { s with mem := int13 (csh ax) buffer s.mem }

/-! ## The directory search -/

/-- `.searchRootEntry`, with `n` entries left in the sector; the result is `BX`. -/
def searchRootEntry (m : Memory) (bootfilename : List UInt8) : Nat → Nat → Option Nat
  | 0, _ => none
  | n + 1, bx =>
    if (List.range 11).map (fun i => m (buffer + bx + i)) = bootfilename then some bx
    else searchRootEntry m bootfilename n (bx + 32)

/-- `.readsector`, with `CX` sectors left. -/
def readRootSectors (bootfilename : List UInt8) : Nat → Nat → LoadState → Option Nat × LoadState
  | 0, _, s => (none, s)
  | cx + 1, ax, s =>
    let s := readSector int13 ax s
    match searchRootEntry s.mem bootfilename 16 0 with
    | some bx => (some bx, s)
    | none => readRootSectors bootfilename cx (ax + 1) s

/-! ## The file -/

/-- `.readDataSector`, up to the new values of `fileremsize` and `osegoffset`. -/
def readDataSector (osegment : Nat) (s : LoadState) : LoadState :=
  let cx := if s.fileremsize > 512 then 512 else s.fileremsize
  let s := readSector int13 (u16 (s.filesector + 31))
    { s with followed := s.followed ++ [s.filesector] }
  let s := repMovsb osegment cx buffer s.osegoffset s
  { s with fileremsize := s.fileremsize - cx, osegoffset := u16 (s.osegoffset + cx) }

/-- `.getNextSector`, up to the new value of `filesector`. -/
def getNextSector (s : LoadState) : LoadState :=
  let ax := u16 (s.filesector / 2 + s.filesector)
  let dx := ax % bytesPerSector
  let s := readSector int13 (ax / bytesPerSector + reservedSector) s
  let ax := word (s.mem (buffer + dx)) (s.mem (buffer + dx + 1))
  { s with filesector := if s.filesector % 2 = 1 then ax / 16 else ax % 4096 }

/-- `.repeat`, for at most so many turns; each turn makes `fileremsize` less. -/
def readFile (osegment : Nat) : Nat → LoadState → LoadState
  | 0, s => s
  | turns + 1, s =>
    if s.fileremsize = 0 then s
    else
      let s := getNextSector int13 (readDataSector int13 osegment s)
      if s.filesector = 0xFFF then s else readFile osegment turns s

/-- The name that `loadFile` copies from `DS:DX`. -/
def bootfilename (m : Memory) (ds dx : Nat) : List UInt8 :=
  (List.range 11).map fun i => m (ds * 16 + u16 (dx + i))

/-- `loadFile`, with its arguments in these registers; the first result is `AX`. -/
def loadFile (ax bx ds dx : Nat) (m : Memory) : Nat × LoadState :=
  match readRootSectors int13 (bootfilename m ds dx) 14 19 ⟨m, 0, 0, bx, [], []⟩ with
  | (none, s) => (0, s)
  | (some bx, s) =>
    let filesector := word (s.mem (buffer + bx + 0x1A)) (s.mem (buffer + bx + 0x1A + 1))
    let fileremsize := word (s.mem (buffer + bx + 0x1C)) (s.mem (buffer + bx + 0x1C + 1))
    (fileremsize, readFile int13 ax fileremsize { s with filesector, fileremsize })

end

end MeghaOS
