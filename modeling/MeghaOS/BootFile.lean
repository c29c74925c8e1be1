import MeghaOS.Memory

/-!
# Boot files by their name (`x86/boot.c`, `kstdlib.c`)

The boot loader hands over the files that it loaded, with their names as a FAT12 directory has them
and a `NUL` behind. A pointer into a string or an array is the list of the bytes from it to the end
of the object; the `NUL` of a file name that is passed in is left out, so that the empty list points
to it.
-/

namespace MeghaOS

open Exec

/-- `BootFileItem`, with its name. -/
structure NamedBootFile where
  name : List UInt8
  startLocation : Nat
  length : UInt16
  name_length : name.length = 12
  deriving DecidableEq

/-- The files of `BootLoaderInfo`, of which the boot loader counts those that it loaded. -/
structure BootFiles where
  filecount : UInt16
  files : List NamedBootFile
  files_length : files.length = 11
  filecount_le : filecount ≤ 11

/-- The items that are filled in. -/
def BootFiles.stored (bli : BootFiles) : List NamedBootFile := bli.files.take bli.filecount.toNat

/-! ## Strings -/

/-- `k_strlen`. -/
def kStrlen : List UInt8 → Except Halt Nat
  | [] => .error .fault
  | c :: s => if c ≠ 0 then (kStrlen s).map (· + 1) else .ok 0

/-- `k_memcmp`. -/
def kMemcmp : List UInt8 → List UInt8 → Nat → Except Halt Bool
  | _, _, 0 => .ok true
  | d :: dest, s :: src, n + 1 => if d = s then kMemcmp dest src n else .ok false
  | _, _, _ + 1 => .error .fault

/-- Read the bytes of an array. -/
def loadBytes : Nat → Nat → Exec Memory (List UInt8)
  | 0, _ => return []
  | n + 1, p => do return (← loadByte p) :: (← loadBytes n (p + 1))

/-! ## File names -/

/-- The characters that `convert_to_f12_filename` treats as such. -/
abbrev charDot : UInt8 := 0x2E
abbrev charSpace : UInt8 := 0x20

/-- The loops that store spaces while `di` is below a limit, from which they have `n` turns left;
the result is `di` and `out`. -/
def storeSpaces : Nat → Nat → Nat → Exec Memory (Nat × Nat)
  | 0, di, out => return (di, out)
  | n + 1, di, out => do
    storeByte out charSpace
    storeSpaces n (di + 1) (out + 1)

/-- The loop over the characters of a name. -/
def f12FilenameLoop : List UInt8 → Nat → Nat → Exec Memory (Nat × Nat)
  | [], di, out => return (di, out)
  | c :: fn, di, out =>
    if c ≠ 0 ∧ di < 11 then
      if c = charDot then do
        let (di, out) ← storeSpaces (8 - di) di out
        -- `di--` here, and `di++` at the end of the turn
        f12FilenameLoop fn (di - 1 + 1) out
      else do
        storeByte out c
        f12FilenameLoop fn (di + 1) (out + 1)
    else return (di, out)

/-- `convert_to_f12_filename`. -/
def convertToF12Filename (fn : List UInt8) (out : Nat) : Exec Memory Unit := do
  let (di, out) ← f12FilenameLoop fn 0 out
  let _ ← storeSpaces (11 - di) di out

/-- `CONFIG_BOOT_FILENAME_LEN_CHARS`. -/
abbrev configBootFilenameLenChars : Nat := 12

/-- The loop of `kboot_findBootFileItem`. -/
def findBootFileFrom (fat12FileName : List UInt8) : List NamedBootFile → Except Halt NamedBootFile
  | [] => .error (.panic "Assertion failed: Invalid file name")
  | bfi :: files => do
    if ← kMemcmp bfi.name fat12FileName configBootFilenameLenChars then return bfi
    else findBootFileFrom fat12FileName files

/-- `kboot_findBootFileItem`, whose array `fat12FileName` lies somewhere on the stack. -/
def kbootFindBootFileItem (bli : BootFiles) (filename : List UInt8) (fat12FileName : Nat) :
    Exec Memory NamedBootFile := do
  let _ ← kMemset fat12FileName 0 configBootFilenameLenChars
  convertToF12Filename filename fat12FileName
  let converted ← loadBytes configBootFilenameLenChars fat12FileName
  if (← lift (kStrlen converted)) = 11 then lift (findBootFileFrom converted bli.stored)
  else halt (.panic "Assertion failed: Invalid file name")

end MeghaOS
