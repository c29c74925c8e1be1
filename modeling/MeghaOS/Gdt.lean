import MeghaOS.Memory

/-!
# The GDT (`x86/gdt.c`)

The descriptors are packed records of eight bytes in a table of 512, on a page of its own below the
page with the boot information. `kgdtEdit` changes one that the kernel may change, or appends one,
and `kgdtWrite` tells the processor where the table is and how far it reaches.
-/

namespace MeghaOS

open Exec

/-- `MEM_START_GDT`. -/
abbrev memStartGdt : Nat := 0xC0001000

/-- `MIN_GDT_INDEX` and `MAX_GDT_DESC_COUNT`. -/
abbrev minGdtIndex : UInt16 := 3
abbrev maxGdtDescCount : UInt16 := 512

/-- `sizeof (GdtDescriptor)`. -/
abbrev sizeofGdtDescriptor : Nat := 8

/-- `GdtMeta`. -/
structure GdtMeta where
  size : UInt16
  location : Nat
  deriving DecidableEq

/-- The memory, the static data of `gdt.c`, and what `lgdt` loaded last. -/
structure GdtState where
  mem : Memory
  sGdt : Nat
  sGdtCount : UInt16
  gdtr : Option GdtMeta

/-- The static data before the first call. -/
def GdtState.static (mem : Memory) : GdtState := ⟨mem, 0, minGdtIndex, none⟩

/-! ## Fields of a descriptor -/

/-- Store a `U8` field. -/
def storeU8 (p : Nat) (value : UInt8) : Exec GdtState Unit :=
  zoom (·.mem) (fun mem s => { s with mem }) (storeByte p value)

/-- Store a `U16` field, the low byte first. -/
def storeU16 (p : Nat) (value : UInt16) : Exec GdtState Unit := do
  storeU8 p value.toUInt8
  storeU8 (p + 1) (value >>> 8).toUInt8

/-- Store the bit field in the low half of a byte. -/
def storeLowBits (p : Nat) (value : UInt8) : Exec GdtState Unit := do
  let byte := (← get).mem p
  storeU8 p (byte &&& (0xF0 : UInt8) ||| value &&& (0x0F : UInt8))

/-- Store the bit field in the high half of a byte. -/
def storeHighBits (p : Nat) (value : UInt8) : Exec GdtState Unit := do
  let byte := (← get).mem p
  storeU8 p (byte &&& (0x0F : UInt8) ||| value <<< 4)

/-- The offsets of the fields of `GdtDescriptor`; `limit_high` and `flags` are the halves of one
byte. -/
abbrev offsetofLimitLow : Nat := 0
abbrev offsetofBaseLow : Nat := 2
abbrev offsetofBaseMiddle : Nat := 4
abbrev offsetofAccess : Nat := 5
abbrev offsetofLimitHigh : Nat := 6
abbrev offsetofFlags : Nat := 6
abbrev offsetofBaseHigh : Nat := 7

/-! ## The functions -/

/-- `kgdt_write`. -/
def kgdtWrite : Exec GdtState Unit :=
  modify fun s =>
    { s with gdtr := some ⟨.ofNat (u32Sub (sizeofGdtDescriptor * s.sGdtCount.toNat) 1), s.sGdt⟩ }

/-- `kgdt_edit`. -/
def kgdtEdit (gdtIndex : UInt16) (base limit : UInt32) (access flags : UInt8) :
    Exec GdtState Unit := do
  modify fun s => { s with sGdt := memStartGdt }
  let s ← get
  if ¬ (gdtIndex ≥ minGdtIndex ∧ gdtIndex ≤ s.sGdtCount ∧ gdtIndex ≤ maxGdtDescCount) then
    halt (.panic ("Invalid gdt_index: " ++ toString gdtIndex))
  else
    let descriptor := s.sGdt + sizeofGdtDescriptor * gdtIndex.toNat
    storeU16 (descriptor + offsetofLimitLow) (limit &&& (0xFFFF : UInt32)).toUInt16
    storeLowBits (descriptor + offsetofLimitHigh) (limit >>> 16 &&& (0xF : UInt32)).toUInt8
    storeU16 (descriptor + offsetofBaseLow) (base &&& (0xFFFF : UInt32)).toUInt16
    storeU8 (descriptor + offsetofBaseMiddle) ((base >>> 16).toUInt8 &&& (0xFF : UInt8))
    storeU8 (descriptor + offsetofBaseHigh) ((base >>> 24).toUInt8 &&& (0xFF : UInt8))
    storeU8 (descriptor + offsetofAccess) access
    storeHighBits (descriptor + offsetofFlags) (flags &&& (0xF : UInt8))
    when (gdtIndex = s.sGdtCount) (modify fun s => { s with sGdtCount := s.sGdtCount + 1 })

/-- A call of one of the two functions. -/
inductive GdtCall
  | edit (gdtIndex : UInt16) (base limit : UInt32) (access flags : UInt8)
  | write
  deriving DecidableEq

/-- What a call does. -/
def gdtCall : GdtCall → Exec GdtState Unit
  | .edit gdtIndex base limit access flags => kgdtEdit gdtIndex base limit access flags
  | .write => kgdtWrite

end MeghaOS
