import MeghaOS.Paging

/-!
# The page walk of the processor (`x86/paging.c`, `x86/paging.h`)

The processor finds the physical address behind an address in the two levels of tables that `cr3`
leads to. The last entry of a page directory refers to the directory itself, so that the walk can
end in the directory and in its page tables: `s_getPdeFromCurrentPd` and `s_getPteFromCurrentPd`
compute the addresses where it does.
-/

namespace MeghaOS

open Exec

/-- The physical address behind an address, in the tables that `cr3` leads to. -/
def KState.walk (s : KState) (va : Nat) : Option Nat :=
  let pde := s.entry s.cr3 (pdeIndex va)
  if pde.present then
    let pte := s.entry pde.pageFrame (pteIndex va)
    if pte.present then some (pte.pageFrame * pageFrameSizeBytes + pageOffset va) else none
  else none

/-- `PDE_SHIFT`. -/
abbrev pdeShift : Nat := 22

/-- `PTE_SHIFT`. -/
abbrev pteShift : Nat := 12

/-- `OFFSET_SHIFT`. -/
abbrev offsetShift : Nat := 0

/-- `PDE_MASK`. -/
abbrev pdeMask : Nat := 0xFFC00000

/-- `PTE_MASK`. -/
abbrev pteMask : Nat := 0x003FF000

/-- `OFFSET_MASK`. -/
abbrev offsetMask : Nat := 0x00000FFF

/-- `sizeof (ArchPageDirectoryEntry)`, and `sizeof (ArchPageTableEntry)`. -/
abbrev sizeofArchEntry : Nat := 4

/-- `LINEAR_ADDR`. -/
def linearAddr (pdeIdx pteIdx offset : Nat) : Nat :=
  u32 (pdeIdx <<< pdeShift) ||| u32 (pteIdx <<< pteShift) ||| offset

/-- `IndexInfo`. -/
structure IndexInfo where
  pdeIndex : Nat
  pteIndex : Nat
  offset : Nat
  deriving DecidableEq

/-- `s_getTableIndices`. -/
def sGetTableIndices (va : Nat) : K IndexInfo := do
  let info : IndexInfo :=
    { pdeIndex := (va &&& pdeMask) >>> pdeShift
      pteIndex := (va &&& pteMask) >>> pteShift
      offset := (va &&& offsetMask) >>> offsetShift }
  kAssert (info.pdeIndex < 1024 ∧ info.pteIndex < 1024 ∧ info.offset < 4096)
    "Invalid PD/PT/offset index"
  return info

/-- `s_getPdeFromCurrentPd`. -/
def sGetPdeFromCurrentPd (pdeIndex : Nat) : K Nat := do
  kAssert (pdeIndex < 1024) "Invalid PD/PT/offset index"
  return linearAddr recursivePdeIndex recursivePdeIndex (u32 (pdeIndex * sizeofArchEntry))

/-- `s_getPteFromCurrentPd`. -/
def sGetPteFromCurrentPd (pdeIndex pteIndex : Nat) : K Nat := do
  kAssert (pdeIndex < 1024 ∧ pteIndex < 1024) "Invalid PD/PT/offset index"
  return linearAddr recursivePdeIndex pdeIndex (u32 (pteIndex * sizeofArchEntry))

/-- The physical address of entry `i` of the table in a page frame. -/
def entryAddr (frame i : Nat) : Nat := frame * pageFrameSizeBytes + i * sizeofArchEntry

end MeghaOS
