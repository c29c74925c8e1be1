import MeghaOS.Lib.Layout
import MeghaOS.Proof.Handle
import MeghaOS.Salloc

/-!
# The blocks of the static memory

`SallocRun s blocks` says that a run from `ksalloc_init` on, with any calls of the allocator in it,
leads to the state `s` and has handed out the `blocks`, in this order. They lie one after the other
from the start of the region on (`SallocInv`), so that what is in use is the sum of their lengths.
A call either hands out the next block or reports an error (`SallocCall.exec_meets`).
-/

namespace MeghaOS

open Exec

variable {k : KState} {s s' : SallocState} {a bytes used : Nat}

/-! ## Calls -/

/-- So many bytes of the region are in use. -/
structure SallocUsed (k : KState) (used : Nat) : Prop where
  phase : k.phase.check .sallocReady = true
  next : k.sallocNext = memStartSalloc + used
  le : used ≤ memLenBytesSalloc

/-- There is room for a block of so many bytes. -/
def SallocFits (used bytes : Nat) : Prop :=
  bytes ≠ 0 ∧ used + roundedSize bytes ≤ memLenBytesSalloc

namespace SallocUsed

/-- What `ksalloc_getUsedMemory` returns. -/
theorem getUsedMemory (h : SallocUsed k used) : ksallocGetUsedMemory k = .ok (used, k) := by
  obtain ⟨hphase, hnext, hle⟩ := h
  have hused : u32Sub k.sallocNext memStartSalloc = used := by
    simp only [hnext, u32Sub, memStartSalloc, memLenBytesSalloc] at *
    omega
  rw [ksallocGetUsedMemory, kernelPhaseValidate_bind_eq_ok, get_bind_apply, hused]
  exact ⟨hphase, rfl⟩

/-- `ksalloc` where there is room. -/
theorem ksalloc_granted (h : SallocUsed k used) (hfits : SallocFits used bytes) :
    ksalloc bytes k = .ok (memStartSalloc + used,
      { k with sallocNext := memStartSalloc + (used + roundedSize bytes) }) := by
  obtain ⟨hpos, hroom⟩ := hfits
  rw [ksalloc_ok bytes _ h.phase hpos rfl (by rw [h.next]; omega) (by rw [h.next]; omega), h.next,
    Nat.add_assoc]

/-- `ksalloc` where there is none. -/
theorem ksalloc_refused (h : SallocUsed k used) (hnot : ¬ SallocFits used bytes) :
    ksalloc bytes k = .ok (0, { k with errorNumber := sallocError bytes }) := by
  have hle := h.le
  refine MeghaOS.ksalloc_refused bytes h.phase (by rw [h.next]; omega) (by rw [h.next]; omega) ?_
  intro hpos
  rw [h.next]
  have hroom : ¬ used + roundedSize bytes ≤ memLenBytesSalloc := fun hroom => hnot ⟨hpos, hroom⟩
  omega

end SallocUsed

/-- `kscalloc` does to the kernel what it does without its zeroes, which are written to the block
alone. -/
theorem SallocState.kscalloc_eq (h : MeghaOS.kscalloc bytes s.kernel = .ok (a, k)) :
    SallocState.kscalloc bytes s = .ok (a, ⟨k, fun x =>
      if a ≠ 0 ∧ a ≤ x ∧ x < a + roundedSize bytes then 0 else s.memory x⟩) := by
  rw [MeghaOS.kscalloc, kernelPhaseValidate_bind_eq_ok] at h
  obtain ⟨hphase, h⟩ := h
  have hvalid : SallocState.onKernel (kernelPhaseValidate .sallocReady) s = .ok ((), s) :=
    zoom_eq_ok.2 ⟨s.kernel, kernelPhaseValidate_eq_ok.2 ⟨hphase, rfl⟩, rfl⟩
  rw [SallocState.kscalloc, bind_of_ok hvalid]
  rcases ite_eq_ok.1 h with ⟨hbad, h⟩ | ⟨hgood, h⟩
  · obtain ⟨rfl, rfl⟩ := returnError_eq_ok.1 h
    rw [if_pos hbad]
    simp [SallocState.onKernel, zoom, returnError]
  · rw [alignUp_salloc (by omega)] at h ⊢
    have hcall : SallocState.onKernel (ksalloc (roundedSize bytes)) s =
        .ok (a, { s with kernel := k }) := zoom_eq_ok.2 ⟨k, h, rfl⟩
    rw [if_neg hgood, bind_of_ok hcall]
    by_cases hnull : a = 0
    · simp [hnull]
    · have hset : SallocState.onMemory (kMemset a 0 (roundedSize bytes)) { s with kernel := k } =
          .ok (a, ⟨k, fun x => if a ≤ x ∧ x < a + roundedSize bytes then 0 else s.memory x⟩) :=
        zoom_eq_ok.2 ⟨_, rfl, rfl⟩
      rw [when_true hnull, bind_assoc, bind_of_ok hset]
      simp [hnull]

namespace SallocCall

/-- The bytes after a call that returned `a`: `kscalloc` fills its block with zeroes. -/
def memoryAfter (call : SallocCall) (a : Nat) (memory : Memory) : Memory :=
  match call with
  | ksalloc _ => memory
  | kscalloc bytes => fun x =>
    if a ≠ 0 ∧ a ≤ x ∧ x < a + roundedSize bytes.toNat then 0 else memory x

@[simp] theorem memoryAfter_null (call : SallocCall) (memory : Memory) :
    call.memoryAfter 0 memory = memory := by
  cases call <;> simp [memoryAfter]

/-- What a call does when so many bytes are in use: it returns a block if there is room for one,
and changes nothing else but the bytes of that block; otherwise it only reports an error. -/
structure Meets (call : SallocCall) (used : Nat) (s s' : SallocState) (a : Nat) : Prop where
  returned : a ≠ 0 ↔ SallocFits used call.bytes
  success : a ≠ 0 → s'.kernel = { s.kernel with sallocNext := a + roundedSize call.bytes }
  memory : s'.memory = call.memoryAfter a s.memory
  failure : a = 0 →
    s' = { s with kernel := { s.kernel with errorNumber := sallocError call.bytes } }

/-- Both calls do to the kernel what `ksalloc` does. -/
theorem exec_eq {call : SallocCall} (h : MeghaOS.ksalloc call.bytes s.kernel = .ok (a, k)) :
    call.exec s = .ok (a, ⟨k, call.memoryAfter a s.memory⟩) := by
  cases call with
  | ksalloc bytes =>
    rw [exec, SallocState.onKernel, zoom_eq_ok]
    exact ⟨k, h, rfl⟩
  | kscalloc bytes =>
    rw [← kscalloc_eq_ksalloc] at h
    exact SallocState.kscalloc_eq h

/-- Every call returns: the next block, or an error. -/
theorem exec_meets (call : SallocCall) (h : SallocUsed s.kernel used) :
    ∃ a s', call.exec s = .ok (a, s') ∧ call.Meets used s s' a ∧
      (a ≠ 0 → a = memStartSalloc + used) := by
  by_cases hfits : SallocFits used call.bytes
  · have hne : memStartSalloc + used ≠ 0 := by
      simp only [memStartSalloc]
      omega
    refine ⟨_, _, exec_eq (h.ksalloc_granted hfits), ⟨?_, ?_, rfl, ?_⟩, fun _ => rfl⟩
    · exact iff_of_true hne hfits
    · intro _
      rw [Nat.add_assoc]
    · intro hnull
      exact absurd hnull hne
  · refine ⟨_, _, exec_eq (h.ksalloc_refused hfits), ⟨?_, ?_, rfl, ?_⟩, ?_⟩
    · exact iff_of_false (fun hne => hne rfl) hfits
    · intro hne
      exact absurd rfl hne
    · intro _
      rw [memoryAfter_null]
    · intro hne
      exact absurd rfl hne

end SallocCall

/-! ## Runs -/

/-- A block that was handed out, for so many bytes. -/
structure SallocBlock where
  addr : Nat
  bytes : Nat

/-- The length of a block. -/
def SallocBlock.length (b : SallocBlock) : Nat := roundedSize b.bytes

/-- The blocks after a call that returned `a`. -/
def SallocCall.blocks (call : SallocCall) (a : Nat) (blocks : List SallocBlock) :
    List SallocBlock :=
  if a = 0 then blocks else blocks ++ [⟨a, call.bytes⟩]

/-- How many bytes the blocks have. -/
def usedMemory (blocks : List SallocBlock) : Nat := (blocks.map SallocBlock.length).sum

@[simp] theorem usedMemory_append (blocks : List SallocBlock) (b : SallocBlock) :
    usedMemory (blocks ++ [b]) = usedMemory blocks + b.length := by
  simp [usedMemory]

theorem usedMemory_mod (blocks : List SallocBlock) : usedMemory blocks % 8 = 0 := by
  induction blocks with
  | nil => rfl
  | cons b blocks ih =>
    have hmod : b.length % 8 = 0 := roundedSize_mod
    rw [usedMemory, List.map_cons, List.sum_cons, ← usedMemory]
    omega

/-- A run from `ksalloc_init` on. What the rest of the kernel does between two calls leaves `s_next`
alone, which is private to the allocator, and does not go back to an earlier phase. -/
inductive SallocRun : SallocState → List SallocBlock → Prop
  | init {k : KState} {s : SallocState} :
      ksallocInit k = .ok ((), s.kernel) → SallocRun s []
  | call {s s' : SallocState} {blocks : List SallocBlock} {a : Nat} (call : SallocCall) :
      SallocRun s blocks → call.exec s = .ok (a, s') → SallocRun s' (call.blocks a blocks)
  | other {s s' : SallocState} {blocks : List SallocBlock} :
      SallocRun s blocks → s'.kernel.sallocNext = s.kernel.sallocNext →
      s'.kernel.phase.check .sallocReady = true → SallocRun s' blocks

variable {blocks : List SallocBlock}

/-- The blocks follow one another from the start of the region to the end of what is in use. -/
structure SallocInv (s : SallocState) (blocks : List SallocBlock) : Prop where
  used : SallocUsed s.kernel (usedMemory blocks)
  layout : Layout SallocBlock.addr SallocBlock.length memStartSalloc
    (memStartSalloc + usedMemory blocks) blocks
  aligned : ∀ b ∈ blocks, b.addr % sallocGranuality = 0

namespace SallocInv

/-- After `ksalloc_init` nothing is in use. -/
theorem init (h : ksallocInit k = .ok ((), s.kernel)) : SallocInv s [] := by
  rw [ksallocInit, modify_bind_apply, kernelPhaseSet_eq_ok] at h
  obtain ⟨-, hkernel⟩ := h
  refine ⟨⟨?_, ?_, Nat.zero_le _⟩, .nil, by simp⟩
  · rw [hkernel]
    rfl
  · rw [hkernel]
    rfl

/-- A call hands out the next block, or none. -/
theorem call {call : SallocCall} (h : SallocInv s blocks) (hexec : call.exec s = .ok (a, s')) :
    SallocInv s' (call.blocks a blocks) := by
  obtain ⟨a', t, hrun, hmeets, hnext⟩ := call.exec_meets h.used
  rw [hexec] at hrun
  cases hrun
  by_cases hnull : a = 0
  · rw [SallocCall.blocks, if_pos hnull, hmeets.failure hnull]
    exact ⟨⟨h.used.phase, h.used.next, h.used.le⟩, h.layout, h.aligned⟩
  · obtain ⟨hpos, hroom⟩ := hmeets.returned.1 hnull
    have ha := hnext hnull
    have hlong := @le_roundedSize call.bytes
    rw [SallocCall.blocks, if_neg hnull]
    refine ⟨⟨?_, ?_, ?_⟩, ?_, ?_⟩
    · rw [hmeets.success hnull]
      exact h.used.phase
    · rw [hmeets.success hnull, ha, usedMemory_append, ← Nat.add_assoc]
      rfl
    · rw [usedMemory_append]
      exact hroom
    · rw [usedMemory_append, ← Nat.add_assoc]
      exact h.layout.append_last (Nat.le_add_right _ _) ha (Nat.lt_of_lt_of_le (by omega) hlong)
    · intro b hb
      rcases List.mem_append.1 hb with hb | hb
      · exact h.aligned b hb
      · have hmod := usedMemory_mod blocks
        rw [List.mem_singleton.1 hb]
        simp only [ha, memStartSalloc, sallocGranuality]
        omega

end SallocInv

theorem SallocRun.inv (h : SallocRun s blocks) : SallocInv s blocks := by
  induction h with
  | init hinit => exact .init hinit
  | call call _ hexec ih => exact ih.call hexec
  | other _ hnext hphase ih =>
    exact ⟨⟨hphase, hnext.trans ih.used.next, ih.used.le⟩, ih.layout, ih.aligned⟩

/-- What holds of the blocks that were handed out: they lie in the region one behind the other, each
at least as long as it was asked for, and what is in use is the sum of their lengths. -/
structure SallocBlocks (s : SallocState) (blocks : List SallocBlock) : Prop where
  layout : Layout SallocBlock.addr SallocBlock.length memStartSalloc
    (memStartSalloc + memLenBytesSalloc) blocks
  aligned : ∀ b ∈ blocks, b.addr % sallocGranuality = 0
  long : ∀ b ∈ blocks, b.bytes ≤ b.length
  used : ksallocGetUsedMemory s.kernel = .ok (usedMemory blocks, s.kernel)
  fits : usedMemory blocks ≤ memLenBytesSalloc

/-- After every run the blocks are as promised, and every further call of any size returns and does
what it should. -/
theorem salloc_run_meets (h : SallocRun s blocks) :
    SallocBlocks s blocks ∧ ∀ call : SallocCall, ∃ a s', call.exec s = .ok (a, s') ∧
      call.Meets (usedMemory blocks) s s' a := by
  obtain ⟨hused, hlayout, haligned⟩ := h.inv
  refine ⟨⟨?_, haligned, fun _ _ => le_roundedSize, hused.getUsedMemory, hused.le⟩, ?_⟩
  · exact hlayout.mono (Nat.add_le_add_left hused.le _)
  · intro call
    obtain ⟨a, s', hexec, hmeets, -⟩ := call.exec_meets hused
    exact ⟨a, s', hexec, hmeets⟩

/-- The state after `ksalloc_init`; every byte of the memory is 7. -/
def noBlocks : SallocState := ⟨sallocJustReady.kernel, fun _ => 7⟩

/-- The same state after a call of `ksalloc` for one byte. -/
def oneBlock : SallocState := (SallocCall.ksalloc 1).exec.finalState noBlocks

/-- The same state after a call of `kscalloc` for nine bytes. -/
def twoBlocks : SallocState := (SallocCall.kscalloc 9).exec.finalState oneBlock

theorem twoBlocks_run : SallocRun twoBlocks [⟨0xC0026000, 1⟩, ⟨0xC0026008, 9⟩] := by
  have hinit : SallocRun noBlocks [] :=
    .init (k := pmmJustReady) (eq_ok_finalState (by decide +kernel))
  have hone : (SallocCall.ksalloc 1).exec noBlocks = .ok (0xC0026000, oneBlock) :=
    eq_ok_of_value (by decide +kernel)
  have htwo : (SallocCall.kscalloc 9).exec oneBlock = .ok (0xC0026008, twoBlocks) :=
    eq_ok_of_value (by decide +kernel)
  exact (hinit.call _ hone).call _ htwo

/-- The second block lies behind the first, at a multiple of eight. -/
theorem salloc_run_meets_twoBlocks :
    SallocBlocks twoBlocks [⟨0xC0026000, 1⟩, ⟨0xC0026008, 9⟩] ∧
      ∀ call : SallocCall, ∃ a s', call.exec twoBlocks = .ok (a, s') ∧
        call.Meets 24 twoBlocks s' a :=
  salloc_run_meets twoBlocks_run

end MeghaOS
