import MeghaOS.Proof.Booted

/-!
# Runs of the allocator

From `kmalloc_init` on, on any machine, the sections of the heap stay in order through every
sequence of calls of `kmalloc`, `kmallocz` and `kfree`, with the rest of the kernel running in
between: it never touches the static data or the headers of the allocator.
-/

namespace MeghaOS

open Exec KState

variable {s s' : KState}

/-! ## Calls -/

/-- A call of the allocator. -/
inductive HeapCall
  | kmalloc (bytes : Nat)
  | kmallocz (bytes : Nat)
  | kfree (addr : Nat)

namespace HeapCall

/-- Run a call, without its result. -/
def exec : HeapCall → K Unit
  | kmalloc bytes => do let _ ← MeghaOS.kmalloc bytes
  | kmallocz bytes => do let _ ← MeghaOS.kmallocz bytes
  | kfree addr => do let _ ← MeghaOS.kfree addr

/-- The size of a block and of two headers does not overflow. -/
def Fits : HeapCall → Prop
  | kmalloc bytes | kmallocz bytes => bytes + 2 * sizeofKMallocHeader < 2 ^ 32
  | kfree _ => True

end HeapCall

/-- The runs of the allocator since `kmalloc_init`. -/
inductive HeapRun : KState → Prop
  | init {info : BootLoaderInfo} {mem : Nat → Nat → Entry} {freshDirty : Bool} {s₀ s : KState} :
      kernelMainMemory info.files freshDirty (entryState info mem) = .ok ((), s₀) →
        kmallocInit s₀ = .ok ((), s) → HeapRun s
  | call {s s' : KState} {call : HeapCall} :
      HeapRun s → call.Fits → call.exec s = .ok ((), s') → HeapRun s'
  | other {s s' : KState} :
      HeapRun s → s'.heap = s.heap → s'.phase.check .kmallocReady = true → HeapRun s'

/-! ## The sections between two calls -/

/-- The lists of the allocator are in order, and `kmalloc_getUsedMemory` accounts for all of the
memory that is not free. -/
def SectionsInOrder (s : KState) : Prop :=
  ∃ secs free alloc, HeapInv s.heap secs free alloc ∧ ∃ used,
    kmallocGetUsedMemory s = .ok (used, s) ∧
      used + (free.map s.heap.size).sum = memLenBytesKmalloc

/-- The allocator may be called, and its sections are in order. -/
structure HeapRunInv (s : KState) : Prop where
  phase : s.phase.check .kmallocReady = true
  heap : ∃ secs free alloc, HeapInv s.heap secs free alloc

theorem HeapRunInv.sectionsInOrder (h : HeapRunInv s) : SectionsInOrder s := by
  obtain ⟨secs, free, alloc, hinv⟩ := h.heap
  refine ⟨secs, free, alloc, hinv, _, ?_, hinv.sizes_sum⟩
  rw [kmallocGetUsedMemory, kernelPhaseValidate_bind_eq_ok]
  exact ⟨h.phase, zoom_eq_ok.2 ⟨s.heap, heapUsedMemory_spec hinv, rfl⟩⟩

namespace HeapRunInv

/-- Committing pages does not touch the heap. -/
theorem of_nonCommit (h : HeapRunInv s) (hnc : s'.nonCommit = s.nonCommit) : HeapRunInv s' where
  phase := (phase_of_nonCommit hnc).symm ▸ h.phase
  heap := (heap_of_nonCommit hnc).symm ▸ h.heap

/-- `kmalloc` takes a free section, or leaves the heap as it is. -/
theorem kmalloc (h : HeapRunInv s) {bytes a : Nat}
    (hbytes : bytes + 2 * sizeofKMallocHeader < 2 ^ 32)
    (hrun : MeghaOS.kmalloc bytes s = .ok (a, s')) : HeapRunInv s' := by
  obtain ⟨secs, free, alloc, hinv⟩ := h.heap
  rcases kmalloc_parts hinv hbytes hrun with ⟨-, e, rfl⟩ |
    ⟨node, s₁, -, -, -, htouch, heq, ⟨secs', free', hinv'⟩, -⟩
  · exact ⟨h.phase, h.heap⟩
  · have hphase := (h.of_nonCommit (touchRange_fixes _ _ _ _ _ htouch)).phase
    exact ⟨by rw [heq]; exact hphase, secs', free', _, hinv'⟩

/-- `kfree` gives an allocated section back, or leaves the heap as it is. -/
theorem kfree (h : HeapRunInv s) {a : Nat} {ok : Bool}
    (hrun : MeghaOS.kfree a s = .ok (ok, s')) : HeapRunInv s' := by
  obtain ⟨secs, free, alloc, hinv⟩ := h.heap
  rw [MeghaOS.kfree, kernelPhaseValidate_bind_eq_ok] at hrun
  obtain ⟨found, s₁, hfree, hrest⟩ := bind_eq_ok.1 hrun.2
  obtain ⟨t, ht, rfl⟩ := zoom_eq_ok.1 hfree
  by_cases hmem : u32Sub a sizeofKMallocHeader ∈ alloc
  · obtain ⟨h', secs', free', hfreed, hinv', -, -⟩ := heapFree_of_mem hinv hmem
    rw [hfreed] at ht
    cases ht
    cases hrest
    exact ⟨h.phase, secs', free', _, hinv'⟩
  · rw [heapFree_of_notMem hinv.toHeapCore hmem] at ht
    cases ht
    obtain ⟨-, rfl⟩ := returnError_eq_ok.1 hrest
    exact ⟨h.phase, h.heap⟩

/-- A call keeps the sections in order. -/
theorem call (h : HeapRunInv s) {call : HeapCall} (hfits : call.Fits)
    (hrun : call.exec s = .ok ((), s')) : HeapRunInv s' := by
  cases call with
  | kmalloc bytes =>
    obtain ⟨a, s₁, hcall, hrest⟩ := bind_eq_ok.1 hrun
    cases hrest
    exact h.kmalloc hfits hcall
  | kmallocz bytes =>
    obtain ⟨a, s₁, hcall, hrest⟩ := bind_eq_ok.1 hrun
    cases hrest
    obtain ⟨addr, s₂, hcall, hrest⟩ := bind_eq_ok.1 hcall
    have h₂ := h.kmalloc hfits hcall
    rcases ite_eq_ok.1 hrest with ⟨-, hrest⟩ | ⟨-, hrest⟩
    · obtain ⟨_, s₃, htouch, hrest⟩ := bind_eq_ok.1 hrest
      cases hrest
      exact h₂.of_nonCommit (touchRange_fixes _ _ _ _ _ htouch)
    · cases hrest
      exact h₂
  | kfree addr =>
    obtain ⟨ok, s₁, hcall, hrest⟩ := bind_eq_ok.1 hrun
    cases hrest
    exact h.kfree hcall

end HeapRunInv

theorem HeapRun.inv (h : HeapRun s) : HeapRunInv s := by
  induction h with
  | init hmain hinit =>
    obtain ⟨hphase, ⟨buffer, hinv, -⟩, -⟩ := kernelMainHeap_spec hmain hinit
    exact ⟨by rw [hphase]; rfl, _, _, _, hinv⟩
  | call _ hfits hrun ih => exact ih.call hfits hrun
  | other _ hheap hphase ih => exact ⟨hphase, hheap ▸ ih.heap⟩

/-- After `kmalloc_init`, the sections of the heap are in order between any two calls. -/
theorem heap_run_sectionsInOrder (h : HeapRun s) : SectionsInOrder s := h.inv.sectionsInOrder

/-- A machine with 96 free page frames and one file behind the low region. -/
def smallMachine : BootLoaderInfo where
  files := [⟨0x46000, 0x1000⟩]
  items := [⟨0, 0x60000, mmTypeFree⟩]

/-- The small machine before `kmalloc_init`. -/
def smallMachineMemory : KState :=
  (kernelMainMemory smallMachine.files false).finalState
  (entryState smallMachine fun _ _ => Entry.zero)

/-- The small machine with its heap, and with one allocated block. -/
def smallMachineHeap : KState := kmallocInit.finalState smallMachineMemory

def smallMachineBlock : KState := (HeapCall.kmalloc 100).exec.finalState smallMachineHeap

set_option maxRecDepth 100000 in
/-- A heap from which one block was taken. -/
theorem heap_run_sectionsInOrder_block : SectionsInOrder smallMachineBlock := by
  have hinit : HeapRun smallMachineHeap :=
    @HeapRun.init smallMachine (fun _ _ => Entry.zero) false smallMachineMemory smallMachineHeap
      (eq_ok_finalState (by decide +kernel)) (eq_ok_finalState (by decide +kernel))
  have hfits : (HeapCall.kmalloc 100).Fits := show 100 + 2 * sizeofKMallocHeader < 2 ^ 32 by decide
  exact heap_run_sectionsInOrder
    (hinit.call hfits (eq_ok_finalState (by decide +kernel)))

end MeghaOS
