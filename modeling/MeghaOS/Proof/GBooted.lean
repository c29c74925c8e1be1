import MeghaOS.Main
import MeghaOS.Proof.Booted
import MeghaOS.Proof.Handle
import MeghaOS.Proof.Windows

/-!
# The start of the graphics build

When `kernel_main` of the graphics build is ready to run the root process, there is no process, no
window and no handle, every record belongs to virtual memory, and the heap takes records.
-/

namespace MeghaOS

open Exec KState

variable {s s' : GState} {k k' : KState}

/-! ## `kernel_main` before the heap -/

/-- The kernel does in `kernelMainHandles` what it does in `kernelMainMemory`. -/
theorem kernelMainHandles_spec {files : List BootFileItem} {freshDirty : Bool}
    (hrun : kernelMainHandles files freshDirty s = .ok ((), s')) :
    kernelMainMemory files freshDirty s.kernel = .ok ((), s'.kernel) ∧
      HandleInv s' (fun _ => none) ∧
      s' = { s with kernel := s'.kernel, handles := s'.handles, word := s'.word } := by
  obtain ⟨_, k₁, hpmm, hrest⟩ := kernel_bind_eq_ok.1 hrun
  obtain ⟨_, k₂, hsalloc, hrest⟩ := kernel_bind_eq_ok.1 hrest
  obtain ⟨_, s₃, htable, hrest⟩ := bind_eq_ok.1 hrest
  obtain ⟨context, k₄, hnew, hrest⟩ := kernel_bind_eq_ok.1 hrest
  rw [modify_bind_apply] at hrest
  obtain ⟨_, k₅, hphase, hrest⟩ := kernel_bind_eq_ok.1 hrest
  obtain ⟨_, k₆, hinit, hrest⟩ := kernel_bind_eq_ok.1 hrest
  obtain ⟨k₇, htss, rfl⟩ := kernel_eq_ok.1 hrest
  have hinv := HandlesReady.inv ⟨k₁, { s with kernel := k₂ }, hsalloc, htable⟩
  have hhandles : khandleInit k₂ = .ok ((), s₃.kernel) ∧
      s₃ = { s with kernel := s₃.kernel, handles := s₃.handles, word := s₃.word } := by
    obtain ⟨_, t, hvalid, htable⟩ := kernel_bind_eq_ok.1 htable
    obtain ⟨handles, t', hcall, htable⟩ := kernel_bind_eq_ok.1 htable
    obtain ⟨hcheck, rfl⟩ := kernelPhaseValidate_eq_ok.1 hvalid
    rcases ite_eq_ok.1 htable with ⟨-, htable⟩ | ⟨hne, htable⟩
    · obtain ⟨_, habsurd, -⟩ := kernel_eq_ok.1 htable
      cases habsurd
    · cases htable
      refine ⟨?_, rfl⟩
      rw [khandleInit, kernelPhaseValidate_bind_eq_ok]
      refine ⟨hcheck, ?_⟩
      have hcall' : kscalloc handlesArrayBytes k₂ = .ok (handles, t') := hcall
      rw [bind_of_ok hcall', if_neg hne]
      rfl
  refine ⟨?_, hinv.congr rfl fun _ _ => rfl, by rw [hhandles.2]⟩
  rw [kernelMainMemory, bind_of_ok hpmm, bind_of_ok hsalloc, bind_of_ok hhandles.1, bind_of_ok hnew,
    modify_bind_apply, bind_of_ok hphase, bind_of_ok hinit, htss]

/-! ## The screen buffers -/

theorem mapScreenBuffer_spec {pa : Option Nat} {szPages buffer : Nat} (hready : HeapReady s.kernel)
    (hrun : mapScreenBuffer pa szPages s = .ok (buffer, s')) :
    VmStep (fun _ => False) s.kernel s'.kernel ∧ s' = { s with kernel := s'.kernel } := by
  rw [mapScreenBuffer, get_bind_apply] at hrun
  obtain ⟨⟨va, out⟩, k₁, hmap, hrest⟩ := kernel_bind_eq_ok.1 hrun
  have h₁ : VmStep (fun _ => False) _ _ :=
    kvmmMemmap_vmFrame _ _ _ _ _ _ _ _ hmap hready
  rcases ite_eq_ok.1 hrest with ⟨-, hrest⟩ | ⟨-, hrest⟩
  · obtain ⟨_, k₂, hmeta, hrest⟩ := kernel_bind_eq_ok.1 hrest
    cases hrest
    exact ⟨h₁.trans ((kvmmSetAddressSpaceMetadata_fixes _ _).vmFrame _ _ _ hmeta h₁.ready), rfl⟩
  · cases hrest
    exact ⟨h₁, rfl⟩

/-- `kgraphics_init` makes the back buffer. -/
theorem kgraphicsInit_spec {gmi : BootGraphicsModeInfo} (hready : HeapReady s.kernel)
    (hrun : kgraphicsInit gmi s = .ok (true, s')) :
    VmStep (fun _ => False) s.kernel s'.kernel ∧ s' = { s with
        kernel := s'.kernel, fontsData := s'.fontsData, gxBackfb := s'.gxBackfb,
          graphicsReady := true } ∧
      s'.gxBackfb.widthPx = gmi.xResolution ∧ s'.gxBackfb.heightPx = gmi.yResolution := by
  obtain ⟨_, k₀, hvalid, hrest⟩ := kernel_bind_eq_ok.1 hrun
  obtain ⟨-, rfl⟩ := kernelPhaseValidate_eq_ok.1 hvalid
  rw [modify_bind_apply] at hrest
  rcases ite_eq_ok.1 hrest with ⟨-, hrest⟩ | ⟨-, hrest⟩
  · cases hrest
  obtain ⟨fb, s₁, hfb, hrest⟩ := bind_eq_ok.1 hrest
  rcases ite_eq_ok.1 hrest with ⟨-, hrest⟩ | ⟨-, hrest⟩
  · cases hrest
  obtain ⟨buffer, s₂, hbuffer, hrest⟩ := bind_eq_ok.1 hrest
  rw [modify_bind_apply] at hrest
  rcases ite_eq_ok.1 hrest with ⟨-, hrest⟩ | ⟨-, hrest⟩
  · cases hrest
  obtain ⟨h₁, heq₁⟩ := mapScreenBuffer_spec (by exact hready) hfb
  obtain ⟨h₂, heq₂⟩ := mapScreenBuffer_spec h₁.ready hbuffer
  rw [get_bind_apply] at hrest
  obtain ⟨_, k₃, hassert, hrest⟩ := kernel_bind_eq_ok.1 hrest
  obtain ⟨-, rfl⟩ := kAssert_eq_ok.1 hassert
  cases hrest
  exact ⟨h₁.trans h₂, by rw [heq₂, heq₁], rfl, rfl⟩

/-! ## `kernel_main` -/

/-- The state in which `kernel_main` of the graphics build is ready to run the root process. -/
structure GraphicsReady (s : GState) : Prop where
  phase : s.kernel.phase = .kernelReady
  ready : HeapReady s.kernel
  processCount : s.kernel.processCount = 0
  currentProcess : s.kernel.currentProcess = 0
  rootProcess : s.kernel.rootProcess = 0
  schedulerQueue : s.kernel.schedulerQueue = []
  records : ∀ a, s.kernel.records a = none
  context : ∃ v, s.kernel.objs s.kernel.context = some (.vmm v)
  handles : HandleInv s fun _ => none
  graphicsReady : s.graphicsReady = true
  widthPx : s.gxBackfb.widthPx < 2 ^ 16
  heightPx : s.gxBackfb.heightPx < 2 ^ 16
  windowsListHead : s.windowsListHead = []
  windowCount : s.windowCount = 0

/-- Every record of the kernel before the first process is a manager or an address space. -/
theorem KernelReady.records_eq_none {v : VMemoryManager} {rs : List VMemoryAddressSpace}
    (h : KernelReady k v rs) (a : Nat) : k.records a = none := by
  refine MeghaOS.records_eq_none.2 fun o ho => ?_
  rcases h.owned a (by rw [ho]; simp) with rfl | hmem
  · rw [h.vmmOk.vmm] at ho
    cases ho
    rfl
  · obtain ⟨r, -, hr⟩ := h.vmmOk.objs_head hmem
    rw [hr] at ho
    cases ho
    rfl

theorem gbooted_ready (h : GBooted s) : GraphicsReady s := by
  obtain ⟨info, gmi, mem, word, bytes, freshDirty, htyped, hrun⟩ := h
  obtain ⟨_, s₁, hmain, hrest⟩ := bind_eq_ok.1 hrun
  obtain ⟨hmemory, hhandles, heq₁⟩ := kernelMainHandles_spec hmain
  obtain ⟨_, k₂, hinit, hrest⟩ := kernel_bind_eq_ok.1 hrest
  obtain ⟨hphase₂, -, v₂, rs₂, h₂⟩ := kernelMainHeap_spec hmemory hinit
  have hready₂ : HeapReady k₂ := ⟨by rw [hphase₂]; rfl, _, h₂.heapOk⟩
  obtain ⟨ok, s₃, hgraphics, hrest⟩ := bind_eq_ok.1 hrest
  cases ok with
  | false =>
    obtain ⟨_, habsurd, -⟩ := kernel_eq_ok.1 hrest
    cases habsurd
  | true =>
    obtain ⟨h₃, heq₃, hwidth, hheight⟩ := kgraphicsInit_spec hready₂ hgraphics
    obtain ⟨_, s₄, hcompose, hrest⟩ := bind_eq_ok.1 hrest
    rw [kcomposeInit, get_bind_apply] at hcompose
    obtain ⟨_, k₄, hassert, hcompose⟩ := kernel_bind_eq_ok.1 hcompose
    obtain ⟨-, rfl⟩ := kAssert_eq_ok.1 hassert
    cases hcompose
    obtain ⟨k₅, hset, rfl⟩ := kernel_eq_ok.1 hrest
    obtain ⟨-, rfl⟩ := kernelPhaseSet_eq_ok.1 hset
    have hglobals := h₃.globals
    obtain ⟨alloc, hs₃⟩ := h₃.ready.heapOk
    have hhandles₃ : s₃.handles = s₁.handles ∧ s₃.word = s₁.word := by
      rw [heq₃]
      exact ⟨rfl, rfl⟩
    refine
      { phase := rfl
        ready := ⟨rfl, alloc, hs₃.inv, hs₃.buffer, hs₃.objs⟩
        processCount := (congrArg Globals.processCount hglobals).trans h₂.noProcess.processCount
        currentProcess := (congrArg Globals.currentProcess hglobals).trans
          h₂.noProcess.currentProcess
        rootProcess := (congrArg Globals.rootProcess hglobals).trans h₂.noProcess.rootProcess
        schedulerQueue := (congrArg Globals.schedulerQueue hglobals).trans
          h₂.noProcess.schedulerQueue
        records := fun a => ?_
        context := ?_
        handles := hhandles.congr hhandles₃.1 fun a _ => congrFun hhandles₃.2 a
        graphicsReady := by rw [heq₃]
        widthPx := hwidth ▸ htyped.xResolution
        heightPx := hheight ▸ htyped.yResolution
        windowsListHead := rfl
        windowCount := rfl }
    · show s₃.kernel.records a = none
      rw [h₃.records]
      exact h₂.records_eq_none a
    · obtain ⟨v', hv', -⟩ := h₃.managers _ _ id h₂.vmmOk.vmm
      refine ⟨v', ?_⟩
      show s₃.kernel.objs s₃.kernel.context = _
      rw [show s₃.kernel.context = k₂.context from congrArg Globals.context hglobals]
      exact hv'

/-! ## A small machine with a screen -/

/-- A machine with 107 page frames and one file behind the low region. -/
def screenMachine : BootLoaderInfo where
  files := [⟨0x46000, 0x1000⟩]
  items := [⟨0, 0x6B000, mmTypeFree⟩]

/-- A screen of 12 by 46 pixels, the smallest one whose windows have a working area. -/
def smallMode : BootGraphicsModeInfo where
  xResolution := 12
  yResolution := 46
  bitsPerPixel := 32
  framebufferPhysicalPtr := 0x70000
  bytesPerScanLine := 48
  fontData := 0xC0045000

theorem smallMode_typed : smallMode.Typed := by constructor <;> decide

/-- The machine when the entry code calls `kernel_main`. -/
def screenEntry : GState :=
  gEntryState screenMachine (fun _ _ => Entry.zero) (fun _ => 0) fun _ _ => 0

/-- `kernel_main` on this machine. -/
def screenMain : G Unit := kernelMainGraphics screenMachine.files smallMode false

/-- The address of a text without characters. -/
abbrev emptyTitle : Nat := 0xC0045000

theorem screenMain_booted (h : screenMain screenEntry = .ok ((), s)) : GBooted s :=
  ⟨screenMachine, smallMode, _, _, _, false, smallMode_typed, h⟩

/-- The window system calls create a window and destroy it. The results are the handle, the list of
windows, what the second call returns, the list of windows after it, and the word of the handle. -/
def windowRun : G (Int × List Nat × Bool × List Nat × Nat) := do
  screenMain
  let h ← ksysWindowCreateWindow emptyTitle
  let made := (← get).windowsListHead
  let ok ← ksysWindowDestoryWindow h
  let s ← get
  return (h, made, ok, s.windowsListHead, s.word (slotAddr s.handles h))

set_option maxRecDepth 100000 in
theorem windowRun_eq : windowRun screenEntry =
    .ok ((0, [0xC0047104], true, [], 0xC0047104), windowRun.finalState screenEntry) :=
  eq_ok_of_value (by decide +kernel)

end MeghaOS
