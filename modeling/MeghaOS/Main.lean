import MeghaOS.Boot
import MeghaOS.Compositor

/-!
# The start of the graphics build (`x86/kernel.c`)

`kernel_main` of the build with graphics also makes the screen buffers and the list of windows. A
state is `GBooted` when it ends in it, on any machine, with any files loaded and in any graphics
mode.
-/

namespace MeghaOS

open Exec

/-- `kernel_main` before the call of `kmalloc_init`, with the table of handles. -/
def kernelMainHandles (files : List BootFileItem) (freshDirty : Bool) : G Unit := do
  kernel kpmmInit
  kernel ksallocInit
  khandleInitTable
  let context ← kernel (kvmmNew memStartKernelLowRegion memEndKernelHighRegion kernelPageDir
    .pmmRegionAny freshDirty)
  modify fun s => { s with kernel := { s.kernel with context } }
  kernel (kernelPhaseSet .vmmReady)
  kernel (sInitializeMemoryManagers files)
  kernel ktssInit

/-- `kernel_main` before the call of `run_root_process`. -/
def kernelMainGraphics (files : List BootFileItem) (gmi : BootGraphicsModeInfo)
    (freshDirty : Bool) :
    G Unit := do
  kernelMainHandles files freshDirty
  kernel kmallocInit
  if (← kgraphicsInit gmi) = false then kernel (kPanic "BUG")
  else
    kcomposeInit
    kernel (kernelPhaseSet .kernelReady)

/-- The state in which the entry code calls `kernel_main`. -/
def gEntryState (info : BootLoaderInfo) (mem : Nat → Nat → Entry) (word : Nat → Nat)
    (bytes : Nat → Nat → Nat) : GState where
  kernel := entryState info mem
  handles := 0
  word := word
  touched := []
  graphicsReady := false
  gxBackfb := ⟨0, 0, 0, 0, 0, 0⟩
  fontsData := 0
  windowsListHead := []
  windowCount := 0
  bytes := bytes

/-- The fields of a `BootGraphicsModeInfo` are of their C types. -/
structure BootGraphicsModeInfo.Typed (gmi : BootGraphicsModeInfo) : Prop where
  xResolution : gmi.xResolution < 2 ^ 16
  yResolution : gmi.yResolution < 2 ^ 16
  bitsPerPixel : gmi.bitsPerPixel < 2 ^ 8
  framebufferPhysicalPtr : gmi.framebufferPhysicalPtr < 2 ^ 32
  bytesPerScanLine : gmi.bytesPerScanLine < 2 ^ 16

/-- `kernel_main` of the graphics build is ready to run the root process. -/
def GBooted (s : GState) : Prop :=
  ∃ info gmi mem word bytes freshDirty, gmi.Typed ∧
    kernelMainGraphics info.files gmi freshDirty (gEntryState info mem word bytes) = .ok ((), s)

end MeghaOS
