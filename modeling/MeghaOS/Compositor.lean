import MeghaOS.Graphics
import MeghaOS.Handle
import MeghaOS.Process

/-!
# The window compositor (`compositor.c`) and its system calls (`x86/syscalls.c`)

A window is a `Window` record in the list of `windowsListHead`, with a buffer in the address space
of the process that created it. The cell of a new window is that of the number of windows asked for
so far. The system calls name a window by its handle.
-/

namespace MeghaOS

open Exec

/-! ## The grid -/

/-- `WINMAN_GRID_ROWS_MAX`, `WINMAN_GRID_COLS_MAX` and `WINMAN_GRID_CELL_COUNT`. -/
abbrev winmanGridRowsMax : Nat := 2
abbrev winmanGridColsMax : Nat := 2
abbrev winmanGridCellCount : Nat := winmanGridRowsMax * winmanGridColsMax

/-- `WINMAN_GRID_CELL_WIDTH_PX` and `WINMAN_GRID_CELL_HEIGHT_PX`. -/
def winmanGridCellWidthPx (gxBackfb : KGraphicsArea) : Nat := gxBackfb.widthPx / winmanGridColsMax
def winmanGridCellHeightPx (gxBackfb : KGraphicsArea) : Nat := gxBackfb.heightPx / winmanGridRowsMax

/-- `WINMAN_GRID_CELL_X` and `WINMAN_GRID_CELL_Y`. -/
def winmanGridCellX (gxBackfb : KGraphicsArea) (c : Nat) : Nat :=
  u32 (winmanGridCellWidthPx gxBackfb * c)
def winmanGridCellY (gxBackfb : KGraphicsArea) (r : Nat) : Nat :=
  u32 (winmanGridCellHeightPx gxBackfb * r)

/-- `WINMAN_GRID_CELL_ROW` and `WINMAN_GRID_CELL_COL`. -/
def winmanGridCellRow (wini : Nat) : Nat := wini / winmanGridColsMax
def winmanGridCellCol (wini : Nat) : Nat := wini % winmanGridColsMax

/-- `getWindowAreaSizeBytes`. -/
def getWindowAreaSizeBytes (gxBackfb : KGraphicsArea) : Nat :=
  u32 (winmanGridCellWidthPx gxBackfb * winmanGridCellHeightPx gxBackfb * gxBackfb.bytesPerPixel)

/-! ## The decorations of a window -/

abbrev windowBorderWidthPx : Nat := 3
abbrev windowTitleBarTopPx : Nat := 0
abbrev windowTitleBarLeftPx : Nat := 0
abbrev windowTitleBarHeightPx : Nat := 20
abbrev windowTitleTopPx : Nat := 4
abbrev windowTitleLeftPx : Nat := windowBorderWidthPx + 4
abbrev windowWorkingAreaTopPx : Nat := windowTitleBarHeightPx
abbrev windowWorkingAreaLeftPx : Nat := windowBorderWidthPx

/-- `WINDOW_WORKING_AREA_HEIGHT_PX` and `WINDOW_WORKING_AREA_WIDTH_PX`. -/
def windowWorkingAreaHeightPx (wa : KGraphicsArea) : Nat :=
  u32Sub wa.heightPx (windowTitleBarHeightPx + windowBorderWidthPx)
def windowWorkingAreaWidthPx (wa : KGraphicsArea) :
    Nat := u32Sub wa.widthPx (2 * windowBorderWidthPx)

/-- `drawWindowDecorations`. -/
def drawWindowDecorations (wa : KGraphicsArea) (title : Nat) : G Unit := do
  kgraphicsRect wa windowTitleBarLeftPx windowTitleBarTopPx wa.widthPx windowTitleBarHeightPx
    windowTitleBarBgColor
  kgraphicsDrawstring wa windowTitleLeftPx windowTitleTopPx title windowTitleBarFgColor
    windowTitleBarBgColor
  kgraphicsHline wa (u32Sub windowTitleBarLeftPx 1) (u32Sub windowTitleBarHeightPx 1) wa.widthPx 1
    colorWhite
  kgraphicsInborder wa windowTitleBarLeftPx windowTitleBarTopPx wa.widthPx wa.heightPx
    windowBorderWidthPx windowBorderColor1
  kgraphicsInborder wa (windowTitleBarLeftPx + 1) (windowTitleBarTopPx + 1) (u32Sub wa.widthPx 2)
    (u32Sub wa.heightPx 2) 1 windowBorderColor2
  kgraphicsRect wa windowWorkingAreaLeftPx windowWorkingAreaTopPx (windowWorkingAreaWidthPx wa)
    (windowWorkingAreaHeightPx wa) windowBgColor

/-! ## Windows -/

/-- `destory_window`; a call that fails is only logged. -/
def destoryWindow (win : Nat) : K Unit := do
  let vmm ← kprocessGetCurrentContext
  let w ← getWindow win
  let _ ← kvmmFree (← vmm.follow) w.windowArea.buffer
  let _ ← kfree win

/-- The area of a new window, without its buffer. -/
def newWindowArea (gxBackfb : KGraphicsArea) : KGraphicsArea where
  bytesPerPixel := gxBackfb.bytesPerPixel
  widthPx := winmanGridCellWidthPx gxBackfb
  heightPx := winmanGridCellHeightPx gxBackfb
  bytesPerRow := u32 (winmanGridCellWidthPx gxBackfb * gxBackfb.bytesPerPixel)
  buffer := 0
  bufferSizeBytes :=
    pageframesToBytes (bytesToPageframesCeiling (getWindowAreaSizeBytes gxBackfb))

/-- The part of the area of a window inside its decorations. -/
def workingAreaOf (windowArea : KGraphicsArea) : KGraphicsArea where
  bytesPerPixel := windowArea.bytesPerPixel
  widthPx := windowWorkingAreaWidthPx windowArea
  heightPx := windowWorkingAreaHeightPx windowArea
  bytesPerRow := windowArea.bytesPerRow
  buffer := u32 (windowArea.buffer + u32 (windowWorkingAreaTopPx * windowArea.bytesPerRow +
    windowWorkingAreaLeftPx * windowArea.bytesPerPixel))
  bufferSizeBytes := u32 (windowWorkingAreaHeightPx windowArea * windowArea.bytesPerRow)

/-- The record of a new window. -/
def newWindow (processID screenX screenY : Nat) (windowArea : KGraphicsArea) : Window where
  screenX := screenX
  screenY := screenY
  windowArea := windowArea
  workingArea := workingAreaOf windowArea
  windowListNode := .self
  processID := processID

/-- `allocWindow`; when there is no memory for the record, the `NULL` pointer is handed to
`destory_window`. -/
def allocWindow (gxBackfb : KGraphicsArea) (processID screenX screenY : Nat) : K Nat := do
  let vmm ← (← kprocessGetCurrentContext).follow
  let bufferSzPages := bytesToPageframesCeiling (getWindowAreaSizeBytes gxBackfb)
  let (buffer, _) ← kvmmMemmap vmm 0 none bufferSzPages vmmMemmapFlagNone
  if buffer = 0 then return 0
  else
    kvmmSetAddressSpaceMetadata vmm buffer
    let newwin ← kmallocObj
      (.window (newWindow processID screenX screenY { newWindowArea gxBackfb with buffer }))
    if newwin = 0 then
      destoryWindow newwin
      return 0
    else return newwin

/-- `kcompose_init`. -/
def kcomposeInit : G Unit := do
  kernel (kAssert ((← get).graphicsReady = true) "Current state is not suitable")
  modify fun s => { s with windowsListHead := [], windowCount := 0 }

/-- Change the list node of a window. -/
def setWindowListNode (win : Nat) (node : NodeState Unit) : K Unit := do
  let w ← getWindow win
  modify (·.setObj win (.window { w with windowListNode := node }))

/-- `list_remove` of the node of a window. -/
def windowsListRemove (win : Nat) : G Unit := do
  match (← kernel (getWindow win)).windowListNode with
  | .null => halt .fault
  | .self => kernel (setWindowListNode win .null)
  | .linked _ =>
    modify fun s => { s with windowsListHead := s.windowsListHead.erase win }
    kernel (setWindowListNode win .null)

/-- `kcompose_destroyWindow`. -/
def kcomposeDestroyWindow (win : Nat) : G Bool := do
  windowsListRemove win
  kernel (destoryWindow win)
  return true

/-- `kcompose_createWindow`; the result is the address of the window or `NULL`. -/
def kcomposeCreateWindow (title : Nat) : G Nat := do
  kernel (kernelPhaseValidate .kernelReady)
  let windowCount := (← get).windowCount
  if windowCount = winmanGridCellCount then kernel (returnError .errOutOfMem 0)
  else
    let col := winmanGridCellCol windowCount
    let row := winmanGridCellRow windowCount
    modify fun s => { s with windowCount := u32 (windowCount + 1) }
    let gxBackfb := (← get).gxBackfb
    let processID ← kernel kprocessGetCurrentPID
    let newwin ← kernel (allocWindow gxBackfb processID (winmanGridCellX gxBackfb col)
      (winmanGridCellY gxBackfb row))
    if newwin = 0 then return 0
    else
      modify fun s => { s with windowsListHead := newwin :: s.windowsListHead }
      kernel (setWindowListNode newwin (.linked ()))
      drawWindowDecorations (← kernel (getWindow newwin)).windowArea title
      return newwin

/-! ## System calls -/

/-- `ksys_window_createWindow`. -/
def ksysWindowCreateWindow (winTitle : Nat) : G Int := do
  let win ← kcomposeCreateWindow winTitle
  if win = 0 then return invalidHandle
  else
    let newh ← khandleCreateHandle win
    if newh = invalidHandle then
      let _ ← kcomposeDestroyWindow win
      return invalidHandle
    else return newh

/-- `ksys_window_destoryWindow`; `INVALID_HANDLE` is `true` as a `bool`. -/
def ksysWindowDestoryWindow (h : Int) : G Bool := do
  let win ← khandleGetObject h
  if win = 0 then return true
  else kcomposeDestroyWindow win

/-- The fields of `OSIF_WindowFrameBufferInfo`, in the order they have in memory. -/
def windowFrameBufferInfo (wa : KGraphicsArea) : List Nat :=
  [wa.widthPx, wa.heightPx, wa.bytesPerPixel, wa.bytesPerRow, wa.buffer, wa.bufferSizeBytes]

/-- `ksys_getWindowFB`, which writes to the caller's record at `wfb`. -/
def ksysGetWindowFB (h : Int) (wfb : Nat) : G Bool := do
  let win ← khandleGetObject h
  if win = 0 then return false
  else
    let wa := (← kernel (getWindow win)).workingArea
    writeBytes ((windowFrameBufferInfo wa).flatMap wordBytes) wfb
    return true

end MeghaOS
