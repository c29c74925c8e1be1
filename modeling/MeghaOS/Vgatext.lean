import MeghaOS.Types
import Mathlib.Logic.Function.Basic

/-!
# The text display (`x86/vgatext.c`)

The screen is the run of 16-bit words that starts at `vgab`, and what the driver sends to the
display controller is the list of bytes it wrote to ports. `writes` records the index of every word
that the driver stores; nothing reads it. The phase that `kdisp_init` enters is left out.
-/

namespace MeghaOS

/-! ## Constants -/

/-- `MAX_VGA_COLUMNS`. -/
abbrev maxVgaColumns : UInt32 := 80

/-- `MAX_VGA_ROWS`. -/
abbrev maxVgaRows : UInt32 := 50

/-- `VGA_MAX_INDEX`. -/
abbrev vgaMaxIndex : UInt32 := maxVgaColumns * maxVgaRows - 1

/-- `TABSTOP`. -/
abbrev tabstop : UInt32 := 4

/-- `CRTC_BLINK_ENABLED`. -/
abbrev crtcBlinkEnabled : UInt32 := (1 : UInt32) <<< 0

/-- `CRTC_IOAS_SET`. -/
abbrev crtcIoasSet : UInt32 := (1 : UInt32) <<< 1

/-- `LIGHT_GRAY`. -/
abbrev lightGray : UInt32 := 7

/-- `KERNEL_EXIT_SUCCESS`. -/
abbrev kernelExitSuccess : Int := 0

/-- `KERNEL_EXIT_FAILURE`. -/
abbrev kernelExitFailure : Int := -1

/-! ## State -/

/-- The static data of `vgatext.c`, the words of the screen, the bytes that were sent to ports and
the error number of the kernel. -/
structure VgaText where
  row : UInt32 := 0
  column : UInt32 := 0
  crtcFlags : UInt32 := 0
  textAttr : UInt32 := 0
  vgab : UInt32 → UInt16
  ports : List (UInt32 × UInt8) := []
  writes : List UInt32 := []
  errorNumber : KernelErrorCodes := .errNone

/-- A request to `kdisp_ioctl` with the arguments it reads. `other` is every request without a
case. -/
inductive DisplayControls
  | getcoords
  | setcoords (row column : UInt32)
  | setattr (attr : UInt32)
  | getattr
  | other (request : Int)
  deriving DecidableEq

namespace VgaText

/-! ## The display controller -/

/-- `crt_addr_port`. -/
def crtAddrPort (v : VgaText) : UInt32 :=
  if v.crtcFlags &&& crtcIoasSet ≠ 0 then 0x3D4 else 0x3B4

/-- `crt_data_port`. -/
def crtDataPort (v : VgaText) : UInt32 :=
  if v.crtcFlags &&& crtcIoasSet ≠ 0 then 0x3D5 else 0x3B5

/-- `outb`. -/
def outb (port value : UInt32) (v : VgaText) : VgaText :=
  { v with ports := v.ports ++ [(port, value.toUInt8)] }

/-- `crt_write`. -/
def crtWrite (i value : UInt32) (v : VgaText) : VgaText :=
  outb v.crtDataPort value (outb v.crtAddrPort i v)

/-- `s_updateCursor`. -/
def sUpdateCursor (v : VgaText) : VgaText :=
  let index := v.row * maxVgaColumns + v.column
  crtWrite 0xe (index >>> 8) (crtWrite 0xf (index &&& 0xFF) v)

/-! ## The screen -/

/-- A word of the screen with a character of an attribute. -/
def cell (attr c : UInt32) : UInt16 := (attr <<< 8 ||| c).toUInt16

/-- The first loop of `kdisp_scrollDown`. -/
def copyLines (vgab : UInt32 → UInt16) : UInt32 → UInt16 :=
  (List.range 3920).foldl
    (fun vgab p => Function.update vgab p.toUInt32 (vgab (p.toUInt32 + maxVgaColumns))) vgab

/-- The second loop of `kdisp_scrollDown`. -/
def emptyLastLine (attr : UInt32) (vgab : UInt32 → UInt16) : UInt32 → UInt16 :=
  (List.range' 3920 80).foldl
    (fun vgab p => Function.update vgab p.toUInt32 (cell attr 32)) vgab

/-- The indices that the two loops store to. -/
def scrolledWords : List UInt32 := (List.range 4000).map Nat.toUInt32

/-- `kdisp_scrollDown`. -/
def kdispScrollDown (v : VgaText) : VgaText :=
  sUpdateCursor
    { v with
      vgab := emptyLastLine v.textAttr (copyLines v.vgab)
      writes := v.writes ++ scrolledWords
      row := if v.row > 0 then (v.row - 1).toUInt8.toUInt32 else v.row
      column := 0 }

/-- The character of a word of the screen. -/
def character (word : UInt16) : UInt8 := word.toUInt8

/-- The scan of `kdisp_init` over the first `n` words: the index of the last one that holds no
space. -/
def scan (vgab : UInt32 → UInt16) (n : Nat) : UInt16 :=
  (List.range n).foldl
    (fun h s => if character (vgab s.toUInt32) ≠ 32 then s.toUInt16 else h) 0

/-! ## The functions of the driver -/

/-- `kdisp_init`, where `inb` is what the ports return. -/
def kdispInit (inb : UInt32 → UInt8) (v : VgaText) : VgaText :=
  let h := scan v.vgab 4000 + 1
  let v := if h.toUInt32 > vgaMaxIndex then kdispScrollDown v else v
  let v := sUpdateCursor
    { v with
      row := (h.toUInt32 / maxVgaColumns).toUInt8.toUInt32
      column := (h.toUInt32 % maxVgaColumns).toUInt8.toUInt32 }
  let v := { v with textAttr := lightGray }
  let v :=
    if inb 0x3CC &&& 1 ≠ 0 then { v with crtcFlags := v.crtcFlags ||| crtcIoasSet } else v
  let v := outb v.crtAddrPort 0x10 v
  if inb v.crtDataPort >>> 3 &&& 1 ≠ 0 then
    { v with crtcFlags := v.crtcFlags ||| crtcBlinkEnabled }
  else v

/-- `kdisp_ioctl`: its result, the values it stores through its arguments and the new state. -/
def kdispIoctl (request : DisplayControls) (v : VgaText) : (Int × List UInt32) × VgaText :=
  match request with
  | .setattr attr =>
    let v := { v with textAttr := attr }
    if v.textAttr > 255 then
      ((kernelExitFailure, []), { v with errorNumber := .errInvalidRange })
    else if v.crtcFlags &&& crtcBlinkEnabled = 0 then
      ((kernelExitSuccess, []), { v with textAttr := v.textAttr &&& 0x7F })
    else ((kernelExitSuccess, []), v)
  | .getattr => ((kernelExitSuccess, [v.textAttr]), v)
  | .setcoords row column =>
    let v := { v with row, column }
    if v.row > maxVgaRows ∨ v.column > maxVgaColumns then
      ((kernelExitFailure, []), { v with errorNumber := .errInvalidRange })
    else ((kernelExitSuccess, []), sUpdateCursor v)
  | .getcoords => ((kernelExitSuccess, [v.row, v.column]), v)
  | .other _ => ((kernelExitSuccess, []), v)

/-- The `switch` of `kdisp_putc`. -/
def putCharacter (c : Int8) (v : VgaText) : VgaText :=
  if c = 13 then { v with column := 0 }
  else if c = 10 then { v with column := 0, row := v.row + 1 }
  else if c = 9 then { v with column := v.column + (tabstop - v.column % tabstop) }
  else
    let index := v.row * maxVgaColumns + v.column
    { v with
      vgab := Function.update v.vgab index (cell v.textAttr c.toInt32.toUInt32)
      writes := v.writes ++ [index]
      column := v.column + 1 }

/-- `kdisp_putc`. -/
def kdispPutc (c : Int8) (v : VgaText) : VgaText :=
  let v := putCharacter c v
  let v := if v.column ≥ maxVgaColumns then { v with row := v.row + 1, column := 0 } else v
  let v := if v.row ≥ maxVgaRows then kdispScrollDown v else v
  sUpdateCursor v

end VgaText

end MeghaOS
