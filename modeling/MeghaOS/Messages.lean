import MeghaOS.Printk

/-!
# Messages (`kpanic.c`, `kdebug.c`, `cm/debug.c`, `x86/interrupts.c`)

Each of these functions fills a local buffer with chained calls of a formatter and then shows it.
What is modelled is how the buffer is filled. The addresses that `arch_dump_call_trace` finds, the
state of the kernel that is printed and the frame of an interrupt are arguments.
-/

namespace MeghaOS

open Exec

/-- `MAX_PRINTABLE_STRING_LENGTH` of the kernel. -/
abbrev maxPrintableStringLength : Nat := 4000

/-- `MAX_PRINTABLE_STRING_LENGTH` of the App library. -/
abbrev cmMaxPrintableStringLength : Nat := 100

/-! ## `kpanic.c` -/

def panicTitle : CString := { chars := "\n\nKernel Panic:".toList }
def panicAt : CString := { chars := "\nAt: %s: %u".toList }
def panicError : CString := { chars := "\nKernel error: %x\n\n".toList }
def panicCallStack : CString := { chars := "\n\nCall stack:\n-".toList }
def panicRaddr : CString := { chars := " %x".toList }
def panicEnd : CString := { chars := "\n------------\n".toList }

/-- The loop of `kpanic_ndu`. -/
def callStackFrom : List UInt32 → Int → F Int
  | [], len => return len
  | raddr :: raddrs, len =>
    if raddr > 0 then do
      let n ← kearlySnprintf len maxPrintableStringLength panicRaddr [.u32 raddr]
      callStackFrom raddrs (int32 (len + n))
    else return len

/-- `kpanic_ndu`. -/
def kpanicNdu (raddrs : List UInt32) (errorNumber line : UInt32) (file fmt : CString)
    (l : List Arg) : F Unit := do
  let len ← kearlySnprintf 0 maxPrintableStringLength panicTitle []
  let n ← kearlySnprintf len maxPrintableStringLength panicAt [.str file, .u32 line]
  let len := int32 (len + n)
  let n ← kearlySnprintf len maxPrintableStringLength panicError [.u32 errorNumber]
  let len := int32 (len + n)
  let n ← kearlyVsnprintf len maxPrintableStringLength fmt l
  let len := int32 (len + n)
  let n ← kearlySnprintf len maxPrintableStringLength panicCallStack []
  let len := int32 (len + n)
  let len ← callStackFrom raddrs len
  let _ ← kearlySnprintf len maxPrintableStringLength panicEnd []

/-! ## `kdebug.c` and `cm/debug.c` -/

def ansiColGray : CString := { chars := "\x1b[90m".toList }
def ansiColYellow : CString := { chars := "\x1b[93m".toList }
def ansiColRed : CString := { chars := "\x1b[31m".toList }
def ansiColGreen : CString := { chars := "\x1b[32m".toList }
def ansiColReset : CString := { chars := "\x1b[0m".toList }

/-- `KernelDebugLogType` and `CM_DebugLogType`. -/
inductive DebugLogType
  | info | func | error | warn
  deriving DecidableEq

/-- The colour that a log function chooses. -/
def logColor : DebugLogType → CString
  | .info => ansiColGreen
  | .func => ansiColYellow
  | .error => ansiColRed
  | .warn => ansiColYellow

/-- The message that `kdebug_log_ndu` chooses. -/
def kdebugMessage : DebugLogType → CString
  | .info => { chars := "\n  %s[%u][ INFO ]%s %s:%u %s|".toList }
  | .func => { chars := "\n%s[%u]%s[ %s:%u ]%s|".toList }
  | .error => { chars := "\n  %s[%u][ ERROR ]%s %s:%u %s|".toList }
  | .warn => { chars := "\n  %s[%u][ WARN ]%s %s:%u %s|".toList }

/-- The message that `cm_debug_log_ndu` chooses. -/
def cmDebugMessage : DebugLogType → CString
  | .info => { chars := "\n  %s[%u][MLC][ INFO ]%s %s:%u %s|".toList }
  | .func => { chars := "\n%s[%u][MLC]%s[ %s:%u ]%s|".toList }
  | .error => { chars := "\n  %s[%u][MLC][ ERROR ]%s %s:%u %s|".toList }
  | .warn => { chars := "\n  %s[%u][MLC][ WARN ]%s %s:%u %s|".toList }

/-- The arguments of the message. -/
def logArgs (type : DebugLogType) (tickCount : UInt32) (func : CString) (line : UInt32) :
    List Arg :=
  [.str (logColor type), .u32 tickCount, .str ansiColGray, .str func, .u32 line, .str ansiColReset]

/-- `kdebug_log_ndu`. -/
def kdebugLogNdu (type : DebugLogType) (tickCount : UInt32) (func : CString) (line : UInt32)
    (fmt : CString) (l : List Arg) : F Unit := do
  let len ← kearlySnprintf 0 maxPrintableStringLength (kdebugMessage type)
    (logArgs type tickCount func line)
  let _ ← kearlyVsnprintf len maxPrintableStringLength fmt l

/-- `cm_debug_log_ndu`. -/
def cmDebugLogNdu (type : DebugLogType) (tickCount : UInt32) (func : CString) (line : UInt32)
    (fmt : CString) (l : List Arg) : F Unit := do
  let len ← cmSnprintf 0 cmMaxPrintableStringLength (cmDebugMessage type)
    (logArgs type tickCount func line)
  let _ ← cmVsnprintf len cmMaxPrintableStringLength fmt l

/-! ## `x86/interrupts.c` -/

/-- `InterruptFrame`. -/
structure InterruptFrame where
  ip : UInt32
  cs : UInt32
  flags : UInt32
  sp : UInt32
  ss : UInt32

def stackFrameMessage : CString :=
  { chars := "\n\nInterrupt Frame:\n- EIP: %x\n- CS: %x\n- EFLAGS: %x\n- ESP: %x\n- SS: %x".toList }

/-- `s_appendStackFrame`; the size is an `INT` that is passed on as a `size_t`. -/
def sAppendStackFrame (frame : InterruptFrame) (buffer size : Int) : F Unit := do
  let _ ← kearlySnprintf buffer (size % 2 ^ 32).toNat stackFrameMessage
    [.u32 frame.ip, .u32 frame.cs, .u32 frame.flags, .u32 frame.sp, .u32 frame.ss]

/-- `s_callPanic`. -/
def sCallPanic (frame : InterruptFrame) (fmt : CString) (l : List Arg) : F Unit := do
  let len ← kearlyVsnprintf 0 maxPrintableStringLength fmt l
  sAppendStackFrame frame len (int32 (maxPrintableStringLength - len))

end MeghaOS
