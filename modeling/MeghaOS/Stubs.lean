import MeghaOS.Lib.X86
import MeghaOS.Process

/-!
# Assembly entry and exit code (`x86/syscalls.c`, `x86/interrupt.h`, `x86/process.c`)

The listings through which the processor enters the kernel and leaves it: the system call
despatcher, the handler stubs of interrupts and of exceptions with an error code, and the switch to
a process. The addresses that the assembler and the linker choose are parameters.
-/

namespace MeghaOS

open X86 X86.Line X86.Instr

/-! ## System calls -/

/-- The addresses in the despatcher: of the two functions it calls, of the table, and those to which
its three calls return. -/
structure SyscallSymbols where
  sGetSysCallCount : Word
  sHandleInvalidSystemCall : Word
  gSyscallTable : Word
  afterCount : Word
  afterCall : Word
  afterInvalid : Word

/-! The fields of the system call frame and of the arguments behind it. -/

abbrev fieldEbp : Word := 0
abbrev fieldEip : Word := 4
abbrev fieldCs : Word := 8
abbrev fieldEflags : Word := 12
abbrev fieldEsp : Word := 16
abbrev fieldSs : Word := 20
abbrev interruptFrameStructSize : Word := 24
abbrev fieldEbx : Word := 24
abbrev fieldEcx : Word := 28
abbrev fieldEdx : Word := 32
abbrev fieldEsi : Word := 36
abbrev fieldEdi : Word := 40
abbrev syscallFrameStructSize : Word := 44

/-- `syscall_asm_despatcher`. -/
def syscallAsmDespatcher (sym : SyscallSymbols) : List Line :=
  [ op (push (.reg .ebp)),
    op (mov .ebp (.reg .esp)),
    -- is the system call number within range?
    op (push (.reg .eax)),
    op (push (.reg .ebx)),
    op (mov .ebx (.reg .eax)),
    call (.imm sym.sGetSysCallCount) sym.afterCount,
    op (cmp .ebx .eax),
    op (pop .ebx),
    op (pop .eax),
    jcc .ae ".fail",
    -- the system call frame: EBP and the interrupt frame of the caller
    op (sub .esp syscallFrameStructSize),
    op (push (.reg .edi)),
    op (push (.reg .esi)),
    op (push (.reg .ecx)),
    op (lea .esi .ebp 0),
    op (lea .edi .ebp (-syscallFrameStructSize)),
    op (mov .ecx (.imm interruptFrameStructSize)),
    op .repMovsb,
    op (pop .ecx),
    op (pop .esi),
    op (pop .edi),
    op (push (.reg .eax)),
    op (mov .eax (.mem .ebp (-syscallFrameStructSize + fieldCs))),
    op (test .eax 3),
    op (pop .eax),
    jcc .nz ".cont1",
    -- the caller is a kernel process, whose interrupt frame has no SS:ESP
    op (push (.reg .eax)),
    op (movFromSeg .eax .ss),
    op (store .ebp (-syscallFrameStructSize + fieldSs) .eax),
    op (lea .eax .ebp (4 + 12)),
    op (store .ebp (-syscallFrameStructSize + fieldEsp) .eax),
    op (pop .eax),
    label ".cont1",
    op (store .ebp (-syscallFrameStructSize + fieldEdi) .edi),
    op (store .ebp (-syscallFrameStructSize + fieldEsi) .esi),
    op (store .ebp (-syscallFrameStructSize + fieldEdx) .edx),
    op (store .ebp (-syscallFrameStructSize + fieldEcx) .ecx),
    op (store .ebp (-syscallFrameStructSize + fieldEbx) .ebx),
    op (leaTable .eax .eax 4 sym.gSyscallTable),
    call (.mem .eax 0) sym.afterCall,
    op (add .esp syscallFrameStructSize),
    jmp ".fini",
    label ".fail",
    call (.imm sym.sHandleInvalidSystemCall) sym.afterInvalid,
    label ".fini",
    op (pop .ebp),
    iret ]

/-- `SystemcallFrame`. -/
structure SystemcallFrame where
  ebp : Word
  eip : Word
  cs : Word
  eflags : Word
  esp : Word
  ss : Word

/-- The frame in memory. -/
def SystemcallFrame.load (m : Mem) (a : Word) : SystemcallFrame where
  ebp := m.load (a + fieldEbp)
  eip := m.load (a + fieldEip)
  cs := m.load (a + fieldCs)
  eflags := m.load (a + fieldEflags)
  esp := m.load (a + fieldEsp)
  ss := m.load (a + fieldSs)

/-- `ksys_yieldProcess`. -/
def ksysYieldProcess (frame : SystemcallFrame) (ebx _ecx _edx esi edi : Word) : K Switch :=
  kprocessYield (some
    { ebx := ebx.toNat
      esi := esi.toNat
      edi := edi.toNat
      esp := frame.esp.toNat
      ebp := frame.ebp.toNat
      eip := frame.eip.toNat
      eflags := frame.eflags.toNat
      cs := frame.cs.toNat
      ds := frame.ss.toNat })

/-- `ksys_yieldProcess` when it is entered with its parameters on the stack. -/
def ksysYieldProcessEntered (u : Cpu) : K Switch :=
  let a := u.esp + 4#32
  ksysYieldProcess (.load u.mem a) (u.mem.load (a + fieldEbx)) (u.mem.load (a + fieldEcx))
    (u.mem.load (a + fieldEdx)) (u.mem.load (a + fieldEsi)) (u.mem.load (a + fieldEdi))

/-! ## Interrupts and exceptions -/

/-- The stub that `INTERRUPT_HANDLER` and `EXCEPTION_HANDLER` define for the function at `handler`;
its call returns to `ret`. -/
def interruptHandler (handler ret : Word) : List Line :=
  [ op (push (.reg .ebp)),
    op (mov .ebp (.reg .esp)),
    op pushad,
    op (pushSeg .ds),
    op (pushSeg .es),
    op (pushSeg .fs),
    op (pushSeg .gs),
    op (lea .eax .ebp 4),
    op (push (.reg .eax)),
    call (.imm handler) ret,
    op (add .esp 4),
    op (popSeg .gs),
    op (popSeg .fs),
    op (popSeg .es),
    op (popSeg .ds),
    op popad,
    op (pop .ebp),
    iret ]

/-- The stub that `EXCEPTION_WITH_CODE_HANDLER` defines. -/
def exceptionWithCodeHandler (handler ret : Word) : List Line :=
  [ op (sub .esp 4),
    op (push (.reg .ebp)),
    op (mov .ebp (.reg .esp)),
    -- the return address goes where a call would have put it
    op (push (.reg .eax)),
    op (mov .eax (.mem .ebp 12)),
    op (store .ebp 4 .eax),
    op (pop .eax),
    op pushad,
    op (pushSeg .ds),
    op (pushSeg .es),
    op (pushSeg .fs),
    op (pushSeg .gs),
    op (mov .eax (.mem .ebp 8)),
    op (lea .ebx .ebp 12),
    op (push (.reg .eax)),
    op (push (.reg .ebx)),
    call (.imm handler) ret,
    op (add .esp 8),
    op (popSeg .gs),
    op (popSeg .fs),
    op (popSeg .es),
    op (popSeg .ds),
    op popad,
    op (pop .ebp),
    op (add .esp 4),
    -- the error code
    op (add .esp 4),
    iret ]

/-! ## The switch to a process -/

/-! The fields of `ProcessRegisterState`. -/

end MeghaOS
