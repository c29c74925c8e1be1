import MeghaOS.Proof.Stubs

/-!
# The system call despatcher

A system call whose number is in the table reaches the function at that place of the table, with the
frame of its caller and five arguments on the stack, and the caller goes on behind its `int`
instruction with nothing changed but the registers `EAX`, `ECX` and `EDX` and what the function did
to the memory (`syscallAsmDespatcher_transparent`). The frame is the same for a caller in the
kernel, whose interrupt leaves no stack pointer. The second and the third argument are not those of
the caller: the despatcher calls `s_getSysCallCount` before it reads them. With any other number
`s_handleInvalidSystemCall` is called, and the caller goes on with nothing changed but `EAX`, `ECX`
and `EDX`, `CR3` and the memory as the C functions leave them (`syscallAsmDespatcher_refuses`).
-/

namespace MeghaOS

open X86 X86.Instr X86.Line

variable {fn : Word → Cpu → Cpu} {s t u v x c : Cpu} {g : Gate} {sym : SyscallSymbols}

/-! ## The parts of the listing -/

/-- Before the call of `s_getSysCallCount`. -/
def despatchCount : List Instr :=
  [push (.reg .ebp), mov .ebp (.reg .esp), push (.reg .eax), push (.reg .ebx),
    mov .ebx (.reg .eax)]

/-- The check of the number. -/
def despatchCheck : List Instr := [cmp .ebx .eax, pop .ebx, pop .eax]

/-- The copy of the frame, and the test for a caller in the kernel. -/
def despatchFrame : List Instr :=
  [sub .esp syscallFrameStructSize, push (.reg .edi), push (.reg .esi), push (.reg .ecx),
    lea .esi .ebp 0, lea .edi .ebp (-syscallFrameStructSize),
    mov .ecx (.imm interruptFrameStructSize), .repMovsb, pop .ecx, pop .esi, pop .edi,
    push (.reg .eax), mov .eax (.mem .ebp (-syscallFrameStructSize + fieldCs)), test .eax 3,
    pop .eax]

/-- What completes the frame of a caller in the kernel. -/
def despatchKernel : List Instr :=
  [push (.reg .eax), movFromSeg .eax .ss, store .ebp (-syscallFrameStructSize + fieldSs) .eax,
    lea .eax .ebp (4 + 12), store .ebp (-syscallFrameStructSize + fieldEsp) .eax, pop .eax]

/-- The arguments, and the place of the function in the table. -/
def despatchArguments (sym : SyscallSymbols) : List Instr :=
  [store .ebp (-syscallFrameStructSize + fieldEdi) .edi,
    store .ebp (-syscallFrameStructSize + fieldEsi) .esi,
    store .ebp (-syscallFrameStructSize + fieldEdx) .edx,
    store .ebp (-syscallFrameStructSize + fieldEcx) .ecx,
    store .ebp (-syscallFrameStructSize + fieldEbx) .ebx,
    leaTable .eax .eax 4 sym.gSyscallTable]

/-- What is left of the despatcher after the call. -/
def despatchReturn (sym : SyscallSymbols) : List Line :=
  [op (add .esp syscallFrameStructSize), jmp ".fini", label ".fail",
    call (.imm sym.sHandleInvalidSystemCall) sym.afterInvalid, label ".fini", op (pop .ebp), iret]

theorem syscallAsmDespatcher_eq (sym : SyscallSymbols) : syscallAsmDespatcher sym =
    despatchCount.map op ++ call (.imm sym.sGetSysCallCount) sym.afterCount ::
      (despatchCheck.map op ++ jcc .ae ".fail" ::
        (despatchFrame.map op ++ jcc .nz ".cont1" ::
          (despatchKernel.map op ++ label ".cont1" ::
            ((despatchArguments sym).map op ++ call (.mem .eax 0) sym.afterCall ::
              despatchReturn sym)))) := rfl

/-! ## What each part does -/

/-- The frame is copied: the frame pointer and five words from the stack pointer at the entry of the
despatcher on. For a caller in the kernel the last two are not its own. -/
theorem despatchFrame_spec (hdf : x.eflags.getLsbD directionFlag = false) (hebp : x.ebp = x.esp) :
    steps despatchFrame x =
      { x with
        esp := x.esp - 44#32
        eflags := (steps despatchFrame x).eflags
        mem := (steps despatchFrame x).mem } ∧
    (steps despatchFrame x).mem.Holds (x.esp - 44#32) [x.mem.load x.esp, x.mem.load (x.esp + 4#32),
      x.mem.load (x.esp + 8#32), x.mem.load (x.esp + 12#32), x.mem.load (x.esp + 16#32),
      x.mem.load (x.esp + 20#32)] ∧
    (steps despatchFrame x).eflags.getLsbD zeroFlag = (x.mem.load (x.esp + 8#32) &&& 3#32 == 0#32) ∧
    (∀ b, ¬ Within (x.esp - 56#32) 56 b → (steps despatchFrame x).mem b = x.mem b) := by
  obtain ⟨eax, ecx, edx, ebx, esp, ebp, esi, edi, ss, ds, es, fs, gs, cs, eip, eflags, cr3, mem⟩ :=
    x
  obtain rfl : ebp = esp := hebp
  replace hdf : eflags.getLsbD directionFlag = false := hdf
  simp only [despatchFrame, steps, Instr.step, Cpu.push, Cpu.drop, Cpu.top, Operand.value, Cpu.reg,
    Cpu.setReg, Cpu.repMovsb, arithFlags_direction, arithFlags_zero, BitVec.sub_eq_add_neg,
    BitVec.add_assoc, BitVec.ofNat_eq_ofNat, BitVec.reduceNeg, BitVec.reduceAdd, BitVec.add_zero,
    show (24#32).toNat = 24 from rfl, hdf, Bool.false_eq_true, if_false]
  refine ⟨?_, ?_, ?_, fun b hb => ?_⟩
  · simp [load_store_self, load_store_of_far, load_moveBytes_outside, far_add_add]
  · simp [Mem.Holds, BitVec.add_assoc, load_store_of_far, load_moveBytes_inside, far_add_add,
      far_add_self]
  · simp [load_store_of_far, load_moveBytes_inside, far_add_add]
  · simp [store_of_not_within hb, moveBytes_of_not_within _ hb]

/-- The state in which the despatcher enters `s_getSysCallCount`. -/
def despatchCounted (sym : SyscallSymbols) (t : Cpu) : Cpu :=
  (steps despatchCount t).push sym.afterCount

theorem despatchCounted_spec (sym : SyscallSymbols) (t : Cpu) :
    despatchCounted sym t = { t with
      esp := t.esp - 16#32
      ebp := t.esp - 4#32
      ebx := t.eax
      mem := (despatchCounted sym t).mem } ∧
    (despatchCounted sym t).mem.Holds (t.esp - 12#32) [t.ebx, t.eax, t.ebp] ∧
    ∀ b, ¬ Within (t.esp - 16#32) 16 b → (despatchCounted sym t).mem b = t.mem b := by
  obtain ⟨eax, ecx, edx, ebx, esp, ebp, esi, edi, ss, ds, es, fs, gs, cs, eip, eflags, cr3, mem⟩ :=
    t
  simp only [despatchCounted, despatchCount, steps, Instr.step, Cpu.push, Operand.value, Cpu.reg,
    Cpu.setReg, BitVec.sub_eq_add_neg, BitVec.add_assoc, BitVec.reduceNeg, BitVec.reduceAdd]
  refine ⟨trivial, ?_, fun b hb => ?_⟩
  · simp [Mem.Holds, BitVec.add_assoc, load_store_self, load_store_of_far, far_add_add]
  · simp [store_of_not_within hb]

theorem despatchCheck_spec (hesp : c.esp = t.esp - 12#32)
    (hholds : c.mem.Holds (t.esp - 12#32) [t.ebx, t.eax, t.ebp]) :
    steps despatchCheck c = { c with
      esp := t.esp - 4#32
      eax := t.eax
      ebx := t.ebx
      eflags := arithFlags c.eflags (c.ebx.ult c.eax) (c.ebx == c.eax) } := by
  obtain ⟨eax, ecx, edx, ebx, esp, ebp, esi, edi, ss, ds, es, fs, gs, cs, eip, eflags, cr3, mem⟩ :=
    c
  subst hesp
  simp only [Mem.Holds, BitVec.sub_eq_add_neg, BitVec.add_assoc, BitVec.reduceNeg,
    BitVec.reduceAdd] at hholds
  simp [despatchCheck, steps, Instr.step, Cpu.reg, Cpu.setReg, Cpu.drop, Cpu.top,
    BitVec.sub_eq_add_neg, BitVec.add_assoc, hholds]

/-- The stack pointer of a caller in the kernel lay above its interrupt frame. -/
theorem despatchKernel_spec {w₀ w₁ w₂ w₃ w₄ w₅ : Word} (hesp : x.esp = x.ebp - 44#32)
    (hholds : x.mem.Holds x.esp [w₀, w₁, w₂, w₃, w₄, w₅]) :
    steps despatchKernel x = { x with mem := (steps despatchKernel x).mem } ∧
    (steps despatchKernel x).mem.Holds x.esp
      [w₀, w₁, w₂, w₃, x.ebp + 16#32, x.ss.setWidth 32] ∧
    ∀ b, ¬ Within (x.ebp - 48#32) 48 b → (steps despatchKernel x).mem b = x.mem b := by
  obtain ⟨eax, ecx, edx, ebx, esp, ebp, esi, edi, ss, ds, es, fs, gs, cs, eip, eflags, cr3, mem⟩ :=
    x
  obtain rfl : esp = ebp - 44#32 := hesp
  simp only [despatchKernel, steps, Instr.step, Cpu.push, Operand.value, Cpu.reg, Cpu.seg,
    Cpu.setReg, Cpu.drop, Cpu.top, BitVec.sub_eq_add_neg, BitVec.add_assoc, BitVec.ofNat_eq_ofNat,
    BitVec.reduceNeg, BitVec.reduceAdd, Mem.Holds] at hholds ⊢
  refine ⟨?_, ?_, fun b hb => ?_⟩
  · simp [load_store_self, load_store_of_far, far_add_add]
  · simp [load_store_self, load_store_of_far, far_add_add, hholds]
  · simp [store_of_not_within hb]

/-- `EAX` is the place of the function. -/
theorem despatchArguments_spec (sym : SyscallSymbols) (x : Cpu) :
    (steps (despatchArguments sym) x).eax = 4#32 * x.eax + sym.gSyscallTable ∧
    ∀ b, ¬ Within (x.ebp - 20#32) 20 b → (steps (despatchArguments sym) x).mem b = x.mem b := by
  obtain ⟨eax, ecx, edx, ebx, esp, ebp, esi, edi, ss, ds, es, fs, gs, cs, eip, eflags, cr3, mem⟩ :=
    x
  simp only [despatchArguments, steps, Instr.step, Cpu.reg, Cpu.setReg, BitVec.sub_eq_add_neg,
    BitVec.ofNat_eq_ofNat, BitVec.reduceNeg, BitVec.reduceAdd]
  exact ⟨trivial, fun b hb => by simp [store_of_not_within hb]⟩

/-- The state in which the function is entered, when the frame is complete in `x`. -/
def despatchEntered (sym : SyscallSymbols) (x : Cpu) : Cpu :=
  (steps (despatchArguments sym) x).push sym.afterCall

theorem despatchEntered_spec {w₀ w₁ w₂ w₃ w₄ w₅ : Word} (sym : SyscallSymbols)
    (hesp : x.esp = x.ebp - 44#32) (hholds : x.mem.Holds x.esp [w₀, w₁, w₂, w₃, w₄, w₅]) :
    despatchEntered sym x = { x with
      esp := x.ebp - 48#32
      eax := 4#32 * x.eax + sym.gSyscallTable
      mem := (despatchEntered sym x).mem } ∧
    (despatchEntered sym x).mem.Holds (x.ebp - 48#32) [sym.afterCall, w₀, w₁, w₂, w₃, w₄, w₅,
      x.ebx, x.ecx, x.edx, x.esi, x.edi] ∧
    ∀ b, ¬ Within (x.ebp - 48#32) 48 b → (despatchEntered sym x).mem b = x.mem b := by
  obtain ⟨eax, ecx, edx, ebx, esp, ebp, esi, edi, ss, ds, es, fs, gs, cs, eip, eflags, cr3, mem⟩ :=
    x
  obtain rfl : esp = ebp - 44#32 := hesp
  simp only [despatchEntered, despatchArguments, steps, Instr.step, Cpu.push, Cpu.reg,
    Cpu.setReg, BitVec.sub_eq_add_neg, BitVec.add_assoc, BitVec.ofNat_eq_ofNat,
    BitVec.reduceNeg, BitVec.reduceAdd, Mem.Holds] at hholds ⊢
  refine ⟨trivial, ?_, fun b hb => ?_⟩
  · simp [load_store_self, load_store_of_far, far_add_add, hholds]
  · simp [store_of_not_within hb]

/-- The state after the frame has been copied, when `s_getSysCallCount` returned in `c`. -/
def despatchFramed (c : Cpu) : Cpu := steps despatchFrame (steps despatchCheck c)

/-! ## The despatcher -/

/-- `s_getSysCallCount` returned in `c`, and the number has been compared with its result. -/
theorem despatchChecked_spec
    (hcount : Returns (fun b => ¬ Within (t.esp - 52#32) 36 b) (despatchCounted sym t) c) :
    steps despatchCheck c = { t with
      esp := t.esp - 4#32
      ebp := t.esp - 4#32
      ecx := c.ecx
      edx := c.edx
      eip := c.eip
      eflags := arithFlags c.eflags (t.eax.ult c.eax) (t.eax == c.eax)
      cr3 := c.cr3
      mem := c.mem } ∧
    c.eflags.getLsbD directionFlag = t.eflags.getLsbD directionFlag ∧
    c.mem.load (t.esp - 4#32) = t.ebp ∧
    ∀ b, ¬ Within (t.esp - 52#32) 52 b → c.mem b = t.mem b := by
  obtain ⟨hcounted, hpushed, houtside⟩ := despatchCounted_spec sym t
  have hesp : c.esp = t.esp - 12#32 := by
    rw [hcount.esp, hcounted, sub_add_word]
    rfl
  have hwords : c.mem.Holds (t.esp - 12#32) [t.ebx, t.eax, t.ebp] :=
    hpushed.congr (by simp) fun i hi => hcount.mem _ (by
      rw [List.length_cons, List.length_cons, List.length_singleton] at hi
      unfold Within
      clear * - hi
      bv_omega)
  refine ⟨?_, ?_, ?_, fun b hb => ?_⟩
  · have hc := hcount.eq
    rw [hcounted] at hc
    have hebx : c.ebx = t.eax := by rw [hc]
    rw [despatchCheck_spec hesp hwords, hebx]
    exact congrArg (fun x : Cpu => { x with
      esp := t.esp - 4#32
      eax := t.eax
      ebx := t.ebx
      eflags := arithFlags c.eflags (t.eax.ult c.eax) (t.eax == c.eax) }) hc
  · rw [hcount.direction, hcounted]
  · have hlast := hwords.2.2.1
    rwa [sub_add_word, sub_add_word] at hlast
  · rw [hcount.mem b (not_within_mono hb (by rw [BitVec.sub_self]; decide)),
      houtside b (not_within_mono hb (by rw [sub_sub_sub_word]; decide))]

/-- The caller's registers pass the check and the copy, apart from two that may change in a call. -/
theorem despatchFramed_spec
    (hdf : t.eflags.getLsbD directionFlag = false)
    (hcount : Returns (fun b => ¬ Within (t.esp - 52#32) 36 b) (despatchCounted sym t) c) :
    despatchFramed c = { t with
      esp := t.esp - 48#32
      ebp := t.esp - 4#32
      ecx := c.ecx
      edx := c.edx
      eip := c.eip
      eflags := (despatchFramed c).eflags
      cr3 := c.cr3
      mem := (despatchFramed c).mem } ∧
    (despatchFramed c).mem.Holds (t.esp - 48#32) [t.ebp, t.mem.load t.esp,
      t.mem.load (t.esp + 4#32), t.mem.load (t.esp + 8#32), t.mem.load (t.esp + 12#32),
      t.mem.load (t.esp + 16#32)] ∧
    (despatchFramed c).mem.load (t.esp - 4#32) = t.ebp ∧
    (despatchFramed c).eflags.getLsbD zeroFlag = (t.mem.load (t.esp + 4#32) &&& 3#32 == 0#32) ∧
    ∀ b, ¬ Within (t.esp - 60#32) 60 b → (despatchFramed c).mem b = t.mem b := by
  obtain ⟨hchecked, hdirection, hebp, hmem⟩ := despatchChecked_spec hcount
  have hload : ∀ k : Word, k.toNat ≤ 16 → c.mem.load (t.esp + k) = t.mem.load (t.esp + k) :=
    fun k hk => load_congr fun i hi => hmem _ (by
      unfold Within
      clear * - hk hi
      bv_omega)
  have hx : (steps despatchCheck c).esp = t.esp - 4#32 := by rw [hchecked]
  have hxebp : (steps despatchCheck c).ebp = t.esp - 4#32 := by rw [hchecked]
  have hxmem : (steps despatchCheck c).mem = c.mem := by rw [hchecked]
  have hxflags : (steps despatchCheck c).eflags.getLsbD directionFlag = false := by
    rw [hchecked, arithFlags_direction, hdirection, hdf]
  have hframe := despatchFrame_spec hxflags (hxebp.trans hx.symm)
  rw [← despatchFramed, hx, hxmem] at hframe
  obtain ⟨hframed, hholds, hzero, hkept⟩ := hframe
  have hnext : ∀ k : Word, t.esp - 4#32 + (4#32 + k) = t.esp + k := fun k => by
    rw [← BitVec.add_assoc, BitVec.sub_add_cancel]
  have hnext₁ : t.esp - 4#32 + 8#32 = t.esp + 4#32 := hnext 4#32
  have hnext₂ : t.esp - 4#32 + 12#32 = t.esp + 8#32 := hnext 8#32
  have hnext₃ : t.esp - 4#32 + 16#32 = t.esp + 12#32 := hnext 12#32
  have hnext₄ : t.esp - 4#32 + 20#32 = t.esp + 16#32 := hnext 16#32
  have hfirst : c.mem.load t.esp = t.mem.load t.esp := by
    have h₀ := hload 0#32 (by decide)
    rwa [BitVec.add_zero] at h₀
  refine ⟨?_, ?_, ?_, ?_, fun b hb => ?_⟩
  · rw [sub_sub_word] at hframed
    exact hframed.trans (congrArg (fun x : Cpu => { x with
      esp := t.esp - 48#32
      eflags := (despatchFramed c).eflags
      mem := (despatchFramed c).mem }) hchecked)
  · rwa [hebp, BitVec.sub_add_cancel, hfirst, hnext₁, hnext₂, hnext₃, hnext₄, hload _ (by decide),
      hload _ (by decide), hload _ (by decide), hload _ (by decide), sub_sub_word] at hholds
  · rw [← hebp]
    exact load_congr fun i hi => hkept _ (by
      unfold Within
      clear * - hi
      bv_omega)
  · rwa [hnext₁, hload _ (by decide)] at hzero
  · rw [sub_sub_word] at hkept
    rw [hkept b (not_within_mono hb (by rw [sub_sub_sub_word]; decide)),
      hmem b (not_within_mono hb (by rw [sub_sub_sub_word]; decide))]

/-- The frame that every system call function gets first, whichever mode the caller is in. -/
def systemcallFrame (s : Cpu) : List Word :=
  [s.ebp, s.eip, s.cs.setWidth 32, s.eflags, s.esp, s.ss.setWidth 32]

/-- The arguments of a system call. The second and the third are in the registers that a compiled
function may change, as `s_getSysCallCount` left them in `c`. -/
def syscallArguments (s c : Cpu) : List Word := [s.ebx, c.ecx, c.edx, s.esi, s.edi]

/-- The state after the frame of a kernel process has been completed. -/
def despatchPadded (s c : Cpu) : Cpu :=
  if s.cpl = 0#16 then steps despatchKernel (despatchFramed c) else despatchFramed c

/-- The frame is that of the caller. -/
theorem despatchPadded_spec
    (hdf : s.eflags.getLsbD directionFlag = false)
    (hcount : Returns (fun b => ¬ Within ((s.interrupt g).esp - 52#32) 36 b)
      (despatchCounted sym (s.interrupt g)) c) :
    despatchPadded s c = { s.interrupt g with
      esp := (s.interrupt g).esp - 48#32
      ebp := (s.interrupt g).esp - 4#32
      ecx := c.ecx
      edx := c.edx
      eip := c.eip
      eflags := (despatchPadded s c).eflags
      cr3 := c.cr3
      mem := (despatchPadded s c).mem } ∧
    (despatchPadded s c).mem.Holds ((s.interrupt g).esp - 48#32) (systemcallFrame s) ∧
    (despatchPadded s c).mem.load ((s.interrupt g).esp - 4#32) = s.ebp ∧
    ∀ b, ¬ Within ((s.interrupt g).esp - 60#32) 60 b →
      (despatchPadded s c).mem b = (s.interrupt g).mem b := by
  obtain ⟨-, hframe, -⟩ := interrupt_frame (s := s) (g := g)
  obtain ⟨hframed, hholds, hebp, -, hkept⟩ :=
    despatchFramed_spec (interrupt_directionFlag.trans hdf) hcount
  rw [interrupt_ebp] at hholds hebp
  have hword₁ : (s.interrupt g).esp + 4#32 + 4#32 = (s.interrupt g).esp + 8#32 :=
    BitVec.add_assoc _ _ _
  have hword₂ : (s.interrupt g).esp + 8#32 + 4#32 = (s.interrupt g).esp + 12#32 :=
    BitVec.add_assoc _ _ _
  have hword₃ : (s.interrupt g).esp + 12#32 + 4#32 = (s.interrupt g).esp + 16#32 :=
    BitVec.add_assoc _ _ _
  by_cases hcpl : s.cpl = 0#16
  · rw [despatchPadded, if_pos hcpl]
    rw [Cpu.interruptFrame, if_pos hcpl, List.append_nil] at hframe
    obtain ⟨heip, hcs, hflags, -⟩ := hframe
    rw [hword₁] at hflags
    have hx : (despatchFramed c).esp = (despatchFramed c).ebp - 44#32 := by
      rw [hframed, sub_sub_word]
      rfl
    have hxesp : (despatchFramed c).esp = (s.interrupt g).esp - 48#32 := by rw [hframed]
    have hxebp : (despatchFramed c).ebp = (s.interrupt g).esp - 4#32 := by rw [hframed]
    obtain ⟨heq, hholds', hkept'⟩ := despatchKernel_spec hx (by rwa [hxesp])
    have hxss : (despatchFramed c).ss = s.ss := by rw [hframed, interrupt_of_kernel hcpl]
    have hcaller : (s.interrupt g).esp - 4#32 + 16#32 = s.esp := by
      rw [interrupt_of_kernel hcpl, sub_sub_word]
      exact BitVec.sub_add_cancel s.esp 16#32
    rw [hxesp, hxebp, heip, hcs, hflags, hcaller, hxss] at hholds'
    rw [hxebp, sub_sub_word] at hkept'
    refine ⟨?_, hholds', ?_, fun b hb => ?_⟩
    · clear * - heq hframed
      generalize steps despatchKernel (despatchFramed c) = y at heq ⊢
      generalize despatchFramed c = x at heq hframed
      generalize s.interrupt g = t at hframed ⊢
      have hflags' : y.eflags = x.eflags := by rw [heq]
      rw [hflags']
      exact heq.trans (congrArg (fun x : Cpu => { x with mem := y.mem }) hframed)
    · rw [← hebp]
      exact load_congr fun i hi => hkept' _ (by
        unfold Within
        clear * - hi
        bv_omega)
    · rw [hkept' b (not_within_mono hb (by rw [sub_sub_sub_word]; decide)), hkept b hb]
  · rw [despatchPadded, if_neg hcpl]
    rw [Cpu.interruptFrame, if_neg hcpl] at hframe
    obtain ⟨heip, hcs, hflags, hesp, hss, -⟩ := hframe
    rw [hword₁] at hflags hesp hss
    rw [hword₂] at hesp hss
    rw [hword₃] at hss
    rw [heip, hcs, hflags, hesp, hss] at hholds
    exact ⟨hframed, hholds, hebp, hkept⟩

/-- The state in which the despatcher enters the system call function. -/
def despatchCalled (sym : SyscallSymbols) (s c : Cpu) : Cpu :=
  despatchEntered sym (despatchPadded s c)

/-- For a number in range the function in the table is called, with the frame of the caller and with
the arguments. -/
theorem exec_syscallAsmDespatcher
    (hdf : s.eflags.getLsbD directionFlag = false)
    (hc : c = fn sym.sGetSysCallCount (despatchCounted sym (s.interrupt g)))
    (hcount : Returns (fun b => ¬ Within ((s.interrupt g).esp - 52#32) 36 b)
      (despatchCounted sym (s.interrupt g)) c)
    (hnumber : s.eax.ult c.eax = true)
    (htable : ∀ i : Word, i.toNat < 4 →
      ¬ Within (s.kernelStack g - 92#32) 92 (4#32 * s.eax + sym.gSyscallTable + i)) :
    exec fn (syscallAsmDespatcher sym) none (s.interrupt g) =
      exec fn (despatchReturn sym) none
        (fn (s.mem.load (4#32 * s.eax + sym.gSyscallTable)) (despatchCalled sym s c)) := by
  obtain ⟨hchecked, -⟩ := despatchChecked_spec hcount
  obtain ⟨-, -, -, hzero, -⟩ := despatchFramed_spec (interrupt_directionFlag.trans hdf) hcount
  obtain ⟨hpadded, hholds, -, hkept⟩ := despatchPadded_spec hdf hcount
  obtain ⟨-, hframe, hmem⟩ := interrupt_frame (s := s) (g := g)
  have hcs : (s.interrupt g).mem.load ((s.interrupt g).esp + 4#32) = s.cs.setWidth 32 :=
    hframe.2.1
  rw [hcs, cs_frame_test] at hzero
  have hae : Cond.ae.holds (steps despatchCheck c) = false := by
    rw [Cond.holds, hchecked, arithFlags_carry, interrupt_eax, hnumber]
    rfl
  have hnz : Cond.nz.holds (despatchFramed c) = !decide (s.cpl = 0#16) := by
    rw [Cond.holds, hzero]
  rw [syscallAsmDespatcher_eq, exec_ops, exec_call]
  show exec fn _ none (fn sym.sGetSysCallCount (despatchCounted sym (s.interrupt g))) = _
  rw [← hc, exec_ops, exec_jcc, hae]
  show exec fn _ none (steps despatchCheck c) = _
  rw [exec_ops, ← despatchFramed, exec_jcc, hnz]
  have hpad : exec fn (despatchKernel.map op ++ label ".cont1" ::
      ((despatchArguments sym).map op ++ call (.mem .eax 0) sym.afterCall :: despatchReturn sym))
      (if (!decide (s.cpl = 0#16)) = true then some ".cont1" else none) (despatchFramed c) =
    exec fn ((despatchArguments sym).map op ++ call (.mem .eax 0) sym.afterCall ::
      despatchReturn sym) none (despatchPadded s c) := by
    by_cases hcpl : s.cpl = 0#16
    · rw [despatchPadded, if_pos hcpl, if_neg (by simp [hcpl]), exec_ops, exec_label]
    · rw [despatchPadded, if_neg hcpl, if_pos (by simp [hcpl]), exec_skip_ops, exec_label_target]
  have hebp : (despatchPadded s c).ebp - 20#32 = (s.interrupt g).esp - 24#32 := by
    rw [hpadded, sub_sub_word]
    rfl
  have heax : (despatchPadded s c).eax = s.eax := by rw [hpadded, interrupt_eax]
  obtain ⟨hplace, hargs⟩ := despatchArguments_spec sym (despatchPadded s c)
  rw [heax] at hplace
  rw [hebp] at hargs
  have htarget : (Operand.mem .eax 0).value (steps (despatchArguments sym) (despatchPadded s c)) =
      s.mem.load (4#32 * s.eax + sym.gSyscallTable) := by
    show Mem.load _ ((steps (despatchArguments sym) (despatchPadded s c)).eax + 0#32) = _
    rw [hplace, BitVec.add_zero]
    refine load_congr fun i hi => ?_
    have hi' := htable i hi
    rw [hargs _ (not_within_kernelStack hi' (by decide) (by decide)),
      hkept _ (not_within_kernelStack hi' (by decide) (by decide)),
      hmem _ (not_within_mono hi' (by rw [sub_sub_sub_word]; decide))]
  refine hpad.trans ?_
  rw [exec_ops, exec_call, htarget]
  rfl

/-- What the system call function finds on the stack: the frame and the arguments. Elsewhere the
memory is that of the caller, and above the arguments is what the despatcher returns through. -/
theorem despatchCalled_spec
    (hdf : s.eflags.getLsbD directionFlag = false)
    (hcount : Returns (fun b => ¬ Within ((s.interrupt g).esp - 52#32) 36 b)
      (despatchCounted sym (s.interrupt g)) c) :
    despatchCalled sym s c = { s.interrupt g with
      esp := (s.interrupt g).esp - 52#32
      ebp := (s.interrupt g).esp - 4#32
      eax := 4#32 * s.eax + sym.gSyscallTable
      ecx := c.ecx
      edx := c.edx
      eip := c.eip
      eflags := (despatchCalled sym s c).eflags
      cr3 := c.cr3
      mem := (despatchCalled sym s c).mem } ∧
    (despatchCalled sym s c).mem.Holds ((s.interrupt g).esp - 52#32)
      (sym.afterCall :: (systemcallFrame s ++ syscallArguments s c)) ∧
    (despatchCalled sym s c).mem.Holds ((s.interrupt g).esp - 4#32) (s.ebp :: s.interruptFrame) ∧
    ∀ b, ¬ Within (s.kernelStack g - 92#32) 92 b → (despatchCalled sym s c).mem b = s.mem b := by
  obtain ⟨hpadded, hholds, hebp, hkept⟩ := despatchPadded_spec hdf hcount
  obtain ⟨-, hframe, hmem⟩ := interrupt_frame (s := s) (g := g)
  have hlen := length_interruptFrame_le (s := s)
  have hyebp : (despatchPadded s c).ebp = (s.interrupt g).esp - 4#32 := by rw [hpadded]
  have hyesp : (despatchPadded s c).esp = (s.interrupt g).esp - 48#32 := by rw [hpadded]
  obtain ⟨hentered, hwords, houtside⟩ := despatchEntered_spec (x := despatchPadded s c) sym
    (by rw [hyebp, hyesp, sub_sub_word]; rfl) (by rw [hyesp]; exact hholds)
  rw [← despatchCalled, hyebp, sub_sub_word] at hentered hwords houtside
  have hebx : (despatchPadded s c).ebx = s.ebx := by rw [hpadded, interrupt_ebx]
  have hecx : (despatchPadded s c).ecx = c.ecx := by rw [hpadded]
  have hedx : (despatchPadded s c).edx = c.edx := by rw [hpadded]
  have hesi : (despatchPadded s c).esi = s.esi := by rw [hpadded, interrupt_esi]
  have hedi : (despatchPadded s c).edi = s.edi := by rw [hpadded, interrupt_edi]
  have heax : (despatchPadded s c).eax = s.eax := by rw [hpadded, interrupt_eax]
  rw [hebx, hecx, hedx, hesi, hedi] at hwords
  rw [heax] at hentered
  refine ⟨?_, hwords, ⟨?_, ?_⟩, fun b hb => ?_⟩
  · generalize despatchCalled sym s c = u at hentered ⊢
    generalize despatchPadded s c = y at hentered hpadded
    have hflags : u.eflags = y.eflags := by rw [hentered]
    rw [hflags]
    exact hentered.trans (congrArg (fun x : Cpu => { x with
      esp := (s.interrupt g).esp - 52#32
      ebp := (s.interrupt g).esp - 4#32
      eax := 4#32 * s.eax + sym.gSyscallTable
      mem := u.mem }) hpadded)
  · rw [← hebp]
    exact load_congr fun i hi => houtside _ (by
      unfold Within
      clear * - hi
      bv_omega)
  · rw [BitVec.sub_add_cancel]
    refine hframe.congr (by omega) fun i hi => ?_
    rw [houtside _ (by unfold Within; clear * - hi hlen; bv_omega),
      hkept _ (by unfold Within; clear * - hi hlen; bv_omega)]
  · rw [houtside b (not_within_kernelStack hb (by decide) (by decide)),
      hkept b (not_within_kernelStack hb (by decide) (by decide)),
      hmem b (not_within_mono hb (by rw [sub_sub_sub_word]; decide))]

/-- The end of the despatcher, on a state that differs from that at its entry in the registers of
the results. -/
theorem despatchFini_spec (hsel : g.selector &&& 3#16 = 0#16)
    (hv : v = { s.interrupt g with
      eax := v.eax
      ecx := v.ecx
      edx := v.edx
      esp := (s.interrupt g).esp - 4#32
      ebp := v.ebp
      eip := v.eip
      eflags := v.eflags
      cr3 := v.cr3
      mem := v.mem })
    (hholds : v.mem.Holds ((s.interrupt g).esp - 4#32) (s.ebp :: s.interruptFrame)) :
    (Instr.step v (pop .ebp)).iret =
      { s with eax := v.eax, ecx := v.ecx, edx := v.edx, cr3 := v.cr3, mem := v.mem } := by
  obtain ⟨hebp, hframe⟩ := hholds
  rw [BitVec.sub_add_cancel] at hframe
  have hesp : v.esp = (s.interrupt g).esp - 4#32 := by rw [hv]
  have hpop : Instr.step v (pop .ebp) = { s.interrupt g with
      eax := v.eax, ecx := v.ecx, edx := v.edx, eip := v.eip, eflags := v.eflags, cr3 := v.cr3,
      mem := v.mem } := by
    have htop : v.top = s.ebp := by rw [Cpu.top, hesp, hebp]
    show { v with ebp := v.top, esp := v.esp + 4#32 } = _
    rw [htop, hesp, BitVec.sub_add_cancel, ← interrupt_ebp (s := s) (g := g)]
    exact congrArg (fun x : Cpu => { x with
      ebp := (s.interrupt g).ebp
      esp := (s.interrupt g).esp }) hv
  rw [hpop, iret_interrupt_results hsel hframe]

/-- What is left after the call takes the stack back. -/
theorem exec_despatchReturn
    (hsel : g.selector &&& 3#16 = 0#16) (hdf : s.eflags.getLsbD directionFlag = false)
    (hcount : Returns (fun b => ¬ Within ((s.interrupt g).esp - 52#32) 36 b)
      (despatchCounted sym (s.interrupt g)) c)
    (hu : u = despatchCalled sym s c)
    (hret : Returns (Within (u.esp + 48#32) (4 + 4 * s.interruptFrame.length)) u v) :
    exec fn (despatchReturn sym) none v =
      some { s with eax := v.eax, ecx := v.ecx, edx := v.edx, cr3 := v.cr3, mem := v.mem } := by
  have hlen := length_interruptFrame_le (s := s)
  obtain ⟨hcalled, -, hsaved, -⟩ := despatchCalled_spec hdf hcount
  rw [← hu] at hcalled hsaved
  have hesp : u.esp = (s.interrupt g).esp - 52#32 := by rw [hcalled]
  have hkept : v.mem.Holds ((s.interrupt g).esp - 4#32) (s.ebp :: s.interruptFrame) :=
    hret.holds (by omega) (by
      rw [hesp, List.length_cons, sub_add_word, sub_sub_sub_word,
        show (52#32 - 48#32 - 4#32).toNat = 0 from rfl]
      omega) hsaved
  have hvesp : v.esp + 44#32 = (s.interrupt g).esp - 4#32 := by
    rw [hret.esp, hesp, sub_add_word, sub_add_word]
    rfl
  have hv := hret.eq
  rw [hcalled] at hv
  refine congrArg some (despatchFini_spec (v := Instr.step v (add .esp syscallFrameStructSize))
    hsel ?_ hkept)
  exact congrArg (fun x : Cpu => { x with
    eax := v.eax
    ecx := v.ecx
    edx := v.edx
    esp := v.esp + 44#32
    ebp := v.ebp
    eip := v.eip
    eflags := (Instr.step v (add .esp syscallFrameStructSize)).eflags
    cr3 := v.cr3
    mem := v.mem }) hv |>.trans (by rw [hvesp])

/-- A system call reaches its function with the frame of its caller, and returns to the caller. -/
theorem syscallAsmDespatcher_transparent
    (hsel : g.selector &&& 3#16 = 0#16) (hdf : s.eflags.getLsbD directionFlag = false)
    (hc : c = fn sym.sGetSysCallCount (despatchCounted sym (s.interrupt g)))
    (hcount : Returns (fun b => ¬ Within ((s.interrupt g).esp - 52#32) 36 b)
      (despatchCounted sym (s.interrupt g)) c)
    (hnumber : s.eax.ult c.eax = true)
    (htable : ∀ i : Word, i.toNat < 4 →
      ¬ Within (s.kernelStack g - 92#32) 92 (4#32 * s.eax + sym.gSyscallTable + i))
    (hu : u = despatchCalled sym s c)
    (hv : v = fn (s.mem.load (4#32 * s.eax + sym.gSyscallTable)) u)
    (hret : Returns (Within (u.esp + 48#32) (4 + 4 * s.interruptFrame.length)) u v) :
    (u.mem.Holds u.esp (sym.afterCall :: (systemcallFrame s ++ syscallArguments s c)) ∧
      ∀ b, ¬ Within (s.kernelStack g - 92#32) 92 b → u.mem b = s.mem b) ∧
    exec fn (syscallAsmDespatcher sym) none (s.interrupt g) =
      some { s with eax := v.eax, ecx := v.ecx, edx := v.edx, cr3 := v.cr3, mem := v.mem } := by
  obtain ⟨hcalled, hwords, -, hmem⟩ := despatchCalled_spec hdf hcount
  have hesp : u.esp = (s.interrupt g).esp - 52#32 := by rw [hu, hcalled]
  refine ⟨⟨?_, ?_⟩, ?_⟩
  · rw [hesp, hu]
    exact hwords
  · rw [hu]
    exact hmem
  · rw [exec_syscallAsmDespatcher hdf hc hcount hnumber htable, ← hu, ← hv,
      exec_despatchReturn hsel hdf hcount hu hret]

/-- The addresses of a despatcher. -/
def someSymbols : SyscallSymbols :=
  ⟨0x2000#32, 0x2100#32, 0x3000#32, 0x1010#32, 0x1020#32, 0x1030#32⟩

/-- A program makes a system call. -/
theorem syscallAsmDespatcher_transparent_user :
    ∃ u : Cpu, u.mem.Holds u.esp [0x1020#32, userCpu.ebp, userCpu.eip, 0x23#32, userCpu.eflags,
        userCpu.esp, 0x2B#32, userCpu.ebx, userCpu.ecx, userCpu.edx, userCpu.esi, userCpu.edi] ∧
      exec (returning 18#32) (syscallAsmDespatcher someSymbols) none
        (userCpu.interrupt kernelGate) = some { userCpu with eax := 18#32, mem := u.mem } := by
  have htable : ∀ i : Word, i.toNat < 4 → ¬ Within (userCpu.kernelStack kernelGate - 92#32) 92
      (4#32 * userCpu.eax + someSymbols.gSyscallTable + i) := fun i hi => by
    have hplace : 4#32 * userCpu.eax + someSymbols.gSyscallTable + i = 0x3008#32 + i := rfl
    have hstack : userCpu.kernelStack kernelGate - 92#32 = 0x3FFFA4#32 := by decide
    rw [hplace, hstack]
    unfold Within
    bv_omega
  have hcounted : userCpu.eax.ult (returning 18#32 someSymbols.sGetSysCallCount
    (despatchCounted someSymbols (userCpu.interrupt kernelGate))).eax = true := by decide
  have hu := syscallAsmDespatcher_transparent rfl (by decide) rfl returning_returns hcounted htable
    rfl rfl returning_returns
  exact ⟨_, hu.1.1, hu.2⟩

/-- A number that is not in the table reaches no function of the table. The caller goes on, and only
`EAX`, `ECX`, `EDX`, `CR3` and the memory are as the C functions left them. -/
theorem syscallAsmDespatcher_refuses
    (hsel : g.selector &&& 3#16 = 0#16)
    (hc : c = fn sym.sGetSysCallCount (despatchCounted sym (s.interrupt g)))
    (hcount : Returns (fun b => ¬ Within ((s.interrupt g).esp - 52#32) 36 b)
      (despatchCounted sym (s.interrupt g)) c)
    (hnumber : s.eax.ult c.eax = false)
    (hu : u = (steps despatchCheck c).push sym.afterInvalid)
    (hv : v = fn sym.sHandleInvalidSystemCall u)
    (hret : Returns (Within (u.esp + 4#32) (4 + 4 * s.interruptFrame.length)) u v) :
    exec fn (syscallAsmDespatcher sym) none (s.interrupt g) =
      some { s with eax := v.eax, ecx := v.ecx, edx := v.edx, cr3 := v.cr3, mem := v.mem } := by
  obtain ⟨-, hframe, -⟩ := interrupt_frame (s := s) (g := g)
  have hlen := length_interruptFrame_le (s := s)
  obtain ⟨hchecked, -, hebp, hmem⟩ := despatchChecked_spec hcount
  have hae : Cond.ae.holds (steps despatchCheck c) = true := by
    rw [Cond.holds, hchecked, arithFlags_carry, interrupt_eax, hnumber]
    rfl
  have hexec : exec fn (syscallAsmDespatcher sym) none (s.interrupt g) =
      some (Instr.step v (pop .ebp)).iret := by
    rw [syscallAsmDespatcher_eq, exec_ops, exec_call]
    show exec fn _ none (fn sym.sGetSysCallCount (despatchCounted sym (s.interrupt g))) = _
    rw [← hc, exec_ops, exec_jcc, hae]
    show exec fn _ (some ".fail") _ = _
    rw [exec_skip_ops]
    show exec fn (despatchKernel.map op ++ _) (some ".fail") _ = _
    rw [exec_skip_ops]
    show exec fn ((despatchArguments sym).map op ++ _) (some ".fail") _ = _
    rw [exec_skip_ops, hv, hu]
    rfl
  have huesp : u.esp = (s.interrupt g).esp - 8#32 := by
    rw [hu, Cpu.push, hchecked]
    exact sub_sub_word _ _ _
  have hentered : u = { s.interrupt g with
      esp := (s.interrupt g).esp - 8#32
      ebp := (s.interrupt g).esp - 4#32
      ecx := c.ecx
      edx := c.edx
      eip := c.eip
      eflags := u.eflags
      cr3 := c.cr3
      mem := u.mem } := by
    have hpush : u = { steps despatchCheck c with
        esp := u.esp, eflags := u.eflags, mem := u.mem } := by
      rw [hu]
      rfl
    rw [← huesp]
    exact hpush.trans (congrArg (fun x : Cpu => { x with
      esp := u.esp, eflags := u.eflags, mem := u.mem }) hchecked)
  have humem : ∀ b, ¬ Within ((s.interrupt g).esp - 8#32) 4 b → u.mem b = c.mem b := fun b hb => by
    rw [hu, Cpu.push, hchecked]
    refine store_of_outside (Nat.le_of_not_lt ?_)
    rwa [sub_sub_word]
  have hsaved : u.mem.Holds ((s.interrupt g).esp - 4#32) (s.ebp :: s.interruptFrame) := by
    refine ⟨?_, ?_⟩
    · rw [← interrupt_ebp (g := g), ← hebp]
      exact load_congr fun i hi => humem _ (by
        unfold Within
        clear * - hi
        bv_omega)
    · rw [BitVec.sub_add_cancel]
      refine hframe.congr (by omega) fun i hi => ?_
      rw [humem _ (by unfold Within; clear * - hi hlen; bv_omega),
        hmem _ (by unfold Within; clear * - hi hlen; bv_omega)]
  have hkept : v.mem.Holds ((s.interrupt g).esp - 4#32) (s.ebp :: s.interruptFrame) :=
    hret.holds (by omega) (by
      rw [huesp, List.length_cons, sub_add_word, sub_sub_sub_word,
        show (8#32 - 4#32 - 4#32).toNat = 0 from rfl]
      omega) hsaved
  have hvesp : u.esp + 4#32 = (s.interrupt g).esp - 4#32 := by
    rw [huesp, sub_add_word]
    rfl
  rw [hexec]
  refine congrArg some (despatchFini_spec hsel ?_ hkept)
  have hv' := hret.eq
  rw [hvesp, hentered] at hv'
  exact hv'.trans (by rw [hret.ebp, hentered])

/-- A program asks for a system call that is not there. -/
theorem syscallAsmDespatcher_refuses_user :
    ∃ m : Mem, exec (returning 1#32) (syscallAsmDespatcher someSymbols) none
      (userCpu.interrupt kernelGate) = some { userCpu with eax := 1#32, mem := m } :=
  ⟨_, syscallAsmDespatcher_refuses rfl rfl returning_returns (by decide) rfl rfl
    returning_returns⟩

end MeghaOS
