import MeghaOS.Stubs

/-!
# Entry and exit code

An interrupt or an exception whose handler returns leaves the interrupted code as it was
(`interruptHandler_transparent`, `exceptionWithCodeHandler_transparent`): whatever the registers
were and from whichever privilege level the processor came, every register is back, and the only
memory that changed is what the handler changed and the part of the kernel stack that was free.
-/

namespace MeghaOS

open X86 X86.Instr

variable {fn : Word → Cpu → Cpu} {handler ret : Word} {s t u v : Cpu} {g : Gate}

/-! ## Interrupts -/

/-- The instructions of the stub before its call. -/
def interruptPrologue : List Instr :=
  [push (.reg .ebp), mov .ebp (.reg .esp), pushad, pushSeg .ds, pushSeg .es, pushSeg .fs,
    pushSeg .gs, lea .eax .ebp 4, push (.reg .eax)]

/-- The instructions of the stub after its call. -/
def interruptEpilogue : List Instr :=
  [add .esp 4, popSeg .gs, popSeg .fs, popSeg .es, popSeg .ds, popad, pop .ebp]

/-- The state in which the stub enters the handler. -/
def interruptEntered (ret : Word) (t : Cpu) : Cpu := (steps interruptPrologue t).push ret

/-- What the stubs keep on the stack while the handler runs, lowest address first. -/
def savedRegisters (t : Cpu) (ebp : Word) : List Word :=
  [t.gs.setWidth 32, t.fs.setWidth 32, t.es.setWidth 32, t.ds.setWidth 32, t.edi, t.esi, ebp, ebp,
    t.ebx, t.edx, t.ecx, t.eax, t.ebp]

@[simp] theorem length_savedRegisters (t : Cpu) (ebp : Word) :
    (savedRegisters t ebp).length = 13 := rfl

/-- The frame pointer of the interrupted code is the last of them. -/
theorem savedRegisters_ebp {m : Mem} {a ebp : Word} (h : m.Holds a (savedRegisters t ebp)) :
    m.load (a + 48#32) = t.ebp := by
  simp only [savedRegisters, Mem.Holds, BitVec.add_assoc, BitVec.reduceAdd] at h
  obtain ⟨-, -, -, -, -, -, -, -, -, -, -, -, h, -⟩ := h
  exact h

theorem exec_interruptHandler :
    exec fn (interruptHandler handler ret) none t =
      some (steps interruptEpilogue (fn handler (interruptEntered ret t))).iret := by
  have hlisting : interruptHandler handler ret = interruptPrologue.map .op ++
      .call (.imm handler) ret :: (interruptEpilogue.map .op ++ [.iret]) := rfl
  rw [hlisting, exec_ops, exec_call, exec_ops]
  rfl

/-- The handler is called with a pointer to what lies on the stack at the entry of the stub. -/
theorem interruptEntered_spec (ret : Word) (t : Cpu) :
    (interruptEntered ret t).esp = t.esp - 60#32 ∧ (interruptEntered ret t).ebp = t.esp - 4#32 ∧
      (interruptEntered ret t).cs = t.cs ∧ (interruptEntered ret t).ss = t.ss ∧
      (interruptEntered ret t).mem.Holds (t.esp - 60#32)
        (ret :: t.esp :: savedRegisters t (t.esp - 4#32)) ∧
      ∀ b, ¬ Within (t.esp - 60#32) 60 b → (interruptEntered ret t).mem b = t.mem b := by
  obtain ⟨eax, ecx, edx, ebx, esp, ebp, esi, edi, ss, ds, es, fs, gs, cs, eip, eflags, cr3, mem⟩ :=
    t
  simp only [interruptEntered, steps, interruptPrologue, Instr.step, Cpu.push, Operand.value,
    Cpu.reg, Cpu.setReg, Cpu.pushad, Cpu.seg, savedRegisters, BitVec.sub_eq_add_neg,
    BitVec.add_assoc, BitVec.reduceNeg, BitVec.reduceAdd]
  refine ⟨trivial, trivial, trivial, trivial, ?_, fun b hb => ?_⟩
  · simp [Mem.Holds, BitVec.add_assoc, load_store_self, load_store_of_far, far_add_add]
  · simp [store_of_not_within hb]

/-- The stub takes what it saved off the stack. -/
theorem interruptEpilogue_spec (hesp : v.esp = t.esp - 56#32) (hcs : v.cs = t.cs)
    (hss : v.ss = t.ss) (hsaved : v.mem.Holds (t.esp - 52#32) (savedRegisters t (t.esp - 4#32))) :
    steps interruptEpilogue v =
      { t with
        eip := v.eip
        eflags := (steps interruptEpilogue v).eflags
        cr3 := v.cr3
        mem := v.mem } := by
  obtain ⟨eax, ecx, edx, ebx, esp, ebp, esi, edi, ss, ds, es, fs, gs, cs, eip, eflags, cr3, mem⟩ :=
    v
  subst hesp hcs hss
  simp only [savedRegisters, Mem.Holds, BitVec.sub_eq_add_neg, BitVec.add_assoc,
    BitVec.reduceNeg, BitVec.reduceAdd] at hsaved
  simp [interruptEpilogue, steps, Instr.step, Cpu.reg, Cpu.setReg, Cpu.setSeg, Cpu.drop, Cpu.top,
    Cpu.popad, BitVec.sub_eq_add_neg, BitVec.add_assoc, hsaved]

/-- What the handler finds of the code in the state `s` that was interrupted, with a pointer to the
frame: the frame is that of the code, the two words at the frame pointer lead back to it, and the
memory is that of the code except in a free part of the kernel stack. -/
structure HandlerSees (s : Cpu) (g : Gate) (frame : Word) (u : Cpu) : Prop where
  frame : u.mem.Holds frame s.interruptFrame
  trace : u.mem.Holds u.ebp [s.ebp, s.eip]
  memory : ∀ b, ¬ Within (s.kernelStack g - 92#32) 92 b → u.mem b = s.mem b

/-- The stubs write in the 92 bytes below the stack of the kernel. -/
theorem not_within_kernelStack {d : Word} {n : Nat} {b : Word}
    (hb : ¬ Within (s.kernelStack g - 92#32) 92 b) (hn : d.toNat ≤ 72) (hk : n ≤ d.toNat) :
    ¬ Within ((s.interrupt g).esp - d) n b := by
  have hlen := length_interruptFrame_le (s := s)
  refine not_within_mono hb ?_
  rw [interrupt_frame.1]
  clear hb
  bv_omega

/-- The code that was interrupted goes on as it was, with what the handler did to the memory. -/
theorem interruptHandler_transparent (hsel : g.selector &&& 3#16 = 0#16)
    (hu : u = interruptEntered ret (s.interrupt g))
    (hret : Returns (Within (u.esp + 8#32) (52 + 4 * s.interruptFrame.length)) u (fn handler u)) :
    HandlerSees s g (u.mem.load (u.esp + 4#32)) u ∧
      exec fn (interruptHandler handler ret) none (s.interrupt g) =
        some { s with cr3 := (fn handler u).cr3, mem := (fn handler u).mem } := by
  obtain ⟨-, hframe, hmem⟩ := interrupt_frame (s := s) (g := g)
  have hlen := length_interruptFrame_le (s := s)
  obtain ⟨hesp, hebp, hcs, hss, hholds, houtside⟩ := interruptEntered_spec ret (s.interrupt g)
  rw [← hu] at hesp hebp hcs hss hholds houtside
  have hbase : u.esp + 8#32 = (s.interrupt g).esp - 52#32 := by rw [hesp, sub_add_word]; rfl
  -- the frame lies above what the stub writes
  have hframe' : u.mem.Holds (s.interrupt g).esp s.interruptFrame :=
    hframe.congr (by omega) fun i hi => houtside _ (by
      unfold Within
      bv_omega)
  have hsaved : u.mem.Holds (u.esp + 8#32)
      (savedRegisters (s.interrupt g) ((s.interrupt g).esp - 4#32)) := by
    have hwords := hholds.2.2
    rwa [BitVec.add_assoc, ← hesp] at hwords
  refine ⟨⟨?_, ⟨?_, ?_, trivial⟩, fun b hb => ?_⟩, ?_⟩
  · have harg : u.mem.load (u.esp + 4#32) = (s.interrupt g).esp := by rw [hesp]; exact hholds.2.1
    rw [harg]
    exact hframe'
  · have htop := savedRegisters_ebp hsaved
    rw [hbase, sub_add_word, interrupt_ebp] at htop
    rwa [hebp]
  · rw [hebp, BitVec.sub_add_cancel]
    exact hframe'.1
  · rw [houtside b (not_within_kernelStack hb (by decide) (by decide)), hmem b]
    exact not_within_mono hb (by rw [sub_sub_sub_word]; decide)
  · have hsaved' := hret.holds (by omega) (by rw [BitVec.sub_self]; simp) hsaved
    have hframe'' := hret.holds (by omega) (by
      rw [hbase, self_sub_sub_word]
      exact Nat.le_refl _) hframe'
    rw [hbase] at hsaved'
    rw [exec_interruptHandler, ← hu, interruptEpilogue_spec (t := s.interrupt g) (v := fn handler u)
      (by rw [hret.esp, hesp, sub_add_word]; rfl) (by rw [hret.cs, hcs]) (by rw [hret.ss, hss])
      hsaved', iret_interrupt hsel hframe'']

/-- A process in user mode. -/
def userCpu : Cpu where
  eax := 2#32
  ecx := 11#32
  edx := 12#32
  ebx := 13#32
  esp := 0x5000#32
  ebp := 0x5010#32
  esi := 14#32
  edi := 15#32
  ss := 0x2B#16
  ds := 0x2B#16
  es := 0x2B#16
  fs := 0x2B#16
  gs := 0x2B#16
  cs := 0x23#16
  eip := 0x8000#32
  eflags := 0x202#32
  cr3 := 0x9000#32
  mem := fun _ => 0#8

/-- A gate of the kernel. -/
def kernelGate : Gate := ⟨0x08#16, 0x1000#32, 0x10#16, 0x400000#32⟩

/-- Functions that return a number and do nothing else. -/
def returning (result : Word) : Word → Cpu → Cpu := fun _ u =>
  { u with eax := result, esp := u.esp + 4#32 }

theorem returning_returns {result a : Word} {kept : Word → Prop} :
    Returns kept u (returning result a u) :=
  ⟨rfl, rfl, rfl, rfl, rfl, rfl, rfl, rfl, rfl, rfl, rfl, fun _ _ => rfl, rfl⟩

/-- A program is interrupted. -/
theorem interruptHandler_transparent_user :
    exec (returning 1#32) (interruptHandler 0x2000#32 0x1010#32) none
        (userCpu.interrupt kernelGate) =
      some { userCpu with
        mem := (interruptEntered 0x1010#32 (userCpu.interrupt kernelGate)).mem } :=
  (interruptHandler_transparent rfl rfl returning_returns).2

/-! ## Exceptions with an error code -/

/-- The instructions of the stub before its call. -/
def exceptionPrologue : List Instr :=
  [sub .esp 4, push (.reg .ebp), mov .ebp (.reg .esp), push (.reg .eax), mov .eax (.mem .ebp 12),
    store .ebp 4 .eax, pop .eax, pushad, pushSeg .ds, pushSeg .es, pushSeg .fs, pushSeg .gs,
    mov .eax (.mem .ebp 8), lea .ebx .ebp 12, push (.reg .eax), push (.reg .ebx)]

/-- The instructions of the stub after its call. -/
def exceptionEpilogue : List Instr :=
  [add .esp 8, popSeg .gs, popSeg .fs, popSeg .es, popSeg .ds, popad, pop .ebp, add .esp 4,
    add .esp 4]

/-- The state in which the stub enters the handler. -/
def exceptionEntered (ret : Word) (t : Cpu) : Cpu := (steps exceptionPrologue t).push ret

theorem exec_exceptionWithCodeHandler :
    exec fn (exceptionWithCodeHandler handler ret) none t =
      some (steps exceptionEpilogue (fn handler (exceptionEntered ret t))).iret := by
  have hlisting : exceptionWithCodeHandler handler ret = exceptionPrologue.map .op ++
      .call (.imm handler) ret :: (exceptionEpilogue.map .op ++ [.iret]) := rfl
  rw [hlisting, exec_ops, exec_call, exec_ops]
  rfl

/-- The handler is called with a pointer to what lies above the error code, and with the error
code; the word above the saved frame pointer is a copy of the first word of the frame. -/
theorem exceptionEntered_spec (ret : Word) (t : Cpu) :
    (exceptionEntered ret t).esp = t.esp - 68#32 ∧ (exceptionEntered ret t).ebp = t.esp - 8#32 ∧
      (exceptionEntered ret t).cs = t.cs ∧ (exceptionEntered ret t).ss = t.ss ∧
      (exceptionEntered ret t).mem.Holds (t.esp - 68#32)
        (ret :: (t.esp + 4#32) :: t.mem.load t.esp :: savedRegisters t (t.esp - 8#32)) ∧
      (exceptionEntered ret t).mem.load (t.esp - 4#32) = t.mem.load (t.esp + 4#32) ∧
      ∀ b, ¬ Within (t.esp - 68#32) 68 b → (exceptionEntered ret t).mem b = t.mem b := by
  obtain ⟨eax, ecx, edx, ebx, esp, ebp, esi, edi, ss, ds, es, fs, gs, cs, eip, eflags, cr3, mem⟩ :=
    t
  simp only [exceptionEntered, steps, exceptionPrologue, Instr.step, Cpu.push, Cpu.drop, Cpu.top,
    Operand.value, Cpu.reg, Cpu.setReg, Cpu.pushad, Cpu.seg, savedRegisters, BitVec.sub_eq_add_neg,
    BitVec.add_assoc, BitVec.ofNat_eq_ofNat, BitVec.reduceNeg, BitVec.reduceAdd]
  refine ⟨trivial, trivial, trivial, trivial, ?_, ?_, fun b hb => ?_⟩
  · simp [Mem.Holds, BitVec.add_assoc, load_store_self, load_store_of_far, far_add_add,
      far_add_self]
  · simp [load_store_self, load_store_of_far, far_add_add]
  · simp [store_of_not_within hb]

/-- The stub takes what it saved off the stack, and the error code. -/
theorem exceptionEpilogue_spec (hesp : v.esp = t.esp - 64#32) (hcs : v.cs = t.cs)
    (hss : v.ss = t.ss) (hsaved : v.mem.Holds (t.esp - 56#32) (savedRegisters t (t.esp - 8#32))) :
    steps exceptionEpilogue v =
      { t with
        esp := t.esp + 4#32
        eip := v.eip
        eflags := (steps exceptionEpilogue v).eflags
        cr3 := v.cr3
        mem := v.mem } := by
  obtain ⟨eax, ecx, edx, ebx, esp, ebp, esi, edi, ss, ds, es, fs, gs, cs, eip, eflags, cr3, mem⟩ :=
    v
  subst hesp hcs hss
  simp only [savedRegisters, Mem.Holds, BitVec.sub_eq_add_neg, BitVec.add_assoc,
    BitVec.reduceNeg, BitVec.reduceAdd] at hsaved
  simp [exceptionEpilogue, steps, Instr.step, Cpu.reg, Cpu.setReg, Cpu.setSeg, Cpu.drop, Cpu.top,
    Cpu.popad, BitVec.sub_eq_add_neg, BitVec.add_assoc, hsaved]

/-- The handler of an exception is given its error code too, and the code goes on as it was. -/
theorem exceptionWithCodeHandler_transparent {errorCode : Word}
    (hsel : g.selector &&& 3#16 = 0#16)
    (hu : u = exceptionEntered ret (s.exception g errorCode))
    (hret : Returns (Within (u.esp + 12#32) (60 + 4 * s.interruptFrame.length)) u (fn handler u)) :
    u.mem.load (u.esp + 8#32) = errorCode ∧ HandlerSees s g (u.mem.load (u.esp + 4#32)) u ∧
      exec fn (exceptionWithCodeHandler handler ret) none (s.exception g errorCode) =
        some { s with cr3 := (fn handler u).cr3, mem := (fn handler u).mem } := by
  obtain ⟨-, hframe, hmem⟩ := interrupt_frame (s := s) (g := g)
  have hlen := length_interruptFrame_le (s := s)
  obtain ⟨hesp, hebp, hcs, hss, hholds, hcaller, houtside⟩ :=
    exceptionEntered_spec ret (s.exception g errorCode)
  rw [← hu] at hesp hebp hcs hss hholds hcaller houtside
  have htop : (s.exception g errorCode).esp = (s.interrupt g).esp - 4#32 := rfl
  have hbase : u.esp + 12#32 = (s.exception g errorCode).esp - 56#32 := by
    rw [hesp, sub_add_word]
    rfl
  -- the frame lies above the error code
  have hframe₁ : (s.exception g errorCode).mem.Holds (s.interrupt g).esp s.interruptFrame :=
    hframe.congr (by omega) fun i hi => store_of_outside (by
      clear * - hi hlen
      bv_omega)
  have hframe₂ : u.mem.Holds (s.interrupt g).esp s.interruptFrame :=
    hframe₁.congr (by omega) fun i hi => houtside _ (by
      rw [htop]
      unfold Within
      clear * - hi hlen
      bv_omega)
  have hsaved : u.mem.Holds (u.esp + 12#32)
      (savedRegisters (s.exception g errorCode) ((s.exception g errorCode).esp - 8#32)) := by
    have hwords := hholds.2.2.2
    rwa [BitVec.add_assoc, BitVec.add_assoc, ← hesp] at hwords
  have harg : u.mem.load (u.esp + 4#32) = (s.interrupt g).esp := by
    rw [hesp, hholds.2.1, htop, BitVec.sub_add_cancel]
  refine ⟨?_, ⟨?_, ⟨?_, ?_, trivial⟩, fun b hb => ?_⟩, ?_⟩
  · have hcode := hholds.2.2.1
    rw [BitVec.add_assoc, ← hesp] at hcode
    exact hcode.trans load_store_self
  · rwa [harg]
  · have hlast := savedRegisters_ebp hsaved
    rw [hbase, sub_add_word] at hlast
    rw [hebp]
    exact hlast.trans interrupt_ebp
  · rw [hebp, sub_add_word, show 8#32 - 4#32 = 4#32 from rfl, hcaller, htop, BitVec.sub_add_cancel]
    exact hframe₁.1
  · have hpush : (s.exception g errorCode).mem b = (s.interrupt g).mem b :=
      store_of_outside (Nat.le_of_not_lt (not_within_kernelStack hb (by decide) (by decide)))
    have hstub := not_within_kernelStack hb (d := 72#32) (n := 68) (by decide) (by decide)
    rw [houtside b (by rwa [htop, sub_sub_word]), hpush, hmem b]
    exact not_within_mono hb (by rw [sub_sub_sub_word]; decide)
  · have hsaved' := hret.holds (by omega) (by rw [BitVec.sub_self]; simp; omega) hsaved
    have hframe₃ := hret.holds (by omega) (by
      rw [hbase, htop, sub_sub_word, self_sub_sub_word]
      exact Nat.le_refl _) hframe₂
    rw [hbase] at hsaved'
    rw [exec_exceptionWithCodeHandler, ← hu, exceptionEpilogue_spec (t := s.exception g errorCode)
      (v := fn handler u) (by rw [hret.esp, hesp, sub_add_word]; rfl) (by rw [hret.cs, hcs])
      (by rw [hret.ss, hss]) hsaved', htop, BitVec.sub_add_cancel]
    simp only [Cpu.exception, Cpu.push]
    rw [iret_interrupt hsel hframe₃]

/-- A program causes an exception. -/
theorem exceptionWithCodeHandler_transparent_user :
    exec (returning 1#32) (exceptionWithCodeHandler 0x2000#32 0x1010#32) none
        (userCpu.exception kernelGate 6#32) =
      some { userCpu with
        mem := (exceptionEntered 0x1010#32 (userCpu.exception kernelGate 6#32)).mem } :=
  (exceptionWithCodeHandler_transparent rfl rfl returning_returns).2.2

end MeghaOS
