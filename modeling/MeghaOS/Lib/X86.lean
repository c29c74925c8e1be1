import Mathlib.Algebra.Group.Nat.Defs
import Mathlib.Tactic.Common

/-!
# Assembly listings of a 32-bit x86 processor

The part of the processor that the entry and exit code of a kernel uses: the registers, a byte
memory, the instructions that move words between them, calls of compiled functions, and the stack
switches of an interrupt and of `iret`. A listing is run by `exec`, which looks for labels further
down only, so every listing ends. Memory is read and written in words at any byte address, and
addresses wrap around.

An address in a listing is the stack pointer at its entry plus a literal. In that form (`sp + c`)
the simp set decides which words of the stack a store leaves alone, so that running a listing is a
rewriting.
-/

namespace MeghaOS.X86

abbrev Word : Type := BitVec 32

abbrev Byte : Type := BitVec 8

abbrev Selector : Type := BitVec 16

/-! ## Memory -/

/-- The bytes of the linear address space. -/
abbrev Mem : Type := Word → Byte

namespace Mem

/-- The word at an address, least significant byte first. -/
def load (m : Mem) (a : Word) : Word := m (a + 3#32) ++ m (a + 2#32) ++ m (a + 1#32) ++ m a

/-- Write a word at an address. -/
def store (m : Mem) (a v : Word) : Mem := fun b =>
  if b = a then v.extractLsb' 0 8
  else if b = a + 1#32 then v.extractLsb' 8 8
  else if b = a + 2#32 then v.extractLsb' 16 8
  else if b = a + 3#32 then v.extractLsb' 24 8
  else m b

/-- The bytes that `rep movsb` moves, one after the other; `d` is the step to the next byte. -/
def moveBytes (d : Word) : Nat → Word → Word → Mem → Mem
  | 0, _, _, m => m
  | n + 1, dst, src, m =>
    moveBytes d n (dst + d) (src + d) fun b => if b = dst then m src else m b

end Mem

/-- The words from an address on. -/
def Mem.Holds (m : Mem) (a : Word) : List Word → Prop
  | [] => True
  | w :: ws => m.load a = w ∧ m.Holds (a + 4#32) ws

/-- The words at two addresses have no byte in common. -/
def Far (a b : Word) : Prop := 4 ≤ (b - a).toNat ∧ 4 ≤ (a - b).toNat

/-- The `n` bytes from `lo` on. -/
def Within (lo : Word) (n : Nat) (a : Word) : Prop := (a - lo).toNat < n

section

variable {m m' : Mem} {a b c d sp v : Word} {n : Nat}

/-! Literal distances between addresses. -/

/-- Sums of words, as the addresses on a stack come up. -/
theorem sub_add_word (a c d : Word) : a - c + d = a - (c - d) := by bv_omega

theorem sub_sub_word (a c d : Word) : a - c - d = a - (c + d) := by bv_omega

theorem sub_sub_sub_word (a c d : Word) : a - c - (a - d) = d - c := by bv_omega

theorem self_sub_sub_word (a d : Word) : a - (a - d) = d := by bv_omega

/-- Two words at offsets of one address are apart when the offsets are. -/
theorem far_add_add : Far (sp + c) (sp + d) ↔ 4 ≤ (d - c).toNat ∧ 4 ≤ (c - d).toNat := by
  unfold Far
  rw [show sp + d - (sp + c) = d - c by bv_omega, show sp + c - (sp + d) = c - d by bv_omega]

/-- The same for an offset and the address itself. -/
theorem far_add_self : Far (sp + c) sp ↔ 4 ≤ (0#32 - c).toNat ∧ 4 ≤ c.toNat := by
  unfold Far
  rw [show sp - (sp + c) = 0#32 - c by bv_omega, show sp + c - sp = c by bv_omega]

/-- A word that is loaded depends on its four bytes. -/
theorem load_congr (h : ∀ i : Word, i.toNat < 4 → m' (a + i) = m (a + i)) :
    m'.load a = m.load a := by
  have h₀ := h 0#32 (by decide)
  rw [show a + 0#32 = a from BitVec.add_zero a] at h₀
  rw [Mem.load, Mem.load, h 3#32 (by decide), h 2#32 (by decide), h 1#32 (by decide), h₀]

/-- A store leaves the bytes outside its word as they were. -/
theorem store_of_outside (h : 4 ≤ (b - a).toNat) : m.store a v b = m b := by
  have h₀ : b ≠ a := by bv_omega
  have h₁ : b ≠ a + 1#32 := by bv_omega
  have h₂ : b ≠ a + 2#32 := by bv_omega
  have h₃ : b ≠ a + 3#32 := by bv_omega
  simp only [Mem.store, h₀, h₁, h₂, h₃, if_false]

/-- What is outside of a range is outside of its parts. -/
theorem not_within_mono {lo lo' : Word} {k : Nat} (h : ¬ Within lo n b)
    (hk : (lo' - lo).toNat + k ≤ n) : ¬ Within lo' k b := by
  unfold Within at h ⊢
  bv_omega

/-- A store in the `n` bytes from `sp + c` on leaves the other bytes as they were. -/
theorem store_of_not_within (h : ¬ Within (sp + c) n b) (hd : (d - c).toNat + 4 ≤ n) :
    m.store (sp + d) v b = m b :=
  store_of_outside (by
    unfold Within at h
    bv_omega)

/-- A word that was stored is loaded. -/
theorem load_store_self : (m.store a v).load a = v := by
  have h₁ : a + 1#32 ≠ a := by bv_omega
  have h₂ : a + 2#32 ≠ a := by bv_omega
  have h₃ : a + 3#32 ≠ a := by bv_omega
  have h₄ : a + 2#32 ≠ a + 1#32 := by bv_omega
  have h₅ : a + 3#32 ≠ a + 1#32 := by bv_omega
  have h₆ : a + 3#32 ≠ a + 2#32 := by bv_omega
  simp only [Mem.load, Mem.store, h₁, h₂, h₃, h₄, h₅, h₆, if_true, if_false]
  ext i hi
  have hbit (c : Nat) (hc : c ≤ i) : v.getLsbD (c + (i - c)) = v[i] := by
    rw [Nat.add_sub_cancel' hc, BitVec.getLsbD_eq_getElem]
  simp only [BitVec.getElem_append, BitVec.getElem_extractLsb']
  split_ifs with hthird hsecond hfirst
  · rw [Nat.zero_add, BitVec.getLsbD_eq_getElem]
  · exact hbit 8 (by omega)
  · exact hbit 16 (by omega)
  · exact hbit 24 (by omega)

/-- A word apart from it is as before. -/
theorem load_store_of_far (h : Far a b) : (m.store a v).load b = m.load b :=
  load_congr fun i hi => store_of_outside (by
    obtain ⟨h₁, h₂⟩ := h
    bv_omega)

/-- Words stay as long as their bytes do. -/
theorem Mem.Holds.congr {ws : List Word} (hlen : 4 * ws.length < 2 ^ 32)
    (hm : ∀ i : Word, i.toNat < 4 * ws.length → m' (a + i) = m (a + i)) (h : m.Holds a ws) :
    m'.Holds a ws := by
  induction ws generalizing a with
  | nil => trivial
  | cons w ws ih =>
    rw [List.length_cons] at hlen hm
    refine ⟨?_, ih (by omega) (fun i hi => ?_) h.2⟩
    · rw [← h.1]
      exact load_congr fun i hi => hm i (by omega)
    · have hsum := hm (4#32 + i) (by bv_omega)
      rwa [← BitVec.add_assoc] at hsum

/-- `rep movsb` copies a range that it does not write. -/
theorem moveBytes_apply (h₁ : n ≤ (a - d).toNat) (h₂ : n ≤ (d - a).toNat) :
    m.moveBytes 1#32 n d a b = if (b - d).toNat < n then m (a + (b - d)) else m b := by
  induction n generalizing d a m with
  | zero => rfl
  | succ n ih =>
    have hsub₁ : a + 1#32 - (d + 1#32) = a - d := by clear * -; bv_omega
    have hsub₂ : d + 1#32 - (a + 1#32) = d - a := by clear * -; bv_omega
    have hshift : a + 1#32 + (b - (d + 1#32)) = a + (b - d) := by clear * -; bv_omega
    rw [Mem.moveBytes, ih (by rw [hsub₁]; omega) (by rw [hsub₂]; omega), hshift]
    by_cases hb : b = d
    · -- the byte that is moved now, and never again
      subst hb
      simp
    · have hpred : (b - d).toNat = (b - (d + 1#32)).toNat + 1 := by clear * - hb; bv_omega
      have hsrc : (b - d).toNat < n + 1 → a + (b - d) ≠ d := fun hlt heq => by
        have hda : d - a = b - d := by clear * - heq; bv_omega
        rw [hda] at h₂
        omega
      rw [if_neg hb]
      by_cases hlt : (b - d).toNat < n + 1
      · rw [if_pos (by omega), if_neg (hsrc hlt), if_pos hlt]
      · rw [if_neg (by omega), if_neg hlt]

/-- A copy down the stack reads and writes different bytes. -/
theorem moveBytes_down (hc : n ≤ (0#32 - c).toNat ∧ n ≤ c.toNat) :
    m.moveBytes 1#32 n (sp + c) sp b =
      if (b - (sp + c)).toNat < n then m (b - c) else m b := by
  have hsub₁ : sp - (sp + c) = 0#32 - c := by clear * -; bv_omega
  have hsub₂ : sp + c - sp = c := by clear * -; bv_omega
  have hsrc : sp + (b - (sp + c)) = b - c := by clear * -; bv_omega
  rw [moveBytes_apply (by rw [hsub₁]; exact hc.1) (by rw [hsub₂]; exact hc.2), hsrc]

/-- What lies beside the bytes that are written. -/
theorem load_moveBytes_outside (hc : n ≤ (0#32 - c).toNat ∧ n ≤ c.toNat)
    (hd : n ≤ (d - c).toNat ∧ 4 ≤ (c - d).toNat) :
    (m.moveBytes 1#32 n (sp + c) sp).load (sp + d) = m.load (sp + d) :=
  load_congr fun i hi => by
    rw [moveBytes_down hc, if_neg]
    rw [show sp + d + i - (sp + c) = d - c + i by clear * -; bv_omega]
    clear hc
    bv_omega

/-- What has been copied. -/
theorem load_moveBytes_inside (hc : n ≤ (0#32 - c).toNat ∧ n ≤ c.toNat)
    (hd : (d - c).toNat + 4 ≤ n) :
    (m.moveBytes 1#32 n (sp + c) sp).load (sp + d) = m.load (sp + (d - c)) := by
  have hbyte : ∀ i : Word, i.toNat < 4 →
      m.moveBytes 1#32 n (sp + c) sp (sp + d + i) = m (sp + (d - c) + i) := fun i hi => by
    rw [moveBytes_down hc, if_pos]
    · rw [show sp + d + i - c = sp + (d - c) + i by clear * -; bv_omega]
    · rw [show sp + d + i - (sp + c) = d - c + i by clear * -; bv_omega]
      clear hc
      bv_omega
  have h₀ := hbyte 0#32 (by decide)
  rw [BitVec.add_zero, BitVec.add_zero] at h₀
  rw [Mem.load, Mem.load, hbyte 3#32 (by decide), hbyte 2#32 (by decide),
    hbyte 1#32 (by decide), h₀]

/-- `rep movsb` writes nowhere else. -/
theorem moveBytes_of_not_within {k : Nat} (hc : n ≤ (0#32 - c).toNat ∧ n ≤ c.toNat)
    (h : ¬ Within (sp + d) k b) (hd : (c - d).toNat + n ≤ k) :
    m.moveBytes 1#32 n (sp + c) sp b = m b := by
  rw [moveBytes_down hc, if_neg]
  exact not_within_mono h (by
    rw [show sp + c - (sp + d) = c - d by clear * -; bv_omega]
    exact hd)
end

/-! ## The processor -/

/-- The general registers. -/
inductive Reg
  | eax | ecx | edx | ebx | esp | ebp | esi | edi
  deriving DecidableEq

/-- The segment registers other than `CS`. -/
inductive Seg
  | ss | ds | es | fs | gs
  deriving DecidableEq

/-- The state of the processor and its memory. -/
structure Cpu where
  eax : Word
  ecx : Word
  edx : Word
  ebx : Word
  esp : Word
  ebp : Word
  esi : Word
  edi : Word
  ss : Selector
  ds : Selector
  es : Selector
  fs : Selector
  gs : Selector
  cs : Selector
  eip : Word
  eflags : Word
  cr3 : Word
  mem : Mem

/-- The bits of `EFLAGS` that are read or changed by name. -/
def carryFlag : Nat := 0
def zeroFlag : Nat := 6
def directionFlag : Nat := 10

/-- What the entry through an interrupt gate clears: the flags TF, IF, NT, RF and VM. -/
def gateMask : Word := 0x34300#32

/-- The flags after an arithmetic instruction. Of the flags it sets, only these two are read. -/
def arithFlags (w : Word) (carry zero : Bool) : Word :=
  (w &&& ~~~0x41#32) ||| (if carry then 1#32 else 0#32) ||| (if zero then 0x40#32 else 0#32)

/-- The carry flag after an arithmetic instruction. -/
@[simp] theorem arithFlags_carry (w : Word) (carry zero : Bool) :
    (arithFlags w carry zero).getLsbD carryFlag = carry := by
  cases carry <;> cases zero <;> simp [arithFlags, carryFlag]

/-- The zero flag after it. -/
@[simp] theorem arithFlags_zero (w : Word) (carry zero : Bool) :
    (arithFlags w carry zero).getLsbD zeroFlag = zero := by
  cases carry <;> cases zero <;> simp [arithFlags, zeroFlag]

/-- The direction flag stays. -/
@[simp] theorem arithFlags_direction (w : Word) (carry zero : Bool) :
    (arithFlags w carry zero).getLsbD directionFlag = w.getLsbD directionFlag := by
  cases carry <;> cases zero <;> simp [arithFlags, directionFlag]

namespace Cpu

def reg (s : Cpu) : Reg → Word
  | .eax => s.eax
  | .ecx => s.ecx
  | .edx => s.edx
  | .ebx => s.ebx
  | .esp => s.esp
  | .ebp => s.ebp
  | .esi => s.esi
  | .edi => s.edi

def setReg (s : Cpu) (r : Reg) (v : Word) : Cpu :=
  match r with
  | .eax => { s with eax := v }
  | .ecx => { s with ecx := v }
  | .edx => { s with edx := v }
  | .ebx => { s with ebx := v }
  | .esp => { s with esp := v }
  | .ebp => { s with ebp := v }
  | .esi => { s with esi := v }
  | .edi => { s with edi := v }

def seg (s : Cpu) : Seg → Selector
  | .ss => s.ss
  | .ds => s.ds
  | .es => s.es
  | .fs => s.fs
  | .gs => s.gs

def setSeg (s : Cpu) (r : Seg) (v : Selector) : Cpu :=
  match r with
  | .ss => { s with ss := v }
  | .ds => { s with ds := v }
  | .es => { s with es := v }
  | .fs => { s with fs := v }
  | .gs => { s with gs := v }

/-- The current privilege level. -/
def cpl (s : Cpu) : Selector := s.cs &&& 3#16

def push (s : Cpu) (v : Word) : Cpu :=
  { s with esp := s.esp - 4#32, mem := s.mem.store (s.esp - 4#32) v }

/-- Drop the word on top of the stack. -/
def drop (s : Cpu) : Cpu := { s with esp := s.esp + 4#32 }

/-- The word on top of the stack. -/
def top (s : Cpu) : Word := s.mem.load s.esp

end Cpu

/-! ## Instructions -/

/-- The operands that are read: a register, a literal, or the word at a register plus a literal. -/
inductive Operand
  | reg (r : Reg)
  | imm (v : Word)
  | mem (base : Reg) (disp : Word)

/-- The instructions after which the next one runs. -/
inductive Instr
  | push (src : Operand)
  | pushSeg (src : Seg)
  | pop (dst : Reg)
  | popSeg (dst : Seg)
  | pushad
  | popad
  | popfd
  | mov (dst : Reg) (src : Operand)
  | store (base : Reg) (disp : Word) (src : Reg)
  | movFromSeg (dst : Reg) (src : Seg)
  | movToSeg (dst : Seg) (base : Reg) (disp : Word)
  | movToCr3 (src : Reg)
  | lea (dst base : Reg) (disp : Word)
  | leaTable (dst index : Reg) (scale disp : Word)
  | add (dst : Reg) (v : Word)
  | sub (dst : Reg) (v : Word)
  | cmp (a b : Reg)
  | test (a : Reg) (v : Word)
  | repMovsb

/-- The conditions of the jumps: above or equal, zero and not zero. -/
inductive Cond
  | ae | z | nz

/-- A line of a listing. A call names the address to which the called function returns. -/
inductive Line
  | op (i : Instr)
  | label (name : String)
  | jmp (target : String)
  | jcc (c : Cond) (target : String)
  | call (target : Operand) (ret : Word)
  | jmpTo (target : Operand)
  | iret

def Operand.value (s : Cpu) : Operand → Word
  | reg r => s.reg r
  | imm v => v
  | mem base disp => s.mem.load (s.reg base + disp)

def Cond.holds (s : Cpu) : Cond → Bool
  | ae => !s.eflags.getLsbD carryFlag
  | z => s.eflags.getLsbD zeroFlag
  | nz => !s.eflags.getLsbD zeroFlag

/-- `pushad`. -/
def Cpu.pushad (s : Cpu) : Cpu :=
  (((((((s.push s.eax).push s.ecx).push s.edx).push s.ebx).push s.esp).push s.ebp).push
    s.esi).push s.edi

/-- `popad`; the word that `pushad` pushed for `ESP` is dropped. -/
def Cpu.popad (s : Cpu) : Cpu :=
  { s with
    edi := s.mem.load s.esp
    esi := s.mem.load (s.esp + 4#32)
    ebp := s.mem.load (s.esp + 8#32)
    ebx := s.mem.load (s.esp + 16#32)
    edx := s.mem.load (s.esp + 20#32)
    ecx := s.mem.load (s.esp + 24#32)
    eax := s.mem.load (s.esp + 28#32)
    esp := s.esp + 32#32 }

/-- `rep movsb`. -/
def Cpu.repMovsb (s : Cpu) : Cpu :=
  let d : Word := if s.eflags.getLsbD directionFlag then -1#32 else 1#32
  { s with
    mem := s.mem.moveBytes d s.ecx.toNat s.edi s.esi
    edi := s.edi + d * s.ecx
    esi := s.esi + d * s.ecx
    ecx := 0#32 }

/-- The state after an instruction. -/
def Instr.step (s : Cpu) : Instr → Cpu
  | push src => s.push (src.value s)
  | pushSeg src => s.push ((s.seg src).setWidth 32)
  | pop dst => s.drop.setReg dst s.top
  | popSeg dst => s.drop.setSeg dst (s.top.setWidth 16)
  | pushad => s.pushad
  | popad => s.popad
  | popfd => { s.drop with eflags := s.top }
  | mov dst src => s.setReg dst (src.value s)
  | store base disp src => { s with mem := s.mem.store (s.reg base + disp) (s.reg src) }
  | movFromSeg dst src => s.setReg dst ((s.seg src).setWidth 32)
  | movToSeg dst base disp => s.setSeg dst ((s.mem.load (s.reg base + disp)).setWidth 16)
  | movToCr3 src => { s with cr3 := s.reg src }
  | lea dst base disp => s.setReg dst (s.reg base + disp)
  | leaTable dst index scale disp => s.setReg dst (scale * s.reg index + disp)
  | add dst v =>
    let sum := s.reg dst + v
    { s.setReg dst sum with
      eflags := arithFlags s.eflags ((s.reg dst).uaddOverflow v) (sum == 0#32) }
  | sub dst v =>
    let difference := s.reg dst - v
    { s.setReg dst difference with
      eflags := arithFlags s.eflags ((s.reg dst).ult v) (difference == 0#32) }
  | cmp a b =>
    { s with eflags := arithFlags s.eflags ((s.reg a).ult (s.reg b)) (s.reg a == s.reg b) }
  | test a v => { s with eflags := arithFlags s.eflags false (s.reg a &&& v == 0#32) }
  | repMovsb => s.repMovsb

/-- `iret`: the instruction pointer, the code segment and the flags are popped, and on a return to
an outer privilege level the stack pointer and the stack segment too. -/
def Cpu.iret (s : Cpu) : Cpu :=
  let cs := (s.mem.load (s.esp + 4#32)).setWidth 16
  let s' := { s with eip := s.top, cs, eflags := s.mem.load (s.esp + 8#32), esp := s.esp + 12#32 }
  if s.cpl < cs &&& 3#16 then
    { s' with esp := s.mem.load (s.esp + 12#32), ss := (s.mem.load (s.esp + 16#32)).setWidth 16 }
  else s'

/-- Run a listing, with `fn` for the functions that are called, from their entry to their return.
While a jump is under way, `target` is its label. The result is the state in which `iret` or a jump
through an operand leaves the listing. -/
def exec (fn : Word → Cpu → Cpu) : List Line → Option String → Cpu → Option Cpu
  | [], _, _ => none
  | .label l :: rest, some target, s =>
    exec fn rest (if l = target then none else some target) s
  | _ :: rest, some target, s => exec fn rest (some target) s
  | .op i :: rest, none, s => exec fn rest none (i.step s)
  | .label _ :: rest, none, s => exec fn rest none s
  | .jmp l :: rest, none, s => exec fn rest (some l) s
  | .jcc c l :: rest, none, s => exec fn rest (if c.holds s then some l else none) s
  | .call f ret :: rest, none, s => exec fn rest none (fn (f.value s) (s.push ret))
  | .jmpTo f :: _, none, s => some { s with eip := f.value s }
  | .iret :: _, none, s => some s.iret

/-! ## Interrupts -/

/-- What an interrupt finds in its gate and in the task state segment. -/
structure Gate where
  selector : Selector
  offset : Word
  ss0 : Selector
  esp0 : Word

/-- The entry of an interrupt through an interrupt gate to the kernel. From an outer privilege level
the stack is switched, and its old place is pushed. -/
def Cpu.interrupt (s : Cpu) (g : Gate) : Cpu :=
  let s₁ :=
    if s.cpl = 0#16 then s
    else
      ({ s with esp := g.esp0, ss := g.ss0 }.push (s.ss.setWidth 32)).push s.esp
  let s₂ := ((s₁.push s.eflags).push (s.cs.setWidth 32)).push s.eip
  { s₂ with cs := g.selector, eip := g.offset, eflags := s.eflags &&& ~~~gateMask }

/-- The words that the entry of an interrupt leaves on the stack of the kernel. -/
def Cpu.interruptFrame (s : Cpu) : List Word :=
  [s.eip, s.cs.setWidth 32, s.eflags] ++ if s.cpl = 0#16 then [] else [s.esp, s.ss.setWidth 32]

/-- The place of the stack of the kernel before the entry of an interrupt. -/
def Cpu.kernelStack (s : Cpu) (g : Gate) : Word := if s.cpl = 0#16 then s.esp else g.esp0

/-- The entry of an exception that pushes an error code. -/
def Cpu.exception (s : Cpu) (g : Gate) (errorCode : Word) : Cpu := (s.interrupt g).push errorCode

/-! ## Compiled functions -/

/-- How a compiled function returns to its caller: the return address is popped, the registers that
belong to the caller are as they were, and so are the bytes in `kept`. -/
structure Returns (kept : Word → Prop) (s s' : Cpu) : Prop where
  esp : s'.esp = s.esp + 4#32
  ebp : s'.ebp = s.ebp
  ebx : s'.ebx = s.ebx
  esi : s'.esi = s.esi
  edi : s'.edi = s.edi
  ss : s'.ss = s.ss
  ds : s'.ds = s.ds
  es : s'.es = s.es
  fs : s'.fs = s.fs
  gs : s'.gs = s.gs
  cs : s'.cs = s.cs
  mem : ∀ a, kept a → s'.mem a = s.mem a
  direction : s'.eflags.getLsbD directionFlag = s.eflags.getLsbD directionFlag

/-! ## Running a listing -/

/-- Consecutive instructions. -/
def steps : List Instr → Cpu → Cpu
  | [], s => s
  | i :: is, s => steps is (i.step s)

section

variable {fn : Word → Cpu → Cpu} {s u v : Cpu} {g : Gate} {m : Mem} {a : Word} {ws : List Word}

/-- Plain instructions run one after the other. -/
theorem exec_ops (is : List Instr) (rest : List Line) (s : Cpu) :
    exec fn (is.map .op ++ rest) none s = exec fn rest none (steps is s) := by
  induction is generalizing s with
  | nil => rfl
  | cons i is ih => exact ih (i.step s)

/-- A call runs the function, with the return address pushed. -/
theorem exec_call (f : Operand) (ret : Word) (rest : List Line) (s : Cpu) :
    exec fn (.call f ret :: rest) none s = exec fn rest none (fn (f.value s) (s.push ret)) := rfl

/-- A conditional jump goes to its label, or on. -/
theorem exec_jcc (c : Cond) (l : String) (rest : List Line) (s : Cpu) :
    exec fn (.jcc c l :: rest) none s = exec fn rest (if c.holds s then some l else none) s := rfl

/-- A jump passes over the instructions before its label. -/
theorem exec_skip_ops (is : List Instr) (l : String) (rest : List Line) (s : Cpu) :
    exec fn (is.map .op ++ rest) (some l) s = exec fn rest (some l) s := by
  induction is with
  | nil => rfl
  | cons i is ih => exact ih

/-- A label that is passed. -/
theorem exec_label (l : String) (rest : List Line) (s : Cpu) :
    exec fn (.label l :: rest) none s = exec fn rest none s := rfl

/-- A label that was jumped to. -/
theorem exec_label_target (l : String) (rest : List Line) (s : Cpu) :
    exec fn (.label l :: rest) (some l) s = exec fn rest none s := by
  rw [exec, if_pos rfl]

/-- The words in the bytes that a called function keeps. -/
theorem Returns.holds {lo : Word} {n : Nat} (h : Returns (Within lo n) u v) (hn : n < 2 ^ 32)
    (ha : (a - lo).toNat + 4 * ws.length ≤ n) (hws : u.mem.Holds a ws) : v.mem.Holds a ws :=
  hws.congr (by omega) fun i hi => h.mem _ (by
    unfold Within
    bv_omega)

/-- A compiled function returns some results, and nothing else of the registers changes. -/
theorem Returns.eq {kept : Word → Prop} (h : Returns kept u v) :
    v = { u with
      eax := v.eax
      ecx := v.ecx
      edx := v.edx
      esp := u.esp + 4#32
      eip := v.eip
      eflags := v.eflags
      cr3 := v.cr3
      mem := v.mem } := by
  obtain ⟨hesp, hebp, hebx, hesi, hedi, hss, hds, hes, hfs, hgs, hcs, -, -⟩ := h
  rw [← hesp, ← hebp, ← hebx, ← hesi, ← hedi, ← hss, ← hds, ← hes, ← hfs, ← hgs, ← hcs]

/-! ### Interrupts and their end -/

/-- The entry of an interrupt that finds the processor in the kernel. -/
theorem interrupt_of_kernel (hcpl : s.cpl = 0#16) :
    s.interrupt g = { s with
      esp := s.esp - 12#32
      cs := g.selector
      eip := g.offset
      eflags := s.eflags &&& ~~~gateMask
      mem := ((s.mem.store (s.esp - 4#32) s.eflags).store (s.esp - 8#32)
        (s.cs.setWidth 32)).store (s.esp - 12#32) s.eip } := by
  simp [Cpu.interrupt, hcpl, Cpu.push, BitVec.sub_eq_add_neg, BitVec.add_assoc]

/-- The entry of an interrupt from an outer privilege level. -/
theorem interrupt_of_user (hcpl : s.cpl ≠ 0#16) :
    s.interrupt g = { s with
      esp := g.esp0 - 20#32
      ss := g.ss0
      cs := g.selector
      eip := g.offset
      eflags := s.eflags &&& ~~~gateMask
      mem := ((((s.mem.store (g.esp0 - 4#32) (s.ss.setWidth 32)).store (g.esp0 - 8#32)
        s.esp).store (g.esp0 - 12#32) s.eflags).store (g.esp0 - 16#32)
        (s.cs.setWidth 32)).store (g.esp0 - 20#32) s.eip } := by
  simp [Cpu.interrupt, hcpl, Cpu.push, BitVec.sub_eq_add_neg, BitVec.add_assoc]

/-- The entry into an interrupt keeps the general registers. -/
@[simp] theorem interrupt_ebp : (s.interrupt g).ebp = s.ebp := by
  rw [Cpu.interrupt]
  split <;> rfl

@[simp] theorem interrupt_eax : (s.interrupt g).eax = s.eax := by
  rw [Cpu.interrupt]
  split <;> rfl

@[simp] theorem interrupt_ebx : (s.interrupt g).ebx = s.ebx := by
  rw [Cpu.interrupt]
  split <;> rfl

@[simp] theorem interrupt_esi : (s.interrupt g).esi = s.esi := by
  rw [Cpu.interrupt]
  split <;> rfl

@[simp] theorem interrupt_edi : (s.interrupt g).edi = s.edi := by
  rw [Cpu.interrupt]
  split <;> rfl

/-- An interrupt keeps the direction of the moves. -/
theorem interrupt_directionFlag :
    (s.interrupt g).eflags.getLsbD directionFlag = s.eflags.getLsbD directionFlag := by
  simp [Cpu.interrupt, gateMask, directionFlag]

/-- The code segment in the frame tells from which privilege level the interrupt came. -/
theorem cs_frame_test : (s.cs.setWidth 32 &&& 3#32 == 0#32) = decide (s.cpl = 0#16) := by
  have hword : (s.cs.setWidth 32 &&& 3#32).toNat = s.cpl.toNat := by
    rw [Cpu.cpl, BitVec.toNat_and, BitVec.toNat_and, BitVec.toNat_setWidth_of_le (by decide)]
    rfl
  rw [Bool.eq_iff_iff, beq_iff_eq, decide_eq_true_iff, ← BitVec.toNat_inj, ← BitVec.toNat_inj,
    hword]
  rfl

/-- An interrupt pushes five words at most. -/
theorem length_interruptFrame_le : s.interruptFrame.length ≤ 5 := by
  rw [Cpu.interruptFrame]
  split <;> simp

/-- The entry of an interrupt pushes its frame on the stack of the kernel, and writes nowhere
else. -/
theorem interrupt_frame :
    (s.interrupt g).esp = s.kernelStack g - BitVec.ofNat 32 (4 * s.interruptFrame.length) ∧
      (s.interrupt g).mem.Holds (s.interrupt g).esp s.interruptFrame ∧
      ∀ b, ¬ Within (s.kernelStack g - 20#32) 20 b → (s.interrupt g).mem b = s.mem b := by
  by_cases hcpl : s.cpl = 0#16
  · rw [interrupt_of_kernel hcpl]
    simp only [Cpu.kernelStack, Cpu.interruptFrame, hcpl, if_true, BitVec.sub_eq_add_neg,
      BitVec.reduceNeg]
    refine ⟨rfl, ?_, fun b hb => ?_⟩
    · simp [Mem.Holds, BitVec.add_assoc, load_store_self, load_store_of_far, far_add_add]
    · simp [store_of_not_within hb]
  · rw [interrupt_of_user hcpl]
    simp only [Cpu.kernelStack, Cpu.interruptFrame, hcpl, if_false, BitVec.sub_eq_add_neg,
      BitVec.reduceNeg]
    refine ⟨rfl, ?_, fun b hb => ?_⟩
    · simp [Mem.Holds, BitVec.add_assoc, load_store_self, load_store_of_far, far_add_add]
    · simp [store_of_not_within hb]

/-- What the entry of an interrupt left on the stack, `iret` undoes. -/
theorem iret_interrupt {p e c : Word} (hsel : g.selector &&& 3#16 = 0#16)
    (hframe : m.Holds (s.interrupt g).esp s.interruptFrame) :
    ({ s.interrupt g with eip := p, eflags := e, cr3 := c, mem := m } : Cpu).iret =
      { s with cr3 := c, mem := m } := by
  by_cases hcpl : s.cpl = 0#16
  · rw [interrupt_of_kernel hcpl] at hframe ⊢
    simp [Cpu.interruptFrame, hcpl, Mem.Holds, BitVec.sub_eq_add_neg, BitVec.add_assoc] at hframe
    rw [Cpu.cpl] at hcpl
    simp [Cpu.iret, Cpu.cpl, Cpu.top, BitVec.sub_eq_add_neg, BitVec.add_assoc, hsel, hcpl, hframe]
  · rw [interrupt_of_user hcpl] at hframe ⊢
    simp [Cpu.interruptFrame, hcpl, Mem.Holds, BitVec.sub_eq_add_neg, BitVec.add_assoc] at hframe
    have hlt : 0#16 < s.cs &&& 3#16 := (BitVec.pos_iff_ne_zero _).2 hcpl
    simp [Cpu.iret, Cpu.cpl, Cpu.top, BitVec.sub_eq_add_neg, BitVec.add_assoc, hsel, hlt, hframe]

/-- The registers in which the results of a call are returned pass through `iret`. -/
theorem iret_interrupt_results {p e c a₁ a₂ a₃ : Word} {m : Mem} (hsel : g.selector &&& 3#16 = 0#16)
    (hframe : m.Holds (s.interrupt g).esp s.interruptFrame) :
    ({ s.interrupt g with
        eax := a₁, ecx := a₂, edx := a₃, eip := p, eflags := e, cr3 := c, mem := m } : Cpu).iret =
      { s with eax := a₁, ecx := a₂, edx := a₃, cr3 := c, mem := m } := by
  have hregs : ({ s with eax := a₁, ecx := a₂, edx := a₃ } : Cpu).interrupt g =
      { s.interrupt g with eax := a₁, ecx := a₂, edx := a₃ } := by
    unfold Cpu.interrupt Cpu.cpl
    split <;> rfl
  have hiret := iret_interrupt (s := { s with eax := a₁, ecx := a₂, edx := a₃ }) (p := p) (e := e)
    (c := c) hsel (by rw [hregs]; exact hframe)
  rwa [hregs] at hiret

end

end MeghaOS.X86
