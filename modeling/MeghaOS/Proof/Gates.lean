import MeghaOS.Proof.Pic
import MeghaOS.Proof.Ps2

/-!
# From the interrupt controllers to the gates

`kernel_main` sets up the interrupt table and the controllers, and each driver that is started adds
a gate and enables its line. In every run of these steps, on any other hardware, an interrupt that
the controllers pass on is spurious or of a line whose driver's last start succeeded, and its gate
leads to its handler (`irq_run_gated`); and a program can use the gates of the system calls only
(`irq_run_user_gates`).
-/

namespace MeghaOS

open Exec

variable {ρ : Type} {lines : Nat → BitVec 8 × BitVec 8} {rest : Device ρ} {δ : Type}
  {d : Device δ} {asm : AsmHandlers} {debug : Bool} {irq n port turns : Nat} {u : Unit}
  {v : BitVec 8}

variable {s s' : PcState ((PicPair × Nat) × ρ)}

/-! ## Programs that leave the controllers and the table alone -/

/-- The controllers without their requests, and the interrupt table. -/
def PcState.gates (s : PcState ((PicPair × Nat) × ρ)) : PicPair × (Int → IdtDescriptor) :=
  (s.pics, s.idt)

/-- The table is no part of the hardware. -/
theorem onBus_keepsIdt {α : Type} {x : Exec δ α} :
    Fixes PcState.idt (onBus x : Exec (PcState δ) α) := onBus_fixes fun _ _ => rfl

/-- A program that changes neither the controllers nor the table. -/
abbrev KeepsGates {α : Type} (x : Exec (PcState ((PicPair × Nat) × ρ)) α) : Prop :=
  Fixes PcState.gates x

/-- Controllers and table are left alone each on its own. -/
theorem keepsGates_of {α : Type} {x : Exec (PcState ((PicPair × Nat) × ρ)) α}
    (hpics : KeepsPics x) (hidt : Fixes PcState.idt x) : KeepsGates x :=
  fun s a s' hrun => Prod.ext (hpics s a s' hrun) (hidt s a s' hrun)

/-- Polling a port that is not the controllers'. -/
theorem poll_keepsGates {ready : BitVec 8 → Bool} (hport : PicPair.owns port = false) :
    KeepsGates (onBus ((picBus lines rest).poll port ready n)) :=
  keepsGates_of (poll_keepsPics hport) onBus_keepsIdt

/-- Reading a port. -/
theorem inb_keepsGates : KeepsGates (inb (picBus lines rest) port) :=
  keepsGates_of inb_keepsPics onBus_keepsIdt

/-- Writing to a port that is not the controllers'. -/
theorem outb_keepsGates (hport : PicPair.owns port = false) :
    KeepsGates (outb (picBus lines rest) port v) :=
  keepsGates_of (outb_keepsPics hport) onBus_keepsIdt

/-- Setting the error number. -/
theorem pcReturnError_keepsGates {α : Type} {e : KernelErrorCodes} {a : α} :
    KeepsGates (pcReturnError e a : Exec (PcState ((PicPair × Nat) × ρ)) α) :=
  .bind (.modify fun _ => rfl) fun _ => .pure _

/-- `ps2_wait_read`. -/
theorem ps2WaitRead_keepsGates : KeepsGates (ps2WaitRead (picBus lines rest) port) :=
  .bind (poll_keepsGates (by decide)) fun _ =>
    .ite pcReturnError_keepsGates (.bind inb_keepsGates fun _ => .pure _)

/-- The ports of the PS/2 controller are not those of the interrupt controllers. -/
theorem owns_of_isPs2Port (hport : IsPs2Port port) : PicPair.owns port = false := by
  rcases hport with rfl | rfl | rfl <;> decide

/-- `ps2_wait_write`. -/
theorem ps2WaitWrite_keepsGates (hport : IsPs2Port port) :
    KeepsGates (ps2WaitWrite (picBus lines rest) port v) :=
  .bind (poll_keepsGates (by decide)) fun _ =>
    .ite pcReturnError_keepsGates
      (.bind (outb_keepsGates (owns_of_isPs2Port hport)) fun _ => .pure _)

/-- The loop of `ps2_init` that empties the output buffer. -/
theorem ps2Flush_keepsGates : KeepsGates (ps2Flush (picBus lines rest) turns) := by
  induction turns with
  | zero => exact .halt _
  | succ turns ih =>
    exact .bind (poll_keepsGates (by decide)) fun _ =>
      .ite (.bind inb_keepsGates fun _ => ih) (.pure _)

/-- The drivers of the PS/2 devices leave the controllers and the table alone. -/
def gatesLogic (lines : Nat → BitVec 8 × BitVec 8) (rest : Device ρ) :
    WaitLogic (picBus lines rest) where
  Holds _ x := KeepsGates x
  mono hx _ := hx
  of_fixes hx := hx.comp fun p : ((PicPair × Nat) × ρ) × (Int → IdtDescriptor) =>
    (p.1.1.1.quiet, p.2)
  seq hx hg _ := hx.bind hg
  canRead := poll_keepsGates (by decide)
  waitRead := ps2WaitRead_keepsGates
  waitWrite hport := ps2WaitWrite_keepsGates hport
  flush := ps2Flush_keepsGates

/-- `ps2_init`. -/
theorem ps2Init_keepsGates : KeepsGates (ps2Init (picBus lines rest) turns) :=
  (gatesLogic lines rest).init

/-! ## The start of a driver -/

/-- A table with one entry replaced. -/
def withGate (idt : Int → IdtDescriptor) (vector : Int) (gate : IdtDescriptor) :
    Int → IdtDescriptor := fun i => if i = vector then gate else idt i

/-- The last steps of a driver's start: it returns `false` and has changed neither the controllers
nor the table, or it has set the gate, enables the line and returns `true`. -/
def Starts (lines : Nat → BitVec 8 × BitVec 8) (rest : Device ρ) (irq : Nat) (vector : Int)
    (gate : IdtDescriptor) (x : Exec (PcState ((PicPair × Nat) × ρ)) Bool) : Prop :=
  ∀ s b s', x s = .ok (b, s') →
    b = false ∧ s'.gates = s.gates ∨
    b = true ∧ ∃ s₁ : PcState ((PicPair × Nat) × ρ),
      s₁.gates = (s.gates.1, withGate s.gates.2 vector gate) ∧
        picEnableDisableIrq (picBus lines rest) irq true s₁ = .ok ((), s')

namespace Starts

variable {α : Type} {vector : Int} {gate : IdtDescriptor} {e : KernelErrorCodes}
  {x y : Exec (PcState ((PicPair × Nat) × ρ)) Bool}
  {z : Exec (PcState ((PicPair × Nat) × ρ)) α}
  {g : α → Exec (PcState ((PicPair × Nat) × ρ)) Bool}

/-- A driver that returns `false` at once. -/
theorem no : Starts lines rest irq vector gate (pure false) := by
  intro s b s' hrun
  cases hrun
  exact .inl ⟨rfl, rfl⟩

/-- The same with an error number. -/
theorem error : Starts lines rest irq vector gate (pcReturnError e false) := by
  intro s b s' hrun
  obtain ⟨rfl, rfl⟩ := pcReturnError_eq_ok.1 hrun
  exact .inl ⟨rfl, rfl⟩

/-- A driver that starts on either branch. -/
theorem ite {c : Prop} [Decidable c] (hx : Starts lines rest irq vector gate x)
    (hy : Starts lines rest irq vector gate y) :
    Starts lines rest irq vector gate (if c then x else y) := by
  split <;> assumption

/-- What goes before the last steps may change neither the controllers nor the table. -/
theorem after (hz : KeepsGates z) (hg : ∀ a, Starts lines rest irq vector gate (g a)) :
    Starts lines rest irq vector gate (z >>= g) := by
  intro s b s' hrun
  obtain ⟨a, s₁, hrun₁, hrun₂⟩ := bind_eq_ok.1 hrun
  have hcases := hg a s₁ b s' hrun₂
  rwa [hz s a s₁ hrun₁] at hcases

/-- The last steps of a start that succeeds. -/
theorem gate_and_enable {func : BitVec 32} {segSelector : BitVec 16} {type : Nat}
    {dpl : BitVec 8} :
    Starts lines rest irq vector (idtDescriptor func segSelector type dpl) (do
      kidtEdit vector func segSelector type dpl
      picEnableDisableIrq (picBus lines rest) irq true
      return true) := by
  intro s b s' hrun
  rw [kidtEdit, modify_bind_apply] at hrun
  obtain ⟨_, s₂, henable, hpure⟩ := bind_eq_ok.1 hrun
  cases hpure
  exact .inr ⟨rfl, _, rfl, henable⟩

end Starts

/-- The handler that a vector is for: the exceptions by the processor's numbers, the lines of the
interrupt controllers from 0x20 on, and the two vectors of system calls. -/
def AsmHandlers.ofVector (asm : AsmHandlers) : Nat → BitVec 32
  | 0 => asm.divZero
  | 3 => asm.breakpoint
  | 6 => asm.invalidOpcode
  | 8 => asm.doubleFault
  | 13 => asm.generalProtectionFault
  | 14 => asm.pageFault
  | 0x20 => asm.timerInterrupt
  | 0x21 => asm.kbInterrupt
  | 0x27 => asm.irq7
  | 0x2C => asm.ps2MouseInterrupt
  | 0x2F => asm.irq15
  | 0x40 => asm.sysDummy
  | 0x50 => asm.syscallAsmDespatcher
  | _ => 0

/-- The gate of a vector's handler. -/
def asmGate (asm : AsmHandlers) (vector : Nat) (dpl : BitVec 8) : IdtDescriptor :=
  idtDescriptor (asm.ofVector vector) (.ofNat 16 gdtSelectorKcode) idtDesType32InterruptGate dpl

/-- What the processor makes of a gate: it leads to a handler in the kernel's code segment, with
interrupts disabled, and programs of a privilege level may use it. -/
structure IdtDescriptor.LeadsTo (x : IdtDescriptor) (func : BitVec 32) (dpl : BitVec 2) :
    Prop where
  present : x.p = 1
  type : x.type = 0xE
  selector : x.segmentSelector = .ofNat 16 gdtSelectorKcode
  offset : x.offsetHigh ++ x.offsetLow = func
  dpl : x.dpl = dpl

/-- The halves of a handler's address are put together again. -/
theorem offset_halves (func : BitVec 32) :
    ((func >>> 16).setWidth 16 &&& 0xFFFF#16) ++ (func &&& 0xFFFF#32).setWidth 16 = func := by
  have hhigh : (func >>> 16).setWidth 16 &&& 0xFFFF#16 = (func >>> 16).setWidth 16 :=
    BitVec.and_allOnes
  have hlow : (func &&& 0xFFFF#32).setWidth 16 = func.setWidth 16 := by
    rw [BitVec.setWidth_and]
    exact BitVec.and_allOnes
  rw [hhigh, hlow]
  apply BitVec.eq_of_getLsbD_eq
  intro i hi
  rw [BitVec.getLsbD_append]
  by_cases hi16 : i < 16
  · simp [hi16]
  · have hrest : i - 16 < 16 := by omega
    have hsum : 16 + (i - 16) = i := by omega
    simp [hi16, hrest, hsum]

/-- The gate of a vector leads to the vector's handler. -/
theorem asmGate_leadsTo {vector : Nat} {dpl : BitVec 8} :
    (asmGate asm vector dpl).LeadsTo (asm.ofVector vector) ((dpl &&& 3#8).setWidth 2) where
  present := rfl
  type := rfl
  selector := rfl
  offset := offset_halves (asm.ofVector vector)
  dpl := rfl

/-- The start of the mouse disables the line first. -/
theorem ps2MouseInit_starts {stale : BitVec 8} {b : Bool}
    (hrun : ps2MouseInit (picBus lines rest) stale asm.ps2MouseInterrupt s = .ok (b, s')) :
    ∃ s₁, picEnableDisableIrq (picBus lines rest) picIrqPs2Mouse false s = .ok ((), s₁) ∧
      (b = false ∧ s'.gates = s₁.gates ∨
        b = true ∧ ∃ s₂ : PcState ((PicPair × Nat) × ρ),
          s₂.gates = (s₁.gates.1, withGate s₁.gates.2 0x2C (asmGate asm 0x2C 0)) ∧
            picEnableDisableIrq (picBus lines rest) picIrqPs2Mouse true s₂ = .ok ((), s')) := by
  obtain ⟨_, s₁, hdisable, hrun⟩ := bind_eq_ok.1 hrun
  refine ⟨s₁, hdisable, ?_⟩
  suffices h : Starts lines rest picIrqPs2Mouse 0x2C (asmGate asm 0x2C 0) _ from
    h s₁ b s' hrun
  refine .after (gatesLogic lines rest).ismouse fun _ => .ite .no ?_
  refine .after (gatesLogic lines rest).writeWaitAck fun _ => .ite .no ?_
  refine .after (gatesLogic lines rest).writeWaitAck fun _ => .ite .no ?_
  refine .after (gatesLogic lines rest).writeWaitAck fun _ => .ite .no ?_
  refine .after (gatesLogic lines rest).writeWaitAck fun _ => .ite .no ?_
  refine .after (gatesLogic lines rest).getMouseState fun state => ?_
  refine .after (.modify fun _ => rfl) fun _ => .ite .error ?_
  exact .after (gatesLogic lines rest).configuration fun _ => .gate_and_enable

/-- So does that of the keyboard. -/
theorem ps2KbInit_starts {stale : BitVec 8} {b : Bool}
    (hrun : ps2KbInit (picBus lines rest) stale asm.kbInterrupt s = .ok (b, s')) :
    ∃ s₁, picEnableDisableIrq (picBus lines rest) picIrqKeyboard false s = .ok ((), s₁) ∧
      (b = false ∧ s'.gates = s₁.gates ∨
        b = true ∧ ∃ s₂ : PcState ((PicPair × Nat) × ρ),
          s₂.gates = (s₁.gates.1, withGate s₁.gates.2 0x21 (asmGate asm 0x21 0)) ∧
            picEnableDisableIrq (picBus lines rest) picIrqKeyboard true s₂ = .ok ((), s')) := by
  obtain ⟨_, s₁, hdisable, hrun⟩ := bind_eq_ok.1 hrun
  refine ⟨s₁, hdisable, ?_⟩
  suffices h : Starts lines rest picIrqKeyboard 0x21 (asmGate asm 0x21 0) _ from
    h s₁ b s' hrun
  refine .after (gatesLogic lines rest).iskeyboard fun _ => .ite .no ?_
  refine .after (gatesLogic lines rest).writeWaitAck fun _ => .ite .no ?_
  refine .after (gatesLogic lines rest).writeWaitAck fun _ => .ite .no ?_
  exact .after (gatesLogic lines rest).configuration fun _ => .gate_and_enable

/-! ## The table of the kernel -/

/-- Programs enter the kernel with `int` through two gates only. -/
def gateDpl (vector : Nat) : BitVec 8 := if vector = 0x40 ∨ vector = 0x50 then 3 else 0

/-- A table that holds the kernel's gates of certain vectors, and no others. -/
def HasGates (asm : AsmHandlers) (vectors : List Nat) (idt : Int → IdtDescriptor) : Prop :=
  ∀ vector : Nat, vector < 256 →
    idt vector = if vector ∈ vectors then asmGate asm vector (gateDpl vector) else .zero

/-- Only the set of the vectors matters. -/
theorem HasGates.congr {vectors others : List Nat} {idt : Int → IdtDescriptor}
    (h : HasGates asm vectors idt) (hmem : ∀ v, v ∈ others ↔ v ∈ vectors) :
    HasGates asm others idt := by
  intro vector hvector
  rw [h vector hvector]
  exact if_congr (hmem vector).symm rfl rfl

/-- Another gate of the kernel is one more vector. -/
theorem HasGates.withGate {vectors : List Nat} {idt : Int → IdtDescriptor}
    (h : HasGates asm vectors idt) (vector : Nat) :
    HasGates asm (vector :: vectors)
      (withGate idt vector (asmGate asm vector (gateDpl vector))) := by
  intro i hi
  by_cases heq : i = vector
  · subst heq
    simp [MeghaOS.withGate]
  · have hne : ¬ (i : Int) = vector := fun hcast => heq (Int.ofNat_inj.1 hcast)
    rw [MeghaOS.withGate, if_neg hne, h i hi]
    simp [heq]

/-- A program that adds the kernel's gates of certain vectors to the table. -/
def AddsGates {α : Type} (asm : AsmHandlers) (vectors : List Nat) (x : Exec (PcState δ) α) :
    Prop :=
  ∀ s a s', x s = .ok (a, s') → ∀ others, HasGates asm others s.idt →
    HasGates asm (vectors ++ others) s'.idt

namespace AddsGates

variable {α β : Type} {vectors others : List Nat} {vector : Nat} {func : BitVec 32}
  {dpl : BitVec 8} {x : Exec (PcState δ) α} {g : α → Exec (PcState δ) β}

/-- Two programs add the gates of both. -/
theorem bind (hx : AddsGates asm vectors x) (hg : ∀ a, AddsGates asm others (g a)) :
    AddsGates asm (vectors ++ others) (x >>= g) := by
  intro s b s' hrun ws h
  obtain ⟨a, s₁, hrun₁, hrun₂⟩ := bind_eq_ok.1 hrun
  refine (hg a s₁ b s' hrun₂ _ (hx s a s₁ hrun₁ ws h)).congr fun v => ?_
  simp only [List.mem_append]
  tauto

/-- A step that leaves the table alone, and what follows. -/
theorem free (hx : Fixes PcState.idt x) (hg : ∀ a, AddsGates asm others (g a)) :
    AddsGates asm others (x >>= g) := by
  have hfree : AddsGates asm [] x := fun s a s' hrun ws h => by
    rw [hx s a s' hrun]
    exact h
  exact bind hfree hg

/-- `kidt_edit`, as `kernel_main` calls it for a vector and its handler. -/
theorem setGate (hfunc : func = asm.ofVector vector) (hdpl : dpl = gateDpl vector) :
    AddsGates asm [vector] (setGate vector func dpl : Exec (PcState δ) Unit) := by
  intro s u s' hrun ws h
  cases hrun
  rw [hfunc, hdpl]
  exact h.withGate vector

/-- The same, and what follows. -/
theorem setGate_bind {g : Unit → Exec (PcState δ) β} (hfunc : func = asm.ofVector vector)
    (hdpl : dpl = gateDpl vector) (hg : ∀ a, AddsGates asm others (g a)) :
    AddsGates asm (vector :: others) (MeghaOS.setGate vector func dpl >>= g) :=
  bind (setGate hfunc hdpl) hg

/-- A program that may be left out. -/
theorem when {c : Prop} [Decidable c] {x : Exec (PcState δ) Unit} (hx : AddsGates asm vectors x) :
    AddsGates asm (if c then vectors else []) (Exec.when c x) := by
  by_cases hc : c
  · rwa [when_true hc, if_pos hc]
  · rw [when_false hc, if_neg hc]
    intro s a s' hrun ws h
    cases hrun
    exact h

end AddsGates

/-- Writing to a port leaves the table alone. -/
theorem outb_keepsIdt : Fixes PcState.idt (outb d port v) := onBus_keepsIdt

/-- So does reading one. -/
theorem inb_keepsIdt : Fixes PcState.idt (inb d port) := onBus_keepsIdt

/-- And writing with a delay. -/
theorem outbDelay_keepsIdt : Fixes PcState.idt (outbDelay d port v) :=
  .bind outb_keepsIdt fun _ => outb_keepsIdt

/-- `pic_init`. -/
theorem picInit_keepsIdt {masterVectorStart slaveVectorStart : BitVec 8} :
    Fixes PcState.idt (picInit d masterVectorStart slaveVectorStart) := by
  refine .bind (.lift _) fun _ => .bind (.lift _) fun _ => ?_
  refine .bind outbDelay_keepsIdt fun _ => .bind outbDelay_keepsIdt fun _ => ?_
  refine .bind outbDelay_keepsIdt fun _ => .bind outbDelay_keepsIdt fun _ => ?_
  refine .bind outbDelay_keepsIdt fun _ => .bind outbDelay_keepsIdt fun _ => ?_
  refine .bind outbDelay_keepsIdt fun _ => .bind outbDelay_keepsIdt fun _ => ?_
  exact .bind outbDelay_keepsIdt fun _ => outbDelay_keepsIdt

/-- `kidt_init` leaves no gate. -/
theorem kidtInit_hasGates {s s' : PcState δ} (hrun : kidtInit s = .ok (u, s')) :
    HasGates asm [] s'.idt := by
  cases hrun
  intro vector hvector
  have hrange : (0 : Int) ≤ vector ∧ (vector : Int) < maxIdtDescCount := by
    rw [maxIdtDescCount]
    omega
  simp [hrange]

/-- The vectors of the gates that `kernel_main` sets. -/
def kernelVectors (debug : Bool) : List Nat :=
  0 :: 8 :: 14 :: 13 :: ((if debug = true then [3, 6] else []) ++ [0x40, 0x50, 0x20, 0x27, 0x2F])

/-- `kernel_main` sets the gates of its vectors, each to the vector's handler. -/
theorem kernelMainInterrupts_hasGates {s s' : PcState δ}
    (hrun : kernelMainInterrupts d debug asm s = .ok (u, s')) :
    HasGates asm (kernelVectors debug) s'.idt := by
  obtain ⟨_, s₁, hinit, hrun⟩ := bind_eq_ok.1 hrun
  have hdebug : AddsGates asm [3, 6] (setDebugGates asm : Exec (PcState δ) Unit) :=
    .setGate_bind rfl rfl fun _ => .setGate rfl rfl
  suffices hadds : AddsGates asm (kernelVectors debug) _ from
    (hadds s₁ u s' hrun [] (kidtInit_hasGates hinit)).congr fun v => by rw [List.append_nil]
  refine .setGate_bind rfl rfl fun _ => .setGate_bind rfl rfl fun _ => ?_
  refine .setGate_bind rfl rfl fun _ => .setGate_bind rfl rfl fun _ => ?_
  refine .bind (.when hdebug) fun _ => ?_
  refine .setGate_bind rfl rfl fun _ => .setGate_bind rfl rfl fun _ => ?_
  refine .free picInit_keepsIdt fun _ => ?_
  exact .setGate_bind rfl rfl fun _ => .setGate_bind rfl rfl fun _ => .setGate rfl rfl

/-! ## The other functions -/

/-- `pic_enable_disable_irq`. -/
theorem picEnableDisableIrq_keepsIdt {enable : Bool} :
    Fixes PcState.idt (picEnableDisableIrq d irq enable) :=
  .bind (.lift _) fun _ => .bind inb_keepsIdt fun _ => outb_keepsIdt

/-- `pic_send_eoi`. -/
theorem picSendEoi_keepsIdt : Fixes PcState.idt (picSendEoi d irq) :=
  .bind (.lift _) fun _ => .bind (.when outb_keepsIdt) fun _ => outb_keepsIdt

/-- A read of `pic_read_IRR_ISR`. -/
theorem readIf_keepsIdt {wanted : Bool} : Fixes PcState.idt (readIf d wanted port) :=
  .ite (.bind inb_keepsIdt fun _ => .pure _) (.pure _)

/-- `pic_read_IRR_ISR`. -/
theorem picReadIrrIsr_keepsIdt {readIsr master slave : Bool} :
    Fixes PcState.idt (picReadIrrIsr d readIsr master slave) :=
  .bind outb_keepsIdt fun _ => .bind outb_keepsIdt fun _ => .bind readIf_keepsIdt fun _ =>
    .bind readIf_keepsIdt fun _ => .pure _

/-- `spurious_irq_eoi`. -/
theorem spuriousIrqEoi_keepsIdt : Fixes PcState.idt (spuriousIrqEoi d irq) :=
  .ite (.pure _) (.ite picSendEoi_keepsIdt (.halt _))

/-- `ps2_wait_read`. -/
theorem ps2WaitRead_keepsIdt : Fixes PcState.idt (ps2WaitRead d port) :=
  .bind onBus_keepsIdt fun _ => .ite (.bind (.modify fun _ => rfl) fun _ => .pure _)
    (.bind inb_keepsIdt fun _ => .pure _)

/-- A byte of the mouse. -/
theorem mouseByte_keepsIdt : Fixes PcState.idt (mouseByte v : Exec (PcState δ) Unit) := by
  refine .bind (.bind .get fun s => ?_) fun _ => .modify fun _ => rfl
  refine .ite (.modify fun _ => rfl) (.ite (.modify fun _ => rfl) (.ite ?_ (.halt _)))
  exact .bind (.modify fun _ => rfl) fun _ => .modify fun _ => rfl

/-- No handler of a hardware interrupt changes the table. -/
theorem irqHandler_keepsIdt {vector : Nat} {handler : Exec (PcState δ) Unit}
    (h : irqHandler d vector = some handler) : Fixes PcState.idt handler := by
  unfold irqHandler at h
  split at h <;> cases h
  · exact .bind picReadIrrIsr_keepsIdt fun _ => picSendEoi_keepsIdt
  · exact .bind inb_keepsIdt fun _ => picSendEoi_keepsIdt
  · exact .bind picReadIrrIsr_keepsIdt fun _ =>
      .ite (.bind picReadIrrIsr_keepsIdt fun _ => spuriousIrqEoi_keepsIdt) picSendEoi_keepsIdt
  · refine .bind ps2WaitRead_keepsIdt fun data => ?_
    cases data with
    | none => exact picSendEoi_keepsIdt
    | some data => exact .bind mouseByte_keepsIdt fun _ => picSendEoi_keepsIdt
  · exact .bind picReadIrrIsr_keepsIdt fun _ =>
      .ite (.bind picReadIrrIsr_keepsIdt fun _ => spuriousIrqEoi_keepsIdt) picSendEoi_keepsIdt

/-- A gate is no matter of the controllers. -/
theorem setGate_keepsPics {vector : Nat} {func : BitVec 32} {dpl : BitVec 8} :
    KeepsPics (setGate vector func dpl : Exec (PcState ((PicPair × Nat) × ρ)) Unit) :=
  .modify fun _ => rfl

/-- `kernel_main` initialises the controllers. -/
theorem kernelMainInterrupts_picInit
    (hrun : kernelMainInterrupts (picBus lines rest) debug asm s = .ok (u, s')) :
    ∃ s₁ s₂, picInit (picBus lines rest) 0x20 0x28 s₁ = .ok ((), s₂) ∧ s'.pics = s₂.pics := by
  obtain ⟨_, s₁, _, hrun⟩ := bind_eq_ok.1 hrun
  obtain ⟨_, s₂, _, hrun⟩ := bind_eq_ok.1 hrun
  obtain ⟨_, s₃, _, hrun⟩ := bind_eq_ok.1 hrun
  obtain ⟨_, s₄, _, hrun⟩ := bind_eq_ok.1 hrun
  obtain ⟨_, s₅, _, hrun⟩ := bind_eq_ok.1 hrun
  obtain ⟨_, s₆, _, hrun⟩ := bind_eq_ok.1 hrun
  obtain ⟨_, s₇, _, hrun⟩ := bind_eq_ok.1 hrun
  obtain ⟨_, s₈, _, hrun⟩ := bind_eq_ok.1 hrun
  obtain ⟨_, s₉, hpic, hrun⟩ := bind_eq_ok.1 hrun
  refine ⟨s₈, s₉, hpic, ?_⟩
  suffices hkeep : KeepsPics _ from hkeep s₉ u s' hrun
  exact .bind setGate_keepsPics fun _ => .bind setGate_keepsPics fun _ => setGate_keepsPics

/-- `pit_set_counter`. -/
theorem pitSetCounter_keepsGates {cntr mode : Nat} {value : BitVec 16} :
    KeepsGates (pitSetCounter (picBus lines rest) cntr mode value) := by
  have hport :
      PicPair.owns (if cntr = pitCounter0 then counter0Port else counter2Port) = false := by
    split <;> decide
  exact .bind (.lift _) fun _ => .bind (.lift _) fun _ => .bind (outb_keepsGates (by decide))
    fun _ => .bind (outb_keepsGates hport) fun _ => outb_keepsGates hport

/-- `pit_set_interrupt_counter`. -/
theorem pitSetInterruptCounter_keepsGates {mode : Nat} {freq : BitVec 32} :
    KeepsGates (pitSetInterruptCounter (picBus lines rest) mode freq) :=
  .bind (.lift _) fun _ => pitSetCounter_keepsGates

/-- `kernel_main` enables the timer's line. -/
theorem kernelMainTimer_enables
    (hrun : kernelMainTimer (picBus lines rest) s = .ok (u, s')) :
    ∃ s₁ : PcState ((PicPair × Nat) × ρ), s₁.gates = s.gates ∧
      picEnableDisableIrq (picBus lines rest) picIrqTimer true s₁ = .ok (u, s') := by
  obtain ⟨_, s₁, hpit, hrun⟩ := bind_eq_ok.1 hrun
  exact ⟨s₁, pitSetInterruptCounter_keepsGates s _ s₁ hpit, hrun⟩

/-! ## Runs -/

/-- The states of the drivers from the start of the kernel on, with the lines whose driver was
started: the timer, the starts of the PS/2 controller, the mouse and the keyboard in any order and
any number, hardware interrupts, and anything that changes neither the controllers nor the table. -/
inductive IrqRun (debug : Bool) (asm : AsmHandlers) (lines : Nat → BitVec 8 × BitVec 8)
    (rest : Device ρ) : PcState ((PicPair × Nat) × ρ) → (Nat → Bool) → Prop
  | start {s s' : PcState ((PicPair × Nat) × ρ)} :
      kernelMainInterrupts (picBus lines rest) debug asm s = .ok ((), s') →
      IrqRun debug asm lines rest s' fun _ => false
  | timer {s s' : PcState ((PicPair × Nat) × ρ)} {started : Nat → Bool} :
      IrqRun debug asm lines rest s started →
      kernelMainTimer (picBus lines rest) s = .ok ((), s') →
      IrqRun debug asm lines rest s' fun i => if i = picIrqTimer then true else started i
  | ps2 {s s' : PcState ((PicPair × Nat) × ρ)} {started : Nat → Bool} {turns : Nat} {b : Bool} :
      IrqRun debug asm lines rest s started →
      ps2Init (picBus lines rest) turns s = .ok (b, s') → IrqRun debug asm lines rest s' started
  | mouse {s s' : PcState ((PicPair × Nat) × ρ)} {started : Nat → Bool} {stale : BitVec 8}
      {b : Bool} : IrqRun debug asm lines rest s started →
      ps2MouseInit (picBus lines rest) stale asm.ps2MouseInterrupt s = .ok (b, s') →
      IrqRun debug asm lines rest s' fun i => if i = picIrqPs2Mouse then b else started i
  | keyboard {s s' : PcState ((PicPair × Nat) × ρ)} {started : Nat → Bool} {stale : BitVec 8}
      {b : Bool} : IrqRun debug asm lines rest s started →
      ps2KbInit (picBus lines rest) stale asm.kbInterrupt s = .ok (b, s') →
      IrqRun debug asm lines rest s' fun i => if i = picIrqKeyboard then b else started i
  | other {s s' : PcState ((PicPair × Nat) × ρ)} {started : Nat → Bool} :
      IrqRun debug asm lines rest s started → s'.gates = s.gates →
      IrqRun debug asm lines rest s' started
  | interrupt {s s' : PcState ((PicPair × Nat) × ρ)} {started : Nat → Bool} {vector : Nat}
      {line : Option Nat} {p : PicPair} {handler : Exec (PcState ((PicPair × Nat) × ρ)) Unit} :
      IrqRun debug asm lines rest s started → s.bus.1.1.acknowledge = (vector, line, p) →
      irqHandler (picBus lines rest) vector = some handler →
      handler { s with bus.1.1 := p } = .ok ((), s') → IrqRun debug asm lines rest s' started

/-- A table with the gates of `kernel_main`, and with no gates but the kernel's. -/
structure KernelTable (debug : Bool) (asm : AsmHandlers) (idt : Int → IdtDescriptor) :
    Prop where
  entry : ∀ vector : Nat, vector < 256 →
    idt vector = .zero ∨ idt vector = asmGate asm vector (gateDpl vector)
  kernel : ∀ vector ∈ kernelVectors debug,
    idt (vector : Nat) = asmGate asm vector (gateDpl vector)

/-- The vectors of `kernel_main` are entries of the table. -/
theorem kernelVectors_lt : ∀ debug, ∀ vector ∈ kernelVectors debug, vector < 256 := by decide

/-- The table of `kernel_main`. -/
theorem HasGates.kernelTable {idt : Int → IdtDescriptor}
    (h : HasGates asm (kernelVectors debug) idt) : KernelTable debug asm idt := by
  refine ⟨fun vector hvector => ?_, fun vector hmem => ?_⟩
  · rw [h vector hvector]
    split
    · exact .inr rfl
    · exact .inl rfl
  · rw [h vector (kernelVectors_lt debug vector hmem), if_pos hmem]

/-- Another gate of the kernel keeps the table one of the kernel's. -/
theorem KernelTable.withGate {idt : Int → IdtDescriptor} (h : KernelTable debug asm idt)
    (vector : Nat) :
    KernelTable debug asm (withGate idt vector (asmGate asm vector (gateDpl vector))) := by
  have hsame : ∀ i : Nat,
      MeghaOS.withGate idt vector (asmGate asm vector (gateDpl vector)) i = idt i ∨
      MeghaOS.withGate idt vector (asmGate asm vector (gateDpl vector)) i =
        asmGate asm i (gateDpl i) := by
    intro i
    rw [MeghaOS.withGate]
    split
    case isTrue heq =>
      obtain rfl : i = vector := Int.ofNat_inj.1 heq
      exact .inr rfl
    case isFalse => exact .inl rfl
  refine ⟨fun i hi => ?_, fun i hi => ?_⟩
  · rcases hsame i with hkeep | hgate
    · rw [hkeep]
      exact h.entry i hi
    · exact .inr hgate
  · rcases hsame i with hkeep | hgate
    · rw [hkeep]
      exact h.kernel i hi
    · exact hgate

/-- What a run keeps: the controllers are those of a run of theirs, with the lines of the started
drivers enabled, and the table has the gates of these drivers. -/
structure IrqRun.Inv (debug : Bool) (asm : AsmHandlers) (lines : Nat → BitVec 8 × BitVec 8)
    (rest : Device ρ) (s : PcState ((PicPair × Nat) × ρ)) (started : Nat → Bool) : Prop where
  pics : ∃ line15, PicRun lines rest s (fun i => i == 2 || started i) line15
  table : KernelTable debug asm s.idt
  drivers : ∀ irq, started irq = true → irq ∈ [picIrqTimer, picIrqKeyboard, picIrqPs2Mouse] ∧
    s.idt (0x20 + irq : Nat) = asmGate asm (0x20 + irq) 0

/-- Programs may not use the gates of the drivers. -/
theorem gateDpl_driver : ∀ irq ∈ [picIrqTimer, picIrqKeyboard, picIrqPs2Mouse],
    gateDpl (0x20 + irq) = 0 := by decide

namespace IrqRun

variable {started : Nat → Bool}

/-- Only the controllers and the table matter. -/
theorem Inv.congr (h : Inv debug asm lines rest s started) (hgates : s'.gates = s.gates) :
    Inv debug asm lines rest s' started := by
  obtain ⟨⟨line15, hpics⟩, htable, hdrivers⟩ := h
  have hidt : s'.idt = s.idt := congrArg Prod.snd hgates
  refine ⟨⟨line15, hpics.other (congrArg Prod.fst hgates)⟩, ?_, fun irq hirq => ?_⟩
  · rwa [hidt]
  · rw [hidt]
    exact hdrivers irq hirq

/-- A line may be enabled when its gate is there. -/
theorem Inv.enable (h : Inv debug asm lines rest s started) {enable : Bool}
    (hirq : irq ∈ [picIrqTimer, picIrqKeyboard, picIrqPs2Mouse])
    (hgate : enable = true → s.idt (0x20 + irq : Nat) = asmGate asm (0x20 + irq) 0)
    (hrun : picEnableDisableIrq (picBus lines rest) irq enable s = .ok (u, s')) :
    Inv debug asm lines rest s' fun i => if i = irq then enable else started i := by
  obtain ⟨⟨line15, hpics⟩, htable, hdrivers⟩ := h
  have htwo : irq ≠ 2 := by
    rintro rfl
    exact absurd hirq (by decide)
  have hlines : (fun i => if i = irq then enable else i == 2 || started i) =
      fun i => i == 2 || if i = irq then enable else started i := by
    funext i
    by_cases hi : i = irq
    · simp [hi, htwo]
    · simp [hi]
  have hidt := picEnableDisableIrq_keepsIdt s _ s' hrun
  refine ⟨⟨line15, hlines ▸ hpics.enable hrun⟩, ?_, fun i hi => ?_⟩
  · rwa [hidt]
  · rw [hidt]
    by_cases heq : i = irq
    · subst heq
      exact ⟨hirq, hgate (by simpa using hi)⟩
    · exact hdrivers i (by simpa [heq] using hi)

/-- A driver's line is enabled when its start succeeds, and only then. -/
theorem Inv.starts (h : Inv debug asm lines rest s started) {b : Bool} {s₁ : PcState _}
    (hirq : irq ∈ [picIrqTimer, picIrqKeyboard, picIrqPs2Mouse])
    (hdisable : picEnableDisableIrq (picBus lines rest) irq false s = .ok (u, s₁))
    (hcases : b = false ∧ s'.gates = s₁.gates ∨
      b = true ∧ ∃ s₂ : PcState ((PicPair × Nat) × ρ),
        s₂.gates = (s₁.gates.1, withGate s₁.gates.2 (0x20 + irq : Nat)
          (asmGate asm (0x20 + irq) 0)) ∧
          picEnableDisableIrq (picBus lines rest) irq true s₂ = .ok ((), s')) :
    Inv debug asm lines rest s' fun i => if i = irq then b else started i := by
  have h₁ := h.enable hirq (fun habsurd => by cases habsurd) hdisable
  rcases hcases with ⟨rfl, hsame⟩ | ⟨rfl, s₂, hedit, henable⟩
  · exact h₁.congr hsame
  · have hdpl := gateDpl_driver irq hirq
    have hidt : s₂.idt = withGate s₁.idt (0x20 + irq : Nat) (asmGate asm (0x20 + irq) 0) :=
      congrArg Prod.snd hedit
    have hgate : s₂.idt (0x20 + irq : Nat) = asmGate asm (0x20 + irq) 0 := by
      rw [hidt, withGate, if_pos rfl]
    have h₂ : Inv debug asm lines rest s₂ fun i => if i = irq then false else started i := by
      obtain ⟨⟨line15, hpics⟩, htable, hdrivers⟩ := h₁
      refine ⟨⟨line15, hpics.other (congrArg Prod.fst hedit)⟩, ?_, fun i hi => ?_⟩
      · rw [hidt, ← hdpl]
        exact htable.withGate (0x20 + irq)
      · obtain ⟨hmem, hold⟩ := hdrivers i hi
        refine ⟨hmem, ?_⟩
        rw [hidt, withGate]
        split
        case isTrue heq => rw [Int.ofNat_inj.1 heq]
        case isFalse => exact hold
    refine cast (congrArg _ (funext fun i => ?_)) (h₂.enable hirq (fun _ => hgate) henable)
    by_cases hi : i = irq <;> simp [hi]

/-- The invariant holds at the end of every run. -/
theorem inv (h : IrqRun debug asm lines rest s started) :
    Inv debug asm lines rest s started := by
  induction h with
  | @start s s' hrun =>
    obtain ⟨s₁, s₂, hpic, hsame⟩ := kernelMainInterrupts_picInit hrun
    refine ⟨⟨false, ?_⟩, (kernelMainInterrupts_hasGates hrun).kernelTable, fun irq habsurd => ?_⟩
    · simpa using (PicRun.init hpic).other hsame
    · cases habsurd
  | timer _ hrun ih =>
    obtain ⟨s₁, hsame, henable⟩ := kernelMainTimer_enables hrun
    have h₁ := ih.congr hsame
    exact h₁.enable (by decide) (fun _ => h₁.table.kernel 0x20 (by cases debug <;> decide)) henable
  | ps2 _ hrun ih =>
    exact ih.congr (ps2Init_keepsGates _ _ _ hrun)
  | mouse _ hrun ih =>
    obtain ⟨s₁, hdisable, hcases⟩ := ps2MouseInit_starts hrun
    exact ih.starts (by decide) hdisable hcases
  | keyboard _ hrun ih =>
    obtain ⟨s₁, hdisable, hcases⟩ := ps2KbInit_starts hrun
    exact ih.starts (by decide) hdisable hcases
  | other _ hsame ih => exact ih.congr hsame
  | @interrupt s s' started vector line p handler _ hack hhandler hrun ih =>
    obtain ⟨⟨line15, hpics⟩, htable, hdrivers⟩ := ih
    have hidt : s'.idt = s.idt := irqHandler_keepsIdt hhandler { s with bus.1.1 := p } _ s' hrun
    exact ⟨⟨_, hpics.interrupt hack hhandler hrun⟩, hidt ▸ htable, hidt ▸ hdrivers⟩

end IrqRun

/-! ## Results -/

/-- The acknowledge cycle answers with no line that is masked. -/
theorem PicPair.acknowledge_unmasked {pp p : PicPair} {vector : Nat}
    (h : pp.acknowledge = (vector, some irq, p)) : pp.masked irq = false := by
  simp only [PicPair.acknowledge] at h
  rw [PicPair.masked]
  split at h
  · obtain ⟨-, hline, -⟩ := Prod.ext_iff.1 h |>.imp id Prod.ext_iff.1
    obtain ⟨j, hj, rfl⟩ := Option.map_eq_some_iff.1 hline
    have hmask := (Pic8259.acknowledge_unmasked (Prod.ext hj rfl)).2
    rwa [if_neg (by omega), Nat.add_sub_cancel_left]
  · obtain ⟨-, hline, -⟩ := Prod.ext_iff.1 h |>.imp id Prod.ext_iff.1
    obtain ⟨hi, hmask⟩ := Pic8259.acknowledge_unmasked (Prod.ext hline rfl)
    rwa [if_pos hi]

/-- What the acknowledge cycle answers while nothing of the first controller is in service: the
vector of a line that is not masked, or that of a spurious interrupt. -/
theorem PicPair.acknowledge_vector {pp p : PicPair} {masks : BitVec 8 × BitVec 8}
    {slaveService : BitVec 8} {reads : Bool × Bool} {vector : Nat} {line : Option Nat}
    (h : pp.quiet = .running masks (0, slaveService) reads)
    (hack : pp.acknowledge = (vector, line, p)) :
    line = none ∧ (vector = 0x27 ∨ vector = 0x2F) ∨
      ∃ irq < 16, line = some irq ∧ irq ≠ 2 ∧ vector = 0x20 + irq ∧ pp.masked irq = false := by
  have hcases := PicPair.acknowledge_cases h
  rw [hack] at hcases
  cases hcases with
  | spuriousMaster => exact .inl ⟨rfl, .inl rfl⟩
  | spuriousSlave => exact .inl ⟨rfl, .inr rfl⟩
  | @master _ i hi htwo =>
    exact .inr ⟨i, by omega, rfl, htwo, rfl, PicPair.acknowledge_unmasked hack⟩
  | @slave _ i hi =>
    exact .inr ⟨8 + i, by omega, rfl, by omega, by omega, PicPair.acknowledge_unmasked hack⟩

/-- The gates of the spurious interrupts are those of `kernel_main`. -/
theorem asmGate_irq {started : Nat → Bool} (h : IrqRun debug asm lines rest s started)
    {vector : Nat} (hmem : vector = 0x27 ∨ vector = 0x2F) :
    s.idt vector = asmGate asm vector 0 := by
  rcases hmem with rfl | rfl
  · exact h.inv.table.kernel 0x27 (by cases debug <;> decide)
  · exact h.inv.table.kernel 0x2F (by cases debug <;> decide)

/-- An interrupt that the controllers pass on is a spurious one, or one of a line whose driver was
started, and whose last start succeeded. The table has its gate, and it has a handler. -/
theorem irq_run_gated {started : Nat → Bool} (h : IrqRun debug asm lines rest s started)
    {vector : Nat} {line : Option Nat} {p : PicPair}
    (hack : s.bus.1.1.acknowledge = (vector, line, p)) :
    (∀ irq, line = some irq → started irq = true) ∧
      (s.idt vector).LeadsTo (asm.ofVector vector) 0 ∧
      ∃ handler, irqHandler (picBus lines rest) vector = some handler := by
  obtain ⟨⟨line15, hpics⟩, htable, hdrivers⟩ := h.inv
  obtain ⟨masks, reads, hs, hmasked⟩ := hpics.inv
  rcases PicPair.acknowledge_vector hs hack with ⟨rfl, hvector⟩ | ⟨irq, hirq, rfl, htwo, rfl, hmask⟩
  · refine ⟨nofun, asmGate_irq h hvector ▸ asmGate_leadsTo, ?_⟩
    rcases hvector with rfl | rfl <;> exact ⟨_, rfl⟩
  · have hstarted : started irq = true := by
      have hmask' := hmasked irq hirq
      rw [show s.pics.masked irq = s.bus.1.1.masked irq from rfl, hmask] at hmask'
      simpa [htwo] using hmask'
    obtain ⟨hmem, hgate⟩ := hdrivers irq hstarted
    refine ⟨fun i hi => ?_, hgate ▸ asmGate_leadsTo, ?_⟩
    · cases hi
      exact hstarted
    · simp only [List.mem_cons, List.not_mem_nil, or_false] at hmem
      rcases hmem with rfl | rfl | rfl <;> exact ⟨_, rfl⟩

/-- Every gate that is there leads to its own handler. Programs may use those of the system calls
only, which are always there. -/
theorem irq_run_user_gates {started : Nat → Bool} (h : IrqRun debug asm lines rest s started)
    {vector : Nat} (hvector : vector < 256) :
    ((s.idt vector).p = 1 → (s.idt vector).LeadsTo (asm.ofVector vector)
      (if vector = 0x40 ∨ vector = 0x50 then 3 else 0)) ∧
      (vector = 0x40 ∨ vector = 0x50 → (s.idt vector).p = 1) := by
  obtain ⟨-, htable, -⟩ := h.inv
  refine ⟨fun hpresent => ?_, ?_⟩
  · rcases htable.entry vector hvector with hzero | hgate
    · rw [hzero] at hpresent
      cases hpresent
    · have hdpl : (gateDpl vector &&& 3#8).setWidth 2 =
          if vector = 0x40 ∨ vector = 0x50 then 3 else 0 := by
        rw [gateDpl]
        split <;> rfl
      rw [hgate, ← hdpl]
      exact asmGate_leadsTo
  · rintro (rfl | rfl)
    · rw [htable.kernel 0x40 (by cases debug <;> decide)]
      rfl
    · rw [htable.kernel 0x50 (by cases debug <;> decide)]
      rfl

/-! ### A timer -/

/-- Where the handlers are. -/
def someHandlers : AsmHandlers where
  divZero := 0xC0100000
  breakpoint := 0xC0100030
  invalidOpcode := 0xC0100060
  doubleFault := 0xC0100080
  generalProtectionFault := 0xC01000D0
  pageFault := 0xC01000E0
  timerInterrupt := 0xC0100200
  kbInterrupt := 0xC0100210
  irq7 := 0xC0100270
  ps2MouseInterrupt := 0xC01002C0
  irq15 := 0xC01002F0
  sysDummy := 0xC0100400
  syscallAsmDespatcher := 0xC0100500

/-- The kernel has set up the interrupts. -/
def pcSetUp : PcState ((PicPair × Nat) × Unit) :=
  (kernelMainInterrupts (picBus quietLines readyPorts) true someHandlers).finalState pcStart

/-- The timer is started. -/
def pcWithTimer : PcState ((PicPair × Nat) × Unit) :=
  (kernelMainTimer (picBus quietLines readyPorts)).finalState pcSetUp

/-- The lines of the timer and the mouse ask for interrupts. -/
def pcWithRequests : PcState ((PicPair × Nat) × Unit) :=
  { pcWithTimer with bus.1.1 := pcWithTimer.bus.1.1.request (5, 0x10) }

/-- The timer's start is the only one of the run. -/
theorem pcWithRequests_run : IrqRun true someHandlers quietLines readyPorts pcWithRequests
    fun i => if i = picIrqTimer then true else false := by
  have hset : IrqRun true someHandlers quietLines readyPorts pcSetUp _ :=
    .start (eq_ok_finalState rfl)
  have htimer := hset.timer (eq_ok_finalState rfl)
  exact htimer.other rfl

/-- The interrupt of the timer leads to its handler. -/
theorem irq_run_gated_timer : (pcWithRequests.idt 0x20).LeadsTo 0xC0100200 0 := by
  have hack : pcWithRequests.bus.1.1.acknowledge =
    (0x20, some 0, pcWithRequests.bus.1.1.acknowledge.2.2) := by decide
  exact (irq_run_gated pcWithRequests_run hack).2.1

/-- The gate of the system calls is there. -/
theorem irq_run_user_gates_syscall : (pcWithRequests.idt (0x50 : Nat)).p = 1 :=
  (irq_run_user_gates pcWithRequests_run (by decide)).2 (.inr rfl)

end MeghaOS
