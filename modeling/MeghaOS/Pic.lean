import MeghaOS.Bitmap
import MeghaOS.Lib.Pic8259

/-!
# Interrupts and the interval timer (`x86/idt.c`, `8259_pic.c`, `8254_pit.c`, `x86/interrupts.c`)

The drivers of a PC run over a `PcState`: what is at the ports, the interrupt table, and the static
data of the drivers. The handlers of hardware interrupts are here without what they do for the
kernel; the tick that the timer's one counts is in `timerInterruptHandler`.
-/

namespace MeghaOS

open Exec

/-! ## State -/

/-- `IdtDescriptor`. -/
structure IdtDescriptor where
  offsetLow : BitVec 16
  segmentSelector : BitVec 16
  zeros : BitVec 8
  type : BitVec 5
  dpl : BitVec 2
  p : BitVec 1
  offsetHigh : BitVec 16
  deriving DecidableEq

/-- `PS2Device`. -/
structure PS2Device where
  isSecondPort : Bool
  portAvailable : Bool
  deriving DecidableEq

/-- `MousePacket`. -/
structure MousePacket where
  byteIndex : Int
  b0 : BitVec 8
  b1 : BitVec 8
  b2 : BitVec 8
  deriving DecidableEq

/-- `MouseStatus`. -/
structure MouseStatus where
  id : BitVec 8
  status : BitVec 8
  resolution : BitVec 8
  sampleRate : BitVec 8
  deriving DecidableEq

/-- `MousePositionData`. -/
structure MousePositionData where
  x : Int
  y : Int
  leftButton : Bool
  rightButton : Bool
  middleButton : Bool
  deriving DecidableEq

/-- The hardware, the interrupt table and the static data of the drivers. The table is a function,
as an index outside of it is not caught. -/
structure PcState (δ : Type) where
  bus : δ
  errorNumber : KernelErrorCodes
  idt : Int → IdtDescriptor
  devices : Nat → PS2Device
  mpacket : MousePacket
  mousePosition : MousePositionData
  mouseStatusOriginal : MouseStatus

variable {δ : Type} (d : Device δ)

/-- An access to the hardware. -/
def onBus {α : Type} (x : Exec δ α) : Exec (PcState δ) α :=
  zoom (·.bus) (fun bus s => { s with bus }) x

/-- `inb`. -/
def inb (port : Nat) : Exec (PcState δ) (BitVec 8) := onBus (d.inb port)

/-- `outb`. -/
def outb (port : Nat) (v : BitVec 8) : Exec (PcState δ) Unit := onBus (d.outb port v)

/-- `io_delay`. -/
def ioDelay : Exec (PcState δ) Unit := outb d 0x80 0

/-- `k_assert`. -/
def pcAssert (t : Prop) [Decidable t] (e : String) : Exec (PcState δ) Unit := lift (kAssertE t e)

/-- `RETURN_ERROR`. -/
def pcReturnError {α : Type} (errno : KernelErrorCodes) (rval : α) : Exec (PcState δ) α := do
  modify fun s => { s with errorNumber := errno }
  return rval

section

variable {d} {α β : Type} {s s' : PcState δ}

theorem onBus_eq_ok {x : Exec δ α} {a : α} :
    onBus x s = .ok (a, s') ↔ ∃ bus, x s.bus = .ok (a, bus) ∧ s' = { s with bus } := zoom_eq_ok

theorem onBus_fixes {τ : Type} {f : PcState δ → τ} {x : Exec δ α}
    (h : ∀ (s : PcState δ) (bus : δ), f { s with bus } = f s) : Fixes f (onBus x) :=
  .zoom (fun bus s => h s bus) x

theorem inb_eq_ok {port : Nat} {v : BitVec 8} : inb d port s = .ok (v, s') ↔
    v = (d.read port s.bus).1 ∧ s' = { s with bus := (d.read port s.bus).2 } := by
  rw [inb, onBus_eq_ok]
  simp [Device.inb_apply, Prod.ext_iff, eq_comm]

theorem outb_eq_ok {port : Nat} {v : BitVec 8} {u : Unit} :
    outb d port v s = .ok (u, s') ↔ s' = { s with bus := d.write port v s.bus } := by
  rw [outb, onBus_eq_ok]
  simp [Device.outb_apply, eq_comm]

@[simp] theorem pcAssert_bind_eq_ok {t : Prop} [Decidable t] {e : String}
    {f : Unit → Exec (PcState δ) β} {r : β × PcState δ} :
    (pcAssert t e >>= f) s = .ok r ↔ t ∧ f () s = .ok r := by
  rw [pcAssert, lift_bind_eq_ok, kAssertE]
  split
  · exact ⟨fun ⟨_, _, hrun⟩ => ⟨‹t›, hrun⟩, fun h => ⟨(), rfl, h.2⟩⟩
  · exact iff_of_false (fun ⟨_, habsurd, _⟩ => by cases habsurd) fun h => ‹¬ t› h.1

theorem pcReturnError_eq_ok {errno : KernelErrorCodes} {v a : α} :
    pcReturnError errno v s = .ok (a, s') ↔ a = v ∧ s' = { s with errorNumber := errno } := by
  rw [pcReturnError, modify_bind_apply]
  simp [eq_comm]

end

/-! ## The interrupt table -/

/-- `IDT_DES_TYPE_32_INTERRUPT_GATE`. -/
abbrev idtDesType32InterruptGate : Nat := 0xE

/-- `MAX_IDT_DESC_COUNT`. -/
abbrev maxIdtDescCount : Int := 256

/-- A descriptor of zeros. -/
def IdtDescriptor.zero : IdtDescriptor := ⟨0, 0, 0, 0, 0, 0, 0⟩

/-- `kidt_init`, without the load of the register. -/
def kidtInit : Exec (PcState δ) Unit :=
  modify fun s => { s with
    idt := fun i => if 0 ≤ i ∧ i < maxIdtDescCount then .zero else s.idt i }

/-- The descriptor that `kidt_edit` writes. -/
def idtDescriptor (offset : BitVec 32) (segSelector : BitVec 16) (type : Nat) (dpl : BitVec 8) :
    IdtDescriptor where
  offsetLow := (offset &&& 0xFFFF#32).setWidth 16
  offsetHigh := (offset >>> 16).setWidth 16 &&& 0xFFFF#16
  segmentSelector := segSelector
  type := .ofNat 5 type
  dpl := (dpl &&& 3#8).setWidth 2
  p := 1
  zeros := 0

/-- `kidt_edit`; `func` is the address of the handler. -/
def kidtEdit (index : Int) (func : BitVec 32) (segSelector : BitVec 16) (type : Nat)
    (dpl : BitVec 8) : Exec (PcState δ) Unit :=
  modify fun s => { s with
    idt := fun i => if i = index then idtDescriptor func segSelector type dpl else s.idt i }

/-! ## The interrupt controllers -/

/-- `PIC_IRQ`. -/
abbrev picIrqTimer : Nat := 0
abbrev picIrqKeyboard : Nat := 1
abbrev picIrqPs2Mouse : Nat := 12
abbrev picIrq7 : Nat := 7
abbrev picIrq15 : Nat := 15

/-- `MASTER_CMD_PORT`, `MASTER_DATA_PORT`, `SLAVE_CMD_PORT` and `SLAVE_DATA_PORT`. -/
abbrev masterCmdPort : Nat := 0x20
abbrev masterDataPort : Nat := 0x21
abbrev slaveCmdPort : Nat := 0xA0
abbrev slaveDataPort : Nat := 0xA1

/-- `ICW1_ICW4_PRESENT | ICW1_ALWAYS_ONE`, `ICW3_IRQ_LINE_FOR_SLAVE` and
`ICW4_8086_MICROPROCESSOR`. -/
abbrev icw1 : BitVec 8 := 1#8 ||| 1#8 <<< 4
abbrev icw3IrqLineForSlave : Nat := 2
abbrev icw4With8086Microprocessor : BitVec 8 := 1

/-- `OCW3_READ_IRR` and `OCW3_READ_ISR`. -/
abbrev ocw3ReadIrr : BitVec 8 := 1#8 <<< 3 ||| 1#8 <<< 1
abbrev ocw3ReadIsr : BitVec 8 := 1#8 <<< 3 ||| 1#8 <<< 1 ||| 1#8

/-- `outb` followed by `io_delay`. -/
def outbDelay (port : Nat) (v : BitVec 8) : Exec (PcState δ) Unit := do
  outb d port v
  ioDelay d

/-- `pic_init`. -/
def picInit (masterVectorStart slaveVectorStart : BitVec 8) : Exec (PcState δ) Unit := do
  pcAssert (masterVectorStart &&& 7#8 = 0) "Vector mask wrong alignment"
  pcAssert (slaveVectorStart &&& 7#8 = 0) "Vector mask wrong alignment"
  outbDelay d masterCmdPort icw1
  outbDelay d slaveCmdPort icw1
  outbDelay d masterDataPort masterVectorStart
  outbDelay d slaveDataPort slaveVectorStart
  outbDelay d masterDataPort (1#8 <<< icw3IrqLineForSlave)
  outbDelay d slaveDataPort (.ofNat 8 icw3IrqLineForSlave)
  outbDelay d masterDataPort icw4With8086Microprocessor
  outbDelay d slaveDataPort icw4With8086Microprocessor
  outbDelay d masterDataPort 0xFB
  outbDelay d slaveDataPort 0xFF

/-- `pic_enable_disable_irq`. -/
def picEnableDisableIrq (irq : Nat) (enable : Bool) : Exec (PcState δ) Unit := do
  let port := if irq ≥ 8 then slaveDataPort else masterDataPort
  let irq := if irq ≥ 8 then irq - 8 else irq
  pcAssert (irq ≤ 8) "Invalid IRQ number"
  let value : BitVec 32 := (← inb d port).setWidth 32
  let value := if enable then value &&& ~~~ (1#32 <<< irq) else value ||| 1#32 <<< irq
  outb d port (value.setWidth 8)

/-- Read a port if there is a pointer for the value. -/
def readIf (wanted : Bool) (port : Nat) : Exec (PcState δ) (Option Nat) :=
  if wanted then do return some (← inb d port).toNat else return none

/-- `pic_read_IRR_ISR`; the results are for the pointers that are not `NULL`. -/
def picReadIrrIsr (readIsr master slave : Bool) : Exec (PcState δ) (Option Nat × Option Nat) := do
  let ocw3 := if readIsr then ocw3ReadIsr else ocw3ReadIrr
  outb d masterCmdPort ocw3
  outb d slaveCmdPort ocw3
  let m ← readIf d master masterCmdPort
  let s ← readIf d slave slaveCmdPort
  return (m, s)

/-- `pic_send_eoi`. -/
def picSendEoi (irq : Nat) : Exec (PcState δ) Unit := do
  pcAssert (irq ≤ 16) "Invalid IRQ number"
  when (irq ≥ 8) (outb d slaveCmdPort 0x20)
  outb d masterCmdPort 0x20

/-! ## The interval timer -/

/-- `PITCounters` and `PITCounterModes`. -/
abbrev pitCounter0 : Nat := 0
abbrev pitCounter2 : Nat := 2
abbrev pitCounterMode2 : Nat := 2
abbrev pitCounterMode3 : Nat := 3

/-- `COUNTER0_PORT`, `COUNTER2_PORT` and `CONTROLWORD_PORT`. -/
abbrev counter0Port : Nat := 0x40
abbrev counter2Port : Nat := 0x42
abbrev controlwordPort : Nat := 0x43

/-- `CONTROLWORD` with `CONTROLWORD_RW_TWO_BYTES`. -/
def controlword (cntr mode : Nat) : BitVec 32 :=
  BitVec.ofNat 32 cntr <<< 6 ||| 3#32 <<< 4 ||| BitVec.ofNat 32 mode <<< 1

/-- `PIT_BASE_CLOCK_FREQ_HZ` and `MIN_INTERRUPT_CLOCK_FREQ_HZ`. -/
abbrev pitBaseClockFreqHz : BitVec 32 := 1193182
abbrev minInterruptClockFreqHz : BitVec 32 := 19

/-- `pit_set_counter`. -/
def pitSetCounter (cntr mode : Nat) (value : BitVec 16) : Exec (PcState δ) Unit := do
  pcAssert (cntr = pitCounter0 ∨ cntr = pitCounter2) "Invalid counter"
  pcAssert (mode = pitCounterMode2 ∨ mode = pitCounterMode3) "Invalid counter"
  let port := if cntr = pitCounter0 then counter0Port else counter2Port
  outb d controlwordPort ((controlword cntr mode).setWidth 8)
  outb d port ((value &&& 0xFF#16).setWidth 8)
  outb d port ((value >>> 8 &&& 0xFF#16).setWidth 8)

/-- `pit_set_interrupt_counter`. -/
def pitSetInterruptCounter (mode : Nat) (freq : BitVec 32) : Exec (PcState δ) Unit := do
  pcAssert (freq ≥ minInterruptClockFreqHz) "Freq too small"
  pitSetCounter d pitCounter0 mode ((pitBaseClockFreqHz / freq).setWidth 16)

/-- `pit_set_speaker_counter`. -/
def pitSetSpeakerCounter (freq : BitVec 32) : Exec (PcState δ) Unit := do
  pcAssert (freq ≥ minInterruptClockFreqHz) "Freq too small"
  pitSetCounter d pitCounter2 pitCounterMode3 ((pitBaseClockFreqHz / freq).setWidth 16)

/-! ## Interrupt handlers -/

/-- What `timer_interrupt_handler` does after the tick is counted. -/
def timerInterruptEoi : Exec (PcState δ) Unit := do
  -- a request that waits already is only reported
  let _ ← picReadIrrIsr d false true false
  picSendEoi d picIrqTimer

/-- `spurious_irq_eoi`. -/
def spuriousIrqEoi (irq : Nat) : Exec (PcState δ) Unit :=
  if irq = picIrq7 then pure ()
  else if irq = picIrq15 then picSendEoi d picIrq7
  else halt (.panic "Assertion failed: Unreachable code")

/-- `irq_7_handler`. -/
def irq7Handler : Exec (PcState δ) Unit := do
  let (master, _) ← picReadIrrIsr d true true false
  if bitIsUnset (master.getD 0) (1 <<< picIrq7) then
    let _ ← picReadIrrIsr d false true false
    spuriousIrqEoi d picIrq7
  else picSendEoi d picIrq7

/-- `irq_15_handler`. -/
def irq15Handler : Exec (PcState δ) Unit := do
  let (_, slave) ← picReadIrrIsr d true false true
  if bitIsUnset (slave.getD 0) (1 <<< picIrq15) then
    let _ ← picReadIrrIsr d false false true
    spuriousIrqEoi d picIrq15
  else picSendEoi d picIrq15

end MeghaOS
