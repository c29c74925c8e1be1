import MeghaOS.Pic

/-!
# PS/2 controller, mouse and keyboard (`8042_ps2.c`, `ps2mouse.c`, `ps2kb.c`, `pcspeaker.c`)

The controller tells at its status port whether a byte is there to be read and whether the last one
was taken, and a device answers each byte that it is sent. Variables that the C code may read before
it wrote them are arguments (`stale`).
-/

namespace MeghaOS

open Exec

variable {δ : Type} (d : Device δ)

/-! ## Ports and commands -/

abbrev ps2DataPort : Nat := 0x60
abbrev ps2CmdPort : Nat := 0x64
abbrev ps2SpeakerPort : Nat := 0x61

abbrev ps2ConfigFirstPortInterruptEnable : BitVec 8 := 1#8
abbrev ps2ConfigSecondPortInterruptEnable : BitVec 8 := 1#8 <<< 1
abbrev ps2ConfigFirstPortTranslationEnable : BitVec 8 := 1#8 <<< 6

abbrev ps2CmdDisableSecondPort : BitVec 8 := 0xA7
abbrev ps2CmdEnableSecondPort : BitVec 8 := 0xA8
abbrev ps2CmdDisableFirstPort : BitVec 8 := 0xAD
abbrev ps2CmdEnableFirstPort : BitVec 8 := 0xAE
abbrev ps2CmdTestController : BitVec 8 := 0xAA
abbrev ps2CmdReadConfigurationByte : BitVec 8 := 0x20
abbrev ps2CmdWriteConfigurationByte : BitVec 8 := 0x60
abbrev ps2CmdTestFirstPort : BitVec 8 := 0xAB
abbrev ps2CmdTestSecondPort : BitVec 8 := 0xA9
abbrev ps2CmdSendToSecondPort : BitVec 8 := 0xD4

abbrev ps2ResTestControllerPassed : BitVec 8 := 0x55
abbrev ps2ResTestPortPassed : BitVec 8 := 0

abbrev ps2DevCmdSetToDefault : BitVec 8 := 0xF6
abbrev ps2DevCmdIdentify : BitVec 8 := 0xF2
abbrev ps2DevCmdDisableScanning : BitVec 8 := 0xF5
abbrev ps2DevCmdEnableScanning : BitVec 8 := 0xF4
abbrev ps2DevResAck : BitVec 8 := 0xFA
abbrev ps2DevResResend : BitVec 8 := 0xFE

abbrev ps2MouseCmdGetId : BitVec 8 := 0xF2
abbrev ps2MouseCmdStatusReq : BitVec 8 := 0xE9
abbrev ps2MouseCmdSetSampleRate : BitVec 8 := 0xF3

abbrev ps2FirstDevice : Nat := 0
abbrev ps2SecondDevice : Nat := 1

/-- `CONFIG_PS2_MOUSE_SAMPLE_RATE`. -/
abbrev configPs2MouseSampleRate : BitVec 8 := 40

/-- `RW_TIMEOUT_ITERATION` and `DEVICE_COUNT`. -/
abbrev rwTimeoutIteration : Nat := 10000
abbrev deviceCount : Nat := 2

/-- `BIT_ISSET` on a byte. -/
def byteIsSet (w s : BitVec 8) : Bool := w &&& s == s

/-- `IS_READ_READY` and `IS_WRITE_READY`. -/
def isReadReady (status : BitVec 8) : Bool := status &&& 1#8 == 1#8
def isWriteReady (status : BitVec 8) : Bool := status &&& 2#8 == 0#8

/-! ## The controller -/

/-- `ps2_canRead`. -/
def ps2CanRead : Exec (PcState δ) Bool :=
  onBus (d.poll ps2CmdPort isReadReady rwTimeoutIteration)

/-- `ps2_wait_read`; the result is the byte that `data` receives. -/
def ps2WaitRead (ioport : Nat) : Exec (PcState δ) (Option (BitVec 8)) := do
  if (← ps2CanRead d) = false then pcReturnError .errTimeout none
  else return some (← inb d ioport)

/-- The loop of `ps2_wait_write`. -/
def ps2CanWrite : Exec (PcState δ) Bool :=
  onBus (d.poll ps2CmdPort isWriteReady rwTimeoutIteration)

/-- `ps2_wait_write`. -/
def ps2WaitWrite (ioport : Nat) (data : BitVec 8) : Exec (PcState δ) Bool := do
  if (← ps2CanWrite d) = false then pcReturnError .errTimeout false
  else
    outb d ioport data
    return true

/-- `ps2_no_wait_read`. -/
def ps2NoWaitRead (ioport : Nat) : Exec (PcState δ) (BitVec 8) := inb d ioport

/-- `ps2_write_device_data_no_wait`. -/
def ps2WriteDeviceDataNoWait (deviceId : Nat) (data : BitVec 8) : Exec (PcState δ) Unit := do
  pcAssert (deviceId < deviceCount) "Device ID is invalid."
  let device := (← get).devices deviceId
  pcAssert (device.portAvailable = true) "Device not ready"
  when (device.isSecondPort = true) (do
    let _ ← ps2WaitWrite d ps2CmdPort ps2CmdSendToSecondPort)
  let _ ← ps2WaitWrite d ps2DataPort data

/-- The loop of `ps2_write_device_data_wait_ack`, with at most `retries` turns after the first. -/
def waitAck (deviceId : Nat) (cmd : BitVec 8) : Nat → Exec (PcState δ) Bool
  | 0 => do
    ps2WriteDeviceDataNoWait d deviceId cmd
    match ← ps2WaitRead d ps2DataPort with
    | none => return false
    | some ack =>
      if ack ≠ ps2DevResAck then pcReturnError .errDeviceNotReady false else return true
  | retries + 1 => do
    ps2WriteDeviceDataNoWait d deviceId cmd
    match ← ps2WaitRead d ps2DataPort with
    | none => return false
    | some ack =>
      if ack = ps2DevResResend then waitAck deviceId cmd retries
      else if ack ≠ ps2DevResAck then pcReturnError .errDeviceNotReady false
      else return true

/-- `ps2_write_device_data_wait_ack`. -/
def ps2WriteDeviceDataWaitAck (deviceId : Nat) (cmd : BitVec 8) : Exec (PcState δ) Bool :=
  waitAck d deviceId cmd 3

/-- `ps2_configuration`; the results are what it returns and the byte that `original_config`
receives. -/
def ps2Configuration (enabled disabled : BitVec 8) :
    Exec (PcState δ) (Bool × Option (BitVec 8)) := do
  if (← ps2WaitWrite d ps2CmdPort ps2CmdReadConfigurationByte) = false then return (false, none)
  else
    match ← ps2WaitRead d ps2DataPort with
    | none => return (false, none)
    | some config =>
      let changed := config &&& ~~~ disabled ||| enabled
      if (← ps2WaitWrite d ps2CmdPort ps2CmdWriteConfigurationByte) = false then
        return (false, some config)
      else if (← ps2WaitWrite d ps2DataPort changed) = false then return (false, some config)
      else return (true, some config)

/-- The interrupts of both ports and the translation. -/
abbrev ps2ConfigInterruptsAndTranslation : BitVec 8 :=
  ps2ConfigFirstPortInterruptEnable ||| ps2ConfigSecondPortInterruptEnable |||
    ps2ConfigFirstPortTranslationEnable

/-- `ps2_identify_device`; `none` is `KERNEL_EXIT_FAILURE`, and `stale` is in `config` when the
configuration byte could not be read. -/
def ps2IdentifyDevice (stale : BitVec 8) (deviceId : Nat) :
    Exec (PcState δ) (Option (BitVec 16)) := do
  pcAssert (deviceId < deviceCount) "Device ID is invalid."
  let (_, original) ← ps2Configuration d 0 ps2ConfigInterruptsAndTranslation
  let config := original.getD stale
  if (← ps2WriteDeviceDataWaitAck d deviceId ps2DevCmdDisableScanning) = false then return none
  else if (← ps2WriteDeviceDataWaitAck d deviceId ps2DevCmdIdentify) = false then return none
  else
    match ← ps2WaitRead d ps2DataPort with
    | none => return none
    | some byte0 =>
      let byte1 ←
        if ← ps2CanRead d then (·.getD 0) <$> ps2WaitRead d ps2DataPort
        else pure 0
      let _ ← ps2Configuration d config 0
      return some (byte1.setWidth 16 <<< 8 ||| byte0.setWidth 16)

/-- The loop of `ps2_init` that empties the output buffer, in at most so many turns. -/
def ps2Flush : Nat → Exec (PcState δ) Unit
  | 0 => halt .hang
  | turns + 1 => do
    if ← ps2CanRead d then
      let _ ← ps2NoWaitRead d ps2DataPort
      ps2Flush turns

/-- Test a port, in `ps2_init`. -/
def testPort (deviceId : Nat) (cmd : BitVec 8) : Exec (PcState δ) Unit := do
  let _ ← ps2WaitWrite d ps2CmdPort cmd
  match ← ps2WaitRead d ps2DataPort with
  | none => return
  | some config =>
    modify fun s => { s with
      devices := fun i =>
        if i = deviceId then
          { s.devices i with portAvailable := config == ps2ResTestPortPassed }
        else s.devices i }

/-- `ps2_init`; `turns` bounds the loop that empties the output buffer. -/
def ps2Init (turns : Nat) : Exec (PcState δ) Bool := do
  modify fun s => { s with devices := fun i => ⟨i == 1, false⟩ }
  if (← ps2WaitWrite d ps2CmdPort ps2CmdDisableFirstPort) = false then return false
  else if (← ps2WaitWrite d ps2CmdPort ps2CmdDisableSecondPort) = false then return false
  else
    ps2Flush d turns
    let _ ← ps2Configuration d 0 ps2ConfigInterruptsAndTranslation
    let _ ← ps2WaitWrite d ps2CmdPort ps2CmdTestController
    match ← ps2WaitRead d ps2DataPort with
    | none => return false
    | some config =>
      if config ≠ ps2ResTestControllerPassed then pcReturnError .errDeviceInitFailed false
      else
        testPort d 0 ps2CmdTestFirstPort
        testPort d 1 ps2CmdTestSecondPort
        let devices := (← get).devices
        if (devices 0).portAvailable = false ∧ (devices 1).portAvailable = false then
          pcReturnError .errDeviceInitFailed false
        else
          let _ ← ps2WaitWrite d ps2CmdPort ps2CmdEnableFirstPort
          let _ ← ps2WaitWrite d ps2CmdPort ps2CmdEnableSecondPort
          return true

/-! ## The mouse -/

/-- `PS2_MOUSE_STATE_BYTE_0_DATA_REPORTING_ENABLED_MASK` and
`PS2_MOUSE_STATE_BYTE_0_REMOTE_MODE_ENABLED`. -/
abbrev ps2MouseStateDataReportingEnabled : BitVec 8 := 1#8 <<< 5
abbrev ps2MouseStateRemoteModeEnabled : BitVec 8 := 1#8 <<< 6

/-- The masks of the first byte of a packet. -/
abbrev ps2MousePacketLeftBtn : BitVec 8 := 1#8
abbrev ps2MousePacketRightBtn : BitVec 8 := 1#8 <<< 1
abbrev ps2MousePacketMidBtn : BitVec 8 := 1#8 <<< 2
abbrev ps2MousePacketXOverflow : BitVec 8 := 1#8 <<< 6
abbrev ps2MousePacketYOverflow : BitVec 8 := 1#8 <<< 7

/-- `ismouse`. -/
def ismouse (stale : BitVec 8) : Exec (PcState δ) Bool := do
  match ← ps2IdentifyDevice d stale ps2SecondDevice with
  | none => return false
  | some type =>
    if type = 0x0000 ∨ type = 0x0300 ∨ type = 0x0400 then return true
    else pcReturnError .errDeviceInitFailed false

/-- `get_mouse_state`. -/
def getMouseState : Exec (PcState δ) MouseStatus := do
  let _ ← ps2WriteDeviceDataWaitAck d ps2SecondDevice ps2MouseCmdGetId
  let id ← ps2WaitRead d ps2DataPort
  let _ ← ps2WriteDeviceDataWaitAck d ps2SecondDevice ps2MouseCmdStatusReq
  let status ← ps2WaitRead d ps2DataPort
  let resolution ← ps2WaitRead d ps2DataPort
  let sampleRate ← ps2WaitRead d ps2DataPort
  return ⟨id.getD 0, status.getD 0, resolution.getD 0, sampleRate.getD 0⟩

/-- `ps2_mouse_init`; `handler` is the address of `ps2_mouse_interrupt_asm_handler`. -/
def ps2MouseInit (stale : BitVec 8) (handler : BitVec 32) : Exec (PcState δ) Bool := do
  picEnableDisableIrq d picIrqPs2Mouse false
  if (← ismouse d stale) = false then return false
  else if (← ps2WriteDeviceDataWaitAck d ps2SecondDevice ps2DevCmdSetToDefault) = false then
    return false
  else if (← ps2WriteDeviceDataWaitAck d ps2SecondDevice ps2MouseCmdSetSampleRate) = false then
    return false
  else if (← ps2WriteDeviceDataWaitAck d ps2SecondDevice configPs2MouseSampleRate) = false then
    return false
  else if (← ps2WriteDeviceDataWaitAck d ps2SecondDevice ps2DevCmdEnableScanning) = false then
    return false
  else
    let state ← getMouseState d
    modify fun s => { s with mouseStatusOriginal := state }
    if state.sampleRate ≠ configPs2MouseSampleRate ∨
        byteIsSet state.status ps2MouseStateDataReportingEnabled = false ∨
        byteIsSet state.status ps2MouseStateRemoteModeEnabled = true then
      pcReturnError .errDeviceInitFailed false
    else
      let _ ← ps2Configuration d ps2ConfigSecondPortInterruptEnable 0
      kidtEdit 0x2C handler (.ofNat 16 gdtSelectorKcode) idtDesType32InterruptGate 0
      picEnableDisableIrq d picIrqPs2Mouse true
      return true

/-- The movement in a packet: the byte, less the sign bit at the place of bit 8. -/
def packetDelta (data b0 : BitVec 8) (shift : Nat) : Int :=
  data.toNat - ((b0.setWidth 32 <<< shift &&& 0x100#32).toNat : Int)

/-- What `ps2_mouse_interrupt_handler` does with a whole packet. -/
def applyPacket (m : MousePacket) (p : MousePositionData) : MousePositionData :=
  if byteIsSet m.b0 ps2MousePacketXOverflow = false ∧
      byteIsSet m.b0 ps2MousePacketYOverflow = false then
    { x := (p.x + packetDelta m.b1 m.b0 4).bmod (2 ^ 32)
      y := (p.y + packetDelta m.b2 m.b0 3).bmod (2 ^ 32)
      leftButton := byteIsSet m.b0 ps2MousePacketLeftBtn
      rightButton := byteIsSet m.b0 ps2MousePacketRightBtn
      middleButton := byteIsSet m.b0 ps2MousePacketMidBtn }
  else p

/-- The `switch` of `ps2_mouse_interrupt_handler`. -/
def packetByte (data : BitVec 8) : Exec (PcState δ) Unit := do
  let mpacket := (← get).mpacket
  if mpacket.byteIndex = 0 then modify fun s => { s with mpacket.b0 := data }
  else if mpacket.byteIndex = 1 then modify fun s => { s with mpacket.b1 := data }
  else if mpacket.byteIndex = 2 then
    modify fun s => { s with mpacket.b2 := data }
    modify fun s => { s with mousePosition := applyPacket s.mpacket s.mousePosition }
  else halt (.panic "BUG")

/-- What `ps2_mouse_interrupt_handler` does with a byte. -/
def mouseByte (data : BitVec 8) : Exec (PcState δ) Unit := do
  packetByte data
  modify fun s => { s with mpacket.byteIndex := (s.mpacket.byteIndex + 1).tmod 3 }

/-- `ps2_mouse_interrupt_handler`. -/
def ps2MouseInterruptHandler : Exec (PcState δ) Unit := do
  match ← ps2WaitRead d ps2DataPort with
  | none => pure ()
  | some data => mouseByte data
  picSendEoi d picIrqPs2Mouse

/-! ## The keyboard -/

/-- `iskeyboard`. -/
def iskeyboard (stale : BitVec 8) : Exec (PcState δ) Bool := do
  match ← ps2IdentifyDevice d stale ps2FirstDevice with
  | none => return false
  | some type =>
    if type = 0x83AB ∨ type = 0x41AB ∨ type = 0xC1AB ∨ type = 0x84AB ∨ type = 0x54AB then
      return true
    else pcReturnError .errDeviceInitFailed false

/-- `ps2_kb_init`; `handler` is the address of `kb_interrupt_asm_handler`. -/
def ps2KbInit (stale : BitVec 8) (handler : BitVec 32) : Exec (PcState δ) Bool := do
  picEnableDisableIrq d picIrqKeyboard false
  if (← iskeyboard d stale) = false then return false
  else if (← ps2WriteDeviceDataWaitAck d ps2FirstDevice ps2DevCmdSetToDefault) = false then
    return false
  else if (← ps2WriteDeviceDataWaitAck d ps2FirstDevice ps2DevCmdEnableScanning) = false then
    return false
  else
    let _ ← ps2Configuration d
      (ps2ConfigFirstPortInterruptEnable ||| ps2ConfigFirstPortTranslationEnable) 0
    kidtEdit 0x21 handler (.ofNat 16 gdtSelectorKcode) idtDesType32InterruptGate 0
    picEnableDisableIrq d picIrqKeyboard true
    return true

/-- `kb_interrupt_handler`, of the `DEBUG` build, which reads the scan code to print it. -/
def kbInterruptHandler : Exec (PcState δ) Unit := do
  let _ ← ps2NoWaitRead d ps2DataPort
  picSendEoi d picIrqKeyboard

/-! ## Interrupts -/

/-- The handler of a hardware interrupt, by its vector: those that the kernel sets up at its start,
and those of the two drivers. -/
def irqHandler : Nat → Option (Exec (PcState δ) Unit)
  | 0x20 => some (timerInterruptEoi d)
  | 0x21 => some (kbInterruptHandler d)
  | 0x27 => some (irq7Handler d)
  | 0x2C => some (ps2MouseInterruptHandler d)
  | 0x2F => some (irq15Handler d)
  | _ => none

/-! ## The start of the kernel -/

/-- The addresses of the handlers in assembly, which the interrupt table leads to. -/
structure AsmHandlers where
  divZero : BitVec 32
  breakpoint : BitVec 32
  invalidOpcode : BitVec 32
  doubleFault : BitVec 32
  generalProtectionFault : BitVec 32
  pageFault : BitVec 32
  timerInterrupt : BitVec 32
  kbInterrupt : BitVec 32
  irq7 : BitVec 32
  ps2MouseInterrupt : BitVec 32
  irq15 : BitVec 32
  sysDummy : BitVec 32
  syscallAsmDespatcher : BitVec 32

/-- `kidt_edit` as `kernel_main` calls it, for a 32 bit interrupt gate in the kernel's segment. -/
def setGate (index : Nat) (func : BitVec 32) (dpl : BitVec 8) : Exec (PcState δ) Unit :=
  kidtEdit index func (.ofNat 16 gdtSelectorKcode) idtDesType32InterruptGate dpl

/-- The gates that `kernel_main` sets in a `DEBUG` build only. -/
def setDebugGates (asm : AsmHandlers) : Exec (PcState δ) Unit := do
  setGate 3 asm.breakpoint 0
  setGate 6 asm.invalidOpcode 0

/-- `kernel_main`, from the set-up of the interrupt table to that of the interrupt controllers. -/
def kernelMainInterrupts (debug : Bool) (asm : AsmHandlers) : Exec (PcState δ) Unit := do
  kidtInit
  setGate 0 asm.divZero 0
  setGate 8 asm.doubleFault 0
  setGate 14 asm.pageFault 0
  setGate 13 asm.generalProtectionFault 0
  when (debug = true) (setDebugGates asm)
  setGate 0x40 asm.sysDummy 3
  setGate 0x50 asm.syscallAsmDespatcher 3
  picInit d 0x20 0x28
  setGate 0x20 asm.timerInterrupt 0
  setGate 0x27 asm.irq7 0
  setGate 0x2F asm.irq15 0

/-- `CONFIG_INTERRUPT_CLOCK_FREQ_HZ`. -/
abbrev configInterruptClockFreqHz : BitVec 32 := 1000

/-- `kernel_main`, where it starts the timer. -/
def kernelMainTimer : Exec (PcState δ) Unit := do
  pitSetInterruptCounter d pitCounterMode2 configInterruptClockFreqHz
  picEnableDisableIrq d picIrqTimer true

/-! ## The speaker -/

/-- `pcspeaker_set_freq`. -/
def pcspeakerSetFreq (freq : BitVec 32) : Exec (PcState δ) Unit := pitSetSpeakerCounter d freq

/-- `pcspeaker_turnon`. -/
def pcspeakerTurnon : Exec (PcState δ) Unit := do
  let data ← ps2NoWaitRead d ps2SpeakerPort
  let _ ← ps2WaitWrite d ps2SpeakerPort (data ||| 3#8)

/-- `pcspeaker_turnoff`, which sets the same bits. -/
def pcspeakerTurnoff : Exec (PcState δ) Unit := do
  let data ← ps2NoWaitRead d ps2SpeakerPort
  let _ ← ps2WaitWrite d ps2SpeakerPort (data ||| 3#8)

end MeghaOS
