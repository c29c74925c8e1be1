import MeghaOS.Ps2
import Mathlib.Tactic.IntervalCases

/-!
# Interrupt controllers

The drivers run on a PC whose controllers are those of `Lib.Pic8259` and whose other hardware is
arbitrary. In every run that starts with `pic_init`, a line is masked as the last call for it left
it (`pic_run_masks`), and what the handlers leave in service blocks no line but one: the handler of
line 15 takes every interrupt for a spurious one, so that the second controller never passes line 15
on again (`pic_run_delivers`).
-/

namespace MeghaOS

open Exec

variable {ρ : Type} {lines : Nat → BitVec 8 × BitVec 8} {rest : Device ρ} {n : Nat}
  {pp : PicPair} {port irq : Nat} {v value : BitVec 8} {u : Unit}

/-! ## Accesses -/

/-- A PC: the controllers at their ports, anything at the others. -/
abbrev picBus (lines : Nat → BitVec 8 × BitVec 8) (rest : Device ρ) :
    Device ((PicPair × Nat) × ρ) := Device.beside PicPair.owns (picDevice lines) rest

variable {s s' : PcState ((PicPair × Nat) × ρ)}

/-- The controllers, without their requests. -/
def PcState.pics (s : PcState ((PicPair × Nat) × ρ)) : PicPair := s.bus.1.1.quiet

/-- A program that leaves the controllers as they are. -/
abbrev KeepsPics {α : Type} (x : Exec (PcState ((PicPair × Nat) × ρ)) α) : Prop :=
  Fixes PcState.pics x

/-- A byte that is written to a port of the controllers reaches them. -/
theorem outb_pics (hport : PicPair.owns port = true)
    (hrun : outb (picBus lines rest) port v s = .ok (u, s')) :
    s'.pics = (s.pics.write port v).quiet := by
  obtain rfl := outb_eq_ok.1 hrun
  simp only [PcState.pics, Device.beside, hport, if_true, picDevice]
  rw [PicPair.quiet_write, PicPair.quiet_request]

/-- One that is written elsewhere does not. -/
theorem outb_keepsPics (hport : PicPair.owns port = false) :
    KeepsPics (outb (picBus lines rest) port v) := by
  intro s u s' hrun
  obtain rfl := outb_eq_ok.1 hrun
  simp [PcState.pics, Device.beside, hport]

/-- Reading changes nothing but what is asked for. -/
theorem inb_keepsPics : KeepsPics (inb (picBus lines rest) port) := by
  intro s u s' hrun
  obtain ⟨rfl, rfl⟩ := inb_eq_ok.1 hrun
  simp only [PcState.pics, Device.beside]
  split_ifs <;> rfl

/-- The data port of the first controller shows its mask. -/
theorem inb_masterData (hrun : inb (picBus lines rest) masterDataPort s = .ok (value, s')) :
    value = s.pics.master.mask := by
  obtain ⟨rfl, rfl⟩ := inb_eq_ok.1 hrun
  rfl

/-- The data port of the second controller shows its mask. -/
theorem inb_slaveData (hrun : inb (picBus lines rest) slaveDataPort s = .ok (value, s')) :
    value = s.pics.slave.mask := by
  obtain ⟨rfl, rfl⟩ := inb_eq_ok.1 hrun
  rfl

/-- The command port of the first controller shows what is in service, when that was asked for. -/
theorem inb_masterCmd (hread : s.pics.master.readsInService = true)
    (hrun : inb (picBus lines rest) masterCmdPort s = .ok (value, s')) :
    value = s.pics.master.inService := by
  obtain ⟨rfl, rfl⟩ := inb_eq_ok.1 hrun
  exact if_pos hread

/-- The same for the second. -/
theorem inb_slaveCmd (hread : s.pics.slave.readsInService = true)
    (hrun : inb (picBus lines rest) slaveCmdPort s = .ok (value, s')) :
    value = s.pics.slave.inService := by
  obtain ⟨rfl, rfl⟩ := inb_eq_ok.1 hrun
  exact if_pos hread

/-! ## Initialisation -/

/-- The delay writes to a port of no controller. -/
theorem outbDelay_pics (hport : PicPair.owns port = true)
    (hrun : outbDelay (picBus lines rest) port v s = .ok (u, s')) :
    s'.pics = (s.pics.write port v).quiet := by
  obtain ⟨u₁, s₁, hout, hdelay⟩ := bind_eq_ok.1 hrun
  have hkeep : KeepsPics (outb (picBus lines rest) 0x80 0) := outb_keepsPics (by decide)
  exact (hkeep s₁ _ s' hdelay).trans (outb_pics hport hout)

/-- What `pic_init` makes of a controller. -/
def Pic8259.initialised (cascade vectorBase mask : BitVec 8) : Pic8259 where
  expects := .mask
  single := false
  needsMode := true
  vectorBase := vectorBase
  cascade := cascade
  mode := 1
  mask := mask
  requests := 0
  inService := 0
  readsInService := false

/-- The first vector is a multiple of eight. -/
theorem vector_and_mask (h : v &&& 7#8 = 0#8) : v &&& 0xF8#8 = v := by
  have hor : v &&& 0xF8#8 ||| v &&& 7#8 = v := by
    rw [← BitVec.and_or_distrib_left]
    exact BitVec.and_allOnes
  rwa [h, BitVec.or_zero] at hor

/-- Whatever state the controllers are in, also in the middle of an initialisation, `pic_init`
leaves them initialised. -/
theorem picInit_pics {masterVectorStart slaveVectorStart : BitVec 8}
    (hrun : picInit (picBus lines rest) masterVectorStart slaveVectorStart s = .ok (u, s')) :
    s'.pics = ⟨.initialised 4 masterVectorStart 0xFB, .initialised 2 slaveVectorStart 0xFF⟩ := by
  rw [picInit, pcAssert_bind_eq_ok, pcAssert_bind_eq_ok] at hrun
  obtain ⟨hmaster, hslave, hrun⟩ := hrun
  obtain ⟨_, s₁, h₁, hrun⟩ := bind_eq_ok.1 hrun
  obtain ⟨_, s₂, h₂, hrun⟩ := bind_eq_ok.1 hrun
  obtain ⟨_, s₃, h₃, hrun⟩ := bind_eq_ok.1 hrun
  obtain ⟨_, s₄, h₄, hrun⟩ := bind_eq_ok.1 hrun
  obtain ⟨_, s₅, h₅, hrun⟩ := bind_eq_ok.1 hrun
  obtain ⟨_, s₆, h₆, hrun⟩ := bind_eq_ok.1 hrun
  obtain ⟨_, s₇, h₇, hrun⟩ := bind_eq_ok.1 hrun
  obtain ⟨_, s₈, h₈, hrun⟩ := bind_eq_ok.1 hrun
  obtain ⟨_, s₉, h₉, h₁₀⟩ := bind_eq_ok.1 hrun
  rw [outbDelay_pics rfl h₁₀, outbDelay_pics rfl h₉, outbDelay_pics rfl h₈, outbDelay_pics rfl h₇,
    outbDelay_pics rfl h₆, outbDelay_pics rfl h₅, outbDelay_pics rfl h₄, outbDelay_pics rfl h₃,
    outbDelay_pics rfl h₂, outbDelay_pics rfl h₁]
  have hm := vector_and_mask hmaster
  have hs := vector_and_mask hslave
  simp only [PicPair.write]
  simp [Pic8259.command, Pic8259.data, PicPair.quiet, Pic8259.quiet, Pic8259.afterCascade,
    Pic8259.initialised, hm, hs]
  rfl

/-! ## Masks -/

/-- Whether a line is masked. -/
def PicPair.masked (p : PicPair) (irq : Nat) : Bool :=
  if irq < 8 then p.master.mask.getLsbD irq else p.slave.mask.getLsbD (irq - 8)

/-- The mask that `pic_enable_disable_irq` writes. -/
def changedMask (mask : BitVec 8) (irq : Nat) (enable : Bool) : BitVec 8 :=
  let value : BitVec 32 := mask.setWidth 32
  (if enable then value &&& ~~~ (1#32 <<< irq) else value ||| 1#32 <<< irq).setWidth 8

/-- `pic_enable_disable_irq` changes the bit of its line. -/
theorem getLsbD_changedMask {mask : BitVec 8} {irq i : Nat} {enable : Bool} (hi : i < 8) :
    (changedMask mask irq enable).getLsbD i = if i = irq then !enable else mask.getLsbD i := by
  cases enable <;> by_cases h : i = irq <;> simp [changedMask, hi, h] <;> omega

/-- The controllers with the mask of one line changed. -/
def PicPair.setMask (p : PicPair) (irq : Nat) (enable : Bool) : PicPair :=
  if irq ≥ 8 then { p with slave.mask := changedMask p.slave.mask (irq - 8) enable }
  else { p with master.mask := changedMask p.master.mask irq enable }

/-- Once initialised, the controllers take the new mask. -/
theorem picEnableDisableIrq_pics {enable : Bool} (hm : s.pics.master.expects = .mask)
    (hs : s.pics.slave.expects = .mask)
    (hrun : picEnableDisableIrq (picBus lines rest) irq enable s = .ok (u, s')) :
    irq ≤ 16 ∧ s'.pics = s.pics.setMask irq enable := by
  rw [picEnableDisableIrq] at hrun
  dsimp only at hrun
  rw [pcAssert_bind_eq_ok] at hrun
  obtain ⟨hirq, hrun⟩ := hrun
  obtain ⟨value, s₁, hin, hout⟩ := bind_eq_ok.1 hrun
  have hkeep := inb_keepsPics _ _ _ hin
  refine ⟨by split_ifs at hirq <;> omega, ?_⟩
  rw [PicPair.setMask]
  by_cases hslave : irq ≥ 8
  · simp only [hslave, if_true] at hin hout ⊢
    rw [outb_pics rfl hout, hkeep, inb_slaveData hin]
    exact congrArg (fun m => (PicPair.mk s.pics.master m).quiet) (Pic8259.data_of_mask hs)
  · simp only [hslave, if_false] at hin hout ⊢
    rw [outb_pics rfl hout, hkeep, inb_masterData hin]
    exact congrArg (fun m => (PicPair.mk m s.pics.slave).quiet) (Pic8259.data_of_mask hm)

/-! ## End of interrupt -/

/-- The commands of `pic_read_IRR_ISR` choose the register to be read. -/
theorem Pic8259.command_read (p : Pic8259) (readIsr : Bool) :
    p.command (if readIsr then ocw3ReadIsr else ocw3ReadIrr) =
      { p with readsInService := readIsr } := by
  cases readIsr <;> rfl

/-- The controllers when `pic_init` is over, by their masks, what is in service, and the registers
that were last asked for. -/
def PicPair.running (masks services : BitVec 8 × BitVec 8) (reads : Bool × Bool) : PicPair where
  master := { Pic8259.initialised 4 0x20 masks.1 with
    inService := services.1, readsInService := reads.1 }
  slave := { Pic8259.initialised 2 0x28 masks.2 with
    inService := services.2, readsInService := reads.2 }

variable {masks services : BitVec 8 × BitVec 8} {reads : Bool × Bool} {enable : Bool}

section

variable (masks services reads)

/-- An end of interrupt ends the highest line in service of the first controller. -/
theorem running_masterEoi :
    ((PicPair.running masks services reads).write masterCmdPort 0x20).quiet =
      .running masks (Pic8259.clearHighest services.1, services.2) reads :=
  congrArg (fun m => PicPair.mk m.quiet _) (Pic8259.command_eoi _)

/-- The same for the second. -/
theorem running_slaveEoi :
    ((PicPair.running masks services reads).write slaveCmdPort 0x20).quiet =
      .running masks (services.1, Pic8259.clearHighest services.2) reads :=
  congrArg (fun m => PicPair.mk _ m.quiet) (Pic8259.command_eoi _)

/-- The choice of the register changes nothing else in the first controller. -/
theorem running_masterRead (readIsr : Bool) :
    ((PicPair.running masks services reads).write masterCmdPort
      (if readIsr then ocw3ReadIsr else ocw3ReadIrr)).quiet =
        .running masks services (readIsr, reads.2) :=
  congrArg (fun m => PicPair.mk m.quiet _) (Pic8259.command_read _ readIsr)

/-- The same for the second. -/
theorem running_slaveRead (readIsr : Bool) :
    ((PicPair.running masks services reads).write slaveCmdPort
      (if readIsr then ocw3ReadIsr else ocw3ReadIrr)).quiet =
        .running masks services (reads.1, readIsr) :=
  congrArg (fun m => PicPair.mk _ m.quiet) (Pic8259.command_read _ readIsr)

end

/-- `pic_send_eoi` tells the second controller for the lines from eight on, and the first always. -/
theorem picSendEoi_pics (h : s.pics = .running masks services reads)
    (hrun : picSendEoi (picBus lines rest) irq s = .ok (u, s')) :
    s'.pics = .running masks (Pic8259.clearHighest services.1,
      if irq ≥ 8 then Pic8259.clearHighest services.2 else services.2) reads := by
  rw [picSendEoi, pcAssert_bind_eq_ok] at hrun
  obtain ⟨-, hrun⟩ := hrun
  obtain ⟨_, s₁, hslave, hmaster⟩ := bind_eq_ok.1 hrun
  rw [outb_pics rfl hmaster]
  rcases em (irq ≥ 8) with hirq | hirq
  · rw [when_true hirq] at hslave
    rw [outb_pics rfl hslave, h, if_pos hirq, running_slaveEoi, running_masterEoi]
  · rw [when_false hirq] at hslave
    cases hslave
    rw [h, if_neg hirq, running_masterEoi]

/-- A read of `pic_read_IRR_ISR`. -/
theorem readIf_keepsPics {wanted : Bool} : KeepsPics (readIf (picBus lines rest) wanted port) :=
  .ite (.bind inb_keepsPics fun _ => .pure _) (.pure _)

/-- `pic_read_IRR_ISR` returns what is in service. -/
theorem picReadIrrIsr_pics {readIsr master slave : Bool} {r : Option Nat × Option Nat}
    (h : s.pics = .running masks services reads)
    (hrun : picReadIrrIsr (picBus lines rest) readIsr master slave s = .ok (r, s')) :
    s'.pics = .running masks services (readIsr, readIsr) ∧
      (readIsr = true → master = true → r.1 = some services.1.toNat) ∧
      (readIsr = true → slave = true → r.2 = some services.2.toNat) := by
  obtain ⟨_, s₁, hm, hrun⟩ := bind_eq_ok.1 hrun
  obtain ⟨_, s₂, hs, hrun⟩ := bind_eq_ok.1 hrun
  have h₂ : s₂.pics = .running masks services (readIsr, readIsr) := by
    rw [outb_pics rfl hs, outb_pics rfl hm, h, running_masterRead, running_slaveRead]
  obtain ⟨m, s₃, hreadm, hrun⟩ := bind_eq_ok.1 hrun
  obtain ⟨sl, s₄, hreads, hrun⟩ := bind_eq_ok.1 hrun
  cases hrun
  have h₃ := (readIf_keepsPics _ _ _ hreadm).trans h₂
  refine ⟨(readIf_keepsPics _ _ _ hreads).trans h₃, ?_, ?_⟩
  · rintro rfl rfl
    obtain ⟨value, _, hin, hpure⟩ := bind_eq_ok.1 hreadm
    cases hpure
    rw [inb_masterCmd (by rw [h₂]; rfl) hin, h₂]
    rfl
  · rintro rfl rfl
    obtain ⟨value, _, hin, hpure⟩ := bind_eq_ok.1 hreads
    cases hpure
    rw [inb_slaveCmd (by rw [h₃]; rfl) hin, h₃]
    rfl

/-! ## Handlers -/

/-- `BIT_ISSET` with the bit of line 7. -/
theorem bitIsSet_seven : ∀ v : BitVec 8, bitIsSet v.toNat (1 <<< picIrq7) = v.getLsbD 7 := by
  decide

/-- A byte has no bit 15. -/
theorem bitIsSet_fifteen : ∀ v : BitVec 8, bitIsSet v.toNat (1 <<< picIrq15) = false := by
  decide

/-- The timer's interrupt ends its line. -/
theorem timerInterruptEoi_pics (h : s.pics = .running masks services reads)
    (hrun : timerInterruptEoi (picBus lines rest) s = .ok (u, s')) :
    ∃ reads', s'.pics = .running masks (Pic8259.clearHighest services.1, services.2) reads' := by
  obtain ⟨r, s₁, hread, hrun⟩ := bind_eq_ok.1 hrun
  exact ⟨_, picSendEoi_pics (picReadIrrIsr_pics h hread).1 hrun⟩

/-- The handler of line 7 ends the interrupt if it is in service. -/
theorem irq7Handler_pics (h : s.pics = .running masks services reads)
    (hrun : irq7Handler (picBus lines rest) s = .ok (u, s')) :
    ∃ reads', s'.pics = .running masks (if services.1.getLsbD 7 then Pic8259.clearHighest services.1
      else services.1, services.2) reads' := by
  obtain ⟨⟨master, slave⟩, s₁, hread, hrun⟩ := bind_eq_ok.1 hrun
  obtain ⟨h₁, hvalue, -⟩ := picReadIrrIsr_pics h hread
  have hbit : bitIsSet (master.getD 0) (1 <<< picIrq7) = services.1.getLsbD 7 := by
    rw [show master = some _ from hvalue rfl rfl]
    exact bitIsSet_seven _
  rcases ite_eq_ok.1 hrun with ⟨hunset, hrun⟩ | ⟨hset, hrun⟩
  · obtain ⟨r, s₂, hread₂, hrun⟩ := bind_eq_ok.1 hrun
    cases hrun
    rw [bitIsUnset, hbit] at hunset
    exact ⟨_, by rw [if_neg (by simpa using hunset)]; exact (picReadIrrIsr_pics h₁ hread₂).1⟩
  · rw [bitIsUnset, hbit] at hset
    exact ⟨_, by rw [if_pos (by simpa using hset)]; exact picSendEoi_pics h₁ hrun⟩

/-- The handler of line 15 looks for bit 15 in a register of eight bits, so that it takes every
interrupt for a spurious one and ends only that of the first controller. -/
theorem irq15Handler_pics (h : s.pics = .running masks services reads)
    (hrun : irq15Handler (picBus lines rest) s = .ok (u, s')) :
    ∃ reads', s'.pics = .running masks (Pic8259.clearHighest services.1, services.2) reads' := by
  obtain ⟨⟨master, slave⟩, s₁, hread, hrun⟩ := bind_eq_ok.1 hrun
  obtain ⟨h₁, -, hvalue⟩ := picReadIrrIsr_pics h hread
  have hbit : bitIsSet (slave.getD 0) (1 <<< picIrq15) = false := by
    rw [show slave = some _ from hvalue rfl rfl]
    exact bitIsSet_fifteen _
  rcases ite_eq_ok.1 hrun with ⟨hunset, hrun⟩ | ⟨hset, hrun⟩
  · obtain ⟨r, s₂, hread₂, hrun⟩ := bind_eq_ok.1 hrun
    exact ⟨_, picSendEoi_pics (picReadIrrIsr_pics h₁ hread₂).1 hrun⟩
  · rw [bitIsUnset, hbit] at hset
    exact absurd rfl hset

/-- A byte of the mouse. -/
theorem mouseByte_keepsPics :
    KeepsPics (mouseByte v : Exec (PcState ((PicPair × Nat) × ρ)) Unit) := by
  refine .bind (.bind .get fun s => ?_) fun _ => .modify fun _ => rfl
  dsimp only
  split_ifs
  · exact .modify fun _ => rfl
  · exact .modify fun _ => rfl
  · exact .bind (.modify fun _ => rfl) fun _ => .modify fun _ => rfl
  · exact .halt _

/-- Polling another device leaves the interrupt controllers alone. -/
theorem poll_keepsPics {ready : BitVec 8 → Bool} (hport : PicPair.owns port = false) :
    KeepsPics (onBus ((picBus lines rest).poll port ready n)) := by
  intro s b s' hrun
  obtain ⟨bus, hpoll, rfl⟩ := onBus_eq_ok.1 hrun
  exact congrArg (fun c : PicPair × Nat => c.1.quiet) (Device.poll_beside_fst hport hpoll)

/-- `ps2_wait_read`. -/
theorem ps2WaitRead_keepsPics : KeepsPics (ps2WaitRead (picBus lines rest) port) := by
  refine .bind (poll_keepsPics (by decide)) fun b => .ite ?_ (.bind inb_keepsPics fun _ => .pure _)
  exact .bind (.modify fun _ => rfl) fun _ => .pure _

/-- The mouse's interrupt ends its line in both controllers. -/
theorem ps2MouseInterruptHandler_pics (h : s.pics = .running masks services reads)
    (hrun : ps2MouseInterruptHandler (picBus lines rest) s = .ok (u, s')) :
    s'.pics = .running masks
      (Pic8259.clearHighest services.1, Pic8259.clearHighest services.2) reads := by
  obtain ⟨data, s₁, hread, hrun⟩ := bind_eq_ok.1 hrun
  have h₁ := (ps2WaitRead_keepsPics _ _ _ hread).trans h
  cases data with
  | none => exact picSendEoi_pics h₁ hrun
  | some data =>
    obtain ⟨_, s₂, hbyte, hrun⟩ := bind_eq_ok.1 hrun
    exact picSendEoi_pics ((mouseByte_keepsPics _ _ _ hbyte).trans h₁) hrun

/-- The keyboard's interrupt ends its line. -/
theorem kbInterruptHandler_pics (h : s.pics = .running masks services reads)
    (hrun : kbInterruptHandler (picBus lines rest) s = .ok (u, s')) :
    s'.pics = .running masks (Pic8259.clearHighest services.1, services.2) reads := by
  obtain ⟨data, s₁, hread, hrun⟩ := bind_eq_ok.1 hrun
  exact picSendEoi_pics ((inb_keepsPics _ _ _ hread).trans h) hrun

/-! ## Interrupts -/

/-- What the acknowledge cycle brings when nothing is in service at the first controller: a spurious
interrupt of either, or a line that is then in service. -/
inductive Acknowledged (masks : BitVec 8 × BitVec 8) (slaveService : BitVec 8)
    (reads : Bool × Bool) : Nat × Option Nat × PicPair → Prop
  | spuriousMaster {p : PicPair} : p.quiet = .running masks (0, slaveService) reads →
      Acknowledged masks slaveService reads (0x27, none, p)
  | master {p : PicPair} {i : Nat} : i < 8 → i ≠ 2 →
      p.quiet = .running masks (Pic8259.bit i, slaveService) reads →
      Acknowledged masks slaveService reads (0x20 + i, some i, p)
  | spuriousSlave {p : PicPair} :
      p.quiet = .running masks (Pic8259.bit 2, slaveService) reads →
      Acknowledged masks slaveService reads (0x2F, none, p)
  | slave {p : PicPair} {i : Nat} : i < 8 →
      (∀ k, Pic8259.highest slaveService = some k → i < k) →
      p.quiet = .running masks (Pic8259.bit 2, slaveService ||| Pic8259.bit i) reads →
      Acknowledged masks slaveService reads (0x28 + i, some (8 + i), p)

/-- What the acknowledge cycle does while nothing of the first controller is in service. -/
theorem PicPair.acknowledge_cases {slaveService : BitVec 8}
    (h : pp.quiet = .running masks (0, slaveService) reads) :
    Acknowledged masks slaveService reads pp.acknowledge := by
  have hm : pp.master.quiet = _ := congrArg PicPair.master h
  have hs : pp.slave.quiet = _ := congrArg PicPair.slave h
  have hmode : pp.master.mode = 1 := congrArg Pic8259.mode hm
  have hmode' : pp.slave.mode = 1 := congrArg Pic8259.mode hs
  have hserv : pp.master.inService = 0 := congrArg Pic8259.inService hm
  have hserv' : pp.slave.inService = slaveService := congrArg Pic8259.inService hs
  have hbase : pp.master.vectorBase = 0x20 := congrArg Pic8259.vectorBase hm
  have hbase' : pp.slave.vectorBase = 0x28 := congrArg Pic8259.vectorBase hs
  -- a request of the first controller is then the only thing in service there
  have hmaster : ∀ {i m}, pp.master.acknowledge = (some i, m) → i < 8 ∧
      m.quiet = (PicPair.running masks (Pic8259.bit i, slaveService) reads).master := by
    intro i m hack
    obtain ⟨hi, -, hquiet⟩ := Pic8259.acknowledge_some (by rw [hmode]; decide) hack
    have hzero : (0 : BitVec 8) ||| Pic8259.bit i = Pic8259.bit i := BitVec.zero_or
    rw [hserv, hm, hzero] at hquiet
    exact ⟨hi, hquiet⟩
  simp only [PicPair.acknowledge]
  cases hack : pp.master.acknowledge with
  | mk i m =>
    rcases i with _ | i
    · obtain rfl := Pic8259.acknowledge_none hack
      have hvector : pp.master.vector none = 0x27 := by
        rw [Pic8259.vector, hbase]
        rfl
      rw [if_neg (by simp), hvector]
      exact .spuriousMaster h
    obtain ⟨hi, hquiet⟩ := hmaster hack
    by_cases htwo : i = 2
    · rw [if_pos (by rw [htwo])]
      rw [htwo] at hquiet
      cases hack' : pp.slave.acknowledge with
      | mk j sl =>
        rcases j with _ | j
        · obtain rfl := Pic8259.acknowledge_none hack'
          have hvector : pp.slave.vector none = 0x2F := by
            rw [Pic8259.vector, hbase']
            rfl
          rw [hvector]
          exact .spuriousSlave (congrArg₂ PicPair.mk hquiet hs)
        · obtain ⟨hj, hfirst, hquiet'⟩ := Pic8259.acknowledge_some (by rw [hmode']; decide) hack'
          rw [hserv'] at hfirst hquiet'
          rw [hs] at hquiet'
          have hvector : sl.vector (some j) = 0x28 + j := by
            rw [Pic8259.vector, show sl.vectorBase = 0x28 from congrArg Pic8259.vectorBase hquiet']
            rfl
          rw [hvector]
          exact .slave hj hfirst (congrArg₂ PicPair.mk hquiet hquiet')
    · have hvector : m.vector (some i) = 0x20 + i := by
        rw [Pic8259.vector, show m.vectorBase = 0x20 from congrArg Pic8259.vectorBase hquiet]
        rfl
      rw [if_neg (by simpa using htwo), hvector]
      exact .master hi htwo (congrArg₂ PicPair.mk hquiet hs)

/-- What the handlers leave in service: nothing, but for line 15 once it was in service. -/
def leftInService (line15 : Bool) : BitVec 8 × BitVec 8 := (0, if line15 then 0x80 else 0)

/-- A line that was alone in service leaves none. -/
theorem clearHighest_bit : ∀ i < 8, Pic8259.clearHighest (Pic8259.bit i) = 0 := by decide

/-- The end of a line above 15 leaves line 15 in service. -/
theorem clearHighest_left (line15 : Bool) : ∀ i < 7,
    Pic8259.clearHighest ((leftInService line15).2 ||| Pic8259.bit i) =
      (leftInService line15).2 := by
  cases line15 <;> decide

/-- A handler of the first controller's lines leaves nothing of them in service. -/
theorem masterHandler_pics {i : Nat} {sv : BitVec 8}
    {handler : Exec (PcState ((PicPair × Nat) × ρ)) Unit} (hi : i < 8)
    (hhandler : irqHandler (picBus lines rest) (0x20 + i) = some handler)
    (hs : s.pics = .running masks (Pic8259.bit i, sv) reads) (hrun : handler s = .ok (u, s')) :
    ∃ reads', s'.pics = .running masks (0, sv) reads' := by
  have hline : ∀ reads', PicPair.running masks (Pic8259.clearHighest (Pic8259.bit i), sv) reads' =
      .running masks (0, sv) reads' := fun _ => by rw [clearHighest_bit i hi]
  interval_cases i <;> cases hhandler
  · obtain ⟨reads', h⟩ := timerInterruptEoi_pics hs hrun
    exact ⟨reads', h.trans (hline _)⟩
  · exact ⟨reads, (kbInterruptHandler_pics hs hrun).trans (hline _)⟩
  · obtain ⟨reads', h⟩ := irq7Handler_pics hs hrun
    rw [if_pos (show (Pic8259.bit 7).getLsbD 7 = true by decide)] at h
    exact ⟨reads', h.trans (hline _)⟩

/-- An interrupt is over with nothing more in service than before, unless it was one of line 15. -/
theorem interrupt_pics {line15 : Bool} {r : Nat × Option Nat × PicPair}
    {handler : Exec (PcState ((PicPair × Nat) × ρ)) Unit}
    (hack : Acknowledged masks (leftInService line15).2 reads r)
    (hhandler : irqHandler (picBus lines rest) r.1 = some handler)
    (hs : s.pics = r.2.2.quiet) (hrun : handler s = .ok (u, s')) :
    ∃ reads', s'.pics =
      .running masks (leftInService (line15 || r.2.1 == some picIrq15)) reads' := by
  cases hack with
  | spuriousMaster hquiet =>
    cases hhandler
    obtain ⟨reads', h⟩ := irq7Handler_pics (hs.trans hquiet) hrun
    exact ⟨reads', by rw [h]; cases line15 <;> rfl⟩
  | @master _ i hi htwo hquiet =>
    obtain ⟨reads', h⟩ := masterHandler_pics hi hhandler (hs.trans hquiet) hrun
    have hline : (some i == some 15) = false := by
      simp
      omega
    rw [show (some i == some picIrq15) = false from hline, Bool.or_false]
    exact ⟨reads', h⟩
  | spuriousSlave hquiet =>
    cases hhandler
    obtain ⟨reads', h⟩ := irq15Handler_pics (hs.trans hquiet) hrun
    rw [clearHighest_bit 2 (by decide)] at h
    exact ⟨reads', by rw [h]; cases line15 <;> rfl⟩
  | @slave _ i hi hfirst hquiet =>
    interval_cases i <;> cases hhandler
    · have h := ps2MouseInterruptHandler_pics (hs.trans hquiet) hrun
      rw [clearHighest_bit 2 (by decide), clearHighest_left line15 4 (by decide)] at h
      exact ⟨reads, by rw [h]; cases line15 <;> rfl⟩
    · -- line 15 is not passed on while it is in service
      obtain rfl : line15 = false := by
        cases line15 with
        | false => rfl
        | true => exact absurd (hfirst 7 (by decide)) (Nat.lt_irrefl 7)
      obtain ⟨reads', h⟩ := irq15Handler_pics (hs.trans hquiet) hrun
      rw [clearHighest_bit 2 (by decide)] at h
      exact ⟨reads', h⟩

/-! ## Runs -/

/-- The states of the drivers from a call of `pic_init` on, with the lines that were last enabled
and whether line 15 was ever in service: lines are enabled and disabled, interrupts are acknowledged
and handled, and anything else may change but the registers of the controllers. -/
inductive PicRun (lines : Nat → BitVec 8 × BitVec 8) (rest : Device ρ) :
    PcState ((PicPair × Nat) × ρ) → (Nat → Bool) → Bool → Prop
  | init {s s' : PcState ((PicPair × Nat) × ρ)} :
      picInit (picBus lines rest) 0x20 0x28 s = .ok ((), s') → PicRun lines rest s' (· == 2) false
  | enable {s s' : PcState ((PicPair × Nat) × ρ)} {enabled : Nat → Bool} {line15 enable : Bool}
      {irq : Nat} : PicRun lines rest s enabled line15 →
      picEnableDisableIrq (picBus lines rest) irq enable s = .ok ((), s') →
      PicRun lines rest s' (fun i => if i = irq then enable else enabled i) line15
  | other {s s' : PcState ((PicPair × Nat) × ρ)} {enabled : Nat → Bool} {line15 : Bool} :
      PicRun lines rest s enabled line15 → s'.pics = s.pics → PicRun lines rest s' enabled line15
  | interrupt {s s' : PcState ((PicPair × Nat) × ρ)} {enabled : Nat → Bool} {line15 : Bool}
      {vector : Nat} {line : Option Nat} {p : PicPair}
      {handler : Exec (PcState ((PicPair × Nat) × ρ)) Unit} : PicRun lines rest s enabled line15 →
      s.bus.1.1.acknowledge = (vector, line, p) →
      irqHandler (picBus lines rest) vector = some handler →
      handler { s with bus.1.1 := p } = .ok ((), s') →
      PicRun lines rest s' enabled (line15 || line == some picIrq15)

/-- Whether a line is masked is a bit of the masks. -/
theorem masked_running {irq : Nat} : (PicPair.running masks services reads).masked irq =
    if irq < 8 then masks.1.getLsbD irq else masks.2.getLsbD (irq - 8) := rfl

/-- A mask that is set changes its own line. -/
theorem running_setMask {irq : Nat} : ∃ masks',
    (PicPair.running masks services reads).setMask irq enable = .running masks' services reads ∧
      ∀ i < 16, (PicPair.running masks' services reads).masked i =
        if i = irq then !enable else (PicPair.running masks services reads).masked i := by
  rw [PicPair.setMask]
  split_ifs with hirq
  · refine ⟨(masks.1, changedMask masks.2 (irq - 8) enable), rfl, fun i hi => ?_⟩
    rw [masked_running, masked_running]
    by_cases hi' : i < 8
    · rw [if_pos hi', if_pos hi', if_neg (by omega)]
    · rw [if_neg hi', if_neg hi', getLsbD_changedMask (by omega)]
      exact if_congr (by omega) rfl rfl
  · refine ⟨(changedMask masks.1 irq enable, masks.2), rfl, fun i hi => ?_⟩
    rw [masked_running, masked_running]
    by_cases hi' : i < 8
    · rw [if_pos hi', if_pos hi', getLsbD_changedMask hi']
    · rw [if_neg hi', if_neg hi', if_neg (by omega)]

/-- The invariant: the controllers are initialised, nothing but line 15 is left in service, and the
masks are the enabled lines. -/
theorem PicRun.inv {enabled : Nat → Bool} {line15 : Bool} (h : PicRun lines rest s enabled line15) :
    ∃ masks reads, s.pics = .running masks (leftInService line15) reads ∧
      ∀ irq < 16, s.pics.masked irq = !enabled irq := by
  induction h with
  | init hrun =>
    have h := picInit_pics hrun
    refine ⟨(0xFB, 0xFF), (false, false), h, fun irq hirq => ?_⟩
    rw [h]
    interval_cases irq <;> rfl
  | @enable s s' enabled line15 enable irq _ hrun ih =>
    obtain ⟨masks, reads, hs, hmasked⟩ := ih
    obtain ⟨-, h⟩ := picEnableDisableIrq_pics (by rw [hs]; rfl) (by rw [hs]; rfl) hrun
    obtain ⟨masks', hset, hmasks⟩ :=
      @running_setMask masks (leftInService line15) reads enable irq
    rw [hs, hset] at h
    refine ⟨masks', reads, h, fun i hi => ?_⟩
    have hold := hmasked i hi
    rw [hs] at hold
    rw [h, hmasks i hi, hold]
    show _ = !(if i = irq then enable else enabled i)
    split_ifs <;> rfl
  | other _ hsame ih => rwa [hsame]
  | @interrupt s s' enabled line15 vector line p handler _ hack hhandler hrun ih =>
    obtain ⟨masks, reads, hs, hmasked⟩ := ih
    have hcases : Acknowledged masks (leftInService line15).2 reads s.bus.1.1.acknowledge :=
      PicPair.acknowledge_cases hs
    rw [hack] at hcases
    obtain ⟨reads', h⟩ := interrupt_pics hcases hhandler (s := { s with bus.1.1 := p }) rfl hrun
    refine ⟨masks, reads', h, fun irq hirq => ?_⟩
    rw [h, ← hmasked irq hirq, hs]
    rfl

/-- A line is enabled or disabled as the last call of `pic_enable_disable_irq` for it left it, in
every state of a run. -/
theorem pic_run_masks {enabled : Nat → Bool} {line15 : Bool}
    (h : PicRun lines rest s enabled line15) {irq : Nat} (hirq : irq < 16) :
    s.bus.1.1.masked irq = !enabled irq := by
  obtain ⟨masks, reads, hs, hmasked⟩ := h.inv
  exact hmasked irq hirq

/-- What is left in service, as the controllers have it. -/
theorem PicRun.inService {enabled : Nat → Bool} {line15 : Bool}
    (h : PicRun lines rest s enabled line15) :
    (s.bus.1.1.master.inService, s.bus.1.1.slave.inService) = leftInService line15 := by
  obtain ⟨masks, reads, hs, -⟩ := h.inv
  exact congrArg (fun p : PicPair => (p.master.inService, p.slave.inService)) hs

/-- Every interrupt that was handled is over, and no request waits for a line of lower priority:
the controllers pass on what is pending. Only line 15 is not passed on again once it was in
service. -/
theorem pic_run_delivers {enabled : Nat → Bool} {line15 : Bool}
    (h : PicRun lines rest s enabled line15) :
    s.bus.1.1.master.deliverable = s.bus.1.1.master.pending ∧
      s.bus.1.1.slave.deliverable =
        if line15 = true ∧ s.bus.1.1.slave.pending = some 7 then none
        else s.bus.1.1.slave.pending := by
  have hserv := h.inService
  refine ⟨Pic8259.deliverable_of_idle (congrArg Prod.fst hserv), ?_⟩
  have hslave : s.bus.1.1.slave.inService = _ := congrArg Prod.snd hserv
  cases line15 with
  | false => simp [Pic8259.deliverable_of_idle hslave]
  | true => simp [Pic8259.deliverable_of_seven hslave]

/-! ### Line 15 -/

/-- Other hardware whose status port tells that a byte is there. -/
def readyPorts : Device Unit := ⟨fun _ u => (1, u), fun _ _ u => u⟩

/-- Lines that never ask for an interrupt by themselves. -/
def quietLines : Nat → BitVec 8 × BitVec 8 := fun _ => (0, 0)

/-- The drivers before their start, with controllers in the middle of an initialisation. -/
def pcStart : PcState ((PicPair × Nat) × Unit) where
  bus :=
    let p : Pic8259 := ⟨.cascade, false, true, 0x50, 9, 0, 0, 1, 3, true⟩
    ((⟨p, p⟩, 0), ())
  errorNumber := .errNone
  idt _ := .zero
  devices _ := ⟨false, false⟩
  mpacket := ⟨0, 0, 0, 0⟩
  mousePosition := ⟨0, 0, false, false, false⟩
  mouseStatusOriginal := ⟨0, 0, 0, 0⟩

/-- The controllers are initialised, and line 15 is enabled. -/
def pcWithLine15 : PcState ((PicPair × Nat) × Unit) :=
  (picEnableDisableIrq (picBus quietLines readyPorts) 15 true).finalState
    ((picInit (picBus quietLines readyPorts) 0x20 0x28).finalState pcStart)

/-- Line 15 asks for an interrupt. -/
def pcRequested : PcState ((PicPair × Nat) × Unit) :=
  { pcWithLine15 with bus.1.1 := pcWithLine15.bus.1.1.request (4, 0x80) }

/-- Line 15 is enabled. -/
theorem pcWithLine15_run : PicRun quietLines readyPorts pcWithLine15
    (fun i => if i = 15 then true else i == 2) false :=
  (PicRun.init (eq_ok_finalState rfl)).enable (eq_ok_finalState rfl)

/-- Line 15 is not masked, and line 14 is. -/
theorem pic_run_masks_line15 : pcWithLine15.bus.1.1.masked 15 = false ∧
    pcWithLine15.bus.1.1.masked 14 = true :=
  ⟨pic_run_masks pcWithLine15_run (show 15 < 16 by decide),
    pic_run_masks pcWithLine15_run (show 14 < 16 by decide)⟩

/-- The interrupt of line 15 is handled, and the line asks for another one. -/
def pcRequestedAgain : PcState ((PicPair × Nat) × Unit) :=
  let handled := (irq15Handler (picBus quietLines readyPorts)).finalState
    { pcRequested with bus.1.1 := pcRequested.bus.1.1.acknowledge.2.2 }
  { handled with bus.1.1 := handled.bus.1.1.request (4, 0x80) }

/-- Its interrupt was taken, and the line asks again. -/
theorem pcRequestedAgain_run : PicRun quietLines readyPorts pcRequestedAgain
    (fun i => if i = 15 then true else i == 2) true := by
  have hrequested : PicRun quietLines readyPorts pcRequested _ _ := pcWithLine15_run.other rfl
  have hack : pcRequested.bus.1.1.acknowledge =
    (0x2F, some 15, pcRequested.bus.1.1.acknowledge.2.2) := by decide
  have hhandled := hrequested.interrupt hack rfl (eq_ok_finalState rfl)
  exact hhandled.other rfl

/-- The second interrupt of line 15 never comes. -/
theorem pic_run_delivers_line15 : pcRequestedAgain.bus.1.1.slave.pending = some 7 ∧
    pcRequestedAgain.bus.1.1.slave.deliverable = none := by
  have hpending : pcRequestedAgain.bus.1.1.slave.pending = some 7 := by decide
  have h := (pic_run_delivers pcRequestedAgain_run).2
  exact ⟨hpending, h.trans (if_pos ⟨rfl, hpending⟩)⟩

end MeghaOS
