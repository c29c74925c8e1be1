import MeghaOS.Ps2

/-!
# Transfers with the PS/2 controller

The drivers reach the controller only through `ps2_canRead`, `ps2_wait_read` and `ps2_wait_write`,
and the loop that empties the output buffer. What holds of these (`WaitLogic`) then holds of every
function of the drivers, which is shown here once, with the number of waits that the function makes.
The first such logic is the handshake: on any hardware, whatever it answers, a byte goes to the
controller or comes from it only right after a status that allows it, and no call makes more
accesses than its waits have (`ps2_run_handshake`).
-/

namespace MeghaOS

open Exec

variable {δ : Type} {d : Device δ} {deviceId irq port m n turns : Nat}
  {cmd data enabled disabled stale v : BitVec 8}

/-! ## Programs made of waits -/

/-- The ports that the drivers write after a wait. -/
abbrev IsPs2Port (port : Nat) : Prop :=
  port = ps2DataPort ∨ port = ps2SpeakerPort ∨ port = ps2CmdPort

/-- What can be said of programs that transfer bytes after waits only, by the number of waits. -/
structure WaitLogic (d : Device δ) where
  Holds : {α : Type} → Nat → Exec (PcState δ) α → Prop
  mono {α : Type} {m n : Nat} {x : Exec (PcState δ) α} : Holds m x → m ≤ n → Holds n x
  of_fixes {α : Type} {x : Exec (PcState δ) α} : Fixes (fun s => (s.bus, s.idt)) x → Holds 0 x
  seq {α β : Type} {m n k : Nat} {x : Exec (PcState δ) α} {g : α → Exec (PcState δ) β} :
    Holds m x → (∀ a, Holds n (g a)) → n + m = k → Holds k (x >>= g)
  canRead : Holds 1 (ps2CanRead d)
  waitRead {port : Nat} : Holds 1 (ps2WaitRead d port)
  waitWrite {port : Nat} {v : BitVec 8} : IsPs2Port port → Holds 1 (ps2WaitWrite d port v)
  flush {turns : Nat} : Holds turns (ps2Flush d turns)

namespace WaitLogic

variable {α β : Type} {x y : Exec (PcState δ) α} {g : α → Exec (PcState δ) β} (L : WaitLogic d)

/-- A program that uses nothing of the devices waits for nothing. -/
theorem pure (a : α) : L.Holds n (Pure.pure a : Exec (PcState δ) α) :=
  L.mono (L.of_fixes (.pure a)) (Nat.zero_le _)

/-- A step, and what follows without an access. -/
theorem last (hx : L.Holds m x) (hg : ∀ a, Fixes (fun s => (s.bus, s.idt)) (g a)) :
    L.Holds m (x >>= g) := L.seq hx (fun a => L.of_fixes (hg a)) (Nat.zero_add m)

/-- A step that makes no access, and what follows. -/
theorem free (hx : Fixes (fun s => (s.bus, s.idt)) x) (hg : ∀ a, L.Holds n (g a)) :
    L.Holds n (x >>= g) := L.seq (L.of_fixes hx) hg rfl

/-- Either branch of a conditional. -/
theorem ite {c : Prop} [Decidable c] (hx : L.Holds n x) (hy : L.Holds n y) :
    L.Holds n (if c then x else y) := by
  split <;> assumption

/-- Setting the error number waits for nothing. -/
theorem error {e : KernelErrorCodes} {a : α} : L.Holds n (pcReturnError e a) :=
  L.free (.modify fun _ => rfl) fun _ => L.pure _

/-- A byte for a device takes two waits. -/
theorem noWait : L.Holds 2 (ps2WriteDeviceDataNoWait d deviceId data) :=
  L.free (.lift _) fun _ => L.free .get fun _ => L.free (.lift _) fun _ =>
    L.seq (L.ite (L.last (L.waitWrite (by decide)) fun _ => .pure _) (L.pure _))
      (fun _ => L.last (L.waitWrite (by decide)) fun _ => .pure _) rfl

/-- The loop of `ps2_write_device_data_wait_ack`: each try takes a third for the answer. -/
theorem waitAck {retries : Nat} :
    L.Holds (3 * (retries + 1)) (waitAck d deviceId cmd retries) := by
  induction retries with
  | zero =>
    refine L.seq L.noWait (fun _ => L.seq L.waitRead (n := 0) (fun ack => ?_) rfl) rfl
    cases ack with
    | none => exact L.pure _
    | some ack => exact L.ite L.error (L.pure _)
  | succ retries ih =>
    refine L.seq L.noWait (n := 3 * (retries + 1) + 1) (fun _ => ?_) (by omega)
    refine L.seq L.waitRead (fun ack => ?_) rfl
    cases ack with
    | none => exact L.pure _
    | some ack => exact L.ite ih (L.ite L.error (L.pure _))

/-- A command is sent four times at most. -/
theorem writeWaitAck : L.Holds 12 (ps2WriteDeviceDataWaitAck d deviceId cmd) := by
  have h : L.Holds (3 * (3 + 1)) (MeghaOS.waitAck d deviceId cmd 3) := L.waitAck
  exact h

/-- `ps2_configuration` reads a byte and writes one. -/
theorem configuration : L.Holds 4 (ps2Configuration d enabled disabled) := by
  refine L.seq (L.waitWrite (by decide)) (fun _ => L.ite (L.pure _)
    (L.seq L.waitRead (n := 2) (fun config => ?_) rfl)) rfl
  cases config with
  | none => exact L.pure _
  | some config =>
    exact L.seq (L.waitWrite (by decide)) (fun _ => L.ite (L.pure _)
      (L.last (L.waitWrite (by decide)) fun _ => .ite (.pure _) (.pure _))) rfl

/-- `ps2_identify_device`. -/
theorem identifyDevice : L.Holds 35 (ps2IdentifyDevice d stale deviceId) := by
  refine L.free (.lift _) fun _ => L.seq L.configuration (fun r => ?_) rfl
  refine L.seq L.writeWaitAck (fun _ => L.ite (L.pure _)
    (L.seq L.writeWaitAck (fun _ => L.ite (L.pure _)
      (L.seq L.waitRead (n := 6) (fun byte0 => ?_) rfl)) rfl)) rfl
  cases byte0 with
  | none => exact L.pure _
  | some byte0 =>
    have hrest : ∀ byte1 : BitVec 8, L.Holds 4 (do
        let _ ← ps2Configuration d (r.2.getD stale) 0
        Pure.pure (some (byte1.setWidth 16 <<< 8 ||| byte0.setWidth 16))) :=
      fun _ => L.last L.configuration fun _ => .pure _
    have hread : L.Holds 1 ((fun byte => byte.getD 0) <$> ps2WaitRead d ps2DataPort) :=
      (L.last L.waitRead fun _ => .pure _ : L.Holds 1 (ps2WaitRead d ps2DataPort >>=
        fun byte => Pure.pure (byte.getD 0)))
    exact L.seq L.canRead (fun ready => L.ite (L.seq hread hrest rfl)
      (L.mono (hrest 0) (by decide))) rfl

/-- A port is tested. -/
theorem testPort : L.Holds 2 (testPort d deviceId cmd) := by
  refine L.seq (L.waitWrite (by decide)) (fun _ => ?_) rfl
  refine L.seq L.waitRead (n := 0) (fun config => ?_) rfl
  cases config with
  | none => exact L.pure _
  | some config => exact L.of_fixes (.modify fun _ => rfl)

/-- `ps2_init`, with one wait for each turn of its loop. -/
theorem init : L.Holds (turns + 14) (ps2Init d turns) := by
  refine L.free (.modify fun _ => rfl) fun _ => ?_
  refine L.seq (L.waitWrite (by decide)) (n := turns + 13) (fun _ => L.ite (L.pure _) ?_) rfl
  refine L.seq (L.waitWrite (by decide)) (n := turns + 12) (fun _ => L.ite (L.pure _) ?_) rfl
  refine L.seq L.flush (n := 12) (fun _ => ?_) (Nat.add_comm 12 turns)
  refine L.seq L.configuration (n := 8) (fun _ => ?_) rfl
  refine L.seq (L.waitWrite (by decide)) (n := 7) (fun _ => ?_) rfl
  refine L.seq L.waitRead (n := 6) (fun config => ?_) rfl
  cases config with
  | none => exact L.pure _
  | some config =>
    refine L.ite L.error (L.seq L.testPort (n := 4) (fun _ => ?_) rfl)
    refine L.seq L.testPort (n := 2) (fun _ => ?_) rfl
    refine L.free .get fun s => L.ite L.error ?_
    refine L.seq (L.waitWrite (by decide)) (fun _ => ?_) rfl
    exact L.last (L.waitWrite (by decide)) fun _ => .pure _

/-- `ismouse` identifies a device. -/
theorem ismouse : L.Holds 35 (ismouse d stale) := by
  refine L.seq L.identifyDevice (n := 0) (fun type => ?_) rfl
  cases type with
  | none => exact L.pure _
  | some type => exact L.ite (L.pure _) L.error

/-- So does `iskeyboard`. -/
theorem iskeyboard : L.Holds 35 (iskeyboard d stale) := by
  refine L.seq L.identifyDevice (n := 0) (fun type => ?_) rfl
  cases type with
  | none => exact L.pure _
  | some type => exact L.ite (L.pure _) L.error

/-- `get_mouse_state` reads four bytes. -/
theorem getMouseState : L.Holds 28 (getMouseState d) := by
  refine L.seq L.writeWaitAck (n := 16) (fun _ => ?_) rfl
  refine L.seq L.waitRead (n := 15) (fun _ => ?_) rfl
  refine L.seq L.writeWaitAck (n := 3) (fun _ => ?_) rfl
  exact L.seq L.waitRead (fun _ => L.seq L.waitRead (fun _ => L.last L.waitRead fun _ =>
    .pure _) rfl) rfl

/-- A byte that was received. -/
theorem mouseByte : L.Holds 0 (mouseByte v) := by
  refine L.of_fixes (.bind (.bind .get fun s => ?_) fun _ => .modify fun _ => rfl)
  refine .ite (.modify fun _ => rfl) (.ite (.modify fun _ => rfl) (.ite ?_ (.halt _)))
  exact .bind (.modify fun _ => rfl) fun _ => .modify fun _ => rfl

end WaitLogic

/-! ## The handshake -/

/-- A byte goes to the controller when it took the last one, and comes from it when there is one:
the access before is the read of a status that says so. -/
def Handshake (op : PortOp) (before : List PortOp) : Prop :=
  match op with
  | .write port _ => port = ps2DataPort ∨ port = ps2CmdPort →
    ∃ status rest, before = .read ps2CmdPort status :: rest ∧ isWriteReady status = true
  | .read port _ => port = ps2DataPort →
    ∃ status rest, before = .read ps2CmdPort status :: rest ∧ isReadReady status = true

/-- The accesses to the hardware so far. -/
def PcState.trace (s : PcState (δ × List PortOp)) : List PortOp := s.bus.2

/-- A program keeps to the handshake, with at most so many accesses. -/
abbrev Obeys {α : Type} (n : Nat) (x : Exec (PcState (δ × List PortOp)) α) : Prop :=
  Disciplined Handshake PcState.trace n x

/-- The accesses of one wait and of what it waits for. -/
abbrev perWait : Nat := rwTimeoutIteration + 2

/-- Reading another port than the data port needs no status. -/
theorem inb_obeys (hport : port ≠ ps2DataPort) : Obeys 1 (inb d.traced port) := by
  intro s value s' hrun hs
  obtain ⟨rfl, rfl⟩ := inb_eq_ok.1 hrun
  exact ⟨⟨fun heq => absurd heq hport, hs⟩, Nat.le_refl _⟩

/-- Nor does writing to another port than those of the controller. -/
theorem outb_obeys (hport : ¬ (port = ps2DataPort ∨ port = ps2CmdPort)) :
    Obeys 1 (outb d.traced port v) := by
  intro s u s' hrun hs
  obtain rfl := outb_eq_ok.1 hrun
  exact ⟨⟨fun hor => absurd hor hport, hs⟩, Nat.le_refl _⟩

/-- Polling the status is no transfer. -/
theorem poll_obeys {ready : BitVec 8 → Bool} {b : Bool} {s s' : PcState (δ × List PortOp)}
    (hrun : onBus (d.traced.poll ps2CmdPort ready n) s = .ok (b, s'))
    (hs : Guarded Handshake s.trace) :
    Guarded Handshake s'.trace ∧ s'.trace.length ≤ s.trace.length + (n + 1) ∧
      (b = true → ∃ v before, s'.trace = .read ps2CmdPort v :: before ∧ ready v = true) := by
  obtain ⟨bus, hpoll, rfl⟩ := onBus_eq_ok.1 hrun
  have hread : ∀ v before, Handshake (.read ps2CmdPort v) before := fun v before habsurd => by
    cases habsurd
  have hready : b = true → ∃ v before, bus.2 = .read ps2CmdPort v :: before ∧ ready v = true := by
    rintro rfl
    exact Device.poll_traced_ready hpoll
  refine ⟨?_, ?_, hready⟩
  · rcases Device.poll_eq_ok hpoll with ⟨-, k, -, -, -, rfl⟩ | ⟨-, -, rfl⟩
    · exact (Device.afterReads_traced hread _ hs).1
    · exact (Device.afterReads_traced hread _ hs).1
  · rcases Device.poll_eq_ok hpoll with ⟨-, k, hk, -, -, rfl⟩ | ⟨-, -, rfl⟩
    · refine (Device.afterReads_traced hread (k + 1) hs).2.le.trans ?_
      exact Nat.add_le_add_left (Nat.succ_le_succ hk.le) _
    · exact (Device.afterReads_traced hread (n + 1) hs).2.le

/-- Setting the error number touches no port. -/
theorem pcReturnError_obeys {α : Type} {e : KernelErrorCodes} {a : α} :
    Obeys 0 (pcReturnError e a : Exec (PcState (δ × List PortOp)) α) :=
  .of_fixes (.bind (.modify fun _ => rfl) fun _ => .pure _)

/-- `ps2_canRead` reads the status only. -/
theorem ps2CanRead_obeys : Obeys (1 * perWait) (ps2CanRead d.traced) := fun _ _ _ hrun hs =>
  have h := poll_obeys hrun hs
  ⟨h.1, h.2.1.trans (Nat.add_le_add_left (Nat.le_succ _) _)⟩

/-- `ps2_wait_read` reads the data port after a status that says a byte is there. -/
theorem ps2WaitRead_obeys : Obeys (1 * perWait) (ps2WaitRead d.traced port) := by
  intro s data s' hrun hs
  obtain ⟨b, s₁, hpoll, hrun⟩ := bind_eq_ok.1 hrun
  obtain ⟨h₁, hlen, hready⟩ := poll_obeys hpoll hs
  rcases ite_eq_ok.1 hrun with ⟨-, hrun⟩ | ⟨hb, hrun⟩
  · obtain ⟨h₂, hlen₂⟩ := pcReturnError_obeys s₁ _ _ hrun h₁
    exact ⟨h₂, (hlen₂.trans hlen).trans (Nat.add_le_add_left (Nat.le_succ _) _)⟩
  · obtain ⟨value, s₂, hin, hpure⟩ := bind_eq_ok.1 hrun
    obtain ⟨rfl, rfl⟩ := inb_eq_ok.1 hin
    cases hpure
    exact ⟨⟨fun _ => hready (by simpa using hb), h₁⟩, Nat.succ_le_succ hlen⟩

/-- `ps2_wait_write` writes after a status that says the last byte was taken. -/
theorem ps2WaitWrite_obeys : Obeys (1 * perWait) (ps2WaitWrite d.traced port v) := by
  intro s data s' hrun hs
  obtain ⟨b, s₁, hpoll, hrun⟩ := bind_eq_ok.1 hrun
  obtain ⟨h₁, hlen, hready⟩ := poll_obeys hpoll hs
  rcases ite_eq_ok.1 hrun with ⟨-, hrun⟩ | ⟨hb, hrun⟩
  · obtain ⟨h₂, hlen₂⟩ := pcReturnError_obeys s₁ _ _ hrun h₁
    exact ⟨h₂, (hlen₂.trans hlen).trans (Nat.add_le_add_left (Nat.le_succ _) _)⟩
  · obtain ⟨_, s₂, hout, hpure⟩ := bind_eq_ok.1 hrun
    obtain rfl := outb_eq_ok.1 hout
    cases hpure
    exact ⟨⟨fun _ => hready (by simpa using hb), h₁⟩, Nat.succ_le_succ hlen⟩

/-- The loop that empties the output buffer reads what the controller says is there. -/
theorem ps2Flush_obeys : Obeys (turns * perWait) (ps2Flush d.traced turns) := by
  induction turns with
  | zero => exact fun _ _ _ habsurd => by cases habsurd
  | succ turns ih =>
    intro s u s' hrun hs
    obtain ⟨b, s₁, hpoll, hrun⟩ := bind_eq_ok.1 hrun
    obtain ⟨h₁, hlen, hready⟩ := poll_obeys hpoll hs
    have hturn : s₁.trace.length + 1 ≤ s.trace.length + perWait := Nat.succ_le_succ hlen
    rw [Nat.succ_mul]
    rcases ite_eq_ok.1 hrun with ⟨hb, hrun⟩ | ⟨-, hrun⟩
    · obtain ⟨value, s₂, hin, hrun⟩ := bind_eq_ok.1 hrun
      obtain ⟨rfl, rfl⟩ := inb_eq_ok.1 hin
      obtain ⟨h₂, hlen₂⟩ := ih _ u s' hrun ⟨fun _ => hready hb, h₁⟩
      have hrest : s'.trace.length ≤ s₁.trace.length + 1 + turns * perWait := hlen₂
      exact ⟨h₂, by omega⟩
    · cases hrun
      exact ⟨h₁, (Nat.le_of_lt hturn).trans (Nat.add_le_add_left (Nat.le_add_left _ _) _)⟩

/-- The handshake, with the accesses of so many waits. -/
def handshakeLogic (d : Device δ) : WaitLogic d.traced where
  Holds n x := Obeys (n * perWait) x
  mono hx h := Disciplined.mono hx (Nat.mul_le_mul_right _ h)
  of_fixes hx := (Disciplined.of_fixes (hx.comp fun p => p.1.2)).mono (Nat.zero_le _)
  seq hx hg h := by
    have hbind := Disciplined.bind hx hg
    rwa [← Nat.add_mul, Nat.add_comm, h] at hbind
  canRead := ps2CanRead_obeys
  waitRead := ps2WaitRead_obeys
  waitWrite _ := ps2WaitWrite_obeys
  flush := ps2Flush_obeys

/-! ## Calls -/

section

variable (d)

/-- A program keeps to the handshake, with the accesses of at most so many waits. -/
abbrev Shakes {α : Type} (n : Nat) (x : Exec (PcState (δ × List PortOp)) α) : Prop :=
  (handshakeLogic d).Holds n x

/-- Reading a port that is not the data port. -/
theorem inb_shakes (hport : port ≠ ps2DataPort) : Shakes d 1 (inb d.traced port) :=
  (inb_obeys hport).mono (by decide)

/-- Writing to a port that is not the controller's. -/
theorem outb_shakes (hport : ¬ (port = ps2DataPort ∨ port = ps2CmdPort)) :
    Shakes d 1 (outb d.traced port v) := (outb_obeys hport).mono (by decide)

/-- `pic_enable_disable_irq` reads a mask and writes it. -/
theorem picEnableDisableIrq_shakes {enable : Bool} :
    Shakes d 2 (picEnableDisableIrq d.traced irq enable) := by
  have hport : ∀ p, (p = if irq ≥ 8 then slaveDataPort else masterDataPort) →
      ¬ (p = ps2DataPort ∨ p = ps2CmdPort) := by
    intro p hp
    split at hp <;> rw [hp] <;> decide
  refine (handshakeLogic d).free (.lift _) fun _ => ?_
  refine (handshakeLogic d).seq (inb_shakes d fun heq => hport _ rfl (.inl heq)) (fun _ => ?_) rfl
  exact outb_shakes d (hport _ rfl)

/-- A gate touches no port. -/
theorem kidtEdit_shakes {index : Int} {func : BitVec 32} {segSelector : BitVec 16} {type : Nat}
    {dpl : BitVec 8} :
    Shakes d 0 (kidtEdit index func segSelector type dpl) :=
  Disciplined.mono (.of_fixes (.modify fun _ => rfl)) (Nat.zero_le _)

/-- `pic_send_eoi`. -/
theorem picSendEoi_shakes : Shakes d 2 (picSendEoi d.traced irq) := by
  refine (handshakeLogic d).free (.lift _) fun _ => ?_
  refine (handshakeLogic d).seq (m := 1) ?_ (fun _ => outb_shakes d (by decide)) rfl
  exact (handshakeLogic d).ite (outb_shakes d (by decide)) ((handshakeLogic d).pure _)

/-- A read of `pic_read_IRR_ISR`. -/
theorem readIf_shakes {wanted : Bool} (hport : port ≠ ps2DataPort) :
    Shakes d 1 (readIf d.traced wanted port) :=
  (handshakeLogic d).ite ((handshakeLogic d).last (inb_shakes d hport) fun _ => .pure _)
    ((handshakeLogic d).pure _)

/-- `pic_read_IRR_ISR`. -/
theorem picReadIrrIsr_shakes {readIsr master slave : Bool} :
    Shakes d 4 (picReadIrrIsr d.traced readIsr master slave) := by
  refine (handshakeLogic d).seq (outb_shakes d (by decide)) (fun _ => ?_) rfl
  refine (handshakeLogic d).seq (outb_shakes d (by decide)) (fun _ => ?_) rfl
  refine (handshakeLogic d).seq (readIf_shakes d (by decide)) (fun _ => ?_) rfl
  exact (handshakeLogic d).last (readIf_shakes d (by decide)) fun _ => .pure _

/-- The end of the timer's interrupt. -/
theorem timerInterruptEoi_shakes : Shakes d 6 (timerInterruptEoi d.traced) :=
  (handshakeLogic d).seq (picReadIrrIsr_shakes d) (fun _ => picSendEoi_shakes d) rfl

/-- `spurious_irq_eoi`. -/
theorem spuriousIrqEoi_shakes : Shakes d 2 (spuriousIrqEoi d.traced irq) := by
  refine (handshakeLogic d).ite ((handshakeLogic d).pure _) ?_
  exact (handshakeLogic d).ite (picSendEoi_shakes d) ((handshakeLogic d).mono
    ((handshakeLogic d).of_fixes (.halt _)) (Nat.zero_le _))

/-- `irq_7_handler`. -/
theorem irq7Handler_shakes : Shakes d 10 (irq7Handler d.traced) := by
  refine (handshakeLogic d).seq (picReadIrrIsr_shakes d) (n := 6) (fun r => ?_) rfl
  refine (handshakeLogic d).ite ?_ ((handshakeLogic d).mono (picSendEoi_shakes d) (by decide))
  exact (handshakeLogic d).seq (picReadIrrIsr_shakes d) (fun _ => spuriousIrqEoi_shakes d) rfl

/-- `irq_15_handler`. -/
theorem irq15Handler_shakes : Shakes d 10 (irq15Handler d.traced) := by
  refine (handshakeLogic d).seq (picReadIrrIsr_shakes d) (n := 6) (fun r => ?_) rfl
  refine (handshakeLogic d).ite ?_ ((handshakeLogic d).mono (picSendEoi_shakes d) (by decide))
  exact (handshakeLogic d).seq (picReadIrrIsr_shakes d) (fun _ => spuriousIrqEoi_shakes d) rfl

/-- `ps2_mouse_interrupt_handler` waits for the byte. -/
theorem ps2MouseInterruptHandler_shakes : Shakes d 3 (ps2MouseInterruptHandler d.traced) := by
  refine (handshakeLogic d).seq (handshakeLogic d).waitRead (n := 2) (fun data => ?_) rfl
  cases data with
  | none => exact picSendEoi_shakes d
  | some data =>
    exact (handshakeLogic d).seq (handshakeLogic d).mouseByte (fun _ => picSendEoi_shakes d) rfl

/-- The counter of the speaker is no port of the controller. -/
theorem pcspeakerSetFreq_shakes {freq : BitVec 32} :
    Shakes d 3 (pcspeakerSetFreq d.traced freq) := by
  refine (handshakeLogic d).free (.lift _) fun _ => ?_
  refine (handshakeLogic d).free (.lift _) fun _ => ?_
  refine (handshakeLogic d).free (.lift _) fun _ => ?_
  refine (handshakeLogic d).seq (outb_shakes d (by decide)) (fun _ => ?_) rfl
  exact (handshakeLogic d).seq (outb_shakes d (by decide)) (fun _ => outb_shakes d (by decide)) rfl

/-- `pcspeaker_turnon` reads the speaker's port, which is no port of the controller. -/
theorem pcspeakerTurnon_shakes : Shakes d 2 (pcspeakerTurnon d.traced) :=
  (handshakeLogic d).seq (inb_shakes d (by decide)) (fun _ =>
    (handshakeLogic d).last ((handshakeLogic d).waitWrite (by decide)) fun _ => .pure _) rfl

/-- `ps2_mouse_init`. -/
theorem ps2MouseInit_shakes {handler : BitVec 32} :
    Shakes d 119 (ps2MouseInit d.traced stale handler) := by
  refine (handshakeLogic d).seq (picEnableDisableIrq_shakes d) (n := 117) (fun _ => ?_) rfl
  refine (handshakeLogic d).seq (handshakeLogic d).ismouse (n := 82) (fun _ =>
    (handshakeLogic d).ite ((handshakeLogic d).pure _) ?_) rfl
  refine (handshakeLogic d).seq (handshakeLogic d).writeWaitAck (n := 70) (fun _ =>
    (handshakeLogic d).ite ((handshakeLogic d).pure _) ?_) rfl
  refine (handshakeLogic d).seq (handshakeLogic d).writeWaitAck (n := 58) (fun _ =>
    (handshakeLogic d).ite ((handshakeLogic d).pure _) ?_) rfl
  refine (handshakeLogic d).seq (handshakeLogic d).writeWaitAck (n := 46) (fun _ =>
    (handshakeLogic d).ite ((handshakeLogic d).pure _) ?_) rfl
  refine (handshakeLogic d).seq (handshakeLogic d).writeWaitAck (n := 34) (fun _ =>
    (handshakeLogic d).ite ((handshakeLogic d).pure _) ?_) rfl
  refine (handshakeLogic d).seq (handshakeLogic d).getMouseState (n := 6) (fun state => ?_) rfl
  refine (handshakeLogic d).free (.modify fun _ => rfl) fun _ =>
    (handshakeLogic d).ite (handshakeLogic d).error ?_
  refine (handshakeLogic d).seq (handshakeLogic d).configuration (n := 2) (fun _ => ?_) rfl
  refine (handshakeLogic d).seq (m := 0) (kidtEdit_shakes d) (fun _ => ?_) rfl
  exact (handshakeLogic d).last (picEnableDisableIrq_shakes d) fun _ => .pure _

/-- `ps2_kb_init`. -/
theorem ps2KbInit_shakes {handler : BitVec 32} :
    Shakes d 67 (ps2KbInit d.traced stale handler) := by
  refine (handshakeLogic d).seq (picEnableDisableIrq_shakes d) (n := 65) (fun _ => ?_) rfl
  refine (handshakeLogic d).seq (handshakeLogic d).iskeyboard (n := 30) (fun _ =>
    (handshakeLogic d).ite ((handshakeLogic d).pure _) ?_) rfl
  refine (handshakeLogic d).seq (handshakeLogic d).writeWaitAck (n := 18) (fun _ =>
    (handshakeLogic d).ite ((handshakeLogic d).pure _) ?_) rfl
  refine (handshakeLogic d).seq (handshakeLogic d).writeWaitAck (n := 6) (fun _ =>
    (handshakeLogic d).ite ((handshakeLogic d).pure _) ?_) rfl
  refine (handshakeLogic d).seq (handshakeLogic d).configuration (n := 2) (fun _ => ?_) rfl
  refine (handshakeLogic d).seq (m := 0) (kidtEdit_shakes d) (fun _ => ?_) rfl
  exact (handshakeLogic d).last (picEnableDisableIrq_shakes d) fun _ => .pure _

end

/-! ## Runs -/

/-- What the kernel calls the drivers for: their start, an interrupt, the speaker. The keyboard's
interrupt is not among them: its handler, in the `DEBUG` build, reads the data port without a
wait. -/
inductive PcCall
  | ps2Init (turns : Nat)
  | ps2MouseInit (stale : BitVec 8) (handler : BitVec 32)
  | ps2KbInit (stale : BitVec 8) (handler : BitVec 32)
  | timerInterrupt
  | irq7
  | irq15
  | ps2MouseInterrupt
  | pcspeakerSetFreq (freq : BitVec 32)
  | pcspeakerTurnon
  | pcspeakerTurnoff

/-- Run a call. -/
def PcCall.run (d : Device δ) : PcCall → Exec (PcState δ) Unit
  | .ps2Init turns => do let _ ← MeghaOS.ps2Init d turns
  | .ps2MouseInit stale handler => do let _ ← MeghaOS.ps2MouseInit d stale handler
  | .ps2KbInit stale handler => do let _ ← MeghaOS.ps2KbInit d stale handler
  | .timerInterrupt => timerInterruptEoi d
  | .irq7 => irq7Handler d
  | .irq15 => irq15Handler d
  | .ps2MouseInterrupt => ps2MouseInterruptHandler d
  | .pcspeakerSetFreq freq => MeghaOS.pcspeakerSetFreq d freq
  | .pcspeakerTurnon => MeghaOS.pcspeakerTurnon d
  | .pcspeakerTurnoff => MeghaOS.pcspeakerTurnoff d

/-- How often a call waits at most. -/
def PcCall.waits : PcCall → Nat
  | .ps2Init turns => turns + 14
  | .ps2MouseInit _ _ => 119
  | .ps2KbInit _ _ => 67
  | .timerInterrupt => 6
  | .irq7 | .irq15 => 10
  | .ps2MouseInterrupt | .pcspeakerSetFreq _ => 3
  | .pcspeakerTurnon | .pcspeakerTurnoff => 2

/-- Each call keeps the handshake, in at most so many waits. -/
theorem PcCall.run_shakes (d : Device δ) (call : PcCall) :
    Shakes d call.waits (call.run d.traced) := by
  cases call with
  | ps2Init turns => exact (handshakeLogic d).last (handshakeLogic d).init fun _ => .pure _
  | ps2MouseInit stale handler =>
    exact (handshakeLogic d).last (ps2MouseInit_shakes d) fun _ => .pure _
  | ps2KbInit stale handler => exact (handshakeLogic d).last (ps2KbInit_shakes d) fun _ => .pure _
  | timerInterrupt => exact timerInterruptEoi_shakes d
  | irq7 => exact irq7Handler_shakes d
  | irq15 => exact irq15Handler_shakes d
  | ps2MouseInterrupt => exact ps2MouseInterruptHandler_shakes d
  | pcspeakerSetFreq freq => exact pcspeakerSetFreq_shakes d
  | pcspeakerTurnon | pcspeakerTurnoff => exact pcspeakerTurnon_shakes d

/-- Run a list of calls. -/
def runCalls (d : Device δ) : List PcCall → Exec (PcState δ) Unit
  | [] => pure ()
  | call :: calls => do
    call.run d
    runCalls d calls

/-- So does a list of calls. -/
theorem runCalls_shakes (d : Device δ) (calls : List PcCall) :
    Shakes d (calls.map PcCall.waits).sum (runCalls d.traced calls) := by
  induction calls with
  | nil => exact (handshakeLogic d).pure _
  | cons call calls ih =>
    exact (handshakeLogic d).seq (call.run_shakes d) (fun _ => ih)
      (by rw [List.map_cons, List.sum_cons, Nat.add_comm])

/-- Whatever the hardware answers, the drivers keep to the handshake, and make no more accesses
than their waits allow. -/
theorem ps2_run_handshake {d : Device δ} {calls : List PcCall} {s s' : PcState (δ × List PortOp)}
    (hs : s.trace = []) (hrun : runCalls d.traced calls s = .ok ((), s')) :
    Guarded Handshake s'.trace ∧
      s'.trace.length ≤ (calls.map PcCall.waits).sum * perWait := by
  obtain ⟨h, hlen⟩ := runCalls_shakes d calls s () s' hrun (by rw [hs]; trivial)
  rw [hs, List.length_nil, Nat.zero_add] at hlen
  exact ⟨h, hlen⟩

/-! ### A mouse that moves -/

/-- Hardware that always has a byte, and takes every byte. -/
def alwaysReady : Device Unit := ⟨fun _ u => (1, u), fun _ _ u => u⟩

/-- The drivers before the first call. -/
def beforeCalls : PcState (Unit × List PortOp) where
  bus := ((), [])
  errorNumber := .errNone
  idt _ := .zero
  devices _ := ⟨false, false⟩
  mpacket := ⟨0, 0, 0, 0⟩
  mousePosition := ⟨0, 0, false, false, false⟩
  mouseStatusOriginal := ⟨0, 0, 0, 0⟩

/-- Two interrupts and a sound. -/
def someCalls : List PcCall :=
  [.ps2MouseInterrupt, .timerInterrupt, .pcspeakerSetFreq 440, .pcspeakerTurnon]

/-- The state after these calls. -/
def afterCalls : PcState (Unit × List PortOp) :=
  (runCalls alwaysReady.traced someCalls).finalState beforeCalls

/-- The start of the devices, and an interrupt of the mouse. -/
theorem ps2_run_handshake_mouse : Guarded Handshake afterCalls.trace ∧
    afterCalls.trace.length ≤ (someCalls.map PcCall.waits).sum * perWait :=
  have hrun : runCalls alwaysReady.traced someCalls beforeCalls = .ok ((), afterCalls) :=
    eq_ok_finalState rfl
  ps2_run_handshake rfl hrun

end MeghaOS
