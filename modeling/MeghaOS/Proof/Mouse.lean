import MeghaOS.Ps2

/-!
# The mouse

The interrupt handler takes a byte at a time, and every third byte ends a packet. Whatever the
hardware does between and during the interrupts, the position is the sum of the movements in the
packets that were read, less those with an overflow (`mouse_run_tracks`). The handler does not look
at the bit that is always set in the first byte, so that a byte that is lost shifts all that follow.
-/

namespace MeghaOS

open Exec

variable {δ : Type} {d : Device δ} {s s' s₁ : PcState δ} {bytes part : List (BitVec 8)}

/-! ## Packets -/

/-- What a mouse tells in a packet; a movement has nine bits. -/
structure Movement where
  dx : BitVec 9
  dy : BitVec 9
  left : Bool
  right : Bool
  middle : Bool
  always : Bool
  xOverflow : Bool
  yOverflow : Bool

namespace Movement

/-- The first byte of a packet. -/
def flags (m : Movement) : BitVec 8 :=
  BitVec.ofBoolListLE
    [m.left, m.right, m.middle, m.always, m.dx.msb, m.dy.msb, m.xOverflow, m.yOverflow]

/-- The three bytes of a packet. -/
def encode (m : Movement) : List (BitVec 8) := [m.flags, m.dx.setWidth 8, m.dy.setWidth 8]

/-- The movement in three bytes. -/
def decode (b0 b1 b2 : BitVec 8) : Movement where
  dx := BitVec.cons (b0.getLsbD 4) b1
  dy := BitVec.cons (b0.getLsbD 5) b2
  left := b0.getLsbD 0
  right := b0.getLsbD 1
  middle := b0.getLsbD 2
  always := b0.getLsbD 3
  xOverflow := b0.getLsbD 6
  yOverflow := b0.getLsbD 7

/-- A packet that counts. -/
def kept (m : Movement) : Bool := !m.xOverflow && !m.yOverflow

end Movement

/-- The position after some movements. -/
def tracked (ms : List Movement) : MousePositionData :=
  let kept := ms.filter Movement.kept
  { x := (kept.map fun m : Movement => m.dx.toInt).sum.bmod (2 ^ 32)
    y := (kept.map fun m : Movement => m.dy.toInt).sum.bmod (2 ^ 32)
    leftButton := (kept.getLast?.map (·.left)).getD false
    rightButton := (kept.getLast?.map (·.right)).getD false
    middleButton := (kept.getLast?.map (·.middle)).getD false }

namespace Movement

/-- A byte is the list of its bits. -/
theorem ofBoolListLE_bits : ∀ b : BitVec 8, BitVec.ofBoolListLE [b.getLsbD 0, b.getLsbD 1,
    b.getLsbD 2, b.getLsbD 3, b.getLsbD 4, b.getLsbD 5, b.getLsbD 6, b.getLsbD 7] = b := by
  decide

/-- Every three bytes are a packet. -/
theorem encode_decode (b0 b1 b2 : BitVec 8) : (decode b0 b1 b2).encode = [b0, b1, b2] := by
  have hflags : (decode b0 b1 b2).flags = b0 := by
    rw [flags, decode, BitVec.msb_cons, BitVec.msb_cons]
    exact ofBoolListLE_bits b0
  rw [encode, hflags, decode]
  simp

/-- The bits of the first byte of a packet. -/
theorem getLsbD_flags : ∀ a b c d e f g h : Bool,
    let flags : BitVec 8 := BitVec.ofBoolListLE [a, b, c, d, e, f, g, h]
    [flags.getLsbD 0, flags.getLsbD 1, flags.getLsbD 2, flags.getLsbD 3, flags.getLsbD 4,
      flags.getLsbD 5, flags.getLsbD 6, flags.getLsbD 7] = [a, b, c, d, e, f, g, h] := by
  decide

/-- They are the buttons, the signs and the overflows. -/
theorem flags_bits (m : Movement) : m.flags.getLsbD 0 = m.left ∧ m.flags.getLsbD 1 = m.right ∧
    m.flags.getLsbD 2 = m.middle ∧ m.flags.getLsbD 3 = m.always ∧ m.flags.getLsbD 4 = m.dx.msb ∧
    m.flags.getLsbD 5 = m.dy.msb ∧ m.flags.getLsbD 6 = m.xOverflow ∧
    m.flags.getLsbD 7 = m.yOverflow := by
  have hbits := getLsbD_flags m.left m.right m.middle m.always m.dx.msb m.dy.msb m.xOverflow
    m.yOverflow
  simp only [List.cons.injEq, and_true] at hbits
  exact hbits

/-- A packet is read back. -/
theorem decode_encode (m : Movement) :
    decode m.flags (m.dx.setWidth 8) (m.dy.setWidth 8) = m := by
  obtain ⟨h₀, h₁, h₂, h₃, h₄, h₅, h₆, h₇⟩ := m.flags_bits
  rw [decode, h₀, h₁, h₂, h₃, h₄, h₅, h₆, h₇, BitVec.cons_msb_setWidth,
    BitVec.cons_msb_setWidth]

/-- It has three bytes. -/
@[simp] theorem length_encode (m : Movement) : m.encode.length = 3 := rfl

end Movement

/-- The packets in a stream, and the bytes of one that is not whole yet, are determined. -/
theorem packets_unique {ms ms' : List Movement} {part part' : List (BitVec 8)}
    (h : ms.flatMap Movement.encode ++ part = ms'.flatMap Movement.encode ++ part')
    (hpart : part.length < 3) (hpart' : part'.length < 3) : ms = ms' := by
  induction ms generalizing ms' with
  | nil =>
    cases ms' with
    | nil => rfl
    | cons m ms' =>
      have hlen := congrArg List.length h
      simp at hlen
      omega
  | cons m ms ih =>
    cases ms' with
    | nil =>
      have hlen := congrArg List.length h
      simp at hlen
      omega
    | cons m' ms' =>
      rw [List.flatMap_cons, List.flatMap_cons, List.append_assoc, List.append_assoc] at h
      obtain ⟨hm, hrest⟩ := List.append_inj h rfl
      have hdecode : m = m' := by
        rw [← m.decode_encode, ← m'.decode_encode]
        simp only [Movement.encode, List.cons.injEq, and_true] at hm
        rw [hm.1, hm.2.1, hm.2.2]
      rw [hdecode, ih hrest]

/-! ## A packet -/

/-- The sign of the first movement, at the place of bit 8. -/
theorem signBit_four : ∀ b : BitVec 8, (b.setWidth 32 <<< 4 &&& 0x100#32).toNat =
    if b.getLsbD 4 then 256 else 0 := by
  decide

/-- The sign of the second. -/
theorem signBit_five : ∀ b : BitVec 8, (b.setWidth 32 <<< 3 &&& 0x100#32).toNat =
    if b.getLsbD 5 then 256 else 0 := by
  decide

/-- The last byte of a movement, less its sign bit. -/
theorem toInt_eq_byte (v : BitVec 9) :
    v.toInt = (v.setWidth 8).toNat - ((if v.msb then 256 else 0 : Nat) : Int) := by
  revert v
  decide

/-- `BIT_ISSET` looks at one bit. -/
theorem byteIsSet_bit : ∀ k < 8, ∀ b : BitVec 8, byteIsSet b (1#8 <<< k) = b.getLsbD k := by
  decide

/-- The movements of a packet are those that were encoded. -/
theorem packetDelta_eq (m : Movement) :
    packetDelta (m.dx.setWidth 8) m.flags 4 = m.dx.toInt ∧
      packetDelta (m.dy.setWidth 8) m.flags 3 = m.dy.toInt := by
  obtain ⟨-, -, -, -, h₄, h₅, -, -⟩ := m.flags_bits
  rw [packetDelta, packetDelta, signBit_four, signBit_five, h₄, h₅]
  exact ⟨(toInt_eq_byte m.dx).symm, (toInt_eq_byte m.dy).symm⟩

/-- One packet more moves the position. -/
theorem tracked_append (ms : List Movement) (m : Movement) : tracked (ms ++ [m]) =
    if m.kept then
      { x := ((tracked ms).x + m.dx.toInt).bmod (2 ^ 32)
        y := ((tracked ms).y + m.dy.toInt).bmod (2 ^ 32)
        leftButton := m.left
        rightButton := m.right
        middleButton := m.middle }
    else tracked ms := by
  rw [tracked, tracked, List.filter_append]
  cases hkept : m.kept <;> simp [hkept, Int.bmod_add_bmod]

/-- A whole packet is applied as the position's meaning says. -/
theorem applyPacket_eq {i : Int} (m : Movement) (ms : List Movement) :
    applyPacket ⟨i, m.flags, m.dx.setWidth 8, m.dy.setWidth 8⟩ (tracked ms) =
      tracked (ms ++ [m]) := by
  obtain ⟨h₀, h₁, h₂, -, -, -, h₆, h₇⟩ := m.flags_bits
  obtain ⟨hx, hy⟩ := packetDelta_eq m
  have hoverflow : byteIsSet m.flags ps2MousePacketXOverflow = false ∧
      byteIsSet m.flags ps2MousePacketYOverflow = false ↔ m.kept = true := by
    rw [byteIsSet_bit 6 (by decide), byteIsSet_bit 7 (by decide), h₆, h₇]
    simp [Movement.kept]
  rw [applyPacket, tracked_append]
  simp only [hoverflow, hx, hy]
  rw [byteIsSet_bit 1 (by decide), byteIsSet_bit 2 (by decide), h₁, h₂,
    show byteIsSet m.flags ps2MousePacketLeftBtn = m.left from
      (byteIsSet_bit 0 (by decide) _).trans h₀]

/-! ## A byte -/

/-- The part of a packet that was read. -/
def MousePacket.stored (m : MousePacket) (part : List (BitVec 8)) : Prop :=
  m.byteIndex = part.length ∧ part = [m.b0, m.b1].take part.length

/-- What the handler has of a stream of bytes. -/
def MouseOk (s : PcState δ) (bytes : List (BitVec 8)) : Prop :=
  ∃ ms part, bytes = ms.flatMap Movement.encode ++ part ∧ part.length < 3 ∧
    s.mpacket.stored part ∧ s.mousePosition = tracked ms

/-- A byte begins a packet, goes on with it or ends it. -/
theorem mouseByte_ok {data : BitVec 8} {u : Unit} (h : MouseOk s bytes)
    (hrun : mouseByte data s = .ok (u, s')) : MouseOk s' (bytes ++ [data]) := by
  obtain ⟨ms, part, rfl, hpart, ⟨hindex, hstored⟩, hpos⟩ := h
  obtain ⟨_, s₁, hbyte, hrun⟩ := bind_eq_ok.1 hrun
  cases hrun
  rw [packetByte, get_bind_apply] at hbyte
  match part, hpart with
  | [], _ =>
    have hindex : s.mpacket.byteIndex = 0 := hindex
    rw [if_pos hindex] at hbyte
    cases hbyte
    exact ⟨ms, [data], by simp, by simp, ⟨by simp [hindex], rfl⟩, hpos⟩
  | [a], _ =>
    have hindex : s.mpacket.byteIndex = 1 := hindex
    rw [hindex, if_neg (by decide), if_pos rfl] at hbyte
    cases hbyte
    have ha : a = s.mpacket.b0 := List.head_eq_of_cons_eq hstored
    exact ⟨ms, [a, data], by simp, by simp, ⟨by simp [hindex], by simp [ha]⟩, hpos⟩
  | [a, b], _ =>
    have hindex : s.mpacket.byteIndex = 2 := hindex
    rw [hindex, if_neg (by decide), if_neg (by decide), if_pos rfl] at hbyte
    cases hbyte
    have hab : [a, b] = [s.mpacket.b0, s.mpacket.b1] := hstored
    have hbytes := Movement.encode_decode a b data
    refine ⟨ms ++ [.decode a b data], [], ?_, by simp, ⟨by simp [hindex], rfl⟩, ?_⟩
    · simp [hbytes]
    · simp only [Movement.encode, List.cons.injEq, and_true] at hbytes hab
      rw [← applyPacket_eq (i := s.mpacket.byteIndex), hbytes.1, hbytes.2.1, hbytes.2.2, ← hpos,
        hab.1, hab.2]

/-! ## Runs -/

/-- What the mouse driver keeps of its packets. -/
def PcState.mouse (s : PcState δ) : MousePacket × MousePositionData := (s.mpacket, s.mousePosition)

/-- Reading a port leaves the driver's data. -/
theorem inb_mouse {port : Nat} : Fixes PcState.mouse (inb d port) := onBus_fixes fun _ _ => rfl

/-- So does writing to one. -/
theorem outb_mouse {port : Nat} {v : BitVec 8} : Fixes PcState.mouse (outb d port v) :=
  onBus_fixes fun _ _ => rfl

/-- `ps2_wait_read` leaves it too. -/
theorem ps2WaitRead_mouse {port : Nat} : Fixes PcState.mouse (ps2WaitRead d port) :=
  .bind (onBus_fixes fun _ _ => rfl) fun _ =>
    .ite (.bind (.modify fun _ => rfl) fun _ => .pure _) (.bind inb_mouse fun _ => .pure _)

/-- And so does `pic_send_eoi`. -/
theorem picSendEoi_mouse {irq : Nat} : Fixes PcState.mouse (picSendEoi d irq) :=
  .bind (.lift _) fun _ => .bind (.when outb_mouse) fun _ => outb_mouse

/-- The invariant is about the driver's data only. -/
theorem MouseOk.of_mouse (h : MouseOk s bytes) (hmouse : s'.mouse = s.mouse) :
    MouseOk s' bytes := by
  obtain ⟨ms, part, hbytes, hpart, hstored, hms⟩ := h
  obtain ⟨hpacket, hpos⟩ := Prod.mk.inj hmouse
  exact ⟨ms, part, hbytes, hpart, by rwa [hpacket], by rwa [hpos]⟩

/-- The states of the drivers from their start on, with the bytes that the mouse handler read:
anything but the packet and the position changes between its interrupts. -/
inductive MouseRun (d : Device δ) : PcState δ → List (BitVec 8) → Prop
  | start {s : PcState δ} : s.mpacket = ⟨0, 0, 0, 0⟩ →
      s.mousePosition = ⟨0, 0, false, false, false⟩ → MouseRun d s []
  | other {s s' : PcState δ} {bytes : List (BitVec 8)} : MouseRun d s bytes →
      s'.mouse = s.mouse → MouseRun d s' bytes
  | interrupt {s s₁ s' : PcState δ} {bytes : List (BitVec 8)} {data : Option (BitVec 8)} :
      MouseRun d s bytes → ps2WaitRead d ps2DataPort s = .ok (data, s₁) →
      ps2MouseInterruptHandler d s = .ok ((), s') → MouseRun d s' (bytes ++ data.toList)

/-- It holds at the end of every run. -/
theorem MouseRun.ok (h : MouseRun d s bytes) : MouseOk s bytes := by
  induction h with
  | start hpacket hpos =>
    exact ⟨[], [], rfl, by simp, by rw [hpacket]; exact ⟨rfl, rfl⟩, hpos⟩
  | other _ hmouse ih => exact ih.of_mouse hmouse
  | @interrupt s s₁ s' bytes data _ hread hrun ih =>
    have h₁ := ih.of_mouse (ps2WaitRead_mouse _ _ _ hread)
    rw [ps2MouseInterruptHandler, bind_of_ok hread] at hrun
    cases data with
    | none =>
      rw [Option.toList_none, List.append_nil]
      exact h₁.of_mouse (picSendEoi_mouse _ _ _ hrun)
    | some data =>
      obtain ⟨_, s₂, hbyte, hrun⟩ := bind_eq_ok.1 hrun
      exact (mouseByte_ok h₁ hbyte).of_mouse (picSendEoi_mouse _ _ _ hrun)

/-- Whatever the hardware does, the position is that of the movements in the bytes that were
read. -/
theorem mouse_run_tracks (h : MouseRun d s bytes) {ms : List Movement}
    (hbytes : bytes = ms.flatMap Movement.encode ++ part) (hpart : part.length < 3) :
    s.mousePosition = tracked ms := by
  obtain ⟨ms', part', hbytes', hpart', -, hpos⟩ := h.ok
  rw [packets_unique (hbytes.symm.trans hbytes') hpart hpart']
  exact hpos

/-! ### Three bytes -/

/-- A controller that has some bytes to be read. -/
def bytesToRead : Device (List (BitVec 8)) where
  read port bytes := if port = ps2DataPort then (bytes.headD 0, bytes.tail) else (1, bytes)
  write _ _ bytes := bytes

/-- A movement to the left and up, with the left button. -/
def leftAndUp : Movement := ⟨.ofInt 9 (-3), 5, true, false, false, true, false, false⟩

/-- The drivers at their start, with a movement to be read. -/
def mouseStart : PcState (List (BitVec 8)) where
  bus := leftAndUp.encode
  errorNumber := .errNone
  idt _ := .zero
  devices _ := ⟨false, false⟩
  mpacket := ⟨0, 0, 0, 0⟩
  mousePosition := ⟨0, 0, false, false, false⟩
  mouseStatusOriginal := ⟨0, 0, 0, 0⟩

/-- The drivers after some interrupts of the mouse. -/
def mouseAfter : Nat → PcState (List (BitVec 8))
  | 0 => mouseStart
  | n + 1 => (ps2MouseInterruptHandler bytesToRead).finalState (mouseAfter n)

/-- One byte more is received. -/
theorem MouseRun.after {n : Nat} {data : BitVec 8} (h : MouseRun bytesToRead (mouseAfter n) bytes)
    (hdata : (ps2WaitRead bytesToRead ps2DataPort (mouseAfter n)).map Prod.fst = .ok (some data))
    (hok : (ps2MouseInterruptHandler bytesToRead (mouseAfter n)).isOk = true) :
    MouseRun bytesToRead (mouseAfter (n + 1)) (bytes ++ [data]) :=
  h.interrupt (eq_ok_of_value hdata) (eq_ok_finalState hok)

/-- The three bytes of a movement to the left and up, with a button. -/
theorem mouse_run_tracks_three : MouseRun bytesToRead (mouseAfter 3) leftAndUp.encode ∧
    (mouseAfter 3).mousePosition = ⟨-3, 5, true, false, false⟩ := by
  have htwo := ((MouseRun.start rfl rfl).after (n := 0) rfl rfl).after rfl rfl
  have hdata : (ps2WaitRead bytesToRead ps2DataPort (mouseAfter 2)).map Prod.fst =
    .ok (some (leftAndUp.dy.setWidth 8)) := rfl
  have hrun : MouseRun bytesToRead (mouseAfter 3) leftAndUp.encode := htwo.after hdata rfl
  have hbytes : leftAndUp.encode = [leftAndUp].flatMap Movement.encode ++ [] := rfl
  exact ⟨hrun, mouse_run_tracks hrun hbytes (by decide)⟩

end MeghaOS
