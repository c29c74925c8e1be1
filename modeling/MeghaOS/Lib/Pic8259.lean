import MeghaOS.Lib.Port

/-!
# The 8259A interrupt controller, and the pair of a PC

The registers of a controller, the words that initialise it and command it, and the acknowledge
cycle in which it passes a request on to the processor: the controller moves the unmasked request
of highest priority, if it is above everything in service, from the request register to the
in-service register, where an end-of-interrupt command clears it. In a PC the second controller is
behind input 2 of the first.

The requests change as the lines of the devices do, so the lemmas are about the other registers
(`Pic8259.quiet`). Commands that rotate the priorities or ask for a poll are ignored.
-/

namespace MeghaOS

/-- What a controller takes the next byte at its data port for. -/
inductive PicExpects
  | mask | vector | cascade | mode
  deriving DecidableEq

/-- The registers of a controller. -/
structure Pic8259 where
  expects : PicExpects
  single : Bool
  needsMode : Bool
  vectorBase : BitVec 8
  cascade : BitVec 8
  mode : BitVec 8
  mask : BitVec 8
  requests : BitVec 8
  inService : BitVec 8
  readsInService : Bool
  deriving DecidableEq

namespace Pic8259

/-- The bit of an input. -/
def bit (i : Nat) : BitVec 8 := 1#8 <<< i

/-- The lowest bit that is set, which has the highest priority. -/
def highest (r : BitVec 8) : Option Nat := (List.range 8).find? r.getLsbD

/-- What follows the first initialisation words, once the cascade word is there or not needed. -/
def afterCascade (p : Pic8259) : PicExpects := if p.needsMode then .mode else .mask

/-- A byte at the command port: the first initialisation word, a read command or an
end-of-interrupt command. -/
def command (p : Pic8259) (v : BitVec 8) : Pic8259 :=
  if v.getLsbD 4 then
    { p with
      expects := .vector, needsMode := v.getLsbD 0, single := v.getLsbD 1, mode := 0, mask := 0
      requests := 0, inService := 0, readsInService := false }
  else if v.getLsbD 3 then
    if v.getLsbD 1 then { p with readsInService := v.getLsbD 0 } else p
  else if v &&& 0xE0#8 = 0x20#8 then
    match highest p.inService with
    | some i => { p with inService := p.inService &&& ~~~ bit i }
    | none => p
  else if v &&& 0xE0#8 = 0x60#8 then
    { p with inService := p.inService &&& ~~~ bit (v &&& 7#8).toNat }
  else p

/-- A byte at the data port. -/
def data (p : Pic8259) (v : BitVec 8) : Pic8259 :=
  match p.expects with
  | .mask => { p with mask := v }
  | .vector =>
    { p with vectorBase := v &&& 0xF8#8, expects := if p.single then p.afterCascade else .cascade }
  | .cascade => { p with cascade := v, expects := p.afterCascade }
  | .mode => { p with mode := v, expects := .mask }

/-- The answer at the command port. -/
def status (p : Pic8259) : BitVec 8 := if p.readsInService then p.inService else p.requests

/-- The request that the controller passes on. -/
def deliverable (p : Pic8259) : Option Nat :=
  match highest (p.requests &&& ~~~ p.mask), highest p.inService with
  | some i, some j => if i < j then some i else none
  | request, _ => request

/-- The acknowledge cycle. A controller that has nothing to pass on answers with its last vector. A
mode with automatic end of interrupt leaves nothing in service. -/
def acknowledge (p : Pic8259) : Option Nat × Pic8259 :=
  match p.deliverable with
  | some i =>
    (some i, { p with
      requests := p.requests &&& ~~~ bit i
      inService := if p.mode.getLsbD 1 then p.inService else p.inService ||| bit i })
  | none => (none, p)

/-- The vector of an input. -/
def vector (p : Pic8259) (i : Option Nat) : Nat := p.vectorBase.toNat + i.getD 7

end Pic8259

/-- The two controllers of a PC. -/
structure PicPair where
  master : Pic8259
  slave : Pic8259
  deriving DecidableEq

namespace PicPair

/-- The ports of the two controllers. -/
abbrev masterCommand : Nat := 0x20
abbrev masterData : Nat := 0x21
abbrev slaveCommand : Nat := 0xA0
abbrev slaveData : Nat := 0xA1

/-- Whether a port is one of the controllers'. -/
def owns (port : Nat) : Bool :=
  port = masterCommand || port = masterData || port = slaveCommand || port = slaveData

/-- The answer at a port. -/
def answer (p : PicPair) (port : Nat) : BitVec 8 :=
  if port = masterCommand then p.master.status
  else if port = masterData then p.master.mask
  else if port = slaveCommand then p.slave.status
  else p.slave.mask

/-- A byte at a port. -/
def write (p : PicPair) (port : Nat) (v : BitVec 8) : PicPair :=
  if port = masterCommand then { p with master := p.master.command v }
  else if port = masterData then { p with master := p.master.data v }
  else if port = slaveCommand then { p with slave := p.slave.command v }
  else { p with slave := p.slave.data v }

/-- Other requests, as the lines of the devices have it. -/
def request (p : PicPair) (r : BitVec 8 × BitVec 8) : PicPair where
  master := { p.master with requests := r.1 }
  slave := { p.slave with requests := r.2 }

/-- The acknowledge cycle of the processor, which passes input 2 of the first controller on to the
second: the vector, and the input that is now in service, if it is one. -/
def acknowledge (p : PicPair) : Nat × Option Nat × PicPair :=
  let r := p.master.acknowledge
  if r.1 = some 2 then
    let t := p.slave.acknowledge
    (t.2.vector t.1, t.1.map (8 + ·), ⟨r.2, t.2⟩)
  else (r.2.vector r.1, r.1, { p with master := r.2 })

end PicPair

/-- The controllers at their ports. The lines of the devices rise and fall at any time: the requests
at an access are those of `lines`, by the number of accesses before. -/
def picDevice (lines : Nat → BitVec 8 × BitVec 8) : Device (PicPair × Nat) where
  read port s :=
    let p := s.1.request (lines s.2)
    (p.answer port, p, s.2 + 1)
  write port v s := ((s.1.request (lines s.2)).write port v, s.2 + 1)

variable {p q : Pic8259} {pp : PicPair} {port : Nat} {v : BitVec 8}

/-! ## The controllers without their requests -/

namespace Pic8259

/-- The controller without its requests. -/
def quiet (p : Pic8259) : Pic8259 := { p with requests := 0 }

/-- A command has nothing to do with the requests. -/
theorem quiet_command : (p.command v).quiet = (p.quiet.command v).quiet := by
  simp only [command, quiet]
  cases highest p.inService <;> (split_ifs <;> rfl)

/-- Nor has a byte of data. -/
theorem quiet_data : (p.data v).quiet = (p.quiet.data v).quiet := by
  cases h : p.expects <;> simp [data, quiet, afterCascade, h]

/-- Data is a mask, once the controller is initialised. -/
theorem data_of_mask (h : p.expects = .mask) : p.data v = { p with mask := v } := by
  rw [data, h]

/-- What the end-of-interrupt command leaves in service. -/
def clearHighest (r : BitVec 8) : BitVec 8 :=
  match highest r with
  | some i => r &&& ~~~ bit i
  | none => r

/-- The unspecific end of interrupt. -/
theorem command_eoi (p : Pic8259) :
    p.command 0x20#8 = { p with inService := clearHighest p.inService } := by
  rw [command, if_neg (by decide), if_neg (by decide), if_pos (by decide), clearHighest]
  cases highest p.inService <;> rfl

/-- There are eight lines. -/
theorem highest_lt {r : BitVec 8} {i : Nat} (h : highest r = some i) : i < 8 := by
  simpa using List.mem_of_find?_eq_some h

/-- What a controller passes on is above everything in service. -/
theorem deliverable_some {i : Nat} (h : p.deliverable = some i) :
    i < 8 ∧ ∀ k, highest p.inService = some k → i < k := by
  rw [deliverable] at h
  cases hreq : highest (p.requests &&& ~~~ p.mask) with
  | none =>
    rw [hreq] at h
    cases h
  | some j =>
    rw [hreq] at h
    cases hserv : highest p.inService with
    | none =>
      rw [hserv] at h
      cases h
      exact ⟨highest_lt hreq, fun k hk => by cases hk⟩
    | some k =>
      rw [hserv] at h
      dsimp only at h
      split_ifs at h with hlt
      cases h
      refine ⟨highest_lt hreq, fun k' hk' => ?_⟩
      cases hk'
      exact hlt

/-- A request that a controller passes on is in service from then on. -/
theorem acknowledge_some {i : Nat} (hmode : p.mode.getLsbD 1 = false)
    (h : p.acknowledge = (some i, q)) : i < 8 ∧ (∀ k, highest p.inService = some k → i < k) ∧
      q.quiet = { p.quiet with inService := p.inService ||| bit i } := by
  rw [acknowledge] at h
  cases hd : p.deliverable with
  | none =>
    rw [hd] at h
    cases h
  | some j =>
    rw [hd, hmode] at h
    cases h
    obtain ⟨hi, habove⟩ := deliverable_some hd
    exact ⟨hi, habove, rfl⟩

/-- The highest line is one of those asked for. -/
theorem highest_getLsbD {r : BitVec 8} {i : Nat} (h : highest r = some i) :
    r.getLsbD i = true := List.find?_some h

/-- A controller passes on no masked request. -/
theorem acknowledge_unmasked {i : Nat} (h : p.acknowledge = (some i, q)) :
    i < 8 ∧ p.mask.getLsbD i = false := by
  rw [acknowledge] at h
  cases hd : p.deliverable with
  | none =>
    rw [hd] at h
    cases h
  | some j =>
    rw [hd] at h
    cases h
    have hreq : highest (p.requests &&& ~~~ p.mask) = some i := by
      rw [deliverable] at hd
      split at hd
      case h_1 k l hk hl =>
        split_ifs at hd
        cases hd
        exact hk
      case h_2 => exact hd
    have hbit := highest_getLsbD hreq
    have hi := highest_lt hreq
    rw [BitVec.getLsbD_and, BitVec.getLsbD_not] at hbit
    exact ⟨hi, by simpa [hi] using (Bool.and_eq_true_iff.1 hbit).2⟩

/-- A spurious interrupt changes nothing. -/
theorem acknowledge_none (h : p.acknowledge = (none, q)) : q = p := by
  rw [acknowledge] at h
  cases hd : p.deliverable with
  | none =>
    rw [hd] at h
    cases h
    rfl
  | some j =>
    rw [hd] at h
    cases h

/-- The line of highest priority that is requested and not masked. -/
def pending (p : Pic8259) : Option Nat := highest (p.requests &&& ~~~ p.mask)

/-- With nothing in service, what is pending is delivered. -/
theorem deliverable_of_idle (h : p.inService = 0) : p.deliverable = p.pending := by
  rw [deliverable, h, show highest (0 : BitVec 8) = none by decide, pending]
  cases highest (p.requests &&& ~~~ p.mask) <;> rfl

/-- With the last line in service, all but that. -/
theorem deliverable_of_seven (h : p.inService = 0x80) :
    p.deliverable = if p.pending = some 7 then none else p.pending := by
  rw [deliverable, h, show highest (0x80 : BitVec 8) = some 7 by decide, pending]
  cases hreq : highest (p.requests &&& ~~~ p.mask) with
  | none => rfl
  | some i =>
    have hi := highest_lt hreq
    have hiff : some i = some 7 ↔ ¬ i < 7 := by
      rw [Option.some_inj]
      omega
    simp only [hiff, ite_not]

end Pic8259

namespace PicPair

/-- The controllers without their requests. -/
def quiet (p : PicPair) : PicPair := ⟨p.master.quiet, p.slave.quiet⟩

/-- A request changes the requests only. -/
theorem quiet_request {r : BitVec 8 × BitVec 8} : (pp.request r).quiet = pp.quiet := rfl

/-- A write has nothing to do with them. -/
theorem quiet_write : (pp.write port v).quiet = (pp.quiet.write port v).quiet := by
  unfold write
  split_ifs
  · exact congrArg (fun m => PicPair.mk m pp.slave.quiet) Pic8259.quiet_command
  · exact congrArg (fun m => PicPair.mk m pp.slave.quiet) Pic8259.quiet_data
  · exact congrArg (fun m => PicPair.mk pp.master.quiet m) Pic8259.quiet_command
  · exact congrArg (fun m => PicPair.mk pp.master.quiet m) Pic8259.quiet_data

end PicPair

end MeghaOS
