import MeghaOS.Lib.Exec

/-!
# Devices behind ports

A `Device` is what a processor meets at its input and output ports: what each read returns, and how
the device changes with each access. Nothing else is known of it, so what is proved for every device
holds whatever the hardware does. `Device.beside` puts two devices on one bus, and `Device.traced`
writes down every access, so that a rule about the order of the accesses (`Guarded`) is a property
of the trace. `Device.poll` reads a port until the answer is a certain one, or too many reads have
been made. A program is `Disciplined` if it keeps to such a rule and makes no more than so many
accesses; the rules for it follow the shape of the program.
-/

namespace MeghaOS

open Exec

/-- What is at the ports: the answer to a read, and the change by a read and by a write. -/
structure Device (δ : Type) where
  read : Nat → δ → BitVec 8 × δ
  write : Nat → BitVec 8 → δ → δ

/-- An access to a port. -/
inductive PortOp
  | read (port : Nat) (value : BitVec 8)
  | write (port : Nat) (value : BitVec 8)
  deriving DecidableEq

/-- Every access of a trace, the last one first, meets a condition on those before it. -/
def Guarded (ok : PortOp → List PortOp → Prop) : List PortOp → Prop
  | [] => True
  | op :: before => ok op before ∧ Guarded ok before

namespace Device

variable {δ ε : Type}

/-- Two devices on one bus, of which the first answers at the given ports. -/
def beside (ports : Nat → Bool) (d : Device δ) (e : Device ε) : Device (δ × ε) where
  read port s :=
    if ports port then
      let r := d.read port s.1
      (r.1, r.2, s.2)
    else
      let r := e.read port s.2
      (r.1, s.1, r.2)
  write port v s := if ports port then (d.write port v s.1, s.2) else (s.1, e.write port v s.2)

/-- The device with a record of all accesses, the last one first. -/
def traced (d : Device δ) : Device (δ × List PortOp) where
  read port s :=
    let r := d.read port s.1
    (r.1, r.2, .read port r.1 :: s.2)
  write port v s := (d.write port v s.1, .write port v :: s.2)

variable (d : Device δ)

/-- Read a port. -/
def inb (port : Nat) : Exec δ (BitVec 8) := fun s => .ok (d.read port s)

/-- Write a port. -/
def outb (port : Nat) (v : BitVec 8) : Exec δ Unit := fun s => .ok ((), d.write port v s)

@[simp] theorem inb_bind_apply {α : Type} (port : Nat) (f : BitVec 8 → Exec δ α) (s : δ) :
    (d.inb port >>= f) s = f (d.read port s).1 (d.read port s).2 := rfl

@[simp] theorem inb_apply (port : Nat) (s : δ) : d.inb port s = .ok (d.read port s) := rfl

@[simp] theorem outb_apply (port : Nat) (v : BitVec 8) (s : δ) :
    d.outb port v s = .ok ((), d.write port v s) := rfl

/-! ## Polling -/

/-- Read a port again, at most so many times, as long as the answer is not ready. -/
def pollMore (port : Nat) (ready : BitVec 8 → Bool) : Nat → BitVec 8 → Exec δ Bool
  | 0, _ => return false
  | n + 1, v =>
    if ready v then return true
    else do
      let v ← d.inb port
      pollMore port ready n v

/-- Read a port until the answer is ready. -/
def poll (port : Nat) (ready : BitVec 8 → Bool) (n : Nat) : Exec δ Bool := do
  let v ← d.inb port
  d.pollMore port ready n v

/-- The state after some reads of a port. -/
def afterReads (port : Nat) (s : δ) : Nat → δ
  | 0 => s
  | n + 1 => (d.read port (afterReads port s n)).2

/-- The answer to a read, by the number of reads before it. -/
def answer (port : Nat) (s : δ) (n : Nat) : BitVec 8 := (d.read port (d.afterReads port s n)).1

variable {d} {port n : Nat} {ready : BitVec 8 → Bool} {s s' : δ}

theorem afterReads_succ (port : Nat) (s : δ) (n : Nat) :
    d.afterReads port s (n + 1) = d.afterReads port (d.read port s).2 n := by
  induction n with
  | zero => rfl
  | succ n ih =>
    rw [afterReads, ih]
    rfl

/-- Polling succeeds when one of the first `n` answers is ready, and reads no further. -/
theorem poll_eq_ok {b : Bool} (h : d.poll port ready n s = .ok (b, s')) :
    (b = true ∧ ∃ k < n, ready (d.answer port s k) = true ∧
        (∀ j < k, ready (d.answer port s j) = false) ∧ s' = d.afterReads port s (k + 1)) ∨
      (b = false ∧ (∀ j < n, ready (d.answer port s j) = false) ∧
        s' = d.afterReads port s (n + 1)) := by
  induction n generalizing s with
  | zero =>
    cases h
    exact .inr ⟨rfl, fun j hj => absurd hj (Nat.not_lt_zero j), rfl⟩
  | succ n ih =>
    rw [poll, inb_bind_apply, pollMore] at h
    have hanswer : ∀ j, d.answer port s (j + 1) = d.answer port (d.read port s).2 j := fun j => by
      rw [answer, answer, afterReads_succ]
    rcases ite_eq_ok.1 h with ⟨hready, h⟩ | ⟨hnot, h⟩
    · cases h
      exact .inl ⟨rfl, 0, Nat.succ_pos n, hready, fun j hj => absurd hj (Nat.not_lt_zero j), rfl⟩
    · have hzero : ready (d.answer port s 0) = false := Bool.eq_false_iff.2 hnot
      have hfirst : ∀ k, (∀ j < k, ready (d.answer port (d.read port s).2 j) = false) →
          ∀ j < k + 1, ready (d.answer port s j) = false := fun k hk j hj => by
        cases j with
        | zero => exact hzero
        | succ j =>
          rw [hanswer]
          exact hk j (Nat.lt_of_succ_lt_succ hj)
      rcases ih h with ⟨rfl, k, hk, hready, hbefore, rfl⟩ | ⟨rfl, hnever, rfl⟩
      · exact .inl ⟨rfl, k + 1, Nat.succ_lt_succ hk, by rw [hanswer]; exact hready,
          hfirst k hbefore, (afterReads_succ port s (k + 1)).symm⟩
      · exact .inr ⟨rfl, hfirst n hnever, (afterReads_succ port s (n + 1)).symm⟩

/-- Reads at the ports of the second device on a bus leave the first one as it is. -/
theorem afterReads_beside {ports : Nat → Bool} {e : Device ε} (hport : ports port = false)
    (s : δ × ε) (n : Nat) :
    (d.beside ports e).afterReads port s n = (s.1, e.afterReads port s.2 n) := by
  induction n with
  | zero => rfl
  | succ n ih =>
    rw [afterReads, ih, beside]
    simp [hport, afterReads]

theorem poll_beside_fst {ports : Nat → Bool} {e : Device ε} {b : Bool} {s s' : δ × ε}
    (hport : ports port = false)
    (h : (d.beside ports e).poll port ready n s = .ok (b, s')) : s'.1 = s.1 := by
  rcases poll_eq_ok h with ⟨-, k, -, -, -, rfl⟩ | ⟨-, -, rfl⟩
  · rw [afterReads_beside hport]
  · rw [afterReads_beside hport]

/-! ## Polling a traced device -/

variable {ok : PortOp → List PortOp → Prop} {t : δ × List PortOp}

theorem afterReads_traced (hread : ∀ v before, ok (.read port v) before) (n : Nat)
    (h : Guarded ok t.2) : Guarded ok (d.traced.afterReads port t n).2 ∧
      (d.traced.afterReads port t n).2.length = t.2.length + n := by
  induction n with
  | zero => exact ⟨h, rfl⟩
  | succ n ih =>
    refine ⟨⟨hread _ _, ih.1⟩, ?_⟩
    show (d.traced.afterReads port t n).2.length + 1 = _
    rw [ih.2, Nat.add_assoc]

/-- The last access of a poll that succeeds is a read with a ready answer. -/
theorem poll_traced_ready {t' : δ × List PortOp}
    (h : d.traced.poll port ready n t = .ok (true, t')) :
    ∃ v before, t'.2 = .read port v :: before ∧ ready v = true := by
  rcases poll_eq_ok h with ⟨-, k, -, hready, -, rfl⟩ | ⟨habsurd, -⟩
  · exact ⟨_, _, rfl, hready⟩
  · cases habsurd

end Device

/-! ## Programs that keep to a rule -/

/-- Every run of `x` keeps to a rule about its accesses, of which there are at most `n`. The state
holds the trace. -/
def Disciplined {σ α : Type} (ok : PortOp → List PortOp → Prop) (trace : σ → List PortOp) (n : Nat)
    (x : Exec σ α) : Prop :=
  ∀ s a s', x s = .ok (a, s') → Guarded ok (trace s) →
    Guarded ok (trace s') ∧ (trace s').length ≤ (trace s).length + n

namespace Disciplined

variable {σ α β : Type} {ok : PortOp → List PortOp → Prop} {trace : σ → List PortOp} {m n : Nat}
  {x y : Exec σ α}

theorem mono (hx : Disciplined ok trace m x) (h : m ≤ n) : Disciplined ok trace n x :=
  fun s a s' hrun hs =>
    have hx' := hx s a s' hrun hs
    ⟨hx'.1, Nat.le_trans hx'.2 (Nat.add_le_add_left h _)⟩

theorem bind {g : α → Exec σ β} (hx : Disciplined ok trace m x)
    (hg : ∀ a, Disciplined ok trace n (g a)) : Disciplined ok trace (m + n) (x >>= g) := by
  intro s b s' hrun hs
  obtain ⟨a, s₁, hrun₁, hrun₂⟩ := bind_eq_ok.1 hrun
  obtain ⟨h₁, hlen₁⟩ := hx s a s₁ hrun₁ hs
  obtain ⟨h₂, hlen₂⟩ := hg a s₁ b s' hrun₂ h₁
  exact ⟨h₂, by omega⟩

/-- A program that makes no access. -/
theorem of_fixes (hx : Fixes trace x) : Disciplined ok trace 0 x := by
  intro s a s' hrun hs
  rw [hx s a s' hrun]
  exact ⟨hs, Nat.le_refl _⟩

end Disciplined

end MeghaOS
