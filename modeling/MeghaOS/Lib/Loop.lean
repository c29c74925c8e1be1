import MeghaOS.Lib.Exec

/-!
# Loops that stop at the first failure

`runWhile op n i` performs `op i`, `op (i + 1)`, … until one of them reports a failure, `n` at most.
A loop that fails did so at one turn, after a run in which all turns before it succeeded
(`runWhile_false`), and a loop that succeeds ends with the turn that was added to a shorter one
(`runWhile_succ`), so that what its turns establish follows by induction on their number. A loop
whose turns all succeed while an invariant holds succeeds (`runWhile_true`).
-/

namespace MeghaOS.Exec

variable {σ : Type} {op : Nat → Exec σ Bool} {n i : Nat} {s s' : σ}

/-- Perform `op i`, `op (i + 1)`, …, `n` of them, as long as they succeed. -/
def runWhile (op : Nat → Exec σ Bool) : Nat → Nat → Exec σ Bool
  | 0, _ => return true
  | n + 1, i => do
    if ← op i then runWhile op n (i + 1) else return false

/-- One turn, and what is left of the loop. -/
theorem runWhile_step {b : Bool} (h : runWhile op (n + 1) i s = .ok (b, s')) :
    (b = false ∧ op i s = .ok (false, s')) ∨
      ∃ s₁, op i s = .ok (true, s₁) ∧ runWhile op n (i + 1) s₁ = .ok (b, s') := by
  obtain ⟨turn, s₁, hop, hrest⟩ := bind_eq_ok.1 h
  cases turn with
  | true => exact .inr ⟨s₁, hop, hrest⟩
  | false =>
    cases hrest
    exact .inl ⟨rfl, hop⟩

/-- A loop that fails does so at one turn, and all turns before it succeed. -/
theorem runWhile_false (h : runWhile op n i s = .ok (false, s')) :
    ∃ k < n, ∃ s₁, runWhile op k i s = .ok (true, s₁) ∧ op (i + k) s₁ = .ok (false, s') := by
  induction n generalizing i s with
  | zero => cases h
  | succ n ih =>
    rcases runWhile_step h with ⟨-, hop⟩ | ⟨s₁, hop, hrest⟩
    · exact ⟨0, Nat.succ_pos n, s, rfl, hop⟩
    · obtain ⟨k, hk, s₂, hrun, hlast⟩ := ih hrest
      refine ⟨k + 1, Nat.succ_lt_succ hk, s₂, ?_, by rwa [Nat.add_comm k 1, ← Nat.add_assoc]⟩
      rw [runWhile, bind_of_ok hop]
      exact hrun

/-- A loop that succeeds is a shorter one that succeeds and one more turn. -/
theorem runWhile_succ (h : runWhile op (n + 1) i s = .ok (true, s')) :
    ∃ s₁, runWhile op n i s = .ok (true, s₁) ∧ op (i + n) s₁ = .ok (true, s') := by
  induction n generalizing i s with
  | zero =>
    rcases runWhile_step h with ⟨hb, -⟩ | ⟨s₁, hop, hrest⟩
    · cases hb
    · cases hrest
      exact ⟨s, rfl, hop⟩
  | succ n ih =>
    rcases runWhile_step h with ⟨hb, -⟩ | ⟨s₁, hop, hrest⟩
    · cases hb
    · obtain ⟨s₂, hrun, hlast⟩ := ih hrest
      refine ⟨s₂, ?_, by rwa [Nat.add_comm n 1, ← Nat.add_assoc]⟩
      rw [runWhile, bind_of_ok hop]
      exact hrun

/-- A loop succeeds when an invariant lets every turn succeed, and is kept by it. -/
theorem runWhile_true {P : Nat → σ → Prop}
    (hturn : ∀ k s, k < i + n → P k s → ∃ s', op k s = .ok (true, s') ∧ P (k + 1) s') (h : P i s) :
    ∃ s', runWhile op n i s = .ok (true, s') ∧ P (i + n) s' := by
  induction n generalizing i s with
  | zero => exact ⟨s, rfl, h⟩
  | succ n ih =>
    obtain ⟨s₁, hop, h₁⟩ := hturn i s (Nat.lt_add_of_pos_right (Nat.succ_pos n)) h
    have hnext : i + 1 + n = i + (n + 1) := by omega
    obtain ⟨s', hrun, h'⟩ := ih (fun k s hk => hturn k s (hnext ▸ hk)) h₁
    refine ⟨s', ?_, hnext ▸ h'⟩
    rw [runWhile, bind_of_ok hop]
    exact hrun

end MeghaOS.Exec
