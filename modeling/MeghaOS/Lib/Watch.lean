import MeghaOS.Lib.Exec

/-!
# Watched programs

A watched program is a program with checks between its steps; a check that fails ends the run with a
violation. `Watches` says that a watched program is another program with checks, and `Confined`
which violations it may end with. A run without a violation is a run of the program that is watched.
-/

namespace MeghaOS

namespace Exec

/-- Programs over the state `σ` with checks that may end the run with a violation in `ε`. -/
abbrev Watched (ε σ : Type) : Type → Type := ExceptT ε (Exec σ)

variable {ε σ α β : Type}

/-- A check that ends the run with the violation `v` unless the state satisfies `c`. -/
def check (c : σ → Bool) (v : ε) : Watched ε σ Unit := do
  if c (← get) then return else throw v

/-! ## Inversion of watched runs -/

/-- A sequence returns when both halves do. -/
theorem watched_bind_eq_ok {w : Watched ε σ α} {f : α → Watched ε σ β} {s t : σ} {b : β} :
    (w >>= f).run s = .ok (.ok b, t) ↔
      ∃ a s', w.run s = .ok (.ok a, s') ∧ (f a).run s' = .ok (.ok b, t) := by
  rw [ExceptT.run_bind, bind_eq_ok]
  constructor
  · rintro ⟨r, s', hw, hf⟩
    cases r with
    | ok a => exact ⟨a, s', hw, hf⟩
    | error v => cases hf
  · rintro ⟨a, s', hw, hf⟩
    exact ⟨.ok a, s', hw, hf⟩

/-- A sequence ends with a violation when one of its halves does. -/
theorem watched_bind_eq_violation {w : Watched ε σ α} {f : α → Watched ε σ β} {s t : σ} {v : ε} :
    (w >>= f).run s = .ok (.error v, t) ↔ w.run s = .ok (.error v, t) ∨
      ∃ a s', w.run s = .ok (.ok a, s') ∧ (f a).run s' = .ok (.error v, t) := by
  rw [ExceptT.run_bind, bind_eq_ok]
  constructor
  · rintro ⟨r, s', hw, hf⟩
    cases r with
    | ok a => exact .inr ⟨a, s', hw, hf⟩
    | error v' =>
      cases hf
      exact .inl hw
  · rintro (hw | ⟨a, s', hw, hf⟩)
    · exact ⟨.error v, t, hw, rfl⟩
    · exact ⟨.ok a, s', hw, hf⟩

/-- A program that is not watched runs as it does. -/
theorem run_liftM (x : Exec σ α) (s : σ) :
    (liftM x : Watched ε σ α).run s = (x s).map fun r => (.ok r.1, r.2) := by
  show StateT.map Except.ok x s = _
  unfold StateT.map
  cases x s <;> rfl

/-- A program without checks runs as it does without a watch. -/
theorem liftM_eq_ok {x : Exec σ α} {s t : σ} {a : α} :
    (liftM x : Watched ε σ α).run s = .ok (.ok a, t) ↔ x s = .ok (a, t) := by
  rw [run_liftM]
  cases x s with
  | error e => simp [Except.map]
  | ok r => simp [Except.map, Prod.ext_iff]

/-- It violates nothing. -/
theorem liftM_ne_violation {x : Exec σ α} {s t : σ} {v : ε} :
    (liftM x : Watched ε σ α).run s ≠ .ok (.error v, t) := by
  rw [run_liftM]
  cases x s <;> simp [Except.map]

/-- A check passes, or the run ends. -/
theorem run_check (c : σ → Bool) (v : ε) (s : σ) :
    (check c v).run s = if c s then .ok (.ok (), s) else .ok (.error v, s) := by
  show ((if c s then pure () else throw v : Watched ε σ Unit).run s) = _
  split <;> rfl

/-! ## What is watched -/

/-- `w` is the program `x` with checks. -/
def Watches (w : Watched ε σ α) (x : Exec σ α) : Prop :=
  ∀ s, (∃ v t, w.run s = .ok (.error v, t)) ∨ w.run s = (x s).map fun r => (.ok r.1, r.2)

namespace Watches

variable {w : Watched ε σ α} {x : Exec σ α}

/-- A watched program that returns does what the program does. -/
theorem eq_ok (h : Watches w x) {s t : σ} {a : α} (hw : w.run s = .ok (.ok a, t)) :
    x s = .ok (a, t) := by
  rcases h s with ⟨v, t', hv⟩ | hx
  · rw [hv] at hw
    cases hw
  · rw [hw] at hx
    cases hrun : x s with
    | error e =>
      rw [hrun] at hx
      cases hx
    | ok r =>
      rw [hrun] at hx
      cases hx
      rfl

/-- When the program returns, the watched one does too or ends with a violation. -/
theorem of_ok (h : Watches w x) {s t : σ} {a : α} (hx : x s = .ok (a, t)) :
    (∃ v t', w.run s = .ok (.error v, t')) ∨ w.run s = .ok (.ok a, t) := by
  have hrun := h s
  rwa [hx] at hrun

/-- A program without checks watches itself. -/
theorem lift (x : Exec σ α) : Watches (liftM x : Watched ε σ α) x := fun s => .inr (run_liftM x s)

/-- A result. -/
theorem pure (a : α) : Watches (Pure.pure a : Watched ε σ α) (Pure.pure a) := fun _ => .inr rfl

/-- Two programs in sequence. -/
theorem bind {f : α → Watched ε σ β} {g : α → Exec σ β} (hw : Watches w x)
    (hf : ∀ a, Watches (f a) (g a)) : Watches (w >>= f) (x >>= g) := by
  intro s
  rcases hw s with ⟨v, t, hv⟩ | hx
  · exact .inl ⟨v, t, watched_bind_eq_violation.2 (.inl hv)⟩
  · cases hrun : x s with
    | error e =>
      rw [hrun] at hx
      right
      rw [bind_of_error hrun, ExceptT.run_bind, bind_of_error hx]
      rfl
    | ok r =>
      rw [hrun] at hx
      have hcont : (w >>= f).run s = (f r.1).run r.2 := by
        rw [ExceptT.run_bind, bind_of_ok hx]
      rw [hcont, bind_of_ok hrun]
      exact hf r.1 r.2

/-- The state is read. -/
theorem get_bind {f : σ → Watched ε σ β} {g : σ → Exec σ β} (hf : ∀ s, Watches (f s) (g s)) :
    Watches (MonadState.get >>= f) (MonadState.get >>= g) := .bind (.lift MonadState.get) hf

/-- Either branch of a conditional. -/
theorem ite {c : Prop} [Decidable c] {w' : Watched ε σ α} {x' : Exec σ α} (hw : Watches w x)
    (hw' : Watches w' x') : Watches (if c then w else w') (if c then x else x') := by
  split <;> assumption

/-- What is done before the program may only end the run. -/
theorem after {c : Watched ε σ Unit} (hc : Watches c (Pure.pure ())) (hw : Watches w x) :
    Watches (c >>= fun _ => w) x := hc.bind fun _ => hw

/-- A check that looks at the state. -/
theorem get_after {f : σ → Watched ε σ Unit} (hf : ∀ s, Watches (f s) (Pure.pure ())) :
    Watches (MonadState.get >>= f) (Pure.pure ()) := fun s => hf s s

/-- A check does nothing else. -/
theorem check (c : σ → Bool) (v : ε) : Watches (check c v) (Pure.pure ()) := by
  intro s
  rw [run_check]
  split
  · exact .inr rfl
  · exact .inl ⟨v, s, rfl⟩

end Watches

/-! ## Violations -/

/-- The only violations that `w` may end with, from `s`, are those in `P`. -/
def Confined (P : ε → Prop) (w : Watched ε σ α) (s : σ) : Prop :=
  ∀ v t, w.run s = .ok (.error v, t) → P v

namespace Confined

variable {P : ε → Prop} {w : Watched ε σ α} {x : Exec σ α} {s : σ}

/-- A result violates nothing. -/
theorem pure (a : α) : Confined P (Pure.pure a : Watched ε σ α) s := fun _ _ h => by cases h

/-- Nor does a program without checks. -/
theorem lift (x : Exec σ α) : Confined P (liftM x : Watched ε σ α) s :=
  fun _ _ h => absurd h liftM_ne_violation

/-- Two programs in sequence: the second one runs where the watched program would be. -/
theorem bind {f : α → Watched ε σ β} (hw : Confined P w s) (hx : Watches w x)
    (hf : ∀ a s', x s = .ok (a, s') → Confined P (f a) s') : Confined P (w >>= f) s := by
  intro v t h
  rcases watched_bind_eq_violation.1 h with h | ⟨a, s', h, h'⟩
  · exact hw v t h
  · exact hf a s' (hx.eq_ok h) v t h'

/-- A program without checks, and what follows. -/
theorem lift_bind {f : α → Watched ε σ β} (hf : ∀ a s', x s = .ok (a, s') → Confined P (f a) s') :
    Confined P (liftM x >>= f) s := bind (.lift x) (.lift x) hf

/-- The state is read, and what follows. -/
theorem get_bind {f : σ → Watched ε σ β} (hf : Confined P (f s) s) :
    Confined P (MonadState.get >>= f) s :=
  lift_bind (x := MonadState.get) fun a s' h => by
    cases h
    exact hf

/-- Either branch of a conditional, which knows its condition. -/
theorem ite {c : Prop} [Decidable c] {w' : Watched ε σ α} (hw : c → Confined P w s)
    (hw' : ¬ c → Confined P w' s) : Confined P (if c then w else w') s := by
  split
  · exact hw ‹_›
  · exact hw' ‹_›

/-- A program in front that leaves the state as it is. -/
theorem after {c : Watched ε σ Unit} (hc : Confined P c s) (hpure : Watches c (Pure.pure ()))
    (hw : Confined P w s) : Confined P (c >>= fun _ => w) s :=
  hc.bind hpure fun _ _ h => by
    cases h
    exact hw

/-- A check passes, or its violation is one of those allowed. -/
theorem check {c : σ → Bool} {v : ε} (h : c s = true ∨ P v) : Confined P (check c v) s := by
  intro v' t hrun
  rw [run_check] at hrun
  split at hrun
  · cases hrun
  · cases hrun
    exact h.resolve_left ‹_›

end Confined

end Exec

end MeghaOS
