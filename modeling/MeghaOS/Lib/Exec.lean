import Mathlib.Order.Defs.Unbundled
import Mathlib.Tactic.Common

/-!
# Programs that run on a state and may stop

`Exec σ α` is a program over the state `σ`: it returns a value and a new state, or it stops for
one of the reasons of `Halt`. `Exec.bind_eq_ok` inverts a successful sequence into its two halves,
and the other `eq_ok` lemmas invert the primitive programs, so that a proof about a program walks
through it in the order it runs. `Fixes` and `Ensures` are the shapes of statement used about whole
programs: what part of the state a successful run leaves as it was, and how the states before and
after it are related. `Ignores` and `HaltsIn` are about every run: the part of the state that a
program does not read, and the reasons for which it may stop.
-/

namespace MeghaOS

/-- Why a program stopped instead of returning. -/
inductive Halt
  /-- A deliberate stop with a message. -/
  | panic (message : String)
  /-- An access through a pointer that leads nowhere. -/
  | fault
  /-- A loop that never ends. -/
  | hang
  deriving DecidableEq, Repr

/-- Programs over the state `σ` that return an `α` or stop. -/
abbrev Exec (σ : Type) : Type → Type := StateT σ (Except Halt)

namespace Exec

variable {σ τ α β : Type}

/-- Stop for a reason. -/
def halt (e : Halt) : Exec σ α := fun _ => .error e

/-- Run a program that has no state of its own. -/
def lift (x : Except Halt α) : Exec σ α := fun s =>
  match x with
  | .ok a => .ok (a, s)
  | .error e => .error e

/-- Run a program over a component of the state. -/
def zoom (get : σ → τ) (set : τ → σ → σ) (x : Exec τ α) : Exec σ α := fun s =>
  match x (get s) with
  | .ok (a, t) => .ok (a, set t s)
  | .error e => .error e

/-- A conditional statement. -/
def when (c : Prop) [Decidable c] (x : Exec σ Unit) : Exec σ Unit := if c then x else pure ()

/-! ## Inversion of successful runs -/

/-- A sequence of programs without a state returns when both halves do. -/
theorem except_bind_eq_ok {ε : Type} {x : Except ε α} {f : α → Except ε β} {b : β} :
    (x >>= f) = .ok b ↔ ∃ a, x = .ok a ∧ f a = .ok b := by
  cases x with
  | error e => simp [bind, Except.bind]
  | ok a => simp [bind, Except.bind]

/-- A sequence that ends well has a middle state. -/
theorem bind_eq_ok {x : Exec σ α} {f : α → Exec σ β} {s : σ} {r : β × σ} :
    (x >>= f) s = .ok r ↔ ∃ a s', x s = .ok (a, s') ∧ f a s' = .ok r := by
  show (x s >>= fun p => f p.1 p.2) = .ok r ↔ _
  cases hx : x s with
  | error e => simp [bind, Except.bind]
  | ok p =>
    obtain ⟨a, s'⟩ := p
    simp only [bind, Except.bind, Except.ok.injEq, Prod.mk.injEq]
    exact ⟨fun h => ⟨a, s', ⟨rfl, rfl⟩, h⟩, fun ⟨_, _, ⟨h1, h2⟩, h⟩ => by subst h1 h2; exact h⟩

/-- A sequence whose first half returns continues with its second half. -/
theorem bind_of_ok {x : Exec σ α} {f : α → Exec σ β} {s s' : σ} {a : α}
    (h : x s = .ok (a, s')) : (x >>= f) s = f a s' := by
  show (x s >>= fun p => f p.1 p.2) = _
  rw [h]; rfl

/-- A sequence whose first half stops, stops there. -/
theorem bind_of_error {x : Exec σ α} {f : α → Exec σ β} {s : σ} {e : Halt}
    (h : x s = .error e) : (x >>= f) s = .error e := by
  show (x s >>= fun p => f p.1 p.2) = _
  rw [h]; rfl

/-- What the primitive programs do. -/
@[simp] theorem pure_apply (a : α) (s : σ) : (pure a : Exec σ α) s = .ok (a, s) := rfl

@[simp] theorem get_apply (s : σ) : (get : Exec σ σ) s = .ok (s, s) := rfl

@[simp] theorem set_apply (s s' : σ) : (set s' : Exec σ PUnit) s = .ok (⟨⟩, s') := rfl

@[simp] theorem modify_apply (f : σ → σ) (s : σ) :
    (modify f : Exec σ PUnit) s = .ok (⟨⟩, f s) := rfl

@[simp] theorem halt_apply (e : Halt) (s : σ) : (halt e : Exec σ α) s = .error e := rfl

@[simp] theorem lift_ok (a : α) (s : σ) : (lift (.ok a) : Exec σ α) s = .ok (a, s) := rfl

@[simp] theorem lift_error (e : Halt) (s : σ) : (lift (.error e) : Exec σ α) s = .error e := rfl

/-! A sequence that begins with a primitive program runs on with what that program returns. -/

@[simp] theorem get_bind_apply (f : σ → Exec σ β) (s : σ) : (get >>= f : Exec σ β) s = f s s := rfl

@[simp] theorem set_bind_apply (s' : σ) (f : PUnit → Exec σ β) (s : σ) :
    (set s' >>= f : Exec σ β) s = f ⟨⟩ s' := rfl

@[simp] theorem modify_bind_apply (g : σ → σ) (f : PUnit → Exec σ β) (s : σ) :
    (modify g >>= f : Exec σ β) s = f ⟨⟩ (g s) := rfl

@[simp] theorem halt_bind_apply (e : Halt) (f : α → Exec σ β) (s : σ) :
    (halt e >>= f : Exec σ β) s = .error e := rfl

/-- A lifted result leaves the state. -/
@[simp] theorem lift_eq_ok {x : Except Halt α} {s : σ} {a : α} {s' : σ} :
    (lift x : Exec σ α) s = .ok (a, s') ↔ x = .ok a ∧ s = s' := by
  cases x <;> simp [lift]

/-- What follows a lifted result starts in the same state. -/
@[simp] theorem lift_bind_eq_ok {x : Except Halt α} {f : α → Exec σ β} {s : σ} {r : β × σ} :
    (lift x >>= f : Exec σ β) s = .ok r ↔ ∃ a, x = .ok a ∧ f a s = .ok r := by
  rw [bind_eq_ok]
  cases x <;> simp [lift]

/-- A program on a part of the state runs on that part. -/
@[simp] theorem zoom_eq_ok {get : σ → τ} {set : τ → σ → σ} {x : Exec τ α} {s s' : σ} {a : α} :
    zoom get set x s = .ok (a, s') ↔ ∃ t, x (get s) = .ok (a, t) ∧ s' = set t s := by
  unfold zoom
  cases hx : x (get s) with
  | error e => simp
  | ok p =>
    obtain ⟨b, t⟩ := p
    simp only [Except.ok.injEq, Prod.mk.injEq]
    constructor
    · rintro ⟨rfl, rfl⟩; exact ⟨t, ⟨rfl, rfl⟩, rfl⟩
    · rintro ⟨t', ⟨rfl, rfl⟩, rfl⟩; exact ⟨rfl, rfl⟩

/-- A conditional program runs one of its branches. -/
protected theorem ite_apply (c : Prop) [Decidable c] (x y : Exec σ α) (s : σ) :
    (if c then x else y) s = if c then x s else y s := by
  split <;> rfl

/-- What follows a conditional program follows each of its branches. -/
theorem ite_bind (c : Prop) [Decidable c] (x y : Exec σ α) (f : α → Exec σ β) :
    (if c then x else y) >>= f = if c then x >>= f else y >>= f := by
  split <;> rfl

/-- A conditional runs one of its branches. -/
theorem ite_eq_ok {c : Prop} [Decidable c] {x y : Exec σ α} {s : σ} {r : α × σ} :
    (if c then x else y) s = .ok r ↔ c ∧ x s = .ok r ∨ ¬ c ∧ y s = .ok r := by
  split <;> simp_all

/-- A program under a condition that holds. -/
@[simp] theorem when_true {c : Prop} [Decidable c] {x : Exec σ Unit} (h : c) : when c x = x :=
  if_pos h

/-- A program under one that does not. -/
@[simp] theorem when_false {c : Prop} [Decidable c] {x : Exec σ Unit} (h : ¬ c) :
    when c x = pure () :=
  if_neg h

/-- The state in which a program ends, or the one it started in when it stops. -/
def finalState (x : Exec σ α) (s : σ) : σ :=
  match x s with
  | .ok (_, s') => s'
  | .error _ => s

/-- A run that ends ends in its final state. -/
theorem eq_ok_finalState {x : Exec σ Unit} {s : σ} (h : (x s).isOk = true) :
    x s = .ok ((), x.finalState s) := by
  unfold finalState
  cases hx : x s with
  | error e => rw [hx] at h; cases h
  | ok p => rfl

/-- A run whose value is known ends in its final state. -/
theorem eq_ok_of_value {x : Exec σ α} {s : σ} {a : α} (h : (x s).map Prod.fst = .ok a) :
    x s = .ok (a, x.finalState s) := by
  unfold finalState
  cases hx : x s with
  | error e => rw [hx] at h; cases h
  | ok p => rw [hx] at h; cases h; rfl

/-! ## What a run leaves alone -/

/-- Every successful run of `x` leaves the part of the state that `f` reads as it was. -/
def Fixes (f : σ → τ) (x : Exec σ α) : Prop := ∀ s a s', x s = .ok (a, s') → f s' = f s

namespace Fixes

variable {f : σ → τ}

/-- Two programs in sequence. -/
theorem bind {x : Exec σ α} {g : α → Exec σ β} (hx : Fixes f x) (hg : ∀ a, Fixes f (g a)) :
    Fixes f (x >>= g) := by
  intro s b t h
  obtain ⟨a, s', h1, h2⟩ := bind_eq_ok.1 h
  exact (hg a s' b t h2).trans (hx s a s' h1)

/-- A result. -/
theorem pure (a : α) : Fixes f (Pure.pure a : Exec σ α) := by
  rintro s _ _ ⟨⟩; rfl

/-- The state itself. -/
theorem get : Fixes f (MonadState.get : Exec σ σ) := by
  rintro s _ _ ⟨⟩; rfl

/-- A program that stops. -/
theorem halt (e : Halt) : Fixes f (Exec.halt e : Exec σ α) := by
  rintro s _ _ ⟨⟩

/-- A lifted result. -/
theorem lift (x : Except Halt α) : Fixes f (Exec.lift x : Exec σ α) := by
  intro s a s' h
  rw [(lift_eq_ok.1 h).2]

/-- An update outside the view. -/
theorem modify {g : σ → σ} (h : ∀ s, f (g s) = f s) : Fixes f (modify g : Exec σ PUnit) := by
  rintro s _ _ ⟨⟩; exact h s

/-- Either branch of a conditional. -/
theorem ite {c : Prop} [Decidable c] {x y : Exec σ α} (hx : Fixes f x) (hy : Fixes f y) :
    Fixes f (if c then x else y) := by
  split <;> assumption

/-- A program under a condition. -/
theorem when {c : Prop} [Decidable c] {x : Exec σ Unit} (hx : Fixes f x) : Fixes f (when c x) :=
  .ite hx (.pure _)

/-- A program on a part of the state that the view does not see. -/
theorem zoom {ρ : Type} {get : σ → ρ} {set : ρ → σ → σ} (h : ∀ r s, f (set r s) = f s)
    (x : Exec ρ α) : Fixes f (Exec.zoom get set x) := by
  intro s a s' hx
  obtain ⟨r, -, rfl⟩ := zoom_eq_ok.1 hx
  exact h r s

/-- A part of the state that is read off another part. -/
theorem comp {ρ : Type} (g : τ → ρ) {x : Exec σ α} (hx : Fixes f x) : Fixes (g ∘ f) x :=
  fun s a s' h => congrArg g (hx s a s' h)

end Fixes

/-! ## What a run guarantees -/

/-- Every successful run of `x` leads from a state to one that is related to it. -/
def Ensures (R : σ → σ → Prop) (x : Exec σ α) : Prop := ∀ s a s', x s = .ok (a, s') → R s s'

namespace Ensures

variable {R : σ → σ → Prop}

/-- Two programs in sequence, for a transitive relation. -/
theorem bind [IsPreorder σ R] {x : Exec σ α} {g : α → Exec σ β} (hx : Ensures R x)
    (hg : ∀ a, Ensures R (g a)) : Ensures R (x >>= g) := by
  intro s b t h
  obtain ⟨a, s', h1, h2⟩ := bind_eq_ok.1 h
  exact IsTrans.trans _ _ _ (hx s a s' h1) (hg a s' b t h2)

/-- A result, for a reflexive one. -/
theorem pure [IsPreorder σ R] (a : α) : Ensures R (Pure.pure a : Exec σ α) := by
  rintro s _ _ ⟨⟩
  exact Std.Refl.refl s

/-- The state itself. -/
theorem get [IsPreorder σ R] : Ensures R (MonadState.get : Exec σ σ) := by
  rintro s _ _ ⟨⟩
  exact Std.Refl.refl s

/-- A program that stops. -/
theorem halt (e : Halt) : Ensures R (Exec.halt e : Exec σ α) := by
  rintro s _ _ ⟨⟩

/-- Either branch of a conditional. -/
theorem ite {c : Prop} [Decidable c] {x y : Exec σ α} (hx : Ensures R x) (hy : Ensures R y) :
    Ensures R (if c then x else y) := by
  split <;> assumption

/-- A program under a condition. -/
theorem when [IsPreorder σ R] {c : Prop} [Decidable c] {x : Exec σ Unit} (hx : Ensures R x) :
    Ensures R (when c x) := .ite hx (.pure _)

end Ensures

/-! ## Programs that do not read a part of the state -/

/-- `x` runs in the same way when the state is changed by `g`, and keeps the change. -/
def Ignores (g : σ → σ) (x : Exec σ α) : Prop := ∀ s, x (g s) = (x s).map fun r => (r.1, g r.2)

namespace Ignores

variable {g : σ → σ}

/-- Two programs in sequence. -/
theorem bind {x : Exec σ α} {f : α → Exec σ β} (hx : Ignores g x) (hf : ∀ a, Ignores g (f a)) :
    Ignores g (x >>= f) := by
  intro s
  have hrun := hx s
  cases h : x s with
  | error e =>
    rw [h] at hrun
    rw [bind_of_error h, bind_of_error hrun]
    rfl
  | ok r =>
    rw [h] at hrun
    rw [bind_of_ok h, bind_of_ok hrun]
    exact hf r.1 r.2

/-- A result. -/
theorem pure (a : α) : Ignores g (Pure.pure a : Exec σ α) := fun _ => rfl

/-- A program that stops. -/
theorem halt (e : Halt) : Ignores g (Exec.halt e : Exec σ α) := fun _ => rfl

/-- A lifted result. -/
theorem lift (x : Except Halt α) : Ignores g (Exec.lift x : Exec σ α) := by
  intro s
  cases x <;> rfl

/-- Either branch of a conditional. -/
theorem ite {c : Prop} [Decidable c] {x y : Exec σ α} (hx : Ignores g x) (hy : Ignores g y) :
    Ignores g (if c then x else y) := by
  split <;> assumption

/-- Only what is read of the state matters. -/
theorem get_bind {f : σ → Exec σ β} (h : ∀ s, f (g s) = f s) (hf : ∀ s, Ignores g (f s)) :
    Ignores g (MonadState.get >>= f) := by
  intro s
  rw [get_bind_apply, get_bind_apply, h]
  exact hf s s

/-- An update that commutes with the change. -/
theorem modify {f : σ → σ} (h : ∀ s, f (g s) = g (f s)) : Ignores g (modify f : Exec σ PUnit) := by
  intro s
  rw [modify_apply, modify_apply, h]
  rfl

/-- A run from a changed state returns the same value. -/
theorem eq_ok {x : Exec σ α} (hx : Ignores g x) {s s' : σ} {a : α} (h : x s = .ok (a, s')) :
    x (g s) = .ok (a, g s') := by
  rw [hx, h]
  rfl

end Ignores

/-! ## Why a run may stop -/

/-- Every run of `x` that stops does so for a reason in `P`. -/
def HaltsIn (P : Halt → Prop) (x : Exec σ α) : Prop := ∀ s e, x s = .error e → P e

namespace HaltsIn

variable {P : Halt → Prop}

/-- Two programs in sequence. -/
theorem bind {x : Exec σ α} {f : α → Exec σ β} (hx : HaltsIn P x) (hf : ∀ a, HaltsIn P (f a)) :
    HaltsIn P (x >>= f) := by
  intro s e h
  cases hrun : x s with
  | error e' =>
    rw [bind_of_error hrun] at h
    cases h
    exact hx s e hrun
  | ok r =>
    rw [bind_of_ok hrun] at h
    exact hf r.1 r.2 e h

/-- A result does not stop. -/
theorem pure (a : α) : HaltsIn P (Pure.pure a : Exec σ α) := fun _ _ h => by cases h

/-- Nor does reading the state. -/
theorem get : HaltsIn P (MonadState.get : Exec σ σ) := fun _ _ h => by cases h

/-- A program that stops. -/
theorem halt {e : Halt} (h : P e) : HaltsIn P (Exec.halt e : Exec σ α) := by
  rintro s _ ⟨⟩
  exact h

/-- A lifted result. -/
theorem lift {x : Except Halt α} (h : ∀ e, x = .error e → P e) :
    HaltsIn P (Exec.lift x : Exec σ α) := by
  intro s e hx
  cases x with
  | error e' =>
    cases hx
    exact h e rfl
  | ok a => cases hx

/-- Either branch of a conditional. -/
theorem ite {c : Prop} [Decidable c] {x y : Exec σ α} (hx : HaltsIn P x) (hy : HaltsIn P y) :
    HaltsIn P (if c then x else y) := by
  split <;> assumption

end HaltsIn

end Exec

end MeghaOS
