import Mathlib.Data.List.Induction
import Mathlib.Logic.Function.Basic
import Mathlib.Tactic.Common

/-!
# Lists of values in a memory

`written m p xs` is the memory `m` with the values `xs` from the address `p` on. A program that
stores value after value is described by one list, which grows at its end with every store
(`written_concat`, `written_append`) and can be read off the memory again (`written_inj`).
-/

namespace MeghaOS

variable {β : Type} {m : Nat → β} {p a : Nat} {x : β} {xs ys : List β}

/-- The memory with the values of a list from an address on. -/
def written (m : Nat → β) (p : Nat) (xs : List β) : Nat → β := fun a =>
  if p ≤ a then xs.getD (a - p) (m a) else m a

@[simp] theorem written_nil : written m p [] = m := by
  funext a
  simp [written]

/-- What lies outside of the list is kept. -/
theorem written_of_outside (h : a < p ∨ p + xs.length ≤ a) : written m p xs a = m a := by
  unfold written
  split
  · rw [List.getD_eq_getElem?_getD, List.getElem?_eq_none (by omega), Option.getD_none]
  · rfl

/-- What is read at an address depends on the memory there only. -/
theorem written_congr {m' : Nat → β} (h : m a = m' a) : written m p xs a = written m' p xs a := by
  unfold written
  rw [h]

/-- The values of the list are read back. -/
theorem written_add {i : Nat} (h : i < xs.length) : written m p xs (p + i) = xs[i] := by
  simp [written, h]

/-- A store behind the list makes it longer by one. -/
theorem written_concat : Function.update (written m p xs) (p + xs.length) x =
    written m p (xs ++ [x]) := by
  funext a
  rcases Nat.lt_trichotomy a (p + xs.length) with hlt | rfl | hgt
  · rw [Function.update_of_ne (Nat.ne_of_lt hlt)]
    by_cases hp : p ≤ a
    · obtain ⟨i, rfl⟩ := Nat.exists_eq_add_of_le hp
      have hi : i < xs.length := Nat.lt_of_add_lt_add_left hlt
      rw [written_add hi, written_add (by simp; omega), List.getElem_append_left hi]
    · rw [written_of_outside (.inl (Nat.not_le.1 hp)), written_of_outside (.inl (Nat.not_le.1 hp))]
  · rw [Function.update_self, written_add (by simp)]
    simp
  · rw [Function.update_of_ne (Nat.ne_of_gt hgt), written_of_outside (.inr (Nat.le_of_lt hgt)),
      written_of_outside (.inr (by simp; omega))]

/-- A list behind another one. -/
theorem written_append : written (written m p xs) (p + xs.length) ys = written m p (xs ++ ys) := by
  induction ys using List.reverseRecOn with
  | nil => simp
  | append_singleton ys y ih =>
    rw [← written_concat, ih, Nat.add_assoc, ← List.length_append, written_concat,
      List.append_assoc]

/-- A store before the list. -/
theorem written_cons : written (Function.update m p x) (p + 1) xs = written m p (x :: xs) := by
  have hhead : Function.update m p x = written m p [x] := by
    rw [← List.nil_append [x], ← written_concat, written_nil, List.length_nil, Nat.add_zero]
  rw [hhead]
  exact written_append

/-- Lists of the same length are told apart by the memory. -/
theorem written_inj (hlen : xs.length = ys.length) : written m p xs = written m p ys ↔ xs = ys := by
  constructor
  · intro h
    refine List.ext_getElem hlen fun i hi hi' => ?_
    rw [← written_add (m := m) (p := p) hi, h, written_add hi']
  · rintro rfl
    rfl

end MeghaOS
