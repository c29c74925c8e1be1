import Mathlib.Data.List.Nodup
import Mathlib.Tactic.Common

/-!
# Sequences of copies

`copyAll m moves` performs the copies `(dest, src)` of a list one after the other, each from what
the memory holds at that moment. When no destination occurs twice, every destination ends up with
what its source held at the start if and only if a copy that overwrites the source of a later one
writes what is there already (`copyAll_eq_iff`).
-/

namespace MeghaOS

variable {α β : Type} [DecidableEq α] {m : α → β} {moves : List (α × α)}

/-- Perform the copies in the order of the list. -/
def copyAll (m : α → β) : List (α × α) → α → β
  | [] => m
  | (dest, src) :: rest => copyAll (Function.update m dest (m src)) rest

theorem copyAll_append (m : α → β) (xs ys : List (α × α)) :
    copyAll m (xs ++ ys) = copyAll (copyAll m xs) ys := by
  induction xs generalizing m with
  | nil => rfl
  | cons move xs ih => exact ih _

/-- What is no destination keeps its contents. -/
theorem copyAll_of_notMem {a : α} (ha : a ∉ moves.map Prod.fst) : copyAll m moves a = m a := by
  induction moves generalizing m with
  | nil => rfl
  | cons move rest ih =>
    rw [List.map_cons, List.mem_cons, not_or] at ha
    obtain ⟨hne, hrest⟩ := ha
    exact (ih hrest).trans (Function.update_of_ne hne _ _)

/-- A destination keeps what was copied there, which is what its source held at that moment. -/
theorem copyAll_dest {xs ys : List (α × α)} {dest src : α} (hys : dest ∉ ys.map Prod.fst) :
    copyAll m (xs ++ (dest, src) :: ys) dest = copyAll m xs src := by
  rw [copyAll_append]
  exact (copyAll_of_notMem hys).trans (Function.update_self _ _ _)

/-- Every destination receives what its source held at the start if and only if no copy changes the
source of a later one. -/
theorem copyAll_eq_iff (hnodup : (moves.map Prod.fst).Nodup) :
    (∀ p ∈ moves, copyAll m moves p.1 = m p.2) ↔
      moves.Pairwise fun p q => p.1 = q.2 → m p.2 = m q.2 := by
  induction moves generalizing m with
  | nil => simp
  | cons move rest ih =>
    obtain ⟨dest, src⟩ := move
    obtain ⟨hdest, hnodup⟩ := List.nodup_cons.1 hnodup
    rw [List.pairwise_cons]
    have hkept (hhead : ∀ q ∈ rest, dest = q.2 → m src = m q.2) :
        ∀ q ∈ rest, Function.update m dest (m src) q.2 = m q.2 := by
      intro q hq
      by_cases heq : q.2 = dest
      · rw [← hhead q hq heq.symm, heq, Function.update_self]
      · exact Function.update_of_ne heq _ _
    have hlater (hhead : ∀ q ∈ rest, dest = q.2 → m src = m q.2) :
        (∀ q ∈ rest, copyAll (Function.update m dest (m src)) rest q.1 = m q.2) ↔
          rest.Pairwise fun p q => p.1 = q.2 → m p.2 = m q.2 := by
      calc (∀ q ∈ rest, copyAll (Function.update m dest (m src)) rest q.1 = m q.2)
          ↔ ∀ q ∈ rest, copyAll (Function.update m dest (m src)) rest q.1 =
              Function.update m dest (m src) q.2 :=
            forall₂_congr fun q hq => by rw [hkept hhead q hq]
        _ ↔ rest.Pairwise fun p q => p.1 = q.2 →
              Function.update m dest (m src) p.2 = Function.update m dest (m src) q.2 := ih hnodup
        _ ↔ rest.Pairwise fun p q => p.1 = q.2 → m p.2 = m q.2 :=
            List.Pairwise.iff_of_mem fun hp hq => by rw [hkept hhead _ hp, hkept hhead _ hq]
    constructor
    · intro hall
      have hhead : ∀ q ∈ rest, dest = q.2 → m src = m q.2 := by
        rintro ⟨dest', src'⟩ hq rfl
        -- the later copy reads what the first one wrote
        obtain ⟨xs, ys, rfl⟩ := List.append_of_mem hq
        rw [List.map_append, List.map_cons, List.nodup_append] at hnodup
        have hys := (List.nodup_cons.1 hnodup.2.1).1
        have hxs : dest ∉ xs.map Prod.fst := fun hmem => hdest (by simp_all)
        have hread := hall _ (.tail _ hq)
        rw [← List.cons_append, copyAll_dest hys] at hread
        rw [← hread]
        exact ((copyAll_of_notMem hxs).trans (Function.update_self _ _ _)).symm
      exact ⟨hhead, (hlater hhead).1 fun q hq => hall q (.tail _ hq)⟩
    · rintro ⟨hhead, hpairs⟩ q hq
      rcases List.mem_cons.1 hq with rfl | hq
      · exact (copyAll_of_notMem hdest).trans (Function.update_self _ _ _)
      · exact (hlater hhead).2 hpairs q hq

end MeghaOS
