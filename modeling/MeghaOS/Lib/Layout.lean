import Mathlib.Data.List.Pairwise
import Mathlib.Order.Bounds.Defs
import Mathlib.Tactic.Common

/-!
# Layouts of disjoint segments

`Layout start size lo hi xs` says that the segments `xs`, with the given starts and sizes, lie in
the interval from `lo` to `hi`, are not empty, and follow one another in this order without overlap.
Gaps between them are allowed. `Layout.insert` adds a segment to a gap and `Layout.sublist` takes
segments out; `Layout.eq_of_contains` says that an address lies in at most one segment. `firstFit`
searches the `gaps` of a layout in order, and `Layout.firstFit_isLeast` says that what it finds is
the lowest address where there is room. Segments that are laid down one after the other from the
start of a gap all land in it (`GapBetween.rest`).
-/

namespace MeghaOS

variable {α : Type} {start size : α → Nat} {lo hi : Nat} {xs ys zs : List α} {x y : α}

/-- Disjoint, non-empty segments of an interval, in the order of their addresses. -/
structure Layout (start size : α → Nat) (lo hi : Nat) (xs : List α) : Prop where
  pairwise : xs.Pairwise fun x y => start x + size x ≤ start y
  lower : ∀ x ∈ xs, lo ≤ start x
  pos : ∀ x ∈ xs, 0 < size x
  upper : ∀ x ∈ xs, start x + size x ≤ hi

namespace Layout

theorem nil : Layout start size lo hi [] := ⟨.nil, by simp, by simp, by simp⟩

/-- Taking segments out. -/
theorem sublist (h : Layout start size lo hi xs) (hsub : ys.Sublist xs) :
    Layout start size lo hi ys where
  pairwise := h.pairwise.sublist hsub
  lower x hx := h.lower x (hsub.subset hx)
  pos x hx := h.pos x (hsub.subset hx)
  upper x hx := h.upper x (hsub.subset hx)

/-- Adding a segment in a gap. -/
theorem insert (h : Layout start size lo hi (ys ++ zs)) (hlo : lo ≤ start x) (hpos : 0 < size x)
    (hhi : start x + size x ≤ hi) (hys : ∀ y ∈ ys, start y + size y ≤ start x)
    (hzs : ∀ z ∈ zs, start x + size x ≤ start z) : Layout start size lo hi (ys ++ x :: zs) := by
  have hmem : ∀ z ∈ ys ++ x :: zs, z = x ∨ z ∈ ys ++ zs := by
    intro z hz
    simp only [List.mem_append, List.mem_cons] at hz ⊢
    tauto
  refine ⟨?_, fun z hz => ?_, fun z hz => ?_, fun z hz => ?_⟩
  · obtain ⟨h1, h2, h3⟩ := List.pairwise_append.1 h.pairwise
    refine List.pairwise_append.2 ⟨h1, List.pairwise_cons.2 ⟨hzs, h2⟩, fun y hy z hz => ?_⟩
    rcases List.mem_cons.1 hz with rfl | hz
    · exact hys y hy
    · exact h3 y hy z hz
  · rcases hmem z hz with rfl | hz
    · exact hlo
    · exact h.lower z hz
  · rcases hmem z hz with rfl | hz
    · exact hpos
    · exact h.pos z hz
  · rcases hmem z hz with rfl | hz
    · exact hhi
    · exact h.upper z hz

/-- A larger interval. -/
theorem mono (h : Layout start size lo hi xs) {hi' : Nat} (hle : hi ≤ hi') :
    Layout start size lo hi' xs :=
  { h with upper := fun x hx => Nat.le_trans (h.upper x hx) hle }

/-- Adding a segment where the interval ends. -/
theorem append_last (h : Layout start size lo hi xs) (hlo : lo ≤ hi) (hx : start x = hi)
    (hpos : 0 < size x) : Layout start size lo (hi + size x) (xs ++ [x]) := by
  have hmono := h.mono (Nat.le_add_right hi (size x))
  rw [← List.append_nil xs] at hmono
  refine hmono.insert (hx ▸ hlo) hpos (hx ▸ Nat.le_refl _) ?_ (by simp)
  intro y hy
  exact hx ▸ h.upper y hy

/-- The first segment has the lowest start. -/
theorem start_head_le (h : Layout start size lo hi (x :: xs)) (hy : y ∈ x :: xs) :
    start x ≤ start y := by
  rcases List.mem_cons.1 hy with rfl | hy
  · exact Nat.le_refl _
  · have := (List.pairwise_cons.1 h.pairwise).1 y hy
    omega

/-- Two segments that share an address are the same one. -/
theorem eq_of_contains (h : Layout start size lo hi xs) (hx : x ∈ xs) (hy : y ∈ xs) {a : Nat}
    (hxa : start x ≤ a ∧ a < start x + size x) (hya : start y ≤ a ∧ a < start y + size y) :
    x = y := by
  induction xs with
  | nil => cases hx
  | cons z xs ih =>
    obtain ⟨hhead, -⟩ := List.pairwise_cons.1 h.pairwise
    rcases List.mem_cons.1 hx with rfl | hx' <;> rcases List.mem_cons.1 hy with rfl | hy'
    · rfl
    · have := hhead y hy'; omega
    · have := hhead x hx'; omega
    · exact ih (h.sublist (List.sublist_cons_self _ _)) hx' hy'

end Layout

/-! ## Gaps -/

/-- The gaps of a layout of the interval from `lo` to `hi`, each with its start and its end. -/
def gaps (start size : α → Nat) (lo hi : Nat) : List α → List (Nat × Nat)
  | [] => [(lo, hi)]
  | x :: xs => (lo, start x) :: gaps start size (start x + size x) hi xs

/-- There is room for `n` addresses from `a` on. -/
structure Room (start size : α → Nat) (lo hi : Nat) (xs : List α) (n a : Nat) : Prop where
  lower : lo ≤ a
  upper : a + n ≤ hi
  apart : ∀ x ∈ xs, start x + size x ≤ a ∨ a + n ≤ start x

/-- The start of the first gap that holds `n` addresses. -/
def firstFit (n : Nat) (gs : List (Nat × Nat)) : Option Nat :=
  (gs.find? fun g => g.1 + n ≤ g.2).map Prod.fst

theorem firstFit_cons {n : Nat} {g : Nat × Nat} {gs : List (Nat × Nat)} :
    firstFit n (g :: gs) = if g.1 + n ≤ g.2 then some g.1 else firstFit n gs := by
  rw [firstFit, List.find?_cons]
  split_ifs with hg
  · rw [decide_eq_true hg]
    rfl
  · rw [decide_eq_false hg]
    rfl

theorem firstFit_eq_none {n : Nat} {gs : List (Nat × Nat)} :
    firstFit n gs = none ↔ ∀ g ∈ gs, g.2 < g.1 + n := by
  simp [firstFit]

/-- What `firstFit` finds is the start of a gap. -/
theorem firstFit_mem {n a : Nat} {gs : List (Nat × Nat)} (h : firstFit n gs = some a) :
    ∃ b, (a, b) ∈ gs ∧ a + n ≤ b := by
  obtain ⟨⟨a', b⟩, hfind, rfl⟩ := Option.map_eq_some_iff.1 h
  exact ⟨b, List.mem_of_find?_eq_some hfind, by simpa using List.find?_some hfind⟩

/-- The gaps start at the start of the interval, and at the ends of the segments. -/
theorem gap_start {a b : Nat} (h : (a, b) ∈ gaps start size lo hi xs) :
    a = lo ∨ ∃ x ∈ xs, a = start x + size x := by
  induction xs generalizing lo with
  | nil =>
    rw [gaps, List.mem_singleton] at h
    cases h
    exact .inl rfl
  | cons x xs ih =>
    rw [gaps] at h
    rcases List.mem_cons.1 h with h | h
    · cases h
      exact .inl rfl
    · rcases ih h with rfl | ⟨y, hy, rfl⟩
      · exact .inr ⟨x, .head _, rfl⟩
      · exact .inr ⟨y, .tail _ hy, rfl⟩

namespace Layout

variable {n a : Nat}

/-- The segments behind the first one are a layout of the rest of the interval. -/
theorem tail (h : Layout start size lo hi (x :: xs)) :
    Layout start size (start x + size x) hi xs where
  pairwise := (List.pairwise_cons.1 h.pairwise).2
  lower := (List.pairwise_cons.1 h.pairwise).1
  pos y hy := h.pos y (.tail _ hy)
  upper y hy := h.upper y (.tail _ hy)

/-- Room in front of the first segment, or behind it. -/
theorem room_cons (h : Layout start size lo hi (x :: xs)) :
    Room start size lo hi (x :: xs) n a ↔
      (lo ≤ a ∧ a + n ≤ start x) ∨ Room start size (start x + size x) hi xs n a := by
  have hlo := h.lower x (.head _)
  have hhi := h.upper x (.head _)
  constructor
  · intro hroom
    rcases hroom.apart x (.head _) with hbehind | hfront
    · exact .inr ⟨hbehind, hroom.upper, fun y hy => hroom.apart y (.tail _ hy)⟩
    · exact .inl ⟨hroom.lower, hfront⟩
  · rintro (⟨hlower, hfront⟩ | hroom)
    · refine ⟨hlower, by omega, fun y hy => .inr ?_⟩
      have := h.start_head_le hy
      omega
    · refine ⟨?_, hroom.upper, fun y hy => ?_⟩
      · have := hroom.lower
        omega
      · rcases List.mem_cons.1 hy with rfl | hy
        · exact .inl hroom.lower
        · exact hroom.apart y hy

/-- There is no room when no gap is large enough. -/
theorem firstFit_none (h : Layout start size lo hi xs) :
    firstFit n (gaps start size lo hi xs) = none ↔ ∀ a, ¬ Room start size lo hi xs n a := by
  induction xs generalizing lo with
  | nil =>
    rw [firstFit_eq_none, gaps]
    simp only [List.mem_singleton, forall_eq]
    exact ⟨fun hlt a hroom => by have := hroom.lower; have := hroom.upper; omega, fun hno =>
      Nat.lt_of_not_le fun hle => hno lo ⟨Nat.le_refl _, hle, by simp⟩⟩
  | cons x xs ih =>
    rw [gaps, firstFit_cons]
    dsimp only
    split_ifs with hfit
    · exact iff_of_false (by simp) fun hno =>
        hno lo (h.room_cons.2 (.inl ⟨Nat.le_refl _, hfit⟩))
    · rw [ih h.tail]
      refine forall_congr' fun a => not_congr ?_
      rw [h.room_cons]
      exact (or_iff_right fun hfront => hfit (by omega)).symm

/-- The first gap that is large enough starts at the lowest address with room. -/
theorem firstFit_isLeast (h : Layout start size lo hi xs)
    (hfit : firstFit n (gaps start size lo hi xs) = some a) :
    IsLeast {b | Room start size lo hi xs n b} a := by
  induction xs generalizing lo with
  | nil =>
    rw [gaps, firstFit_cons] at hfit
    dsimp only at hfit
    split_ifs at hfit with hle
    · cases hfit
      exact ⟨⟨Nat.le_refl _, hle, by simp⟩, fun _ hb => Room.lower hb⟩
    · cases hfit
  | cons x xs ih =>
    rw [gaps, firstFit_cons] at hfit
    dsimp only at hfit
    split_ifs at hfit with hle
    · cases hfit
      exact ⟨h.room_cons.2 (.inl ⟨Nat.le_refl _, hle⟩), fun _ hb => Room.lower hb⟩
    · obtain ⟨hroom, hleast⟩ := ih h.tail hfit
      refine ⟨h.room_cons.2 (.inr hroom), fun b hb => ?_⟩
      rcases h.room_cons.1 hb with hfront | hbehind
      · omega
      · exact hleast hbehind

end Layout

/-! ## Filling a gap -/

/-- The addresses from `a` to `b` lie in the gap behind the segments `xs` and in front of `ys`. -/
structure GapBetween (start size : α → Nat) (lo hi : Nat) (xs ys : List α) (a b : Nat) : Prop where
  lower : lo ≤ a
  upper : b ≤ hi
  before : ∀ x ∈ xs, start x + size x ≤ a
  behind : ∀ y ∈ ys, b ≤ start y

namespace GapBetween

variable {a b : Nat}

/-- A segment at the start of the gap is added to the layout. -/
theorem insert (hg : GapBetween start size lo hi xs ys a b) (h : Layout start size lo hi (xs ++ ys))
    (hx : start x = a) (hpos : 0 < size x) (hfit : a + size x ≤ b) :
    Layout start size lo hi (xs ++ x :: ys) := by
  have hlower := hg.lower
  have hupper := hg.upper
  refine h.insert (by omega) hpos (by omega) (fun y hy => ?_) fun z hz => ?_
  · have := hg.before y hy
    omega
  · have := hg.behind z hz
    omega

/-- What is left of the gap behind a segment at its start. -/
theorem rest (hg : GapBetween start size lo hi xs ys a b) (hx : start x = a) :
    GapBetween start size lo hi (xs ++ [x]) ys (a + size x) b where
  lower := Nat.le_add_right_of_le hg.lower
  upper := hg.upper
  before y hy := by
    rcases List.mem_append.1 hy with hy | hy
    · exact Nat.le_add_right_of_le (hg.before y hy)
    · exact Nat.le_of_eq (by rw [List.mem_singleton.1 hy, hx])
  behind := hg.behind

end GapBetween

/-- Room for some addresses lies in one gap. -/
theorem Room.gapBetween {n a : Nat} (hroom : Room start size lo hi xs n a)
    (h : Layout start size lo hi xs) :
    ∃ ys zs, xs = ys ++ zs ∧ GapBetween start size lo hi ys zs a (a + n) := by
  obtain ⟨hlower, hupper, hapart⟩ := hroom
  induction xs generalizing lo with
  | nil => exact ⟨[], [], rfl, hlower, hupper, by simp, by simp⟩
  | cons x xs ih =>
    rcases hapart x (.head _) with hbefore | hbehind
    · obtain ⟨ys, zs, rfl, hg⟩ := ih h.tail hbefore fun y hy => hapart y (.tail _ hy)
      refine ⟨x :: ys, zs, rfl, hlower, hupper, fun y hy => ?_, hg.behind⟩
      rcases List.mem_cons.1 hy with rfl | hy
      · exact hbefore
      · exact hg.before y hy
    · refine ⟨[], x :: xs, rfl, hlower, hupper, by simp, fun y hy => ?_⟩
      have := h.start_head_le hy
      omega

end MeghaOS
