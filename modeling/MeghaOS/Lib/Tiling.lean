import Mathlib.Algebra.BigOperators.Group.List.Basic
import Mathlib.Data.List.Chain
import Mathlib.Tactic.Ring

/-!
# Tilings of an interval

`Tiles size lo xs hi` says that the segments that start at the members of `xs`, each as long as
`size` says, follow one another without gap or overlap from `lo` to `hi`. `Tiles.split` and
`Tiles.merge` are the two ways to refine and coarsen a tiling, and `Tiles.eq_of_mem` says that no
segment begins inside another one.
-/

namespace MeghaOS

/-- The segments that start at the members of the list tile the interval from `lo` to `hi`. -/
def Tiles (size : Nat → Nat) : Nat → List Nat → Nat → Prop
  | lo, [], hi => lo = hi
  | lo, a :: rest, hi => a = lo ∧ Tiles size (lo + size a) rest hi

namespace Tiles

variable {size size' : Nat → Nat} {lo hi a b : Nat} {xs ys zs : List Nat}

theorem append : Tiles size lo (ys ++ zs) hi ↔
    ∃ mid, Tiles size lo ys mid ∧ Tiles size mid zs hi := by
  induction ys generalizing lo with
  | nil => simp [Tiles]
  | cons y ys ih =>
    simp only [List.cons_append, Tiles, ih]
    constructor
    · rintro ⟨rfl, mid, h1, h2⟩; exact ⟨mid, ⟨rfl, h1⟩, h2⟩
    · rintro ⟨mid, ⟨rfl, h1⟩, h2⟩; exact ⟨rfl, mid, h1, h2⟩

/-- A tiling only depends on the sizes of its own segments. -/
theorem congr (h : Tiles size lo xs hi) (hsize : ∀ x ∈ xs, size' x = size x) :
    Tiles size' lo xs hi := by
  induction xs generalizing lo with
  | nil => exact h
  | cons x xs ih =>
    obtain ⟨rfl, hrest⟩ := h
    refine ⟨rfl, ?_⟩
    rw [hsize x (by simp)]
    exact ih hrest fun y hy => hsize y (.tail _ hy)

theorem le (h : Tiles size lo xs hi) : lo ≤ hi := by
  induction xs generalizing lo with
  | nil => exact Nat.le_of_eq h
  | cons x xs ih => have := ih h.2; omega

/-- A segment lies in the interval. -/
theorem bounds (h : Tiles size lo xs hi) (ha : a ∈ xs) : lo ≤ a ∧ a + size a ≤ hi := by
  obtain ⟨ys, zs, rfl⟩ := List.append_of_mem ha
  obtain ⟨mid, h1, rfl, h2⟩ := append.1 h
  exact ⟨h1.le, h2.le⟩

/-- No segment begins inside another one. -/
theorem eq_of_mem (h : Tiles size lo xs hi) (ha : a ∈ xs) (hb : b ∈ xs) (hab : a ≤ b)
    (hlt : b < a + size a) : b = a := by
  obtain ⟨ys, zs, rfl⟩ := List.append_of_mem ha
  obtain ⟨mid, h1, rfl, h2⟩ := append.1 h
  rcases List.mem_append.1 hb with hb | hb
  · obtain ⟨us, vs, rfl⟩ := List.append_of_mem hb
    obtain ⟨m, h3, rfl, h4⟩ := append.1 h1
    have := h4.le
    rcases Nat.eq_zero_or_pos (size b) with h0 | hpos <;> omega
  · rcases List.mem_cons.1 hb with rfl | hb
    · rfl
    · have := (h2.bounds hb).1
      omega

/-- Two different non-empty segments do not overlap. -/
theorem disjoint (h : Tiles size lo xs hi) (ha : a ∈ xs) (hb : b ∈ xs) (hne : a ≠ b) :
    a + size a ≤ b ∨ b + size b ≤ a := by
  rcases Nat.lt_or_ge a b with hab | hba
  · left
    by_contra hlt
    exact hne (h.eq_of_mem ha hb (by omega) (by omega)).symm
  · right
    by_contra hlt
    exact hne (h.eq_of_mem hb ha hba (by omega))

/-- Split a segment in two. -/
theorem split (h : Tiles size lo (ys ++ a :: zs) hi) (hb : b = a + size' a)
    (hsum : size' a + size' b = size a) (hsize : ∀ x ∈ ys ++ zs, size' x = size x) :
    Tiles size' lo (ys ++ a :: b :: zs) hi := by
  obtain ⟨mid, h1, rfl, h2⟩ := append.1 h
  refine append.2 ⟨a, h1.congr fun x hx => hsize x (by simp [hx]), rfl, hb, ?_⟩
  have : a + size' a + size' b = a + size a := by omega
  rw [this]
  exact h2.congr fun x hx => hsize x (by simp [hx])

/-- Merge a segment with the one that follows it. -/
theorem merge (h : Tiles size lo (ys ++ a :: b :: zs) hi) (hsum : size' a = size a + size b)
    (hsize : ∀ x ∈ ys ++ zs, size' x = size x) : Tiles size' lo (ys ++ a :: zs) hi := by
  obtain ⟨mid, h1, rfl, rfl, h2⟩ := append.1 h
  refine append.2 ⟨a, h1.congr fun x hx => hsize x (by simp [hx]), rfl, ?_⟩
  have : a + size' a = a + size a + size (a + size a) := by omega
  rw [this]
  exact h2.congr fun x hx => hsize x (by simp [hx])

/-- The sizes of the segments add up to the length of the interval. -/
theorem sum (h : Tiles size lo xs hi) : lo + (xs.map size).sum = hi := by
  induction xs generalizing lo with
  | nil => simpa [Tiles] using h
  | cons x xs ih =>
    have := ih h.2
    simp only [List.map_cons, List.sum_cons]
    omega

/-- Segments that are not empty are determined by their sizes. -/
theorem unique (hx : Tiles size lo xs hi) (hy : Tiles size lo ys hi)
    (hxpos : ∀ x ∈ xs, 0 < size x) (hypos : ∀ y ∈ ys, 0 < size y) : xs = ys := by
  induction xs generalizing lo ys with
  | nil =>
    cases ys with
    | nil => rfl
    | cons y ys =>
      have hbounds := hy.bounds (a := y) (by simp)
      have hlo : lo = hi := hx
      have := hypos y (by simp)
      omega
  | cons x xs ih =>
    cases ys with
    | nil =>
      have hbounds := hx.bounds (a := x) (by simp)
      have hlo : lo = hi := hy
      have := hxpos x (by simp)
      omega
    | cons y ys =>
      obtain ⟨rfl, hx⟩ := hx
      obtain ⟨rfl, hy⟩ := hy
      rw [ih hx hy (fun z hz => hxpos z (.tail _ hz)) fun z hz => hypos z (.tail _ hz)]

end Tiles

end MeghaOS
