import Mathlib.Data.Nat.Digits.Lemmas

/-!
# Positional numerals

`numeral base n` are the digits of a number, the most significant one first, and `ofNumeral` reads
digits by Horner's rule. A numeral has digits below the base (`numeral_lt`), no leading zero but for
zero itself (`numeral_of_head?_zero`) and as many digits as the base needs (`length_numeral_le`),
and it reads back as its number (`ofNumeral_numeral`).
-/

namespace MeghaOS

variable {base n k d : Nat}

/-- The digits of a number, the most significant one first; zero has one digit. -/
def numeral (base n : Nat) : List Nat := if n = 0 then [0] else (Nat.digits base n).reverse

/-- The number that digits spell, the most significant one first. -/
def ofNumeral (base : Nat) (ds : List Nat) : Nat := ds.foldl (fun v d => v * base + d) 0

/-- Horner's rule from the most significant digit on, against the one from the least significant
digit on. -/
theorem ofNumeral_reverse (ds : List Nat) : ofNumeral base ds.reverse = Nat.ofDigits base ds := by
  rw [ofNumeral, List.foldl_reverse, Nat.ofDigits_eq_foldr]
  congr 1
  funext x y
  simp [Nat.mul_comm, Nat.add_comm]

theorem ofNumeral_numeral : ofNumeral base (numeral base n) = n := by
  rw [numeral]
  split
  · rename_i hzero
    simp [ofNumeral, hzero]
  · rw [ofNumeral_reverse, Nat.ofDigits_digits]

theorem numeral_ne_nil : numeral base n ≠ [] := by
  rw [numeral]
  split
  · simp
  · rename_i hne
    simpa [Nat.digits_ne_nil_iff_ne_zero] using hne

theorem numeral_lt (hbase : 2 ≤ base) (h : d ∈ numeral base n) : d < base := by
  rw [numeral] at h
  split at h
  · rw [List.mem_singleton.1 h]
    exact Nat.zero_lt_of_lt hbase
  · exact Nat.digits_lt_base hbase (List.mem_reverse.1 h)

/-- Only zero has a leading zero, which is its only digit. -/
theorem numeral_of_head?_zero (h : (numeral base n).head? = some 0) : numeral base n = [0] := by
  by_cases hzero : n = 0
  · exact if_pos hzero
  · have hlast := Nat.getLast_digit_ne_zero base hzero
    rw [numeral, if_neg hzero, List.head?_reverse,
      List.getLast?_eq_getLast_of_ne_nil (Nat.digits_ne_nil_iff_ne_zero.2 hzero)] at h
    exact absurd (Option.some.inj h) hlast

/-- A number below a power of the base has as many digits at most as the power says. -/
theorem length_numeral_le (hbase : 2 ≤ base) (hk : 0 < k) (h : n < base ^ k) :
    (numeral base n).length ≤ k := by
  rw [numeral]
  split
  · exact hk
  · rw [List.length_reverse]
    exact (Nat.digits_length_le_iff hbase n).2 h

end MeghaOS
