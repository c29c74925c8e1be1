import MeghaOS.Itoa
import MeghaOS.Proof.Vsnprintf

/-!
# The digits that `s_itoa` emits

The array of `s_itoa` holds the digits found so far, the last one first (`stored`), so that the
second loop emits them in the order in which `sItoa` has them: `sItoaOutput_eq`. The digits are a
numeral (`digitText_eq`), which represents its number (`represents_digitText`), and 64 of them are
enough for a number of 64 bits in the smallest base.
-/

namespace MeghaOS

open Exec

variable {base num room i n : Nat} {output : Output} {s s' : Printf} {text : List Char}

/-! ## The array -/

/-- The characters below an index of the array, from the last one down. -/
def stored (output : Output) (i : Nat) : List Char := (output.toList.take i).reverse

theorem stored_succ (h : i < 65) : stored output (i + 1) = output[i] :: stored output i := by
  have hlen : i < output.toList.length := by simpa using h
  rw [stored, List.take_add_one, List.getElem?_eq_getElem hlen]
  simp [stored]

theorem stored_set (h : i < 65) (c : Char) : stored (output.set i c) i = stored output i := by
  rw [stored, Vector.toList_set, List.take_set_of_le (Nat.le_refl i), stored]

/-- A character is stored behind the others. -/
theorem stored_store (h : i < 65) (c : Char) :
    stored (output.set i c) (i + 1) = c :: stored output i := by
  rw [stored_succ h, stored_set h, Vector.getElem_set_self]

/-- The first loop finds what `itoaFrom` finds, and both leave the array at the same digit. -/
theorem itoaDivide_spec (base num : Nat) (output : Output) (hi : i + room = 65) :
    (∃ n output', itoaDivide base (room + 1) num i output = .ok (n, output') ∧ n ≤ 65 ∧
      itoaFrom base room num (stored output i) = .ok (stored output' n)) ∨
    ∃ e, itoaDivide base (room + 1) num i output = .error e ∧
      itoaFrom base room num (stored output i) = .error e := by
  induction room generalizing i num output with
  | zero =>
    right
    refine ⟨.fault, ?_, rfl⟩
    rw [itoaDivide, storeOutput, dif_neg (by omega)]
    rfl
  | succ room ih =>
    have hlt : i < 65 := by omega
    have hstore : ∀ c, storeOutput output i c = .ok (output.set i c) := fun c => dif_pos hlt
    have hturn : itoaDivide base (room + 1 + 1) num i output =
        if num / base > 0 then
          itoaDivide base (room + 1) (num / base) (i + 1)
            (output.set i (itoaChars.getD (num % base) nul))
        else .ok (i + 1, output.set i (itoaChars.getD (num % base) nul)) := by
      rw [itoaDivide, hstore]
      rfl
    rw [hturn, itoaFrom, ← stored_store hlt]
    by_cases hmore : num / base > 0
    · rw [if_pos hmore, if_pos hmore]
      exact ih _ _ (by omega)
    · rw [if_neg hmore, if_neg hmore]
      exact .inl ⟨i + 1, _, rfl, hlt, rfl⟩

/-- The second loop emits the characters from the last one down. -/
theorem itoaReverse_eq (hi : i ≤ 65) : itoaReverse output i = emitChars (stored output i) := by
  induction i with
  | zero => rfl
  | succ i ih =>
    have hload : loadOutput output i = .ok output[i] := dif_pos hi
    rw [itoaReverse, stored_succ hi, emitChars, ih (Nat.le_of_succ_le hi), hload, emitChar]
    simp only [bind_assoc]
    rfl

/-- `s_itoa` with its array is `s_itoa` without. -/
theorem sItoaOutput_eq (num base : Nat) : sItoaOutput num base = sItoa num base := by
  funext s
  have hempty : stored emptyOutput 0 = [] := rfl
  rcases itoaDivide_spec base num emptyOutput (Nat.zero_add 65) with
    ⟨n, output, hdivide, hn, hfrom⟩ | ⟨e, hdivide, hfrom⟩
  · rw [sItoaOutput, hdivide, sItoa, ← hempty, hfrom]
    exact congrFun (itoaReverse_eq hn) s
  · rw [sItoaOutput, hdivide, sItoa, ← hempty, hfrom]
    rfl

/-! ## Numerals -/

/-- The number that characters spell in a base, the most significant digit first. -/
def readBack (base : Nat) (text : List Char) : Nat :=
  ofNumeral base (text.map itoaChars.idxOf)

/-- The characters are digits of the base without a leading zero, and read back as the number. -/
structure Represents (base num : Nat) (text : List Char) : Prop where
  nonempty : text ≠ []
  digits : ∀ c ∈ text, c ∈ itoaChars.take base
  noLeadingZero : text.head? = some '0' → text = ['0']
  readBack : readBack base text = num

/-- The characters of `s_itoa` stand for different digits. -/
theorem idxOf_itoaChars : ∀ d < 16, itoaChars.idxOf (itoaChars.getD d nul) = d := by decide

theorem itoaChars_mem_take : ∀ base < 17, ∀ d < base,
    itoaChars.getD d nul ∈ itoaChars.take base := by decide

theorem represents_digitText (hlow : 2 ≤ base) (hhigh : base ≤ 16) :
    Represents base num (digitText base num) := by
  have hlt : ∀ d ∈ numeral base num, d < base := fun d hd => numeral_lt hlow hd
  have hidx : ∀ d ∈ numeral base num, itoaChars.idxOf (itoaChars.getD d nul) = d := fun d hd =>
    idxOf_itoaChars d (Nat.lt_of_lt_of_le (hlt d hd) hhigh)
  rw [digitText_eq]
  refine ⟨?_, fun c hc => ?_, fun hhead => ?_, ?_⟩
  · simpa using numeral_ne_nil
  · obtain ⟨d, hd, rfl⟩ := List.mem_map.1 hc
    exact itoaChars_mem_take base (Nat.lt_succ_of_le hhigh) d (hlt d hd)
  · rw [List.head?_map] at hhead
    obtain ⟨d, hd, hzero⟩ := Option.map_eq_some_iff.1 hhead
    have hzero : d = 0 := by
      rw [← hidx d (List.mem_of_head? hd), hzero]
      decide
    rw [numeral_of_head?_zero (hzero ▸ hd)]
    rfl
  · have hmap : ((numeral base num).map (itoaChars.getD · nul)).map itoaChars.idxOf =
        numeral base num := by
      rw [List.map_map]
      exact (List.map_congr_left hidx).trans (List.map_id' _)
    rw [readBack, hmap, ofNumeral_numeral]

/-! ## What is emitted -/

/-- The characters were written from the destination on, which moved behind them, and nothing
else. -/
structure Emitted (s s' : Printf) (text : List Char) : Prop where
  written : ∀ i (h : i < text.length), s'.memory (s.dest + i) = text[i]
  others : ∀ a, a < s.dest ∨ s.dest + text.length ≤ a → s'.memory a = s.memory a
  dest : s'.dest = s.dest + text.length
  sizeLeft : s'.sizeLeft = s.sizeLeft - text.length
  args : s'.args = s.args

/-- Characters that have room, with the `NUL` behind them, are all written. -/
theorem emitted_foldl (h : text.length < s.sizeLeft) :
    Emitted s (text.foldl Printf.emit s) text := by
  obtain ⟨size, hsize⟩ := Int.eq_ofNat_of_zero_le (by omega : 0 ≤ s.sizeLeft)
  have hstart : Sent size s.dest s [] s :=
    { sizeLeft := by simpa using hsize
      dest := by simp
      written := fun i hi => .inl hi
      text := by simp
      frame := fun i _ => rfl }
  have hsent := hstart.foldl_emit text
  rw [List.nil_append] at hsent
  have hmin : min text.length (size - 1) = text.length := by omega
  have hdest : (text.foldl Printf.emit s).dest = s.dest + text.length := by
    rw [hsent.dest, hmin]
  refine ⟨fun i hi => ?_, fun a ha => hsent.frame a ?_, hdest, ?_, Printf.args_foldl_emit s text⟩
  · rw [hsent.text i (by omega)]
    simp [hi]
  · omega
  · rw [hsent.sizeLeft, hsize]

/-- `s_itoa` returns for every number of 64 bits, without leaving its array. With enough room it
emits the digits of the number in the base, the most significant one first and without a leading
zero, and they read back as the number. -/
theorem sItoaOutput_represents (num : UInt64) {base : Nat} (hbase : base ∈ [2, 8, 10, 16]) :
    ∃ text, Represents base num.toNat text ∧ text.length < 65 ∧
      ∀ s, ∃ s', sItoaOutput num.toNat base s = .ok ((), s') ∧
        (text.length < s.sizeLeft → Emitted s s' text) := by
  have hlow : 2 ≤ base := by
    revert base
    decide
  have hhigh : base ≤ 16 := by
    revert base
    decide
  refine ⟨digitText base num.toNat, represents_digitText hlow hhigh,
    Nat.lt_succ_of_le (digitText_length_le hlow num.toNat_lt), fun s => ⟨_, ?_, emitted_foldl⟩⟩
  rw [sItoaOutput_eq]
  exact sItoa_apply hlow num.toNat_lt

/-- The largest number in the smallest base has as many digits as fit. -/
theorem sItoaOutput_represents_max :
    ∃ text, Represents 2 (2 ^ 64 - 1) text ∧ text.length < 65 ∧
      ∀ s, ∃ s', sItoaOutput (2 ^ 64 - 1) 2 s = .ok ((), s') ∧
        (text.length < s.sizeLeft → Emitted s s' text) :=
  sItoaOutput_represents (.ofNat (2 ^ 64 - 1)) (by decide)

end MeghaOS
