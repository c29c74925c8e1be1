import MeghaOS.Lib.Copy
import MeghaOS.Lib.Exec
import MeghaOS.Memory

/-!
# What copying and filling leaves in memory

`k_memcpy` copies from the last byte down, which is the wrong direction for a destination that
begins below its source and overlaps it. `k_memset_pat4` tests that a length is a multiple of the
pattern size with a mask, which is right for every size but three.
-/

namespace MeghaOS

open Exec

/-! ## Copying -/

section Copy

/-- The copies of `k_memcpy`, in the order it makes them. -/
def downwards (dest src : Nat) : Nat → List (Nat × Nat)
  | 0 => []
  | n + 1 => (dest + n, src + n) :: downwards dest src n

variable {dest src n : Nat}

theorem mem_downwards {p : Nat × Nat} : p ∈ downwards dest src n ↔ ∃ i < n,
    p = (dest + i, src + i) := by
  induction n with
  | zero => simp [downwards]
  | succ n ih =>
    rw [downwards, List.mem_cons, ih]
    constructor
    · rintro (rfl | ⟨i, hi, rfl⟩)
      · exact ⟨n, Nat.lt_succ_self n, rfl⟩
      · exact ⟨i, Nat.lt_succ_of_lt hi, rfl⟩
    · rintro ⟨i, hi, rfl⟩
      rcases Nat.lt_succ_iff_lt_or_eq.1 hi with hlt | rfl
      · exact .inr ⟨i, hlt, rfl⟩
      · exact .inl rfl

theorem mem_downwards_dest {a : Nat} :
    a ∈ (downwards dest src n).map Prod.fst ↔ dest ≤ a ∧ a < dest + n := by
  rw [List.mem_map]
  constructor
  · rintro ⟨p, hp, rfl⟩
    obtain ⟨i, hi, rfl⟩ := mem_downwards.1 hp
    exact ⟨Nat.le_add_right _ _, Nat.add_lt_add_left hi _⟩
  · rintro ⟨hle, hlt⟩
    exact ⟨(dest + (a - dest), src + (a - dest)), mem_downwards.2 ⟨a - dest, by omega, rfl⟩,
      Nat.add_sub_cancel' hle⟩

theorem downwards_nodup : ((downwards dest src n).map Prod.fst).Nodup := by
  induction n with
  | zero => exact .nil
  | succ n ih =>
    refine List.nodup_cons.2 ⟨fun hmem => ?_, ih⟩
    exact absurd (mem_downwards_dest.1 hmem).2 (Nat.lt_irrefl _)

/-- Every byte is copied after those above it. -/
theorem pairwise_downwards {R : Nat × Nat → Nat × Nat → Prop} :
    (downwards dest src n).Pairwise R ↔
      ∀ j < n, ∀ i < j, R (dest + j, src + j) (dest + i, src + i) := by
  induction n with
  | zero => exact iff_of_true .nil fun j hj => absurd hj (Nat.not_lt_zero j)
  | succ n ih =>
    rw [downwards, List.pairwise_cons, ih]
    constructor
    · rintro ⟨hlast, hrest⟩ j hj i hi
      rcases Nat.lt_succ_iff_lt_or_eq.1 hj with hlt | rfl
      · exact hrest j hlt i hi
      · exact hlast _ (mem_downwards.2 ⟨i, hi, rfl⟩)
    · intro h
      refine ⟨fun p hp => ?_, fun j hj => h j (Nat.lt_succ_of_lt hj)⟩
      obtain ⟨i, hi, rfl⟩ := mem_downwards.1 hp
      exact h n (Nat.lt_succ_self n) i hi

/-- Load and store the bytes of a list of copies. -/
def transfer {m : Type → Type} [Monad m] (load : Nat → m UInt8) (store : Nat → UInt8 → m Unit) :
    List (Nat × Nat) → m Unit
  | [] => pure ()
  | (dest, src) :: rest => do
    store dest (← load src)
    transfer load store rest

/-- The loop of `k_memcpy` makes the copies of its range, when the pointers do not wrap. -/
theorem memcpyDown_eq {m : Type → Type} [Monad m] (load : Nat → m UInt8)
    (store : Nat → UInt8 → m Unit) (hdest : dest + n ≤ 2 ^ 32) (hsrc : src + n ≤ 2 ^ 32) :
    memcpyDown load store n (u32 (dest + u32Sub n 1)) (u32 (src + u32Sub n 1)) =
      transfer load store (downwards dest src n) := by
  induction n with
  | zero => rfl
  | succ n ih =>
    have hlast (a : Nat) (ha : a + (n + 1) ≤ 2 ^ 32) : u32 (a + u32Sub (n + 1) 1) = a + n := by
      simp only [u32, u32Sub]
      omega
    have hnext (a : Nat) (ha : a + (n + 1) ≤ 2 ^ 32) : u32Sub (a + n) 1 = u32 (a + u32Sub n 1) := by
      simp only [u32, u32Sub]
      omega
    rw [memcpyDown, hlast dest hdest, hlast src hsrc, downwards, transfer, hnext dest hdest,
      hnext src hsrc, ih (Nat.le_of_succ_le hdest) (Nat.le_of_succ_le hsrc)]

/-- In a memory without page faults, the copies are made. -/
theorem transfer_run (moves : List (Nat × Nat)) (m : Memory) :
    transfer loadByte storeByte moves m = .ok ((), copyAll m moves) := by
  induction moves generalizing m with
  | nil => rfl
  | cons move rest ih => exact ih _

theorem kMemcpy_run (m : Memory) (hdest : dest + n ≤ 2 ^ 32) (hsrc : src + n ≤ 2 ^ 32) :
    kMemcpy dest src n m = .ok (dest, copyAll m (downwards dest src n)) := by
  rw [kMemcpy, memcpyBody, memcpyDown_eq loadByte storeByte hdest hsrc,
    bind_of_ok (transfer_run _ m)]
  rfl

/-- The destination holds what the source held, and every other byte is as it was. -/
structure Copied (m m' : Memory) (dest src n : Nat) : Prop where
  copied : ∀ i < n, m' (dest + i) = m (src + i)
  others : ∀ a, a < dest ∨ dest + n ≤ a → m' a = m a

/-- The program returns the destination after a copy of the range. -/
def Copies (x : Exec Memory Nat) (m : Memory) (dest src n : Nat) : Prop :=
  ∃ m', x m = .ok (dest, m') ∧ Copied m m' dest src n

/-- `k_memcpy` and `cm_memcpy` copy a range if and only if the destination does not begin below the
source and overlap it, or the source repeats itself at that distance. -/
theorem memcpy_copies_iff (m : Memory) (hdest : dest + n ≤ 2 ^ 32) (hsrc : src + n ≤ 2 ^ 32) :
    (Copies (kMemcpy dest src n) m dest src n ∧ Copies (cmMemcpy dest src n) m dest src n) ↔
      (dest < src → ∀ i, i + (src - dest) < n → m (src + i) = m (src + (i + (src - dest)))) := by
  have hall : Copies (kMemcpy dest src n) m dest src n ↔
      ∀ p ∈ downwards dest src n, copyAll m (downwards dest src n) p.1 = m p.2 := by
    constructor
    · rintro ⟨m', hrun, hcopied, -⟩ p hp
      rw [kMemcpy_run m hdest hsrc] at hrun
      cases hrun
      obtain ⟨i, hi, rfl⟩ := mem_downwards.1 hp
      exact hcopied i hi
    · intro hcopied
      refine ⟨_, kMemcpy_run m hdest hsrc, fun i hi => hcopied _ (mem_downwards.2 ⟨i, hi, rfl⟩),
        fun a ha => copyAll_of_notMem fun hmem => ?_⟩
      have := mem_downwards_dest.1 hmem
      omega
  have hcm : cmMemcpy dest src n = kMemcpy dest src n := rfl
  rw [hcm, and_self, hall, copyAll_eq_iff downwards_nodup, pairwise_downwards]
  constructor
  · intro h hlt i hi
    exact (h (i + (src - dest)) hi i (by omega)
      (by show dest + (i + (src - dest)) = src + i; omega)).symm
  · intro h j hj i hi heq
    have heq : dest + j = src + i := heq
    obtain rfl : j = i + (src - dest) := by omega
    exact (h (by omega) i hj).symm

/-- Ten bytes are moved up by five, over their own second half. -/
theorem memcpy_copies_upwards :
    Copies (kMemcpy 0x1005 0x1000 10) UInt8.ofNat 0x1005 0x1000 10 ∧
      Copies (cmMemcpy 0x1005 0x1000 10) UInt8.ofNat 0x1005 0x1000 10 :=
  (memcpy_copies_iff UInt8.ofNat (by decide) (by decide)).2 fun h => absurd h (by decide)

/-- Two bytes are not moved down by one: the second one ends up in both places. -/
theorem memcpy_repeats_last :
    ¬ ∀ (m : Memory) (dest src n : Nat), dest + n ≤ 2 ^ 32 → src + n ≤ 2 ^ 32 →
      Copies (kMemcpy dest src n) m dest src n ∧ Copies (cmMemcpy dest src n) m dest src n := by
  intro h
  obtain ⟨⟨m', hrun, hcopied, -⟩, -⟩ := h UInt8.ofNat 0x1000 0x1001 2 (by decide) (by decide)
  have hfirst := hcopied 0 (by decide)
  rw [kMemcpy_run UInt8.ofNat (by decide) (by decide)] at hrun
  cases hrun
  revert hfirst
  decide

end Copy

/-! ## Filling -/

section Fill

variable {s dest p szp n : Nat} {m : Memory}

/-- The memory after a range was filled with a pattern of so many bytes. -/
def filled (m : Memory) (dest p szp n : Nat) : Memory := fun a =>
  if dest ≤ a ∧ a < dest + n then patternByte p ((a - dest) % szp) else m a

theorem filled_zero : filled m dest p szp 0 = m := by
  funext a
  exact if_neg (by omega)

/-- A pattern, and then the others. -/
theorem filled_filled (m : Memory) (dest p szp n : Nat) :
    filled (filled m dest p szp szp) (dest + szp) p szp n = filled m dest p szp (szp + n) := by
  funext a
  simp only [filled]
  by_cases hlow : a < dest + szp
  · rw [if_neg (by omega)]
    by_cases hin : dest ≤ a
    · rw [if_pos ⟨hin, hlow⟩, if_pos ⟨hin, by omega⟩]
    · rw [if_neg (by omega), if_neg (by omega)]
  · by_cases hin : a < dest + szp + n
    · rw [if_pos ⟨by omega, hin⟩, if_pos ⟨by omega, by omega⟩, show a - dest =
        a - (dest + szp) + szp by omega,
        Nat.add_mod_right]
    · rw [if_neg (by omega), if_neg (by omega), if_neg (by omega)]

/-- Storing the byte above a filled range first fills one byte more. -/
theorem filled_update {k : Nat} (hk : k < szp) :
    filled (Function.update m (dest + k) (patternByte p k)) dest p szp k = filled m dest p
      szp (k + 1) := by
  funext a
  simp only [filled]
  by_cases hlow : dest ≤ a ∧ a < dest + k
  · rw [if_pos hlow, if_pos ⟨hlow.1, by omega⟩]
  · by_cases heq : a = dest + k
    · rw [if_neg hlow, if_pos ⟨by omega, by omega⟩, heq, Function.update_self,
        Nat.add_sub_cancel_left,
        Nat.mod_eq_of_lt hk]
    · rw [if_neg hlow, if_neg (by omega), Function.update_of_ne heq]

/-- The cases of the `switch` from `k` on fill `k` bytes. -/
theorem storePattern_run {k : Nat} (hlow : 2 ≤ k) (hk : k ≤ szp) (hszp : szp ≤ 4)
    (hdest : dest + k ≤ 2 ^ 32) : storePattern dest p k m = .ok ((), filled m dest p szp k) := by
  have hbyte (i : Nat) (hi : i < k) : u32 (dest + i) = dest + i := Nat.mod_eq_of_lt (by omega)
  induction k, hlow using Nat.le_induction generalizing m with
  | base =>
    rw [storePattern, hbyte 1 (by decide)]
    show Except.ok ((), Function.update (Function.update m (dest + 1) _) (u32 (dest + 0)) _) = _
    rw [hbyte 0 (by decide), ← filled_update (by omega), ← filled_update (by omega), filled_zero]
  | succ k hlow ih =>
    have hstep : storePattern dest p (k + 1) = (do
        storeByte (u32 (dest + k)) (patternByte p k)
        storePattern dest p k) := by
      obtain rfl | rfl : k = 2 ∨ k = 3 := by omega
      · exact storePattern.eq_2 dest p
      · exact storePattern.eq_1 dest p
    rw [hstep, hbyte k (Nat.lt_succ_self k), ← filled_update (by omega)]
    exact ih (by omega) (by omega) fun i hi => hbyte i (by omega)

/-- The loop fills a number of patterns, and ends. -/
theorem memsetPat4Loop_run (hlow : 2 ≤ szp) (hhigh : szp ≤ 4) {turns k : Nat} (hturns : k < turns)
    (hdest : dest + szp * k ≤ 2 ^ 32) (hsize : szp * k < 2 ^ 32) :
    memsetPat4Loop p szp turns (u32 dest) (szp * k) m =
      .ok ((), filled m dest p szp (szp * k)) := by
  induction k generalizing dest m turns with
  | zero =>
    obtain ⟨turns, rfl⟩ := Nat.exists_eq_succ_of_ne_zero (Nat.ne_of_gt hturns)
    rw [Nat.mul_zero, filled_zero]
    rfl
  | succ k ih =>
    obtain ⟨turns, rfl⟩ := Nat.exists_eq_succ_of_ne_zero (Nat.ne_of_gt (Nat.zero_lt_of_lt hturns))
    rw [Nat.mul_succ] at hdest hsize ⊢
    have hhere : u32 dest = dest := Nat.mod_eq_of_lt (by omega)
    have hleft : u32Sub (szp * k + szp) szp = szp * k := by
      simp only [u32Sub]
      omega
    rw [memsetPat4Loop, if_pos (by omega), hhere,
      bind_of_ok (storePattern_run hlow (Nat.le_refl szp) hhigh (by omega)), hleft,
      ih (Nat.lt_of_succ_lt_succ hturns) (by omega) (by omega), filled_filled, Nat.add_comm szp]

/-- The cases of the `switch` return, also where the pointer wraps. -/
theorem storePattern_returns (dest p : Nat) (m : Memory) (hlow : 2 ≤ szp) (hhigh : szp ≤ 4) :
    ∃ m', storePattern dest p szp m = .ok ((), m') := by
  obtain rfl | rfl | rfl : szp = 2 ∨ szp = 3 ∨ szp = 4 := by omega
  all_goals
    simp only [storePattern]
    exact ⟨_, rfl⟩

/-- The loop has no way to panic. -/
theorem memsetPat4Loop_hang (hlow : 2 ≤ szp) (hhigh : szp ≤ 4) {turns : Nat} {e : Halt}
    (hrun : memsetPat4Loop p szp turns dest n m = .error e) : e = .hang := by
  induction turns generalizing dest n m with
  | zero =>
    cases hrun
    rfl
  | succ turns ih =>
    rw [memsetPat4Loop] at hrun
    by_cases hn : n > 0
    · rw [if_pos hn] at hrun
      obtain ⟨m', hstore⟩ := storePattern_returns dest p m hlow hhigh
      rw [bind_of_ok hstore] at hrun
      exact ih hrun
    · rw [if_neg hn] at hrun
      cases hrun

/-- The destination is filled with the pattern, and every other byte is as it was. -/
structure PatternFilled (m m' : Memory) (s p szp n : Nat) : Prop where
  filled : ∀ i < n, m' (s + i) = patternByte p (i % szp)
  others : ∀ a, a < s ∨ s + n ≤ a → m' a = m a

/-- `k_memset_pat4` fills a range of whole patterns, and stops at its assertion for any other
length. -/
structure FillsPatterns (m : Memory) (s p szp n : Nat) : Prop where
  fills : szp ∣ n → ∃ m', kMemsetPat4 s p szp n m = .ok (s, m') ∧ PatternFilled m m' s p szp n
  stops : ¬ szp ∣ n → kMemsetPat4 s p szp n m =
    .error (.panic "Assertion failed: Desination end not aligned to pattern size")

/-- The mask of the assertion is the remainder for the sizes that are powers of two. -/
theorem isAligned_iff_dvd (hlow : 1 ≤ szp) (hhigh : szp ≤ 4) (hne : szp ≠ 3) :
    isAligned n szp = true ↔ szp ∣ n := by
  have hpow (k : Nat) : isAligned n (2 ^ k) = true ↔ 2 ^ k ∣ n := by
    rw [isAligned, beq_iff_eq, Nat.and_two_pow_sub_one_eq_mod, Nat.dvd_iff_mod_eq_zero]
  obtain rfl | rfl | rfl : szp = 1 ∨ szp = 2 ∨ szp = 4 := by omega
  · exact hpow 0
  · exact hpow 1
  · exact hpow 2

/-- For three it looks at the second bit alone. -/
theorem isAligned_three_iff : isAligned n 3 = true ↔ n % 4 < 2 := by
  have hmod : n &&& 2 = n % 4 &&& 2 := by
    calc n &&& 2 = n &&& (2 ^ 2 - 1 &&& 2) := rfl
      _ = n &&& (2 ^ 2 - 1) &&& 2 := (Nat.and_assoc _ _ _).symm
      _ = n % 4 &&& 2 := by rw [Nat.and_two_pow_sub_one_eq_mod]
  have hlt : n % 4 < 4 := Nat.mod_lt _ (by decide)
  rw [isAligned, beq_iff_eq, show 3 - 1 = 2 from rfl, hmod]
  generalize n % 4 = r at hlt ⊢
  obtain rfl | rfl | rfl | rfl : r = 0 ∨ r = 1 ∨ r = 2 ∨ r = 3 := by omega
  all_goals decide

/-- Where the assertion passes, whole patterns are filled. -/
theorem kMemsetPat4_fills (hlow : 1 ≤ szp) (hhigh : szp ≤ 4) (hs : s + n ≤ 2 ^ 32) (hn : n < 2 ^ 32)
    (hal : isAligned n szp = true) (hdvd : szp ∣ n) :
    kMemsetPat4 s p szp n m = .ok (s, filled m s p szp n) := by
  rw [kMemsetPat4, if_neg (by simp [hal])]
  by_cases hone : szp = 1
  · subst hone
    rw [if_pos rfl]
    refine congrArg (fun m' => Except.ok (s, m')) (funext fun a => ?_)
    simp only [filled, patternByte, Nat.mod_one, Nat.pow_zero, Nat.div_one]
  · rw [if_neg hone]
    obtain ⟨k, rfl⟩ := hdvd
    have hturns : k < 2 ^ 32 + 1 := by
      have : k ≤ szp * k := Nat.le_mul_of_pos_left k hlow
      omega
    have hloop : memsetPat4Loop p szp (2 ^ 32 + 1) s (szp * k) m =
        .ok ((), filled m s p szp (szp * k)) := by
      by_cases hzero : k = 0
      · rw [hzero, Nat.mul_zero, filled_zero, memsetPat4Loop, if_neg (Nat.lt_irrefl 0)]
        rfl
      · have hpos : 0 < szp * k := Nat.mul_pos (by omega) (by omega)
        have hrun := memsetPat4Loop_run (p := p) (m := m) (by omega) hhigh hturns hs hn
        rwa [u32, Nat.mod_eq_of_lt (by omega)] at hrun
    exact bind_of_ok hloop

/-- `k_memset_pat4` does what it promises if and only if the pattern does not have three bytes, or
the second bit of the length is clear exactly when the length is a multiple of three. -/
theorem kMemsetPat4_fillsPatterns_iff (m : Memory) (p : Nat) (hlow : 1 ≤ szp) (hhigh : szp ≤ 4)
    (hs : s + n ≤ 2 ^ 32) (hn : n < 2 ^ 32) :
    FillsPatterns m s p szp n ↔ szp ≠ 3 ∨ (n % 4 < 2 ↔ n % 3 = 0) := by
  have hcond : (szp ≠ 3 ∨ (n % 4 < 2 ↔ n % 3 = 0)) ↔ (isAligned n szp = true ↔ szp ∣ n) := by
    by_cases hthree : szp = 3
    · subst hthree
      rw [isAligned_three_iff, Nat.dvd_iff_mod_eq_zero]
      simp
    · exact iff_of_true (.inl hthree) (isAligned_iff_dvd hlow hhigh hthree)
  rw [hcond]
  constructor
  · rintro ⟨hfills, hstops⟩
    refine ⟨fun hal => ?_, fun hdvd => ?_⟩
    · by_contra hdvd
      have hrun := hstops hdvd
      have hnot : szp ≠ 1 := by
        rintro rfl
        exact hdvd (one_dvd n)
      rw [kMemsetPat4, if_neg (by simp [hal]), if_neg hnot] at hrun
      -- past the assertion the loop can only end or go on for ever
      cases hloop : memsetPat4Loop p szp (2 ^ 32 + 1) s n m with
      | ok r =>
        rw [bind_of_ok hloop] at hrun
        cases hrun
      | error e =>
        rw [bind_of_error hloop, memsetPat4Loop_hang (by omega) hhigh hloop] at hrun
        cases hrun
    · obtain ⟨m', hrun, -⟩ := hfills hdvd
      by_contra hal
      rw [kMemsetPat4, if_pos (Bool.eq_false_of_not_eq_true hal)] at hrun
      cases hrun
  · intro hiff
    refine ⟨fun hdvd => ⟨_, kMemsetPat4_fills hlow hhigh hs hn (hiff.2 hdvd) hdvd, fun i hi => ?_,
      fun a ha => if_neg (by omega)⟩, fun hdvd => ?_⟩
    · rw [filled, if_pos ⟨Nat.le_add_right _ _, Nat.add_lt_add_left hi _⟩, Nat.add_sub_cancel_left]
    · rw [kMemsetPat4, if_pos (Bool.eq_false_of_not_eq_true fun hal => hdvd (hiff.1 hal))]
      rfl

/-- Two patterns of two bytes. -/
theorem kMemsetPat4_fillsPatterns_two : FillsPatterns (fun _ => 0) 0x1000 0x10FF 2 4 :=
  (kMemsetPat4_fillsPatterns_iff _ 0x10FF (by decide) (by decide) (by decide) (by decide)).2
    (.inl (by decide))

/-- One pattern of three bytes stops at the assertion. -/
theorem kMemsetPat4_refuses_three :
    ¬ ∀ (m : Memory) (s p szp n : Nat), 1 ≤ szp → szp ≤ 4 → s + n ≤ 2 ^ 32 → n < 2 ^ 32 →
      FillsPatterns m s p szp n := by
  intro h
  obtain ⟨hfills, -⟩ := h (fun _ => 0) 0x1000 0x1020FF 3 3 (by decide) (by decide)
    (by decide) (by decide)
  obtain ⟨m', hrun, -⟩ := hfills (Nat.dvd_refl 3)
  rw [kMemsetPat4, if_pos (by decide)] at hrun
  cases hrun

end Fill

end MeghaOS
