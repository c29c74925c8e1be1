import MeghaOS.Lib.Written

/-!
# Blocks stored one after the other

`storeBlocks dest val m n` stores `n` blocks of values in the memory `m`. What the block `k` holds
may depend on the memory at that moment, and so on the blocks before it. Blocks that lie apart keep
what was stored in them (`storeBlocks_block`), so that two ways to compute the blocks lead to the
same memory if and only if they agree block for block (`storeBlocks_eq_iff`).
-/

namespace MeghaOS

variable {β : Type}

/-- Store `n` blocks, the block `k` at `dest k`. -/
def storeBlocks (dest : Nat → Nat) (val : Nat → (Nat → β) → List β) (m : Nat → β) : Nat → Nat → β
  | 0 => m
  | n + 1 => written (storeBlocks dest val m n) (dest n) (val n (storeBlocks dest val m n))

/-- The first `n` blocks of so many values do not overlap. -/
def BlocksApart (dest : Nat → Nat) (size n : Nat) : Prop :=
  ∀ k < n, ∀ l < k, dest k + size ≤ dest l ∨ dest l + size ≤ dest k

variable {dest : Nat → Nat} {val val' : Nat → (Nat → β) → List β} {m : Nat → β} {size n a b k : Nat}

theorem BlocksApart.mono (h : BlocksApart dest size n) (hk : k ≤ n) : BlocksApart dest size k :=
  fun i hi => h i (Nat.lt_of_lt_of_le hi hk)

/-- What lies in none of the blocks is kept. -/
theorem storeBlocks_outside (hlen : ∀ k m, (val k m).length = size)
    (ha : ∀ k < n, a < dest k ∨ dest k + size ≤ a) : storeBlocks dest val m n a = m a := by
  induction n with
  | zero => rfl
  | succ n ih =>
    have hlast : a < dest n ∨ dest n + (val n (storeBlocks dest val m n)).length ≤ a := by
      rw [hlen]
      exact ha n (Nat.lt_succ_self n)
    rw [storeBlocks, written_of_outside hlast]
    exact ih fun k hk => ha k (Nat.lt_succ_of_lt hk)

/-- A block keeps what was stored in it. -/
theorem storeBlocks_block (hlen : ∀ k m, (val k m).length = size) (hapart : BlocksApart dest size n)
    (hk : k < n) (hb : b < size) :
    storeBlocks dest val m n (dest k + b) =
      (val k (storeBlocks dest val m k)).get ⟨b, (hlen k _).symm ▸ hb⟩ := by
  induction n with
  | zero => exact absurd hk (Nat.not_lt_zero k)
  | succ n ih =>
    rcases Nat.lt_succ_iff_lt_or_eq.1 hk with hlt | rfl
    · -- a later block lies apart
      have hother : dest k + b < dest n ∨ dest n + (val n (storeBlocks dest val m n)).length ≤
          dest k + b := by
        rw [hlen]
        rcases hapart n (Nat.lt_succ_self n) k hlt with h | h
        · exact .inr (Nat.le_trans h (Nat.le_add_right _ _))
        · exact .inl (Nat.lt_of_lt_of_le (Nat.add_lt_add_left hb _) h)
      rw [storeBlocks, written_of_outside hother]
      exact ih (hapart.mono (Nat.le_succ n)) hlt
    · rw [storeBlocks, written_add ((hlen k _).symm ▸ hb)]
      rfl

/-- Blocks that are the same one by one make the same memory. -/
theorem storeBlocks_congr
    (h : ∀ k < n, val k (storeBlocks dest val' m k) = val' k (storeBlocks dest val' m k)) :
    storeBlocks dest val m n = storeBlocks dest val' m n := by
  induction n with
  | zero => rfl
  | succ n ih =>
    rw [storeBlocks, storeBlocks, ih fun k hk => h k (Nat.lt_succ_of_lt hk),
      h n (Nat.lt_succ_self n)]

/-- Two ways to compute the blocks lead to the same memory when they agree on every block. -/
theorem storeBlocks_eq_iff (hlen : ∀ k m, (val k m).length = size)
    (hlen' : ∀ k m, (val' k m).length = size) (hapart : BlocksApart dest size n) :
    storeBlocks dest val m n = storeBlocks dest val' m n ↔
      ∀ k < n, val k (storeBlocks dest val' m k) = val' k (storeBlocks dest val' m k) := by
  refine ⟨fun h k hk => ?_, storeBlocks_congr⟩
  induction k using Nat.strongRecOn with
  | ind k ih =>
    -- the blocks before this one agree, so both memories are the same when it is stored
    have hsame : storeBlocks dest val m k = storeBlocks dest val' m k :=
      storeBlocks_congr fun i hi => ih i hi (Nat.lt_trans hi hk)
    refine List.ext_getElem (by rw [hlen, hlen']) fun b hb hb' => ?_
    rw [hlen] at hb
    have hblock := congrFun h (dest k + b)
    rw [storeBlocks_block hlen hapart hk hb, storeBlocks_block hlen' hapart hk hb] at hblock
    simpa only [hsame, List.get_eq_getElem] using hblock

end MeghaOS
