import MeghaOS.Bitmap

/-!
# The bitmap as a map from indices to states

`stateAt_write` says that a write changes the state of its own index and of no other, through the
packing of several states in one byte. From it, `bitmapSetFrom_spec` and `bitmapScan_spec` describe
whole runs of the two loops: a successful run stays inside the capacity of the bitmap, whatever its
32-bit arguments were. `bitmapFindContinous_returns` says what the search returns, and
`bitmapSetFrom_refused` what a change that `allow` refuses leaves behind. `bitmapFind_searches_iff`
is about the end of a range that wraps, which the bound check of the searches lets pass.
-/

namespace MeghaOS

open Bitmap Exec

variable {b b' : Bitmap} {index len state : Nat}

/-- The bitmaps whose states fill a byte exactly. -/
def Bitmap.Packed (b : Bitmap) : Prop :=
  b.bitsPerState = 1 ∨ b.bitsPerState = 2 ∨ b.bitsPerState = 4 ∨ b.bitsPerState = 8

namespace Bitmap

/-- A packed bitmap has bits for its states. -/
theorem Packed.pos (h : b.Packed) : 0 < b.bitsPerState := by
  rcases h with h | h | h | h <;> omega

/-- They divide a byte. -/
theorem Packed.eight_mod (h : b.Packed) : 8 % b.bitsPerState = 0 := by
  rcases h with h | h | h | h <;> simp [h]

/-- A byte is full of states. -/
theorem Packed.mul_statesPerByte (h : b.Packed) : b.bitsPerState * b.statesPerByte = 8 := by
  unfold statesPerByte
  rcases h with h | h | h | h <;> simp [h]

/-- It holds one at least. -/
theorem Packed.statesPerByte_pos (h : b.Packed) : 0 < b.statesPerByte := by
  unfold statesPerByte
  rcases h with h | h | h | h <;> simp [h]

/-- Writing a state leaves the layout. -/
theorem Packed.write (h : b.Packed) (index state : Nat) : (b.write index state).Packed := h

/-- Writing a state leaves the layout, and the capacity with it. -/
@[simp] theorem write_bitsPerState : (b.write index state).bitsPerState = b.bitsPerState := rfl

@[simp] theorem write_capacity : (b.write index state).capacity = b.capacity := rfl

/-- The capacity is a 32-bit word. -/
theorem capacity_lt (b : Bitmap) : b.capacity < 2 ^ 32 := Nat.mod_lt _ (by decide)

/-- The capacity is one of size and bits. -/
theorem capacity_congr (hsize : b'.size = b.size) (hbits : b'.bitsPerState = b.bitsPerState) :
    b'.capacity = b.capacity := by
  rw [capacity, capacity, statesPerByte, statesPerByte, hsize, hbits]

/-- Two indices with the same byte and the same bit position are the same index. -/
theorem Packed.index_ext (h : b.Packed) {i j : Nat} (hbyte : b.byteIndex i = b.byteIndex j)
    (hbit : b.bitIndex i = b.bitIndex j) : i = j := by
  have hmod : i % b.statesPerByte = j % b.statesPerByte := Nat.eq_of_mul_eq_mul_right h.pos hbit
  rw [← Nat.div_add_mod i b.statesPerByte, ← Nat.div_add_mod j b.statesPerByte, hmod]
  exact congrArg (b.statesPerByte * · + _) hbyte

/-- The bits of one index end before those of the next begin. -/
theorem bitIndex_gap {i j : Nat} (hlt : b.bitIndex i < b.bitIndex j) :
    b.bitIndex i + b.bitsPerState ≤ b.bitIndex j := by
  unfold bitIndex at *
  have hmod : i % b.statesPerByte < j % b.statesPerByte := Nat.lt_of_mul_lt_mul_right hlt
  calc i % b.statesPerByte * b.bitsPerState + b.bitsPerState
      = (i % b.statesPerByte + 1) * b.bitsPerState := by ring
    _ ≤ j % b.statesPerByte * b.bitsPerState := Nat.mul_le_mul_right _ hmod

/-- The bits of an index lie inside its byte. -/
theorem Packed.bitIndex_add_le (h : b.Packed) (i : Nat) : b.bitIndex i + b.bitsPerState ≤ 8 := by
  have hlt : i % b.statesPerByte + 1 ≤ b.statesPerByte := Nat.mod_lt i h.statesPerByte_pos
  calc b.bitIndex i + b.bitsPerState
      = (i % b.statesPerByte + 1) * b.bitsPerState := by unfold bitIndex; ring
    _ ≤ b.statesPerByte * b.bitsPerState := Nat.mul_le_mul_right _ hlt
    _ = 8 := by rw [Nat.mul_comm]; exact h.mul_statesPerByte

/-- Bit `n` of the state of an index is a bit of its byte. -/
theorem testBit_stateAt (b : Bitmap) (i n : Nat) :
    (b.stateAt i).testBit n =
      ((b.bitmap (b.byteIndex i)).testBit (b.bitIndex i + n) && decide (n < b.bitsPerState)) := by
  simp [stateAt, stateMask, Nat.testBit_shiftRight, Bool.and_comm]

/-- A state is one of those the bitmap can hold. -/
theorem stateAt_lt (b : Bitmap) (i : Nat) : b.stateAt i < b.maxState :=
  Nat.lt_of_le_of_lt Nat.and_le_right
    (by unfold stateMask maxState; have := Nat.two_pow_pos b.bitsPerState; omega)

/-- The bits of the byte that a write leaves: inside the place of the index those of the new state,
elsewhere the old ones. -/
theorem testBit_write (hstate : state < b.maxState) {k : Nat} (hk : k < 8) :
    ((b.write index state).bitmap (b.byteIndex index)).testBit k =
      if b.bitIndex index ≤ k ∧ k < b.bitIndex index + b.bitsPerState
      then state.testBit (k - b.bitIndex index)
      else (b.bitmap (b.byteIndex index)).testBit k := by
  have h256 : (256 : Nat) = 2 ^ 8 := rfl
  have hFF : (0xFF : Nat) = 2 ^ 8 - 1 := rfl
  simp only [write, if_pos, stateMask, Nat.testBit_or, Nat.testBit_and, Nat.testBit_xor, h256, hFF,
    Nat.testBit_mod_two_pow, Nat.testBit_shiftLeft, Nat.testBit_two_pow_sub_one, hk, decide_true,
    Bool.true_and]
  by_cases hlo : b.bitIndex index ≤ k
  · by_cases hhi : k < b.bitIndex index + b.bitsPerState
    · have : k - b.bitIndex index < b.bitsPerState := by omega
      simp [hlo, hhi, this]
    · have hge : b.bitsPerState ≤ k - b.bitIndex index := by omega
      have : state.testBit (k - b.bitIndex index) = false :=
        Nat.testBit_lt_two_pow (Nat.lt_of_lt_of_le hstate (Nat.pow_le_pow_right (by omega) hge))
      simp [hlo, hhi, this, hge]
  · simp [hlo]

/-- A write sets the state of its index and keeps that of every other. -/
theorem stateAt_write (h : b.Packed) (hstate : state < b.maxState) (j : Nat) :
    (b.write index state).stateAt j = if j = index then state else b.stateAt j := by
  have hj := h.bitIndex_add_le j
  by_cases hbyte : b.byteIndex j = b.byteIndex index
  · apply Nat.eq_of_testBit_eq
    intro n
    have hbyte' : (b.write index state).byteIndex j = b.byteIndex index := hbyte
    have hbit' : (b.write index state).bitIndex j = b.bitIndex j := rfl
    rw [testBit_stateAt, write_bitsPerState, hbyte', hbit']
    by_cases hn : n < b.bitsPerState
    · rw [testBit_write hstate (by omega)]
      rcases Nat.lt_trichotomy (b.bitIndex index) (b.bitIndex j) with hlt | heq | hgt
      · have hgap := bitIndex_gap hlt
        have hne : j ≠ index := by rintro rfl; omega
        rw [if_neg (by omega), if_neg hne, testBit_stateAt, hbyte]
      · have heq' : j = index := h.index_ext hbyte heq.symm
        rw [if_pos (by omega), if_pos heq', heq, Nat.add_sub_cancel_left]
        simp [hn]
      · have hgap := bitIndex_gap hgt
        have hne : j ≠ index := by rintro rfl; omega
        rw [if_neg (by omega), if_neg hne, testBit_stateAt, hbyte]
    · have hsmall : ∀ m, m < b.maxState → m.testBit n = false := fun m hm =>
        Nat.testBit_lt_two_pow (Nat.lt_of_lt_of_le hm (Nat.pow_le_pow_right (by omega) (by omega)))
      have hres : (if j = index then state else b.stateAt j) < b.maxState := by
        split
        · exact hstate
        · exact b.stateAt_lt j
      rw [hsmall _ hres]
      simp [hn]
  · have hne : j ≠ index := by rintro rfl; exact hbyte rfl
    have hbyte' : (b.write index state).byteIndex j = b.byteIndex j := rfl
    have : (b.write index state).bitmap (b.byteIndex j) = b.bitmap (b.byteIndex j) := by
      simp [write, hbyte]
    rw [if_neg hne]
    unfold stateAt
    rw [hbyte', this]
    rfl

end Bitmap

/-! ## The loops -/

/-- An assertion passes when it holds. -/
theorem kAssertE_eq_ok {t : Prop} [Decidable t] {e : String} {u : Unit} :
    kAssertE t e = .ok u ↔ t := by
  unfold kAssertE
  split <;> simp_all

/-- What `bitmapGet` returns, when it returns. -/
theorem bitmapGet_eq_ok {v : Nat} :
    bitmapGet b index = .ok v ↔ 8 % b.bitsPerState = 0 ∧ index < b.capacity ∧
      v = b.stateAt index := by
  simp [bitmapGet, except_bind_eq_ok, kAssertE_eq_ok, pure, Except.pure, eq_comm (a := v)]

/-- A scan that finds only `state` has stayed inside the bitmap. -/
theorem bitmapScan_spec (hcap : b.capacity < 2 ^ 32) (hi : index < 2 ^ 32)
    (h : bitmapScan b state len index = .ok true) :
    (len = 0 ∨ index + len ≤ b.capacity) ∧
      ∀ j, index ≤ j → j < index + len → b.stateAt j = state := by
  induction len generalizing index with
  | zero => exact ⟨.inl rfl, fun j h1 h2 => by omega⟩
  | succ len ih =>
    have hu : u32 index = index := Nat.mod_eq_of_lt hi
    rw [bitmapScan, hu] at h
    obtain ⟨v, hget, h⟩ := except_bind_eq_ok.1 h
    obtain ⟨-, hlt, rfl⟩ := bitmapGet_eq_ok.1 hget
    split at h
    · rename_i heq
      obtain ⟨hlen, hrest⟩ := ih (by omega) h
      refine ⟨.inr (by omega), fun j h1 h2 => ?_⟩
      rcases Nat.eq_or_lt_of_le h1 with rfl | h1
      · exact heq
      · exact hrest j h1 (by omega)
    · cases h

/-- `bitmapFindContinousAt` finds a range inside the bitmap whose states are all `state`. -/
theorem bitmapFindContinousAt_spec (hcap : b.capacity < 2 ^ 32) (hi : index < 2 ^ 32)
    (h : bitmapFindContinousAt b state len index = .ok true) :
    0 < len ∧ index + len ≤ b.capacity ∧
      ∀ j, index ≤ j → j < index + len → b.stateAt j = state := by
  simp only [bitmapFindContinousAt, except_bind_eq_ok, kAssertE_eq_ok] at h
  obtain ⟨_, -, _, -, _, hlen, h⟩ := h
  split at h
  · cases h
  · obtain ⟨hbound, hall⟩ := bitmapScan_spec hcap hi h
    exact ⟨hlen, by omega, hall⟩

/-- The search over the last `n` indices finds a range whose states are all `state`. -/
theorem bitmapFindFrom_spec {n found : Nat} (hcap : b.capacity < 2 ^ 32)
    (hn : index + n = b.capacity) (h : bitmapFindFrom b state len n index = .ok (some found)) :
    0 < len ∧ found + len ≤ b.capacity ∧
      ∀ j, found ≤ j → j < found + len → b.stateAt j = state := by
  induction n generalizing index with
  | zero => simp [bitmapFindFrom, pure, Except.pure] at h
  | succ n ih =>
    rw [bitmapFindFrom] at h
    obtain ⟨ok, hat, h⟩ := except_bind_eq_ok.1 h
    cases ok with
    | true =>
      cases h
      exact bitmapFindContinousAt_spec hcap (by omega) hat
    | false => exact ih (by omega) h

/-- `bitmapFindContinous` finds a range inside the bitmap whose states are all `state`. -/
theorem bitmapFindContinous_spec {found : Nat} (hcap : b.capacity < 2 ^ 32)
    (h : bitmapFindContinous b state len = .ok (some found)) :
    0 < len ∧ found + len ≤ b.capacity ∧
      ∀ j, found ≤ j → j < found + len → b.stateAt j = state := by
  simp only [bitmapFindContinous, except_bind_eq_ok] at h
  obtain ⟨_, -, _, -, _, -, h⟩ := h
  exact bitmapFindFrom_spec hcap (Nat.zero_add _) h

/-! ## Searches -/

/-- A range inside the bitmap whose states are all `state`. -/
structure Bitmap.RunAt (b : Bitmap) (state len f : Nat) : Prop where
  inside : f + len ≤ b.capacity
  states : ∀ j, f ≤ j → j < f + len → b.stateAt j = state

/-- A scan inside the bitmap says whether all its states are `state`. -/
theorem bitmapScan_returns (hp : b.Packed) (hcap : b.capacity < 2 ^ 32)
    (hin : index + len ≤ b.capacity) :
    ∃ found, bitmapScan b state len index = .ok found ∧
      (found = true ↔ ∀ j, index ≤ j → j < index + len → b.stateAt j = state) := by
  induction len generalizing index with
  | zero => exact ⟨true, rfl, by simp; omega⟩
  | succ len ih =>
    have hget : bitmapGet b (u32 index) = .ok (b.stateAt index) := by
      rw [u32, Nat.mod_eq_of_lt (by omega)]
      exact bitmapGet_eq_ok.2 ⟨hp.eight_mod, by omega, rfl⟩
    rw [bitmapScan, hget]
    by_cases hst : b.stateAt index = state
    · obtain ⟨found, hrest, hiff⟩ := ih (show index + 1 + len ≤ b.capacity by omega)
      refine ⟨found, ?_, hiff.trans ⟨fun hall j h1 h2 => ?_, fun hall j h1 h2 => ?_⟩⟩
      · simpa [hst, bind, Except.bind] using hrest
      · rcases Nat.eq_or_lt_of_le h1 with rfl | h1
        · exact hst
        · exact hall j h1 (by omega)
      · exact hall j (by omega) (by omega)
    · refine ⟨false, by simp [hst, bind, Except.bind, pure, Except.pure], ?_⟩
      exact ⟨fun h => (by cases h), fun hall => absurd (hall index (Nat.le_refl _) (by omega)) hst⟩

/-- `bitmap_findContinousAt` says whether there is a run at the index. -/
theorem bitmapFindContinousAt_returns (hp : b.Packed) (hcap : b.capacity < 2 ^ 32)
    (hstate : state < b.maxState) (hlen : 0 < len) (hsum : index + len < 2 ^ 32) :
    ∃ found, bitmapFindContinousAt b state len index = .ok found ∧
      (found = true ↔ b.RunAt state len index) := by
  simp only [bitmapFindContinousAt, kAssertE, hp.eight_mod, hstate, hlen, if_true,
    bind, Except.bind]
  rw [u32, Nat.mod_eq_of_lt hsum]
  by_cases hin : index + len > b.capacity
  · rw [if_pos hin]
    exact ⟨false, rfl, fun h => (by cases h), fun h => absurd h.inside (by omega)⟩
  · rw [if_neg hin]
    obtain ⟨found, hscan, hiff⟩ :=
      bitmapScan_returns hp hcap (show index + len ≤ b.capacity by omega)
    exact ⟨found, hscan, hiff.trans ⟨fun h => ⟨by omega, h⟩, fun h => h.states⟩⟩

/-- What a search from an index on finds: the first run, or nothing if there is none. -/
inductive Bitmap.Search (b : Bitmap) (state len index : Nat) : Option Nat → Prop
  | some {f : Nat} : index ≤ f → b.RunAt state len f →
    (∀ g, index ≤ g → g < f → ¬ b.RunAt state len g) →
      Search b state len index (some f)
  | none : (∀ g, index ≤ g → ¬ b.RunAt state len g) → Search b state len index none

/-- Past the last index there is nothing to read. -/
theorem bitmapGet_outside (h : b.capacity ≤ index) : ∃ e, bitmapGet b index = .error e := by
  cases hget : bitmapGet b index with
  | error e => exact ⟨e, rfl⟩
  | ok v => exact absurd (bitmapGet_eq_ok.1 hget).2.1 (Nat.not_lt.2 h)

/-- A scan that is to go past the last index stops at the first other state, or else the assertion
of `bitmap_get` fails. -/
theorem bitmapScan_past (hp : b.Packed) (hi : index < 2 ^ 32) (hlen : 0 < len)
    (hpast : b.capacity < index + len) :
    ((∀ j, index ≤ j → j < b.capacity → b.stateAt j = state) →
        ∃ e, bitmapScan b state len index = .error e) ∧
      ((¬ ∀ j, index ≤ j → j < b.capacity → b.stateAt j = state) →
        bitmapScan b state len index = .ok false) := by
  induction len generalizing index with
  | zero => exact absurd hlen (Nat.lt_irrefl 0)
  | succ len ih =>
    have hu : u32 index = index := Nat.mod_eq_of_lt hi
    rw [bitmapScan, hu]
    by_cases hin : index < b.capacity
    · have hcap := b.capacity_lt
      have hget : bitmapGet b index = .ok (b.stateAt index) :=
        bitmapGet_eq_ok.2 ⟨hp.eight_mod, hin, rfl⟩
      rw [hget]
      by_cases hst : b.stateAt index = state
      · have hnext : (∀ j, index ≤ j → j < b.capacity → b.stateAt j = state) ↔
            ∀ j, index + 1 ≤ j → j < b.capacity → b.stateAt j = state := by
          constructor
          · exact fun h j h1 => h j (Nat.le_of_succ_le h1)
          · intro h j h1 h2
            rcases Nat.eq_or_lt_of_le h1 with rfl | h1
            · exact hst
            · exact h j h1 h2
        rw [hnext]
        simp only [bind, Except.bind, if_pos hst]
        exact ih (by omega) (by omega) (by omega)
      · simp only [bind, Except.bind, if_neg hst, pure, Except.pure]
        exact ⟨fun h => absurd (h index (Nat.le_refl _) hin) hst, fun _ => trivial⟩
    · obtain ⟨e, hget⟩ := bitmapGet_outside (Nat.not_lt.1 hin)
      rw [hget]
      exact ⟨fun _ => ⟨e, rfl⟩, fun h => absurd (fun j h1 h2 => by omega) h⟩

/-- The bound check lets a range pass whose end wraps, and all states from its start to the end of
the bitmap are `state`. -/
structure Bitmap.Overruns (b : Bitmap) (state len index : Nat) : Prop where
  wraps : 2 ^ 32 ≤ index + len
  passes : u32 (index + len) ≤ b.capacity
  states : ∀ j, index ≤ j → j < b.capacity → b.stateAt j = state

/-- `bitmap_findContinousAt` says whether there is a run at the index, unless it overruns. -/
theorem bitmapFindContinousAt_exact (hp : b.Packed) (hstate : state < b.maxState) (hlen : 0 < len)
    (hi : index < 2 ^ 32) :
    (∃ found, bitmapFindContinousAt b state len index = .ok found ∧
        (found = true ↔ b.RunAt state len index)) ↔ ¬ b.Overruns state len index := by
  have hcap := b.capacity_lt
  by_cases hsum : index + len < 2 ^ 32
  · exact iff_of_true (bitmapFindContinousAt_returns hp hcap hstate hlen hsum)
      fun h => absurd h.wraps (Nat.not_le.2 hsum)
  · have hno : ¬ b.RunAt state len index := fun h => absurd h.inside (by omega)
    simp only [bitmapFindContinousAt, kAssertE, hp.eight_mod, hstate, hlen, if_true,
      bind, Except.bind]
    by_cases hbound : u32 (index + len) > b.capacity
    · rw [if_pos hbound]
      exact iff_of_true ⟨false, rfl, by simp [hno]⟩ fun h => absurd h.passes (Nat.not_le.2 hbound)
    · rw [if_neg hbound]
      obtain ⟨herror, hfalse⟩ := @bitmapScan_past b index len state hp hi hlen (by omega)
      by_cases hall : ∀ j, index ≤ j → j < b.capacity → b.stateAt j = state
      · obtain ⟨e, he⟩ := herror hall
        refine iff_of_false ?_ fun h => h ⟨Nat.not_lt.1 hsum, Nat.not_lt.1 hbound, hall⟩
        rintro ⟨found, hrun, -⟩
        rw [he] at hrun
        cases hrun
      · exact iff_of_true ⟨false, hfalse hall, by simp [hno]⟩ fun h => hall h.states

/-- The search from an index on returns what it should, unless an index overruns before there is a
run. -/
theorem bitmapFindFrom_exact {n : Nat} (hp : b.Packed) (hstate : state < b.maxState)
    (hlen : 0 < len)
    (hn : index + n = b.capacity) :
    (∃ found, bitmapFindFrom b state len n index = .ok found ∧ b.Search state len index found) ↔
      (∃ f, index ≤ f ∧ b.RunAt state len f) ∨
        ∀ i, index ≤ i → i < b.capacity → ¬ b.Overruns state len i := by
  have hcap := b.capacity_lt
  induction n generalizing index with
  | zero =>
    exact iff_of_true ⟨none, rfl, .none fun g hg h => absurd h.inside (by omega)⟩
      (.inr fun i h1 h2 => by omega)
  | succ n ih =>
    have hat := bitmapFindContinousAt_exact hp hstate hlen (show index < 2 ^ 32 by omega)
    by_cases hover : b.Overruns state len index
    · -- an index that overruns is behind every run
      have hno : ¬ ∃ f, index ≤ f ∧ b.RunAt state len f := by
        rintro ⟨f, hle, hf⟩
        have hwraps := hover.wraps
        have hinside := hf.inside
        omega
      refine iff_of_false ?_ fun h => h.elim hno fun h => h index (Nat.le_refl _) (by omega) hover
      rintro ⟨found, hrun, hsearch⟩
      obtain ⟨first, hfirst, -⟩ := except_bind_eq_ok.1 (by rw [bitmapFindFrom] at hrun; exact hrun)
      have hnot : first ≠ true := by
        rintro rfl
        obtain ⟨-, hinside, hstates⟩ := bitmapFindContinousAt_spec hcap (by omega) hfirst
        exact hno ⟨index, Nat.le_refl _, hinside, hstates⟩
      refine hat.1 ⟨first, hfirst, ?_⟩ hover
      exact iff_of_false hnot fun h => hno ⟨index, Nat.le_refl _, h⟩
    · obtain ⟨first, hfirst, hiff⟩ := hat.2 hover
      rw [bitmapFindFrom, hfirst]
      cases first with
      | true =>
        have hrun := hiff.1 rfl
        exact iff_of_true ⟨some index, rfl, .some (Nat.le_refl _) hrun fun g h1 h2 => by omega⟩
          (.inl ⟨index, Nat.le_refl _, hrun⟩)
      | false =>
        have hno : ¬ b.RunAt state len index := fun h => by cases hiff.2 h
        have hstart : ∀ g, index ≤ g → b.RunAt state len g → index + 1 ≤ g := fun g hg h => by
          rcases Nat.eq_or_lt_of_le hg with rfl | hlt
          · exact absurd h hno
          · exact hlt
        have hsearch : ∀ found, b.Search state len index found ↔
            b.Search state len (index + 1) found := by
          intro found
          constructor
          · rintro (⟨hle, hrun, hleast⟩ | hnone)
            · exact .some (hstart _ hle hrun) hrun fun g h1 h2 => hleast g (by omega) h2
            · exact .none fun g h1 => hnone g (by omega)
          · rintro (⟨hle, hrun, hleast⟩ | hnone)
            · exact .some (by omega) hrun fun g h1 h2 h => hleast g (hstart g h1 h) h2 h
            · exact .none fun g h1 h => hnone g (hstart g h1 h) h
        have hih := ih (show index + 1 + n = b.capacity by omega)
        simp only [← hsearch] at hih
        refine hih.trans (or_congr ⟨?_, ?_⟩ ⟨fun h i h1 h2 => ?_, fun h i h1 => h i (by omega)⟩)
        · rintro ⟨f, hle, hf⟩
          exact ⟨f, by omega, hf⟩
        · rintro ⟨f, hle, hf⟩
          exact ⟨f, hstart f hle hf, hf⟩
        · rcases Nat.eq_or_lt_of_le h1 with rfl | h1
          · exact hover
          · exact h i h1 h2

/-- The search of the whole bitmap is its loop. -/
theorem bitmapFindContinous_eq (hp : b.Packed) (hstate : state < b.maxState) (hlen : 0 < len) :
    bitmapFindContinous b state len = bitmapFindFrom b state len b.capacity 0 := by
  simp only [bitmapFindContinous, kAssertE, hp.eight_mod, hstate, hlen, if_true, bind, Except.bind]

/-- `bitmap_findContinous` returns the first run, if there is one. -/
theorem bitmapFindContinous_returns (hp : b.Packed) (hstate : state < b.maxState) (hlen : 0 < len)
    (hsum : b.capacity + len ≤ 2 ^ 32) :
    ∃ found, bitmapFindContinous b state len = .ok found ∧ b.Search state len 0 found := by
  rw [bitmapFindContinous_eq hp hstate hlen]
  refine (bitmapFindFrom_exact hp hstate hlen (Nat.zero_add b.capacity)).2 (.inr fun i _ hi h => ?_)
  have hwraps := h.wraps
  omega

/-- A bitmap with the same states below the capacity. -/
structure Bitmap.SameBelow (b b' : Bitmap) : Prop where
  size : b'.size = b.size
  bitsPerState : b'.bitsPerState = b.bitsPerState
  states : ∀ j < b.capacity, b'.stateAt j = b.stateAt j

namespace Bitmap.SameBelow

/-- Bitmaps that agree below their capacity have the same capacity. -/
theorem capacity (h : b.SameBelow b') : b'.capacity = b.capacity :=
  capacity_congr h.size h.bitsPerState

/-- They have the same states. -/
theorem get (h : b.SameBelow b') (index : Nat) : bitmapGet b' index = bitmapGet b index := by
  rw [bitmapGet, bitmapGet, h.bitsPerState, h.capacity]
  by_cases hin : index < b.capacity
  · rw [h.states index hin]
  · simp only [kAssertE, if_neg hin, bind, Except.bind]

/-- A scan finds the same runs in them. -/
theorem scan (h : b.SameBelow b') (len index : Nat) :
    bitmapScan b' state len index = bitmapScan b state len index := by
  induction len generalizing index with
  | zero => rfl
  | succ len ih => simp only [bitmapScan, h.get, ih]

/-- So does a search at an index. -/
theorem findAt (h : b.SameBelow b') (len index : Nat) :
    bitmapFindContinousAt b' state len index = bitmapFindContinousAt b state len index := by
  have hscan : bitmapScan b' state len index = bitmapScan b state len index := h.scan len index
  have hcap := h.capacity
  obtain ⟨bitmap', size', bitsPerState'⟩ := b'
  obtain ⟨rfl, rfl, -⟩ := h
  simp only [bitmapFindContinousAt, hscan, hcap]
  rfl

/-- And so does one from the start. -/
theorem find (h : b.SameBelow b') (len : Nat) :
    bitmapFindContinous b' state len = bitmapFindContinous b state len := by
  have hfrom : ∀ n index, bitmapFindFrom b' state len n index = bitmapFindFrom b state
      len n index := by
    intro n
    induction n with
    | zero => exact fun _ => rfl
    | succ n ih => exact fun index => by simp only [bitmapFindFrom, h.findAt, ih]
  have hcap := h.capacity
  obtain ⟨bitmap', size', bitsPerState'⟩ := b'
  obtain ⟨rfl, rfl, -⟩ := h
  simp only [bitmapFindContinous, hfrom, hcap]
  rfl

end Bitmap.SameBelow

/-- What the two searches promise: the answer for one index, the first index or
`KERNEL_EXIT_FAILURE`, and that nothing at or beyond the capacity has a part in either. -/
structure Bitmap.Searches (b : Bitmap) (state len indexAt : Nat) : Prop where
  findAt : ∃ found, bitmapFindContinousAt b state len indexAt = .ok found ∧
    (found = true ↔ b.RunAt state len indexAt)
  find : ∃ found, bitmapFindContinous b state len = .ok found ∧ b.Search state len 0 found ∧
    ∀ f, found = some f → findResult found = f
  inside : ∀ b', b.SameBelow b' →
    bitmapFindContinousAt b' state len indexAt = bitmapFindContinousAt b state len indexAt ∧
      bitmapFindContinous b' state len = bitmapFindContinous b state len

/-- An index below `2 ^ 31` is the same number as an `INT`, and no other is. -/
theorem findResult_some_iff {f : Nat} : findResult (some f) = f ↔ f < 2 ^ 31 := by
  constructor
  · intro h
    have hlt := Int.bmod_lt (x := f) (show 0 < 2 ^ 32 by decide)
    rw [findResult, Option.elim_some] at h
    omega
  · intro h
    rw [findResult, Option.elim_some, Int.bmod_eq_of_le] <;> omega

/-- An index overruns if and only if the last one does. -/
theorem Bitmap.overruns_iff (hlen : len < 2 ^ 32) :
    (∀ i, 0 ≤ i → i < b.capacity → ¬ b.Overruns state len i) ↔
      b.capacity + len ≤ 2 ^ 32 ∨ b.stateAt (b.capacity - 1) ≠ state := by
  have hcap := b.capacity_lt
  constructor
  · intro h
    by_contra hnot
    rw [not_or, Nat.not_le, not_not] at hnot
    obtain ⟨hsum, hlast⟩ := hnot
    refine h (b.capacity - 1) (Nat.zero_le _) (by omega) ⟨by omega, ?_, fun j h1 h2 => ?_⟩
    · rw [u32]
      omega
    · rwa [show j = b.capacity - 1 by omega]
  · rintro h i - hi hover
    have hwraps := hover.wraps
    exact h.elim (by omega) fun hlast => hlast (hover.states _ (by omega) (by omega))

/-- The searches do what they promise if and only if the index does not overrun, and the bitmap has
a run that begins below `2 ^ 31`, or no run at all and its last index does not overrun. -/
theorem bitmapFind_searches_iff {indexAt : Nat} (hp : b.Packed) (hstate : state < b.maxState)
    (hlen : 0 < len) (hlen32 : len < 2 ^ 32) (hi : indexAt < 2 ^ 32) :
    b.Searches state len indexAt ↔ ¬ b.Overruns state len indexAt ∧
      ((∃ f < 2 ^ 31, b.RunAt state len f) ∨ (∀ f, ¬ b.RunAt state len f) ∧
        (b.capacity + len ≤ 2 ^ 32 ∨ b.stateAt (b.capacity - 1) ≠ state)) := by
  have hcap := b.capacity_lt
  have hat := bitmapFindContinousAt_exact hp hstate hlen hi
  have hfrom := bitmapFindFrom_exact hp hstate hlen (Nat.zero_add b.capacity)
  rw [← bitmapFindContinous_eq hp hstate hlen, overruns_iff hlen32] at hfrom
  constructor
  · rintro ⟨hfindAt, ⟨found, hrun, hsearch, hresult⟩, -⟩
    refine ⟨hat.1 hfindAt, ?_⟩
    cases hsearch with
    | some _ hf _ =>
      have hinside := hf.inside
      exact .inl ⟨_, findResult_some_iff.1 (hresult _ rfl), hf⟩
    | none hnone =>
      have hno : ∀ f, ¬ b.RunAt state len f := fun f => hnone f (Nat.zero_le f)
      exact .inr ⟨hno, (hfrom.1 ⟨none, hrun, .none hnone⟩).resolve_left fun ⟨f, _, hf⟩ => hno f hf⟩
  · rintro ⟨hover, hfind⟩
    refine ⟨hat.2 hover, ?_, fun b' h => ⟨h.findAt len indexAt, h.find len⟩⟩
    rcases hfind with ⟨f, hlow, hf⟩ | ⟨hno, hlast⟩
    · obtain ⟨found, hrun, hsearch⟩ := hfrom.2 (.inl ⟨f, Nat.zero_le f, hf⟩)
      refine ⟨found, hrun, hsearch, fun g hg => ?_⟩
      subst hg
      cases hsearch with
      | some _ hg hleast =>
        -- the run that is found does not begin behind the one below `2 ^ 31`
        have hle : g ≤ f := Nat.not_lt.1 fun hlt => hleast f (Nat.zero_le f) hlt hf
        exact findResult_some_iff.2 (by omega)
    · obtain ⟨found, hrun, hsearch⟩ := hfrom.2 (.inr hlast)
      refine ⟨found, hrun, hsearch, fun g hg => ?_⟩
      subst hg
      cases hsearch with
      | some _ hg _ => exact absurd hg (hno g)

/-- The bitmap of three bytes that the tests use. -/
def testBitmap : Bitmap := ⟨fun _ => 0xFF, 3, 2⟩

/-- Two states at the start of the bitmap of the tests are found. -/
theorem bitmapFind_searches_testBitmap : testBitmap.Searches 3 2 0 := by
  have hrun : testBitmap.RunAt 3 2 0 := by
    refine ⟨by decide, fun j _ hj => ?_⟩
    obtain rfl | rfl : j = 0 ∨ j = 1 := by omega
    · rfl
    · rfl
  refine (bitmapFind_searches_iff (.inr (.inl rfl)) (by decide) (by decide) (by decide)
    (by decide)).2
    ⟨fun h => absurd h.wraps (by decide), .inl ⟨0, by decide, hrun⟩⟩

/-- A range of `2 ^ 32 - 1` states from the last index on is not refused: the scan goes on to the
end of the bitmap, where the assertion of `bitmap_get` fails. -/
theorem bitmapFind_overruns : ¬ testBitmap.Searches 3 (2 ^ 32 - 1) 11 := by
  intro hsearches
  refine (bitmapFindContinousAt_exact (.inr (.inl rfl)) (by decide) (by decide) (by decide)).1
    hsearches.findAt ⟨by decide, by decide, fun j h1 h2 => ?_⟩
  have hcap : testBitmap.capacity = 12 := rfl
  obtain rfl : j = 11 := by omega
  rfl

/-! ## Changes -/

/-- A turn of the loop stays inside of the bitmap, and ends the loop or writes a state. -/
theorem bitmapSetFrom_succ {allow : Nat → Nat → Nat → Except Halt Bool} {ok : Bool}
    (hcap : b.capacity < 2 ^ 32)
    (h : bitmapSetFrom allow state (len + 1) index b = .ok (ok, b')) :
    index < b.capacity ∧
      ((allow index (b.stateAt index) state = .ok false ∧ ok = false ∧ b' = b) ∨
        allow index (b.stateAt index) state = .ok true ∧
          bitmapSetFrom allow state len (index + 1) (b.write index state) = .ok (ok, b')) := by
  rw [bitmapSetFrom] at h
  obtain ⟨v, hget, h⟩ := except_bind_eq_ok.1 h
  obtain ⟨-, hlt, rfl⟩ := bitmapGet_eq_ok.1 hget
  obtain ⟨allowed, hallow, h⟩ := except_bind_eq_ok.1 h
  refine ⟨hlt, ?_⟩
  cases allowed with
  | false =>
    cases h
    exact .inl ⟨hallow, rfl, rfl⟩
  | true =>
    have hnext : u32 (index + 1) = index + 1 := Nat.mod_eq_of_lt (by omega)
    rw [if_pos rfl, hnext] at h
    exact .inr ⟨hallow, h⟩

/-- A loop that set its whole range stayed inside the bitmap, was allowed every single change, and
changed the states of the range alone. -/
theorem bitmapSetFrom_spec {allow : Nat → Nat → Nat → Except Halt Bool} (hp : b.Packed)
    (hstate : state < b.maxState) (hcap : b.capacity < 2 ^ 32) (hi : index < 2 ^ 32)
    (h : bitmapSetFrom allow state len index b = .ok (true, b')) :
    (len = 0 ∨ index + len ≤ b.capacity) ∧
      (∀ j, index ≤ j → j < index + len → allow j (b.stateAt j) state = .ok true) ∧
      (∀ j, b'.stateAt j = if index ≤ j ∧ j < index + len then state else b.stateAt j) ∧
      b'.size = b.size ∧ b'.bitsPerState = b.bitsPerState := by
  induction len generalizing index b with
  | zero =>
    cases h
    exact ⟨.inl rfl, fun j h1 h2 => by omega, fun j => by rw [if_neg (by omega)], rfl, rfl⟩
  | succ len ih =>
    obtain ⟨hlt, ⟨-, hfalse, -⟩ | ⟨hallow, hrest⟩⟩ := bitmapSetFrom_succ hcap h
    · cases hfalse
    · obtain ⟨hb, hal, hst, hsize, hbits⟩ := ih (hp.write index state) hstate hcap (by omega) hrest
      rw [write_capacity] at hb
      refine ⟨.inr (by omega), fun j h1 h2 => ?_, fun j => ?_, hsize, hbits⟩
      · rcases Nat.eq_or_lt_of_le h1 with rfl | h1
        · exact hallow
        · have := hal j h1 (by omega)
          rwa [stateAt_write hp hstate, if_neg (by omega)] at this
      · rw [hst j, stateAt_write hp hstate]
        split_ifs <;> first | rfl | omega

/-- A refusal by `allow` is the only way in which the loop returns `false`. -/
theorem bitmapSetFrom_true {allow : Nat → Nat → Nat → Except Halt Bool}
    (hallow : ∀ i old new, allow i old new ≠ .ok false) {ok : Bool}
    (h : bitmapSetFrom allow state len index b = .ok (ok, b')) : ok = true := by
  induction len generalizing index b with
  | zero => cases h; rfl
  | succ len ih =>
    rw [bitmapSetFrom] at h
    obtain ⟨v, -, h⟩ := except_bind_eq_ok.1 h
    obtain ⟨r, hal, h⟩ := except_bind_eq_ok.1 h
    cases r with
    | true => exact ih h
    | false => exact absurd hal (hallow _ _ _)

/-- The loop of `bitmap_setContinous` runs behind its assertions. -/
theorem bitmapSetContinous_eq_ok {allow : Nat → Nat → Nat → Except Halt Bool} {r : Bool × Bitmap} :
    bitmapSetContinous allow b index len state = .ok r ↔
      (8 % b.bitsPerState = 0 ∧ state < b.maxState ∧ 0 < len ∧
        u32Sub (index + len) 1 < b.capacity) ∧ bitmapSetFrom allow state len index b = .ok r := by
  simp only [bitmapSetContinous, except_bind_eq_ok, kAssertE_eq_ok, and_assoc,
    exists_const, gt_iff_lt]

/-- `bitmapSetContinous` with a callback that never refuses: it sets its whole range, which lies
inside the bitmap, and the callback accepted every single change. -/
theorem bitmapSetContinous_spec {allow : Nat → Nat → Nat → Except Halt Bool} {ok : Bool}
    (hallow : ∀ i old new, allow i old new ≠ .ok false) (hp : b.Packed)
    (hcap : b.capacity < 2 ^ 32) (hi : index < 2 ^ 32)
    (h : bitmapSetContinous allow b index len state = .ok (ok, b')) :
    ok = true ∧ 0 < len ∧ index + len ≤ b.capacity ∧
      (∀ j, index ≤ j → j < index + len → allow j (b.stateAt j) state = .ok true) ∧
      (∀ j, b'.stateAt j = if index ≤ j ∧ j < index + len then state else b.stateAt j) ∧
      b'.size = b.size ∧ b'.bitsPerState = b.bitsPerState := by
  obtain ⟨⟨-, hst, hlen, hend⟩, hloop⟩ := bitmapSetContinous_eq_ok.1 h
  obtain rfl := bitmapSetFrom_true hallow hloop
  obtain ⟨hb, hrest⟩ := bitmapSetFrom_spec hp hst hcap hi hloop
  exact ⟨rfl, hlen, by omega, hrest⟩

/-- A loop that is allowed every change sets its whole range. -/
theorem bitmapSetFrom_of_allowed {allow : Nat → Nat → Nat → Except Halt Bool} (hp : b.Packed)
    (hstate : state < b.maxState) (hcap : b.capacity < 2 ^ 32) (hin : index + len ≤ b.capacity)
    (hallow : ∀ j, index ≤ j → j < index + len → allow j (b.stateAt j) state = .ok true) :
    ∃ b', bitmapSetFrom allow state len index b = .ok (true, b') := by
  induction len generalizing index b with
  | zero => exact ⟨b, rfl⟩
  | succ len ih =>
    have hget : bitmapGet b index = .ok (b.stateAt index) := by
      rw [bitmapGet_eq_ok]
      exact ⟨by rw [hp.eight_mod], by omega, rfl⟩
    have hnext : u32 (index + 1) = index + 1 := Nat.mod_eq_of_lt (by omega)
    obtain ⟨b', hb'⟩ := ih (hp.write index state) hstate hcap
      (show index + 1 + len ≤ (b.write index state).capacity by rw [write_capacity]; omega)
      fun j h1 h2 => by
        rw [stateAt_write hp hstate, if_neg (by omega)]
        exact hallow j (by omega) (by omega)
    refine ⟨b', ?_⟩
    rw [bitmapSetFrom, hget]
    simp only [bind, Except.bind, hallow index (Nat.le_refl _) (by omega), if_true, hnext]
    exact hb'

/-- A change that is allowed at every index is made. -/
theorem bitmapSetContinous_of_allowed {allow : Nat → Nat → Nat → Except Halt Bool} (hp : b.Packed)
    (hstate : state < b.maxState) (hcap : b.capacity < 2 ^ 32) (hlen : 0 < len)
    (hin : index + len ≤ b.capacity)
    (hallow : ∀ j, index ≤ j → j < index + len → allow j (b.stateAt j) state = .ok true) :
    ∃ b', bitmapSetContinous allow b index len state = .ok (true, b') := by
  obtain ⟨b', hb'⟩ := bitmapSetFrom_of_allowed hp hstate hcap hin hallow
  refine ⟨b', bitmapSetContinous_eq_ok.2 ⟨⟨hp.eight_mod, hstate, hlen, ?_⟩, hb'⟩⟩
  simp only [u32Sub]
  omega

/-! ## Refused changes -/

/-- The bitmap after the first `k` turns of the loop of `bitmap_setContinous`. -/
def Bitmap.writeRange (b : Bitmap) (index state : Nat) : Nat → Bitmap
  | 0 => b
  | k + 1 => (b.write index state).writeRange (index + 1) state k

namespace Bitmap

/-- The bytes of the array are bytes. -/
def IsBytes (b : Bitmap) : Prop := ∀ i, b.bitmap i < 256

/-- Writing a range leaves the layout. -/
@[simp] theorem writeRange_bitsPerState (k : Nat) :
    (b.writeRange index state k).bitsPerState = b.bitsPerState := by
  induction k generalizing b index with
  | zero => rfl
  | succ k ih => exact ih

/-- A range that is written reads as its state, and the rest as before. -/
theorem stateAt_writeRange (h : b.Packed) (hstate : state < b.maxState) (k j : Nat) :
    (b.writeRange index state k).stateAt j =
      if index ≤ j ∧ j < index + k then state else b.stateAt j := by
  induction k generalizing b index with
  | zero => rw [if_neg (by omega), writeRange]
  | succ k ih =>
    rw [writeRange, ih (h.write index state) hstate, stateAt_write h hstate]
    split_ifs <;> first | rfl | omega

/-- Writing the state that an index has changes no byte. -/
theorem write_same (hbytes : b.IsBytes) (hstate : state < b.maxState)
    (hsame : b.stateAt index = state) : b.write index state = b := by
  have hbitmap : (b.write index state).bitmap = b.bitmap := by
    funext i
    by_cases hi : i = b.byteIndex index
    · subst hi
      refine Nat.eq_of_testBit_eq fun n => ?_
      by_cases hn : n < 8
      · rw [testBit_write hstate hn]
        split_ifs with hplace
        · -- the bits of the place are those of the state
          have hle := hplace.1
          rw [← hsame, testBit_stateAt, Nat.add_sub_cancel' hle, decide_eq_true (by omega),
            Bool.and_true]
        · rfl
      · have hpow : 2 ^ 8 ≤ 2 ^ n := Nat.pow_le_pow_right (by decide) (Nat.le_of_not_lt hn)
        have hbyte : b.bitmap (b.byteIndex index) < 2 ^ n := Nat.lt_of_lt_of_le (hbytes _) hpow
        have hwritten : (b.write index state).bitmap (b.byteIndex index) < 2 ^ 8 := by
          simp only [write, if_pos]
          refine Nat.or_lt_two_pow (Nat.lt_of_le_of_lt Nat.and_le_left (hbytes _)) ?_
          exact Nat.mod_lt _ (by decide)
        rw [Nat.testBit_lt_two_pow hbyte, Nat.testBit_lt_two_pow (Nat.lt_of_lt_of_le hwritten hpow)]
    · exact if_neg hi
  show { b with bitmap := (b.write index state).bitmap } = b
  rw [hbitmap]

/-- The first `k` turns change no byte if and only if the states were set before. -/
theorem writeRange_bitmap_iff (h : b.Packed) (hbytes : b.IsBytes)
    (hstate : state < b.maxState) (k : Nat) :
    (b.writeRange index state k).bitmap = b.bitmap ↔ ∀ j < k, b.stateAt (index + j) = state := by
  constructor
  · intro heq j hj
    have hset : (b.writeRange index state k).stateAt (index + j) = _ :=
      stateAt_writeRange h hstate k (index + j)
    rw [if_pos ⟨Nat.le_add_right _ _, Nat.add_lt_add_left hj _⟩] at hset
    rw [← hset, stateAt, stateAt, byteIndex, byteIndex, bitIndex, bitIndex, stateMask, stateMask,
      statesPerByte, statesPerByte, writeRange_bitsPerState, heq]
  · intro hsame
    induction k generalizing index with
    | zero => rfl
    | succ k ih =>
      have hfirst : b.stateAt index = state := hsame 0 (Nat.succ_pos k)
      rw [writeRange, write_same hbytes hstate hfirst]
      refine ih fun j hj => ?_
      rw [Nat.add_right_comm]
      exact hsame (j + 1) (by omega)

/-- A bitmap whose states divide a byte is packed. -/
theorem packed_of_eight_mod (h : 8 % b.bitsPerState = 0) : b.Packed := by
  have hle : b.bitsPerState < 9 :=
    Nat.lt_succ_of_le (Nat.le_of_dvd (by decide) (Nat.dvd_of_mod_eq_zero h))
  have hall : ∀ n < 9, 8 % n = 0 → n = 1 ∨ n = 2 ∨ n = 4 ∨ n = 8 := by decide
  exact hall _ hle h

end Bitmap

/-- `allow` accepts the first `k` changes of a range and refuses the next one. -/
structure RefusesAt (allow : Nat → Nat → Nat → Except Halt Bool) (b : Bitmap)
    (index len state k : Nat) : Prop where
  lt : k < len
  allows : ∀ j < k, allow (index + j) (b.stateAt (index + j)) state = .ok true
  refuses : allow (index + k) (b.stateAt (index + k)) state = .ok false

/-- There is one first change that is refused. -/
theorem RefusesAt.unique {allow : Nat → Nat → Nat → Except Halt Bool} {k k' : Nat}
    (h : RefusesAt allow b index len state k) (h' : RefusesAt allow b index len state k') :
      k = k' := by
  rcases Nat.lt_trichotomy k k' with hlt | heq | hgt
  · have hallow := h'.allows k hlt
    rw [h.refuses] at hallow
    cases hallow
  · exact heq
  · have hallow := h.allows k' hgt
    rw [h'.refuses] at hallow
    cases hallow

/-- A loop that is refused a change made the changes before it. -/
theorem bitmapSetFrom_refused {allow : Nat → Nat → Nat → Except Halt Bool} (hp : b.Packed)
    (hstate : state < b.maxState) (hcap : b.capacity < 2 ^ 32)
    (h : bitmapSetFrom allow state len index b = .ok (false, b')) :
    ∃ k, RefusesAt allow b index len state k ∧ b' = b.writeRange index state k := by
  induction len generalizing index b with
  | zero => cases h
  | succ len ih =>
    obtain ⟨hlt, ⟨hallow, -, rfl⟩ | ⟨hallow, hrest⟩⟩ := bitmapSetFrom_succ hcap h
    · exact ⟨0, ⟨Nat.succ_pos _, fun j hj => absurd hj (Nat.not_lt_zero j), hallow⟩, rfl⟩
    · obtain ⟨k, hk, rfl⟩ := ih (hp.write index state) hstate hcap hrest
      have hold : ∀ j, (b.write index state).stateAt (index + 1 + j) =
        b.stateAt (index + (j + 1)) :=
        fun j => by
          rw [stateAt_write hp hstate, if_neg (by omega), Nat.add_right_comm, Nat.add_assoc]
      refine ⟨k + 1, ⟨Nat.succ_lt_succ hk.lt, fun j hj => ?_, ?_⟩, rfl⟩
      · cases j with
        | zero => exact hallow
        | succ j =>
          have hj' := hk.allows j (Nat.lt_of_succ_lt_succ hj)
          rwa [hold, Nat.add_right_comm, Nat.add_assoc] at hj'
      · have hk' := hk.refuses
        rwa [hold, Nat.add_right_comm, Nat.add_assoc] at hk'

/-- A refused call of `bitmap_setContinous` leaves the bitmap unchanged if and only if the states
before the refused one were set already. -/
theorem bitmapSetContinous_refused_iff {allow : Nat → Nat → Nat → Except Halt Bool}
    (hbytes : b.IsBytes)
    (hcap : b.capacity < 2 ^ 32)
    (h : bitmapSetContinous allow b index len state = .ok (false, b')) :
    b'.bitmap = b.bitmap ↔
      ∃ k, RefusesAt allow b index len state k ∧ ∀ j < k, b.stateAt (index + j) = state := by
  obtain ⟨⟨height, hstate, -, -⟩, hloop⟩ := bitmapSetContinous_eq_ok.1 h
  have hp := packed_of_eight_mod height
  obtain ⟨k, hk, rfl⟩ := bitmapSetFrom_refused hp hstate hcap hloop
  rw [writeRange_bitmap_iff hp hbytes hstate]
  constructor
  · exact fun hsame => ⟨k, hk, hsame⟩
  · rintro ⟨k', hk', hsame⟩
    obtain rfl := hk.unique hk'
    exact hsame

/-- A callback that refuses the change of one index. -/
def allowExcept (index : Nat) : Nat → Nat → Nat → Except Halt Bool :=
    fun i _ _ => .ok (decide (i ≠ index))

/-- When the first change is refused, the bitmap stays as it was. -/
theorem bitmapSetContinous_refused_first : ∃ b',
    bitmapSetContinous (allowExcept 5) testBitmap 5 2 1 = .ok (false, b') ∧
      b'.bitmap = testBitmap.bitmap := by
  have hrun : bitmapSetContinous (allowExcept 5) testBitmap 5 2 1 = .ok (false, testBitmap) := rfl
  have hbyte : 0xFF < 256 := by decide
  have hrefused : RefusesAt (allowExcept 5) testBitmap 5 2 1 0 :=
    ⟨by decide, fun j hj => absurd hj (Nat.not_lt_zero j), rfl⟩
  exact ⟨testBitmap, hrun, (bitmapSetContinous_refused_iff (fun _ => hbyte) (by decide) hrun).2
    ⟨0, hrefused, fun j hj => absurd hj (Nat.not_lt_zero j)⟩⟩

/-- When the second change is refused, the first one is made. -/
theorem refused_change_writes : ∃ b',
    bitmapSetContinous (allowExcept 6) testBitmap 5 2 1 = .ok (false, b') ∧
      b'.bitmap ≠ testBitmap.bitmap := by
  refine ⟨testBitmap.write 5 1, rfl, fun heq => ?_⟩
  have hbyte : (testBitmap.write 5 1).bitmap 1 ≠ testBitmap.bitmap 1 := by decide
  exact hbyte (congrFun heq 1)

/-- A change of a range that `allow` accepts is made, and `bitmap_get` then returns the new state
inside the range and what it returned before at every other index. A range that is not inside the
bitmap ends in a failed assertion. -/
theorem bitmapSetContinous_get {allow : Nat → Nat → Nat → Except Halt Bool} (hp : b.Packed)
    (hstate : state < b.maxState) (hlen : 0 < len) (hindex : index < b.capacity)
    (hallow : ∀ j, index ≤ j → j < index + len → allow j (b.stateAt j) state = .ok true) :
    (index + len ≤ b.capacity → ∃ b', bitmapSetContinous allow b index len state = .ok (true, b')) ∧
      ∀ ok b', bitmapSetContinous allow b index len state = .ok (ok, b') →
        ok = true ∧ index + len ≤ b.capacity ∧
          (∀ j, index ≤ j → j < index + len → bitmapGet b' j = .ok state) ∧
          ∀ j, j < index ∨ index + len ≤ j → bitmapGet b' j = bitmapGet b j := by
  have hcap := b.capacity_lt
  refine ⟨fun hin => bitmapSetContinous_of_allowed hp hstate hcap hlen hin hallow,
    fun ok b' h => ?_⟩
  obtain ⟨-, hloop⟩ := bitmapSetContinous_eq_ok.1 h
  cases ok with
  | false =>
    obtain ⟨k, hk, -⟩ := bitmapSetFrom_refused hp hstate hcap hloop
    have hrefused := hk.refuses
    rw [hallow (index + k) (Nat.le_add_right _ _) (Nat.add_lt_add_left hk.lt _)] at hrefused
    cases hrefused
  | true =>
    obtain ⟨hinside, -, hst, hsize, hbits⟩ := bitmapSetFrom_spec hp hstate hcap (by omega) hloop
    have hcap' : b'.capacity = b.capacity := capacity_congr hsize hbits
    refine ⟨rfl, hinside.resolve_left (by omega), fun j h1 h2 => ?_, fun j hj => ?_⟩
    · refine bitmapGet_eq_ok.2 ⟨by rw [hbits]; exact hp.eight_mod, by omega, ?_⟩
      rw [hst, if_pos ⟨h1, h2⟩]
    · have hkept : b'.stateAt j = b.stateAt j := by rw [hst, if_neg (by omega)]
      rw [bitmapGet, bitmapGet, hkept, hbits, hcap']

/-- Two states in the middle of the bitmap of the tests are set. -/
theorem bitmapSetContinous_get_testBitmap : ∃ b',
    bitmapSetContinous (fun _ _ _ => .ok true) testBitmap 3 2 1 = .ok (true, b') ∧
      (∀ j, 3 ≤ j → j < 5 → bitmapGet b' j = .ok 1) ∧
      ∀ j, j < 3 ∨ 5 ≤ j → bitmapGet b' j = bitmapGet testBitmap j := by
  obtain ⟨hruns, hgets⟩ := @bitmapSetContinous_get testBitmap 3 2 1
    (fun _ _ _ => .ok true) (.inr (.inl rfl)) (by decide) (by decide) (by decide)
    fun _ _ _ => rfl
  obtain ⟨b', hrun⟩ := hruns (by decide)
  obtain ⟨-, -, hget⟩ := hgets true b' hrun
  exact ⟨b', hrun, hget⟩

end MeghaOS
