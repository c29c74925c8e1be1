import MeghaOS.Gdt

/-!
# What editing the GDT writes

An edit stores the fields that it is given, so the descriptor reads back as its arguments with the
limit cut to twenty bits and the flags to four. The index is tested with `<=` against the number of
descriptors that the table has room for, so one more descriptor can be appended than it holds, and
its eight bytes are the first ones of the next page.
-/

namespace MeghaOS

open Exec

/-! ## Descriptors as the processor reads them -/

/-- What a descriptor says. -/
structure Segment where
  base : Nat
  limit : Nat
  access : UInt8
  flags : UInt8
  deriving DecidableEq

/-- The descriptor at an index of the table. -/
def segmentAt (mem : Memory) (index : Nat) : Segment :=
  let byte i := mem (memStartGdt + sizeofGdtDescriptor * index + i)
  { base :=
      (byte 2).toNat + 2 ^ 8 * (byte 3).toNat + 2 ^ 16 * (byte 4).toNat + 2 ^ 24 * (byte 7).toNat
    limit := (byte 0).toNat + 2 ^ 8 * (byte 1).toNat + 2 ^ 16 * (byte 6 &&& (0x0F : UInt8)).toNat
    access := byte 5
    flags := byte 6 >>> 4 }

/-- The descriptor that an edit is asked for. -/
def segmentOf (base limit : UInt32) (access flags : UInt8) : Segment :=
  { base := base.toNat, limit := limit.toNat % 2 ^ 20, access, flags := flags &&& (0x0F : UInt8) }

/-- The addresses of a descriptor. -/
def Segment.Bytes (index a : Nat) : Prop :=
  memStartGdt + sizeofGdtDescriptor * index ≤ a ∧
    a < memStartGdt + sizeofGdtDescriptor * index + sizeofGdtDescriptor

/-- A descriptor is what its eight bytes are. -/
theorem segmentAt_congr {mem mem' : Memory} {index : Nat}
    (h : ∀ a, Segment.Bytes index a → mem' a = mem a) :
      segmentAt mem' index = segmentAt mem index := by
  have hbyte : ∀ i < 8, mem' (memStartGdt + sizeofGdtDescriptor * index + i) =
      mem (memStartGdt + sizeofGdtDescriptor * index + i) :=
    fun i hi => h _ ⟨Nat.le_add_right _ _, Nat.add_lt_add_left hi _⟩
  unfold segmentAt
  simp only [hbyte 0 (by decide), hbyte 1 (by decide), hbyte 2 (by decide), hbyte 3 (by decide),
    hbyte 4 (by decide), hbyte 5 (by decide), hbyte 6 (by decide), hbyte 7 (by decide)]

/-! ## Fields and their bytes -/

/-- The low half of a byte that is stored half by half. -/
theorem lowBits_stored (old low high : UInt8) :
    ((old &&& (0xF0 : UInt8) ||| low &&& (0x0F : UInt8)) &&& (0x0F : UInt8) ||| high <<< 4)
      &&& (0x0F : UInt8) =
      low &&& (0x0F : UInt8) := by
  apply UInt8.toBitVec_inj.1
  ext i hi
  rcases i with _ | _ | _ | _ | _ | _ | _ | _ | i <;> simp
  omega

/-- Its high half. -/
theorem highBits_stored (old low high : UInt8) :
    ((old &&& (0xF0 : UInt8) ||| low &&& (0x0F : UInt8)) &&& (0x0F : UInt8) ||| high <<< 4) >>> 4 =
      high &&& (0x0F : UInt8) := by
  apply UInt8.toBitVec_inj.1
  ext i hi
  rcases i with _ | _ | _ | _ | _ | _ | _ | _ | i <;> simp
  omega

/-- A word is its two bytes. -/
theorem toUInt8_toNat_add (v : UInt16) :
    v.toUInt8.toNat + 2 ^ 8 * (v >>> 8).toUInt8.toNat = v.toNat := by
  have hlt := v.toNat_lt
  simp [Nat.shiftRight_eq_div_pow]
  omega

/-- The low word of a value, as `kgdt_edit` cuts it out. -/
theorem lowWord_toNat (v : UInt32) : (v &&& (0xFFFF : UInt32)).toUInt16.toNat =
    v.toNat % 2 ^ 16 := by
  simp [Nat.and_two_pow_sub_one_eq_mod _ 16]

/-- A byte of it. -/
theorem byte_toNat (v k : UInt32) :
    ((v >>> k).toUInt8 &&& (0xFF : UInt8)).toNat = v.toNat / 2 ^ (k.toNat % 32) % 2 ^ 8 := by
  simp [Nat.shiftRight_eq_div_pow, Nat.and_two_pow_sub_one_eq_mod _ 8]

/-- The four bits of the limit. -/
theorem nibble_toNat (v : UInt32) :
    ((v >>> 16 &&& (0xF : UInt32)).toUInt8 &&& (0x0F : UInt8)).toNat = v.toNat / 2 ^
      16 % 2 ^ 4 := by
  simp [Nat.shiftRight_eq_div_pow, Nat.and_two_pow_sub_one_eq_mod _ 4]

/-! ## The stores of an edit -/

section Stores

variable {p : Nat} (f : Unit → Exec GdtState Unit) (s : GdtState)

/-- What a store leaves for what follows: one of a byte. -/
theorem storeU8_bind_apply (value : UInt8) :
    (storeU8 p value >>= f) s = f () { s with mem := Function.update s.mem p value } := rfl

/-- One of a word. -/
theorem storeU16_bind_apply (value : UInt16) :
    (storeU16 p value >>= f) s = f () { s with
      mem := Function.update (Function.update s.mem p value.toUInt8) (p + 1)
        (value >>> 8).toUInt8 } := rfl

/-- One of the low half of a byte. -/
theorem storeLowBits_bind_apply (value : UInt8) :
    (storeLowBits p value >>= f) s = f () { s with
      mem := Function.update s.mem p (s.mem p &&& (0xF0 : UInt8) ||| value &&& (0x0F : UInt8)) } :=
        rfl

/-- One of the high half. -/
theorem storeHighBits_bind_apply (value : UInt8) :
    (storeHighBits p value >>= f) s = f () { s with
      mem := Function.update s.mem p (s.mem p &&& (0x0F : UInt8) ||| value <<< 4) } := rfl

end Stores

/-- The memory after the stores of an edit, in their order. -/
def storedFields (mem : Memory) (d : Nat) (limitLow baseLow : UInt16)
    (limitHigh baseMiddle baseHigh access flags : UInt8) : Memory :=
  let mem1 := Function.update (Function.update mem d limitLow.toUInt8) (d + 1)
    (limitLow >>> 8).toUInt8
  let mem2 := Function.update mem1 (d + 6)
    (mem1 (d + 6) &&& (0xF0 : UInt8) ||| limitHigh &&& (0x0F : UInt8))
  let mem3 := Function.update (Function.update mem2 (d + 2) baseLow.toUInt8) (d + 2 + 1)
    (baseLow >>> 8).toUInt8
  let mem4 := Function.update mem3 (d + 4) baseMiddle
  let mem5 := Function.update mem4 (d + 7) baseHigh
  let mem6 := Function.update mem5 (d + 5) access
  Function.update mem6 (d + 6) (mem6 (d + 6) &&& (0x0F : UInt8) ||| flags <<< 4)

/-- Each byte of the descriptor is stored by one of the fields, and the seventh one by two. -/
theorem storedFields_apply (mem : Memory) (d a : Nat) (limitLow baseLow : UInt16)
    (limitHigh baseMiddle baseHigh access flags : UInt8) :
    storedFields mem d limitLow baseLow limitHigh baseMiddle baseHigh access flags a =
      if a = d then limitLow.toUInt8
      else if a = d + 1 then (limitLow >>> 8).toUInt8
      else if a = d + 2 then baseLow.toUInt8
      else if a = d + 3 then (baseLow >>> 8).toUInt8
      else if a = d + 4 then baseMiddle
      else if a = d + 5 then access
      else if a = d + 6 then
        (mem (d + 6) &&& (0xF0 : UInt8) ||| limitHigh &&& (0x0F : UInt8)) &&& (0x0F : UInt8)
          ||| flags <<< 4
      else if a = d + 7 then baseHigh
      else mem a := by
  simp only [storedFields, Function.update_apply]
  grind

/-- The memory after an edit of the descriptor at an address. -/
def editedMemory (mem : Memory) (d : Nat) (base limit : UInt32) (access flags : UInt8) : Memory :=
  storedFields mem d (limit &&& (0xFFFF : UInt32)).toUInt16 (base &&& (0xFFFF : UInt32)).toUInt16
    (limit >>> 16 &&& (0xF : UInt32)).toUInt8 ((base >>> 16).toUInt8 &&& (0xFF : UInt8))
    ((base >>> 24).toUInt8 &&& (0xFF : UInt8)) access (flags &&& (0xF : UInt8))

/-- `kgdt_edit` writes the bytes of its descriptor only. -/
theorem editedMemory_of_ne {mem : Memory} {d a : Nat} {base limit : UInt32} {access flags : UInt8}
    (ha : ¬ (d ≤ a ∧ a < d + sizeofGdtDescriptor)) :
      editedMemory mem d base limit access flags a = mem a := by
  rw [show sizeofGdtDescriptor = 8 from rfl] at ha
  rw [editedMemory, storedFields_apply, if_neg (by omega), if_neg (by omega), if_neg (by omega),
    if_neg (by omega), if_neg (by omega), if_neg (by omega), if_neg (by omega), if_neg (by omega)]

/-- What is stored reads back as what was asked for. -/
theorem segmentAt_editedMemory (mem : Memory) (index : Nat) (base limit : UInt32)
    (access flags : UInt8) :
    segmentAt (editedMemory mem (memStartGdt + sizeofGdtDescriptor * index) base limit access flags)
      index =
      segmentOf base limit access flags := by
  generalize hd : memStartGdt + sizeofGdtDescriptor * index = d
  have hbase := toUInt8_toNat_add (base &&& (0xFFFF : UInt32)).toUInt16
  have hlimit := toUInt8_toNat_add (limit &&& (0xFFFF : UInt32)).toUInt16
  have hmiddle : ((base >>> 16).toUInt8 &&& (0xFF : UInt8)).toNat = base.toNat / 2 ^ 16 % 2 ^ 8 :=
    byte_toNat base 16
  have hhigh : ((base >>> 24).toUInt8 &&& (0xFF : UInt8)).toNat = base.toNat / 2 ^ 24 % 2 ^ 8 :=
    byte_toNat base 24
  have hnibble := nibble_toNat limit
  have hlt := base.toNat_lt
  rw [lowWord_toNat] at hbase hlimit
  rw [segmentAt, segmentOf, hd, Segment.mk.injEq]
  simp only [editedMemory, storedFields_apply, Nat.add_right_inj, Nat.add_zero,
    Nat.add_eq_left, reduceIte,
    OfNat.ofNat_ne_zero, OfNat.ofNat_ne_one, one_ne_zero, Nat.reduceEqDiff, lowBits_stored,
      highBits_stored]
  refine ⟨?_, ?_, trivial, ?_⟩
  · rw [hbase, hmiddle, hhigh]
    omega
  · rw [hlimit, hnibble]
    omega
  · rw [UInt8.and_assoc]
    rfl

/-- An edit that returns has an index that was tested, and stores one descriptor. -/
theorem kgdtEdit_eq_ok {gdtIndex : UInt16} {base limit : UInt32} {access flags : UInt8}
    {s s' : GdtState} :
    kgdtEdit gdtIndex base limit access flags s = .ok ((), s') ↔
      (minGdtIndex ≤ gdtIndex ∧ gdtIndex ≤ s.sGdtCount ∧ gdtIndex ≤ maxGdtDescCount) ∧
      s' = { s with
        mem := editedMemory s.mem (memStartGdt + sizeofGdtDescriptor * gdtIndex.toNat) base
          limit access flags
        sGdt := memStartGdt
        sGdtCount := if gdtIndex = s.sGdtCount then s.sGdtCount + 1 else s.sGdtCount } := by
  by_cases hguard : minGdtIndex ≤ gdtIndex ∧ gdtIndex ≤ s.sGdtCount ∧ gdtIndex ≤ maxGdtDescCount
  · have hrun : kgdtEdit gdtIndex base limit access flags s = .ok ((), { s with
        mem := editedMemory s.mem (memStartGdt + sizeofGdtDescriptor * gdtIndex.toNat) base
          limit access flags
        sGdt := memStartGdt
        sGdtCount := if gdtIndex = s.sGdtCount then s.sGdtCount + 1 else s.sGdtCount }) := by
      unfold kgdtEdit
      rw [modify_bind_apply, get_bind_apply, if_neg (not_not_intro hguard)]
      simp only [storeU8_bind_apply, storeU16_bind_apply, storeLowBits_bind_apply,
        storeHighBits_bind_apply]
      by_cases heq : gdtIndex = s.sGdtCount
      · rw [when_true heq, modify_apply, if_pos heq]
        rfl
      · rw [when_false heq, pure_apply, if_neg heq]
        rfl
    rw [hrun]
    simp [hguard, eq_comm]
  · have hrun : ∃ e, kgdtEdit gdtIndex base limit access flags s = .error e := by
      unfold kgdtEdit
      rw [modify_bind_apply, get_bind_apply, if_pos hguard]
      exact ⟨_, rfl⟩
    obtain ⟨e, he⟩ := hrun
    simp [he, hguard]

/-! ## Sequences of calls -/

/-- The states that the calls lead to. A call that panics ends the run, so all of these returned. -/
inductive GdtRun (s₀ : GdtState) : List GdtCall → GdtState → Prop
  | start : GdtRun s₀ [] s₀
  | call {calls : List GdtCall} {s s' : GdtState} {c : GdtCall} (hrun : GdtRun s₀ calls s)
      (hcall : gdtCall c s = .ok ((), s')) : GdtRun s₀ (calls ++ [c]) s'

/-- The calls edit the descriptor at an index. -/
def Edits (calls : List GdtCall) (index : UInt16) : Prop :=
  ∃ base limit access flags, GdtCall.edit index base limit access flags ∈ calls

/-- What a run from the state `s₀` is to keep. -/
structure GdtSound (s₀ : GdtState) (calls : List GdtCall) (s : GdtState) : Prop where
  /-- Every descriptor written lies in the table. -/
  inside : ∀ index, Edits calls index → ∀ a, Segment.Bytes index.toNat a →
    memStartGdt ≤ a ∧ a < memStartGdt + sizeofGdtDescriptor * maxGdtDescCount.toNat
  /-- The rest of the memory is not written. -/
  outside : ∀ a, a < memStartGdt ∨ memStartGdt + sizeofGdtDescriptor * maxGdtDescCount.toNat ≤ a →
    s.mem a = s₀.mem a
  /-- The first three descriptors are not written. -/
  first : ∀ index < minGdtIndex, ¬ Edits calls index ∧ ∀ a, Segment.Bytes index.toNat a →
    s.mem a = s₀.mem a
  count_le : s.sGdtCount ≤ maxGdtDescCount
  /-- A descriptor is what its last edit asked for. -/
  decodes : ∀ before after index base limit access flags,
    calls = before ++ .edit index base limit access flags :: after → ¬ Edits after index →
      segmentAt s.mem index.toNat = segmentOf base limit access flags

/-- What holds of every run, in which one descriptor more than the table has may be written. -/
structure GdtReached (s₀ : GdtState) (calls : List GdtCall) (s : GdtState) : Prop where
  min_le : ∀ index, Edits calls index → minGdtIndex ≤ index
  lt_count : ∀ index, Edits calls index → index < s.sGdtCount
  count_le : s.sGdtCount ≤ maxGdtDescCount + 1
  /-- Once there is one descriptor too many, it was edited. -/
  last : maxGdtDescCount < s.sGdtCount → Edits calls maxGdtDescCount
  kept : ∀ a, (∀ index, Edits calls index → ¬ Segment.Bytes index.toNat a) → s.mem a = s₀.mem a
  decodes : ∀ before after index base limit access flags,
    calls = before ++ .edit index base limit access flags :: after → ¬ Edits after index →
      segmentAt s.mem index.toNat = segmentOf base limit access flags

section Calls

variable {calls : List GdtCall} {s₀ s s' : GdtState} {i index : UInt16} {base limit : UInt32}
  {access flags : UInt8}

/-- An index is edited in one part of the run or in the other. -/
theorem edits_append {more : List GdtCall} : Edits (calls ++ more) index ↔ Edits calls index ∨
    Edits more index := by
  simp only [Edits, List.mem_append, exists_or]

/-- A call edits its own index. -/
theorem edits_edit : Edits [.edit index base limit access flags] i ↔ i = index := by
  simp [Edits]

/-- `kgdt_write` edits none. -/
theorem not_edits_write : ¬ Edits [.write] index := by
  simp [Edits]

/-- The last edit of a descriptor is the last call, or it is the last edit in what comes before. -/
theorem lastEdit_append_cases {c : GdtCall} {before after : List GdtCall}
    (h : calls ++ [c] = before ++ .edit index base limit access flags :: after) :
    c = .edit index base limit access flags ∧ after = [] ∨
      ∃ after', after = after' ++ [c] ∧ calls = before ++ .edit index base limit access
        flags :: after' := by
  rcases List.eq_nil_or_concat after with rfl | ⟨after', c', rfl⟩
  · obtain ⟨-, hc⟩ := List.append_inj' h rfl
    exact .inl ⟨(List.cons.inj hc).1, rfl⟩
  · have h' : calls ++ [c] = (before ++ .edit index base limit access flags :: after') ++ [c'] := by
      rw [h]; simp
    obtain ⟨hcalls, hc⟩ := List.append_inj' h' rfl
    obtain rfl := (List.cons.inj hc).1
    exact .inr ⟨after', by simp, hcalls⟩

/-- Two descriptors share no byte. -/
theorem Segment.Bytes.unique {j k a : Nat} (hj : Segment.Bytes j a) (hk : Segment.Bytes k a) :
    j = k := by
  simp only [Segment.Bytes, sizeofGdtDescriptor] at hj hk
  omega

/-- Nothing is edited at the start. -/
theorem GdtReached.start (hcount : s₀.sGdtCount ≤ maxGdtDescCount) : GdtReached s₀ [] s₀ where
  min_le := by simp [Edits]
  lt_count := by simp [Edits]
  count_le := UInt16.le_trans hcount (by decide)
  last hlt := absurd hlt (UInt16.not_lt.2 hcount)
  kept _ _ := rfl
  decodes := by simp

/-- `kgdt_write` edits nothing. -/
theorem GdtReached.write (h : GdtReached s₀ calls s) (hcall : gdtCall .write s = .ok ((), s')) :
    GdtReached s₀ (calls ++ [.write]) s' := by
  obtain rfl : { s with gdtr := _ } = s' := congrArg Prod.snd (Except.ok.inj hcall)
  have hedits {i} : Edits (calls ++ [.write]) i ↔ Edits calls i :=
    by simp [edits_append, not_edits_write]
  refine ⟨fun i hi => h.min_le i (hedits.1 hi), fun i hi => h.lt_count i (hedits.1 hi), h.count_le,
    fun hlt => hedits.2 (h.last hlt), fun a ha => h.kept a fun i hi => ha i (hedits.2 hi), ?_⟩
  intro before after index base limit access flags heq hafter
  rcases lastEdit_append_cases heq with ⟨hc, -⟩ | ⟨after', rfl, hcalls⟩
  · cases hc
  · exact h.decodes before after' index base limit access flags hcalls
      fun hi => hafter (edits_append.2 (.inl hi))

/-- The number of descriptors after an edit that is let through. -/
theorem nextCount_spec {count : UInt16} (hcount : count ≤ maxGdtDescCount + 1) (hle : index ≤ count)
    (hmax : index ≤ maxGdtDescCount) :
    index < (if index = count then count + 1 else count) ∧
    count ≤ (if index = count then count + 1 else count) ∧
    (if index = count then count + 1 else count) ≤ maxGdtDescCount + 1 ∧
    (maxGdtDescCount < (if index = count then count + 1 else count) →
      maxGdtDescCount < count ∨ maxGdtDescCount = index) := by
  simp only [UInt16.le_iff_toNat_le, UInt16.lt_iff_toNat_lt, ← UInt16.toNat_inj,
    show (maxGdtDescCount + 1).toNat = 513 from rfl, show maxGdtDescCount.toNat = 512 from rfl] at *
  split
  · have hsucc : (count + 1).toNat = count.toNat + 1 := by
      rw [UInt16.toNat_add, show (1 : UInt16).toNat = 1 from rfl, Nat.mod_eq_of_lt (by omega)]
    omega
  · omega

/-- `kgdt_edit` edits its descriptor, and the table may grow by one. -/
theorem GdtReached.edit (h : GdtReached s₀ calls s)
    (hcall : gdtCall (.edit index base limit access flags) s = .ok ((), s')) :
    GdtReached s₀ (calls ++ [.edit index base limit access flags]) s' := by
  obtain ⟨⟨hmin, hle, hmax⟩, rfl⟩ := kgdtEdit_eq_ok.1 hcall
  have hedits {i} : Edits (calls ++ [.edit index base limit access flags]) i ↔ Edits calls i ∨
      i = index := by
    rw [edits_append, edits_edit]
  have hother {a} (ha : ¬ Segment.Bytes index.toNat a) :
      editedMemory s.mem (memStartGdt + sizeofGdtDescriptor * index.toNat) base limit access flags
        a = s.mem a :=
    editedMemory_of_ne ha
  obtain ⟨hlt, hgrow, hcount, hlast⟩ := nextCount_spec h.count_le hle hmax
  refine ⟨?_, ?_, hcount, fun hmany => ?_, fun a ha => ?_, ?_⟩
  · intro i hi
    rcases hedits.1 hi with hi | rfl
    · exact h.min_le i hi
    · exact hmin
  · intro i hi
    rcases hedits.1 hi with hi | rfl
    · exact UInt16.lt_of_lt_of_le (h.lt_count i hi) hgrow
    · exact hlt
  · rcases hlast hmany with hbefore | heq
    · exact hedits.2 (.inl (h.last hbefore))
    · exact hedits.2 (.inr heq)
  · exact (hother (ha index (hedits.2 (.inr rfl)))).trans
      (h.kept a fun i hi => ha i (hedits.2 (.inl hi)))
  · intro before after i b l acc fl heq hafter
    rcases lastEdit_append_cases heq with ⟨hc, rfl⟩ | ⟨after', rfl, hcalls⟩
    · obtain ⟨rfl, rfl, rfl, rfl, rfl⟩ := GdtCall.edit.inj hc
      exact segmentAt_editedMemory _ _ _ _ _ _
    · -- an edit of another descriptor leaves this one alone
      rw [edits_append, edits_edit, not_or] at hafter
      have hsame := h.decodes before after' i b l acc fl hcalls hafter.1
      rw [← hsame]
      exact segmentAt_congr fun a ha => hother fun ha' =>
        hafter.2 (UInt16.toNat_inj.1 (ha.unique ha'))

end Calls

/-- Every run from a table with room keeps what one call keeps. -/
theorem GdtRun.reached {calls : List GdtCall} {s₀ s : GdtState} (hrun : GdtRun s₀ calls s)
    (hcount : s₀.sGdtCount ≤ maxGdtDescCount) : GdtReached s₀ calls s := by
  induction hrun with
  | start => exact .start hcount
  | @call calls s s' c _ hcall ih =>
    cases c with
    | edit index base limit access flags => exact ih.edit hcall
    | write => exact ih.write hcall

/-- A run is sound when it appends no descriptor past the end of the table. -/
theorem gdtRun_sound_iff {mem : Memory} {calls : List GdtCall} {s : GdtState}
    (hrun : GdtRun (.static mem) calls s) :
    GdtSound (.static mem) calls s ↔ ¬ Edits calls maxGdtDescCount := by
  have h := hrun.reached (show minGdtIndex ≤ maxGdtDescCount by decide)
  constructor
  · intro hsound hedits
    have hlt := h.lt_count _ hedits
    exact absurd hsound.count_le (UInt16.not_le.2 hlt)
  · intro hnot
    have hcount : s.sGdtCount ≤ maxGdtDescCount := UInt16.not_lt.1 fun hlt => hnot (h.last hlt)
    have hlt (index) (hi : Edits calls index) : index < maxGdtDescCount :=
      UInt16.lt_of_lt_of_le (h.lt_count index hi) hcount
    have hinside (index) (hi : Edits calls index) (a) (ha : Segment.Bytes index.toNat a) :
        memStartGdt + sizeofGdtDescriptor * minGdtIndex.toNat ≤ a ∧
          a < memStartGdt + sizeofGdtDescriptor * maxGdtDescCount.toNat := by
      have hmin := UInt16.le_iff_toNat_le.1 (h.min_le index hi)
      have hmax := UInt16.lt_iff_toNat_lt.1 (hlt index hi)
      obtain ⟨hge, hle⟩ := ha
      simp only [sizeofGdtDescriptor] at hge hle ⊢
      omega
    refine ⟨fun index hi a ha => ?_, fun a ha => h.kept a fun index hi hbyte => ?_,
      fun index hlow => ?_,
      hcount, h.decodes⟩
    · have := hinside index hi a ha
      omega
    · have := hinside index hi a hbyte
      omega
    · refine ⟨fun hi => absurd (h.min_le index hi) (UInt16.not_le.2 hlow), fun a ha => ?_⟩
      refine h.kept a fun i hi hbyte => ?_
      have heq := UInt16.toNat_inj.1 (ha.unique hbyte)
      exact absurd (heq ▸ h.min_le i hi) (UInt16.not_le.2 hlow)

/-- So many descriptors appended to the first three. -/
def gdtAppends (n : Nat) : List GdtCall :=
  (List.range n).map fun i => .edit (.ofNat (minGdtIndex.toNat + i)) 0 0 0 0

/-- One more call. -/
theorem gdtAppends_succ (n : Nat) :
    gdtAppends (n + 1) = gdtAppends n ++ [.edit (.ofNat (minGdtIndex.toNat + n)) 0 0 0 0] := by
  simp [gdtAppends, List.range_succ]

/-- These calls edit the indices from the first one on. -/
theorem edits_gdtAppends {n : Nat} {index : UInt16} :
    Edits (gdtAppends n) index ↔ ∃ i < n, index = .ofNat (minGdtIndex.toNat + i) := by
  induction n with
  | zero => simp [Edits, gdtAppends]
  | succ n ih =>
    rw [gdtAppends_succ, edits_append, edits_edit, ih]
    simp only [Nat.lt_succ_iff_lt_or_eq, or_and_right, exists_or, exists_eq_left]

/-- The table can be filled, and one more descriptor appended. -/
theorem gdtRun_gdtAppends (mem : Memory) {n : Nat}
    (hn : minGdtIndex.toNat + n ≤ maxGdtDescCount.toNat + 1) :
    ∃ s, GdtRun (.static mem) (gdtAppends n) s ∧ s.sGdtCount = .ofNat (minGdtIndex.toNat + n) := by
  induction n with
  | zero => exact ⟨_, .start, rfl⟩
  | succ n ih =>
    obtain ⟨s, hrun, hcount⟩ := ih (by omega)
    simp only [show minGdtIndex.toNat = 3 from rfl, show maxGdtDescCount.toNat = 512 from rfl] at *
    have hcalls : gdtAppends (n + 1) = gdtAppends n ++ [.edit (.ofNat (3 + n)) 0 0 0 0] :=
      gdtAppends_succ n
    have hguard : minGdtIndex ≤ .ofNat (3 + n) ∧ UInt16.ofNat (3 + n) ≤ s.sGdtCount ∧
        .ofNat (3 + n) ≤ maxGdtDescCount := by
      rw [hcount]
      simp only [UInt16.le_iff_toNat_le, UInt16.toNat_ofNat',
        show maxGdtDescCount.toNat = 512 from rfl,
        show minGdtIndex.toNat = 3 from rfl]
      omega
    have hcall : gdtCall (.edit (.ofNat (3 + n)) 0 0 0 0) s = .ok ((), _) :=
      kgdtEdit_eq_ok.2 ⟨hguard, rfl⟩
    refine ⟨_, hcalls ▸ hrun.call hcall, ?_⟩
    rw [if_pos hcount.symm, hcount, ← UInt16.toNat_inj]
    simp
    omega

/-- Three descriptors are appended, for the TSS and the two user segments. -/
theorem gdtRun_sound_three :
    ∃ s, GdtRun (.static fun _ => 0) (gdtAppends 3) s ∧ GdtSound (.static fun _ => 0)
    (gdtAppends 3) s := by
  obtain ⟨s, hrun, -⟩ := gdtRun_gdtAppends (fun _ => 0) (n := 3) (by decide)
  refine ⟨s, hrun, (gdtRun_sound_iff hrun).2 fun hedits => ?_⟩
  obtain ⟨i, hi, heq⟩ := edits_gdtAppends.1 hedits
  exact absurd heq ((show ∀ i < 3, maxGdtDescCount ≠ .ofNat (minGdtIndex.toNat + i) by decide) i hi)

/-- The descriptor with the index 512 is let through after 509 others, and its first byte is the
first one of the page with the boot information. -/
theorem gdtRun_past_end :
    ∃ s, GdtRun (.static fun _ => 0xAA) (gdtAppends 510) s ∧
      s.sGdtCount = maxGdtDescCount + 1 ∧ s.mem 0xC0002000 = 0 ∧
      ¬ GdtSound (.static fun _ => 0xAA) (gdtAppends 510) s := by
  obtain ⟨s, hrun, hcount⟩ := gdtRun_gdtAppends (fun _ => 0xAA) (n := 510) (by decide)
  have h := hrun.reached (show minGdtIndex ≤ maxGdtDescCount by decide)
  have hdecodes := h.decodes (gdtAppends 509) [] maxGdtDescCount 0 0 0 0 (gdtAppends_succ 509)
    (by simp [Edits])
  have hlimit : (segmentAt s.mem maxGdtDescCount.toNat).limit = 0 := congrArg Segment.limit hdecodes
  have hbyte : (s.mem 0xC0002000).toNat = 0 := by
    have hsum : (s.mem 0xC0002000).toNat + _ + _ = 0 := hlimit
    omega
  refine ⟨s, hrun, hcount, UInt8.toNat_inj.1 hbyte, fun hsound => ?_⟩
  exact absurd hsound.count_le (by rw [hcount]; decide)

end MeghaOS
