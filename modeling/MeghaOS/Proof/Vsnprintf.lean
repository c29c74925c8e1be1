import MeghaOS.Proof.Printk

/-!
# What the formatters write

`Sent` says what a text leaves in a buffer when every `%%` of it has room: its characters as far as
they fit, and nothing written elsewhere. `Reached` holds with or without that condition, and says
how far the destination has moved at least, so that a `%%` without room moves it behind the buffer.
The terminating `NUL` is written there.
-/

namespace MeghaOS

open Exec

variable {s s' s₀ : Printf} {chunks : List (Piece × List Char)} {text : List Char}
  {size pos : Nat} {start : Int}

/-! ## Texts that have room -/

/-- The state after the characters `text` were sent from the offset `start` on. -/
structure Sent (size : Nat) (start : Int) (s₀ : Printf) (text : List Char) (s : Printf) : Prop where
  sizeLeft : s.sizeLeft = size - text.length
  dest : s.dest = start + (min text.length (size - 1) : Nat)
  written : ∀ i ∈ s.written, i ∈ s₀.written ∨ start ≤ i ∧ i < s.dest
  text : ∀ i : Nat, i < min text.length (size - 1) → s.memory (start + i) = text.getD i nul
  frame : ∀ i, ¬ (start ≤ i ∧ i < s.dest) → s.memory i = s₀.memory i

namespace Sent

/-- A character that has room is written. -/
theorem put (h : Sent size start s₀ text s) (c : Char) (hroom : text.length + 1 < size) :
    Sent size start s₀ (text ++ [c]) { s.put c with sizeLeft := s.sizeLeft - 1 } where
  sizeLeft := by
    have := h.sizeLeft
    simp only [List.length_append, List.length_singleton]
    omega
  dest := by
    have := h.dest
    simp only [Printf.put, List.length_append, List.length_singleton]
    omega
  written i hi := by
    have := h.dest
    rcases List.mem_cons.1 hi with rfl | hi
    · exact .inr ⟨by omega, by simp [Printf.put]⟩
    · rcases h.written i hi with hi | ⟨h1, h2⟩
      · exact .inl hi
      · exact .inr ⟨h1, Int.lt_trans h2 (by simp [Printf.put])⟩
  text i hi := by
    have hdest := h.dest
    simp only [List.length_append, List.length_singleton] at hi
    by_cases heq : i = text.length
    · have hat : start + (i : Int) = s.dest := by omega
      rw [hat, heq]
      simp [Printf.put]
    · have hne : start + (i : Int) ≠ s.dest := by omega
      have hlt : i < text.length := by omega
      rw [show ({ s.put c with sizeLeft := s.sizeLeft - 1 } : Printf).memory (start + i) =
        s.memory (start + i) from Function.update_of_ne hne _ _, h.text i (by omega)]
      simp [List.getElem?_append_left hlt]
  frame i hi := by
    have hdest := h.dest
    have hne : i ≠ s.dest := fun heq => hi ⟨by omega, by simp [Printf.put, heq]⟩
    rw [show ({ s.put c with sizeLeft := s.sizeLeft - 1 } : Printf).memory i = s.memory i from
      Function.update_of_ne hne _ _]
    exact h.frame i fun ⟨h1, h2⟩ => hi ⟨h1, Int.lt_trans h2 (by simp [Printf.put])⟩

/-- A character that has no room is counted. -/
theorem skip (h : Sent size start s₀ text s) (c : Char) (hroom : ¬ text.length + 1 < size) :
    Sent size start s₀ (text ++ [c]) { s with sizeLeft := s.sizeLeft - 1 } where
  sizeLeft := by
    have := h.sizeLeft
    simp only [List.length_append, List.length_singleton]
    omega
  dest := by
    have := h.dest
    simp only [List.length_append, List.length_singleton]
    omega
  written := h.written
  text i hi := by
    simp only [List.length_append, List.length_singleton] at hi
    have hlt : i < text.length := by omega
    rw [h.text i (by omega)]
    simp [List.getElem?_append_left hlt]
  frame := h.frame

/-- One character more is sent. -/
theorem emit (h : Sent size start s₀ text s) (c : Char) :
    Sent size start s₀ (text ++ [c]) (s.emit c) := by
  have hleft := h.sizeLeft
  rw [Printf.emit]
  by_cases hroom : text.length + 1 < size
  · rw [if_pos (by omega)]
    exact h.put c hroom
  · rw [if_neg (by omega)]
    exact h.skip c hroom

/-- Some characters more are sent. -/
theorem foldl_emit (h : Sent size start s₀ text s) (more : List Char) :
    Sent size start s₀ (text ++ more) (more.foldl Printf.emit s) := by
  induction more generalizing s text with
  | nil => rwa [List.append_nil]
  | cons c more ih =>
    have := ih (h.emit c)
    rwa [List.append_assoc, List.singleton_append] at this

end Sent

/-- The text of a `%%` is its character. -/
def PercentTexts (chunks : List (Piece × List Char)) : Prop :=
  ∀ text, (Piece.percent, text) ∈ chunks → text = ['%']

/-- A percent sign is rendered as itself. -/
theorem renderPieces_percentTexts {pieces : List Piece} {args : List Arg}
    (h : renderPieces pieces args = some chunks) : PercentTexts chunks := by
  induction pieces generalizing args chunks with
  | nil =>
    cases h
    intro text hmem
    cases hmem
  | cons p pieces ih =>
    rw [renderPieces] at h
    cases hp : p.render args with
    | none =>
      rw [hp] at h
      cases h
    | some r =>
      obtain ⟨text, args'⟩ := r
      rw [hp] at h
      obtain ⟨rest, hrest, rfl⟩ := Option.map_eq_some_iff.1 h
      intro text' hmem
      rcases List.mem_cons.1 hmem with heq | hmem
      · cases heq
        cases hp
        rfl
      · exact ih hrest text' hmem

/-- Pieces whose `%%` all have room send their texts. -/
theorem Sent.foldl_send (h : Sent size start s₀ text s) (hp : PercentsBelow size text.length chunks)
    (ht : PercentTexts chunks) :
    Sent size start s₀ (text ++ textOf chunks) (chunks.foldl Printf.send s) := by
  induction chunks generalizing s text with
  | nil => simpa [textOf] using h
  | cons chunk chunks ih =>
    obtain ⟨p, u⟩ := chunk
    obtain ⟨hroom, hrest⟩ := hp
    have hsend : Sent size start s₀ (text ++ u) (s.send (p, u)) := by
      cases p
      case percent =>
        rw [ht u (by simp)]
        exact h.put '%' (hroom rfl)
      all_goals exact h.foldl_emit u
    have := ih hsend (by rwa [List.length_append]) fun v hv => ht v (.tail _ hv)
    rwa [List.append_assoc] at this

/-! ## Texts without the condition -/

/-- The state after `pos` characters were sent from the offset `start` on, some of which may be `%%`
without room. -/
structure Reached (size : Nat) (start : Int) (s₀ : Printf) (pos : Nat) (s : Printf) : Prop where
  sizeLeft : s.sizeLeft = size - pos
  dest : start + (min pos (size - 1) : Nat) ≤ s.dest
  first : s.dest = start ∨ start ∈ s.written
  kept : ∀ i ∈ s₀.written, i ∈ s.written

namespace Reached

/-- A character is stored, and counted. -/
theorem put (h : Reached size start s₀ pos s) (c : Char) :
    Reached size start s₀ (pos + 1) { s.put c with sizeLeft := s.sizeLeft - 1 } where
  sizeLeft := by
    have := h.sizeLeft
    simp only
    omega
  dest := by
    have := h.dest
    simp only [Printf.put]
    omega
  first := by
    rcases h.first with heq | hmem
    · exact .inr (by simp [Printf.put, heq])
    · exact .inr (List.mem_cons_of_mem _ hmem)
  kept i hi := List.mem_cons_of_mem _ (h.kept i hi)

/-- A character is sent, and the place for the next one moves on. -/
theorem emit (h : Reached size start s₀ pos s) (c : Char) :
    Reached size start s₀ (pos + 1) (s.emit c) := by
  have hleft := h.sizeLeft
  have hdest := h.dest
  rw [Printf.emit]
  by_cases hroom : s.sizeLeft > 1
  · rw [if_pos hroom]
    exact h.put c
  · rw [if_neg hroom]
    exact ⟨by simp only; omega, by simp only; omega, h.first, h.kept⟩

/-- Some characters are sent. -/
theorem foldl_emit (h : Reached size start s₀ pos s) (more : List Char) :
    Reached size start s₀ (pos + more.length) (more.foldl Printf.emit s) := by
  induction more generalizing s pos with
  | nil => exact h
  | cons c more ih =>
    have := ih (h.emit c)
    rwa [Nat.add_assoc, Nat.add_comm 1] at this

/-- A piece of the format is sent. -/
theorem send (h : Reached size start s₀ pos s) (chunk : Piece × List Char)
    (ht : chunk.1 = .percent → chunk.2 = ['%']) :
    Reached size start s₀ (pos + chunk.2.length) (s.send chunk) := by
  obtain ⟨p, u⟩ := chunk
  cases p
  case percent =>
    rw [ht rfl]
    exact h.put '%'
  all_goals exact h.foldl_emit u

/-- All pieces are sent. -/
theorem foldl_send (h : Reached size start s₀ pos s) (ht : PercentTexts chunks) :
    Reached size start s₀ (pos + (textOf chunks).length) (chunks.foldl Printf.send s) := by
  induction chunks generalizing s pos with
  | nil => exact h
  | cons chunk chunks ih =>
    have hsend := h.send chunk fun hp => ht _ (by rw [← hp]; simp)
    have := ih hsend fun v hv => ht v (.tail _ hv)
    rwa [Nat.add_assoc, ← List.length_append] at this

end Reached

/-- Sending moves the destination forwards only. -/
theorem dest_le_emit (s : Printf) (c : Char) : s.dest ≤ (s.emit c).dest := by
  rw [Printf.emit]
  split
  · simp [Printf.put]
  · exact Int.le_refl _

/-- The destination never moves back while characters are sent. -/
theorem dest_le_foldl_emit (s : Printf) (text : List Char) :
    s.dest ≤ (text.foldl Printf.emit s).dest := by
  induction text generalizing s with
  | nil => exact Int.le_refl _
  | cons c text ih => exact Int.le_trans (dest_le_emit s c) (ih (s.emit c))

/-- Nor while pieces are. -/
theorem dest_le_foldl_send (s : Printf) (chunks : List (Piece × List Char)) :
    s.dest ≤ (chunks.foldl Printf.send s).dest := by
  induction chunks generalizing s with
  | nil => exact Int.le_refl _
  | cons chunk chunks ih =>
    refine Int.le_trans ?_ (ih (s.send chunk))
    obtain ⟨p, u⟩ := chunk
    cases p
    case percent => simp [Printf.send, Printf.emitPercent, Printf.put]
    all_goals exact dest_le_foldl_emit s u

/-- A `%%` without room moves the destination behind the buffer. -/
theorem Reached.dest_of_percent (h : Reached size start s₀ pos s) (ht : PercentTexts chunks)
    (hp : ¬ PercentsBelow size pos chunks) : start + size ≤ (chunks.foldl Printf.send s).dest := by
  induction chunks generalizing s pos with
  | nil => exact absurd trivial hp
  | cons chunk chunks ih =>
    have hsend := h.send chunk fun hp => ht _ (by rw [← hp]; simp)
    have ht' : PercentTexts chunks := fun v hv => ht v (.tail _ hv)
    obtain ⟨p, u⟩ := chunk
    by_cases hroom : p = .percent → pos + 1 < size
    · exact ih hsend ht' fun hrest => hp ⟨hroom, hrest⟩
    · obtain ⟨rfl, hfull⟩ := Classical.not_imp.1 hroom
      have hdest := h.dest
      have hstep : (s.send (.percent, u)).dest = s.dest + 1 := rfl
      have := dest_le_foldl_send (s.send (.percent, u)) chunks
      rw [List.foldl_cons]
      omega

/-! ## A call of the formatter -/

/-- What a call leaves: the length it counted and the offsets it wrote. -/
structure Called (size : Nat) (start : Int) (s s' : Printf) (chunks : List (Piece × List Char)) :
    Prop where
  sizeLeft : s'.sizeLeft = size - (textOf chunks).length
  kept : ∀ i ∈ s.written, i ∈ s'.written
  first : start ∈ s'.written
  last : ∃ e ∈ s'.written, start + (min (textOf chunks).length (size - 1) : Nat) ≤ e
  beyond : ¬ (0 < size ∧ PercentsBelow size 0 chunks) → ∃ e ∈ s'.written, start + size ≤ e

/-- What a call leaves in a buffer in which every `%%` has room: the text as far as it fits, and a
`NUL` behind it. -/
structure Printed (size : Nat) (start : Int) (s s' : Printf) (text : List Char) : Prop where
  written : ∀ i ∈ s'.written, i ∈ s.written ∨
    start ≤ i ∧ i ≤ start + (min text.length (size - 1) : Nat)
  chars : ∀ i : Nat, i < min text.length (size - 1) → s'.memory (start + i) = text.getD i nul
  ends : s'.memory (start + (min text.length (size - 1) : Nat)) = nul
  frame : ∀ i, ¬ (start ≤ i ∧ i ≤ start + (min text.length (size - 1) : Nat)) →
    s'.memory i = s.memory i

/-- A call with a format that is finished returns, with the length of the full rendering as an
`INT`. -/
theorem kearlyVsnprintf_spec {fmt : CString} {args : List Arg} (size : Nat) (dest : Int)
    (hrender : fmt.render args = some chunks) (hfin : fmt.Finished) :
    ∃ s', kearlyVsnprintf dest size fmt args s = .ok (int32 (textOf chunks).length, s') ∧
      Called size dest s s' chunks ∧
      (0 < size → PercentsBelow size 0 chunks → Printed size dest s s' (textOf chunks)) := by
  have hlen : fmt.chars.length < fmt.start.length := by simp [CString.start]
  let s₁ : Printf := { s with dest, sizeLeft := size, args }
  have ht : PercentTexts chunks := renderPieces_percentTexts hrender
  obtain ⟨l, hl⟩ := (vsnprintfLoop_eq (s := s₁) fmt.noNul hlen hrender).1 hfin
  have hinit : Reached size dest s 0 s₁ :=
    ⟨by simp [s₁], by simp [s₁], .inl rfl, fun i hi => hi⟩
  have hreached := hinit.foldl_send ht
  rw [Nat.zero_add] at hreached
  have hover := hinit.dest_of_percent ht
  have hsent : 0 < size → PercentsBelow size 0 chunks →
      Sent size dest s (textOf chunks) (chunks.foldl Printf.send s₁) := fun hsize hp =>
    @Sent.foldl_send _ _ _ [] _ _
      ⟨by simp [s₁], by simp [s₁], fun i hi => .inl hi, fun i hi => by simp at hi, fun i _ => rfl⟩
      hp ht
  generalize chunks.foldl Printf.send s₁ = t at hl hreached hover hsent
  let s' : Printf :=
    { t with
      args := l
      memory := Function.update t.memory t.dest nul
      written := t.dest :: t.written }
  refine ⟨s', ?_, ⟨hreached.sizeLeft, fun i hi => .tail _ (hreached.kept i hi), ?_, ?_, ?_⟩, ?_⟩
  · rw [kearlyVsnprintf, modify_bind_apply]
    show (vsnprintfLoop _ _ >>= _ : F Int) s₁ = _
    have hl : vsnprintfLoop fmt.start.length fmt.start s₁ = .ok ((), { t with args := l }) := hl
    rw [bind_of_ok hl, storeChar, modify_bind_apply, get_bind_apply]
    have hcount : size - t.sizeLeft = (textOf chunks).length := by
      rw [hreached.sizeLeft, Int.sub_sub_self]
    show Except.ok (int32 (size - t.sizeLeft), s') = _
    rw [hcount]
  · rcases hreached.first with heq | hmem
    · exact List.mem_cons.2 (.inl heq.symm)
    · exact .tail _ hmem
  · exact ⟨t.dest, by simp [s'], hreached.dest⟩
  · intro hno
    refine ⟨t.dest, by simp [s'], ?_⟩
    by_cases hp : PercentsBelow size 0 chunks
    · have := hreached.dest
      have : size = 0 := Nat.eq_zero_of_not_pos fun h => hno ⟨h, hp⟩
      omega
    · exact hover hp
  · intro hsize hp
    have hs := hsent hsize hp
    have hdest := hs.dest
    refine ⟨fun i hi => ?_, fun i hi => ?_, ?_, fun i hi => ?_⟩
    · rcases List.mem_cons.1 hi with rfl | hi
      · exact .inr ⟨by omega, by omega⟩
      · exact (hs.written i hi).imp_right fun ⟨h1, h2⟩ => ⟨h1, by omega⟩
    · have hne : dest + (i : Int) ≠ t.dest := by omega
      exact (Function.update_of_ne hne _ _).trans (hs.text i hi)
    · rw [← hdest]
      exact Function.update_self _ _ _
    · have hne : i ≠ t.dest := fun heq => hi ⟨by omega, by omega⟩
      exact (Function.update_of_ne hne _ _).trans (hs.frame i fun ⟨h1, h2⟩ => hi ⟨h1, by omega⟩)

/-- A call with a format that is not finished leaves the format string. -/
theorem kearlyVsnprintf_unfinished {fmt : CString} {args : List Arg} (dest : Int)
    (hrender : fmt.render args = some chunks) (hfin : ¬ fmt.Finished) :
    kearlyVsnprintf dest size fmt args s = .error .fault := by
  have hfin : ∃ u, Piece.unfinished u ∈ piecesFrom none fmt.chars := by
    by_contra hno
    exact hfin fun u hu => hno ⟨u, hu⟩
  have hlen : fmt.chars.length < fmt.start.length := by simp [CString.start]
  let s₁ : Printf := { s with dest, sizeLeft := size, args }
  rw [kearlyVsnprintf, modify_bind_apply]
  exact bind_of_error ((vsnprintfLoop_eq (s := s₁) fmt.noNul hlen hrender).2 hfin)

/-! ## The guarantees -/

/-- Memory before a call. -/
def Printf.fresh (memory : Int → Char) : Printf := ⟨memory, [], 0, 0, []⟩

/-- The call wrote inside `dest[0..size-1]` only, left the first `size - 1` characters of the full
rendering there, followed by a `NUL`, and returned the length of the full rendering. -/
def Formatted (size : Nat) (text : List Char) (result : Except Halt (Int × Printf)) : Prop :=
  ∃ s', result = .ok (text.length, s') ∧ (∀ i ∈ s'.written, 0 ≤ i ∧ i < size) ∧
    (0 < size → (∀ i : Nat, i < min text.length (size - 1) → s'.memory i = text.getD i nul) ∧
      s'.memory (min text.length (size - 1) : Nat) = nul)

/-- The scan ended at the `NUL` of the format and counted the full rendering, which is what it wrote
where there is room for it. -/
def Scanned (size : Nat) (text : List Char) (result : Except Halt (Int × Printf)) : Prop :=
  ∃ len s', result = .ok (len, s') ∧ s'.sizeLeft = size - text.length ∧
    (text.length < size → ∀ i : Nat, i < text.length → s'.memory i = text.getD i nul)

/-- A number that an `INT` holds is below 2^31. -/
theorem int32_eq_iff {n : Nat} (h : int32 n = n) : n < 2 ^ 31 := by
  have := Int.bmod_lt (x := n) (show 0 < 2 ^ 32 by decide)
  rw [int32] at h
  omega

/-- An `INT` holds the numbers below 2^31. -/
theorem int32_of_lt {n : Nat} (h : n < 2 ^ 31) : int32 n = n := by
  rw [int32, Int.bmod_eq_of_le] <;> omega

/-- In a buffer that the full rendering fits into, every `%%` has room. -/
theorem percentsBelow_of_lt (ht : PercentTexts chunks)
    (h : pos + (textOf chunks).length < size) : PercentsBelow size pos chunks := by
  induction chunks generalizing pos with
  | nil => trivial
  | cons chunk chunks ih =>
    obtain ⟨p, u⟩ := chunk
    have hlen : (textOf ((p, u) :: chunks)).length = u.length + (textOf chunks).length :=
      List.length_append
    refine ⟨?_, ih (fun v hv => ht v (.tail _ hv)) (by omega)⟩
    rintro rfl
    have hu : u.length = 1 := by rw [ht u (by simp)]; rfl
    omega

/-- A call does what the formatters are documented to do exactly when the buffer has room for the
`NUL`, every `%%` falls before its last position, the format does not end inside a conversion, and
an `INT` can hold the length. -/
theorem kearlyVsnprintf_formatted {fmt : CString} {args : List Arg} {memory : Int → Char}
    (hrender : fmt.render args = some chunks) :
    (Formatted size (textOf chunks) (kearlyVsnprintf 0 size fmt args (.fresh memory)) ↔
      0 < size ∧ PercentsBelow size 0 chunks ∧ fmt.Finished ∧ (textOf chunks).length < 2 ^ 31) ∧
    (Formatted size (textOf chunks) (cmVsnprintf 0 size fmt args (.fresh memory)) ↔
      0 < size ∧ PercentsBelow size 0 chunks ∧ fmt.Finished ∧ (textOf chunks).length < 2 ^ 31) := by
  refine and_self_iff.2 ⟨?_, ?_⟩
  · rintro ⟨s', hrun, hwritten, -⟩
    have hfin : fmt.Finished := by
      by_contra hno
      rw [kearlyVsnprintf_unfinished 0 hrender hno] at hrun
      cases hrun
    obtain ⟨s'', hrun', hcalled, -⟩ := kearlyVsnprintf_spec size 0 hrender hfin
    rw [hrun'] at hrun
    obtain ⟨hlen, rfl⟩ := Prod.mk.injEq .. ▸ Except.ok.inj hrun
    have hroom : 0 < size ∧ PercentsBelow size 0 chunks := by
      by_contra hno
      obtain ⟨e, he, hle⟩ := hcalled.beyond hno
      have := hwritten e he
      omega
    exact ⟨hroom.1, hroom.2, hfin, int32_eq_iff hlen⟩
  · rintro ⟨hsize, hp, hfin, hlen⟩
    obtain ⟨s', hrun, -, hprinted⟩ := kearlyVsnprintf_spec (s := .fresh memory) size 0 hrender hfin
    have hpr := hprinted hsize hp
    rw [int32_of_lt hlen] at hrun
    refine ⟨s', hrun, fun i hi => ?_, fun _ => ⟨fun i hi => ?_, ?_⟩⟩
    · rcases hpr.written i hi with hi | ⟨h1, h2⟩
      · cases hi
      · exact ⟨h1, by omega⟩
    · have := hpr.chars i hi
      rwa [Int.zero_add] at this
    · have := hpr.ends
      rwa [Int.zero_add] at this

/-- The format `100%%`. -/
def percentFormat : CString := { chars := "100%%".toList }

/-- Memory full of dots. -/
def dots : Printf := .fresh fun _ => '.'

/-- The format has three digits and a percent sign. -/
theorem percentFormat_pieces : percentFormat.pieces =
    [.literal ['1'], .literal ['0'], .literal ['0'], .percent] := by decide

/-- It ends outside a conversion. -/
theorem percentFormat_finished : percentFormat.Finished := by
  intro s hs
  rw [percentFormat_pieces] at hs
  simp at hs

/-- A buffer of five characters has room for its rendering. -/
theorem kearlyVsnprintf_formatted_room :
    Formatted 5 "100%".toList (kearlyVsnprintf 0 5 percentFormat [] dots) :=
  (@kearlyVsnprintf_formatted [(.literal ['1'], ['1']), (.literal ['0'], ['0']),
    (.literal ['0'], ['0']), (.percent, ['%'])] 5 percentFormat [] _ (by decide)).1.2
    ⟨by decide, ⟨by decide, by decide, by decide, by decide, trivial⟩, percentFormat_finished,
      by decide⟩

/-- In a buffer of four characters, the `%` takes the place of the `NUL`, which is written behind
the buffer; and a buffer of size zero is written too. -/
theorem kearlyVsnprintf_formatted_full :
    ¬ Formatted 4 "100%".toList (kearlyVsnprintf 0 4 percentFormat [] dots) ∧
      ¬ Formatted 0 "100%".toList (kearlyVsnprintf 0 0 percentFormat [] dots) := by
  refine ⟨?_, ?_⟩
  · rintro ⟨s', hrun, hwritten, -⟩
    have hmem : (4 : Int) ∈ s'.written := by
      rw [← show (kearlyVsnprintf 0 4 percentFormat []).finalState dots = s' by
        rw [finalState, hrun]]
      decide +kernel
    exact absurd (hwritten 4 hmem).2 (by decide)
  · rintro ⟨s', hrun, hwritten, -⟩
    have hmem : (1 : Int) ∈ s'.written := by
      rw [← show (kearlyVsnprintf 0 0 percentFormat []).finalState dots = s' by
        rw [finalState, hrun]]
      decide +kernel
    exact absurd (hwritten 1 hmem).2 (by decide)

/-- The scan of a call ends at the `NUL` and renders the format exactly when the format does not end
inside a conversion. -/
theorem kearlyVsnprintf_scanned {fmt : CString} {args : List Arg} {memory : Int → Char}
    (hrender : fmt.render args = some chunks) :
    (Scanned size (textOf chunks) (kearlyVsnprintf 0 size fmt args (.fresh memory)) ↔
      fmt.Finished) ∧
    (Scanned size (textOf chunks) (cmVsnprintf 0 size fmt args (.fresh memory)) ↔
      fmt.Finished) := by
  refine and_self_iff.2 ⟨?_, fun hfin => ?_⟩
  · rintro ⟨len, s', hrun, -⟩
    by_contra hno
    rw [kearlyVsnprintf_unfinished 0 hrender hno] at hrun
    cases hrun
  · obtain ⟨s', hrun, hcalled, hprinted⟩ := kearlyVsnprintf_spec (s := .fresh memory) size
      0 hrender hfin
    refine ⟨_, s', hrun, hcalled.sizeLeft, fun hlt i hi => ?_⟩
    have hp := percentsBelow_of_lt (renderPieces_percentTexts hrender) (by rwa [Nat.zero_add])
    have := (hprinted (by omega) hp).chars i (by omega)
    rwa [Int.zero_add] at this

/-- The format `%arj`, whose conversion is not recognised. -/
def wrongFormat : CString := { chars := "%arj".toList }

/-- An unknown conversion is copied. -/
theorem wrongFormat_pieces : wrongFormat.pieces =
    [.literal ['%', 'a'], .literal ['r'], .literal ['j']] := by decide

/-- An unrecognised conversion is rendered as its characters. -/
theorem kearlyVsnprintf_scanned_wrongFormat :
    Scanned 20 "%arj".toList (kearlyVsnprintf 0 20 wrongFormat [] dots) := by
  refine (@kearlyVsnprintf_scanned [(.literal ['%', 'a'], ['%', 'a']), (.literal ['r'], ['r']),
    (.literal ['j'], ['j'])] 20 wrongFormat [] _ (by decide)).1.2 fun s hs => ?_
  rw [wrongFormat_pieces] at hs
  simp at hs

/-- A format that ends in `%`, or in `%` and a modifier, is read behind its `NUL`. -/
theorem kearlyVsnprintf_scanned_cutOff :
    ¬ Scanned 20 "100%".toList (kearlyVsnprintf 0 20 { chars := "100%".toList } [] dots) ∧
      ¬ Scanned 20 "100%l".toList (kearlyVsnprintf 0 20 { chars := "100%l".toList } [] dots) := by
  have hfault : ∀ {fmt : CString} {text : List Char},
      (kearlyVsnprintf 0 20 fmt [] dots).map Prod.fst = .error .fault →
        ¬ Scanned 20 text (kearlyVsnprintf 0 20 fmt [] dots) := by
    rintro fmt text herr ⟨len, s', hrun, -⟩
    rw [hrun] at herr
    cases herr
  exact ⟨hfault (by decide +kernel), hfault (by decide +kernel)⟩

end MeghaOS
