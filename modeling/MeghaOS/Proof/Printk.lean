import MeghaOS.Printk
import MeghaOS.Lib.Numeral

/-!
# The formatters

A format is cut into pieces, and with the arguments each piece has a text; the text of all of them
is the full rendering. `vsnprintfLoop_eq` says that the loop of the formatter sends these texts, one
after another, to the buffer, when the format does not end inside a conversion, and that it leaves
the string otherwise. `Sent` and `Reached` are what has been written at any point of it.
-/

namespace MeghaOS

open Exec

/-! ## The full rendering -/

/-- The representation of a number, the most significant digit first. -/
def digitText (base v : Nat) : List Char :=
  (if v = 0 then [0] else (Nat.digits base v).reverse).map (itoaChars.getD · nul)

/-- The pieces of a format. -/
inductive Piece
  /-- A character, or the characters of an unrecognised conversion. -/
  | literal (s : List Char)
  /-- The conversion `%%`. -/
  | percent
  /-- A conversion of an integer. -/
  | number (inttype : IntTypes) (base : Nat) (iden : List Char)
  /-- The conversion `%s`. -/
  | string
  /-- A conversion that the end of the format cuts off. -/
  | unfinished (s : List Char)
  deriving DecidableEq

/-- The conversion that the characters `seen` spell, of which `c` is the last. -/
def conversion (inttype : IntTypes) (seen : List Char) (c : Char) : Piece :=
  if c = 'u' then .number inttype 10 []
  else if c = 'h' then .number inttype 16 []
  else if c = 'x' then .number inttype 16 ['h']
  else if c = 'b' then .number inttype 2 ['b']
  else if c = 'o' then .number inttype 8 ['o']
  else if c = 's' then .string
  else if c = '%' then .percent
  else .literal seen

/-- The pieces of the rest of a format, outside of a conversion, or inside of one of which the
characters `seen` were read. -/
def piecesFrom : Option (IntTypes × List Char) → List Char → List Piece
  | none, [] => []
  | some (_, seen), [] => [.unfinished seen]
  | none, c :: rest =>
    if c = '%' then piecesFrom (some (.integer, ['%'])) rest
    else .literal [c] :: piecesFrom none rest
  | some (inttype, seen), c :: rest =>
    if c = 'l' then
      piecesFrom (some (if inttype = .integer then .longint else .longlongint, seen ++ [c])) rest
    else if c = 'p' then piecesFrom (some (.address, seen ++ [c])) rest
    else conversion inttype (seen ++ [c]) c :: piecesFrom none rest

/-- The pieces of a format. -/
def CString.pieces (fmt : CString) : List Piece := piecesFrom none fmt.chars

/-- The format does not end in `%` or in `%` and type modifiers. -/
def CString.Finished (fmt : CString) : Prop := ∀ s, Piece.unfinished s ∉ fmt.pieces

/-- The text of a piece, and the arguments it leaves. -/
def Piece.render : Piece → List Arg → Option (List Char × List Arg)
  | .literal s, args | .unfinished s, args => some (s, args)
  | .percent, args => some (['%'], args)
  | .number .longlongint base iden, .u64 v :: args => some (digitText base v.toNat ++ iden, args)
  | .number .integer base iden, .u32 v :: args | .number .longint base iden, .u32 v :: args
  | .number .address base iden, .u32 v :: args => some (digitText base v.toNat ++ iden, args)
  | .string, .str v :: args => some (v.chars, args)
  | _, _ => none

/-- The pieces with their texts, when the arguments match them. -/
def renderPieces : List Piece → List Arg → Option (List (Piece × List Char))
  | [], _ => some []
  | p :: rest, args =>
    match p.render args with
    | none => none
    | some (text, args) => (renderPieces rest args).map ((p, text) :: ·)

/-- The pieces of a format with their texts. -/
def CString.render (fmt : CString) (args : List Arg) : Option (List (Piece × List Char)) :=
  renderPieces fmt.pieces args

/-- The full rendering. -/
def textOf (chunks : List (Piece × List Char)) : List Char := (chunks.map Prod.snd).flatten

/-- Every `%%` is rendered, from the position `pos` on, before the last position of the buffer. -/
def PercentsBelow (size : Nat) : Nat → List (Piece × List Char) → Prop
  | _, [] => True
  | pos, (p, text) :: rest =>
    (p = .percent → pos + 1 < size) ∧ PercentsBelow size (pos + text.length) rest

/-! ## Digits -/

/-- The digits of a number are those of its numeral. -/
theorem digitText_eq (base v : Nat) :
    digitText base v = (numeral base v).map (itoaChars.getD · nul) := rfl

/-- There are 64 at most. -/
theorem digitText_length_le {base v : Nat} (hbase : 2 ≤ base) (hv : v < 2 ^ 64) :
    (digitText base v).length ≤ 64 := by
  rw [digitText_eq, List.length_map]
  exact length_numeral_le hbase (by decide) (Nat.lt_of_lt_of_le hv (Nat.pow_le_pow_left hbase 64))

/-- The first loop of `s_itoa` finds the digits, and its array has room for them. -/
theorem itoaFrom_eq {base room v : Nat} {output : List Char} (hbase : 2 ≤ base) (hroom : 0 < room)
    (hv : v < base ^ room) : itoaFrom base room v output = .ok (digitText base v ++ output) := by
  induction room generalizing v output with
  | zero => exact absurd hroom (Nat.lt_irrefl 0)
  | succ room ih =>
    rw [itoaFrom]
    rcases Nat.eq_zero_or_pos (v / base) with hzero | hpos
    · have hlt : v < base := (Nat.div_eq_zero_iff_lt (by omega)).1 hzero
      rw [if_neg (by omega), Nat.mod_eq_of_lt hlt, digitText]
      split
      · rename_i h0
        rw [h0]
        rfl
      · rename_i h0
        rw [Nat.digits_of_lt base v h0 hlt]
        rfl
    · have hlt : v / base < base ^ room := by
        rw [Nat.div_lt_iff_lt_mul (by omega)]
        rwa [Nat.pow_succ] at hv
      have hroom' : 0 < room := by
        rcases Nat.eq_zero_or_pos room with rfl | h
        · rw [Nat.pow_zero] at hlt
          omega
        · exact h
      have hv0 : v ≠ 0 := fun h => by
        rw [h, Nat.zero_div] at hpos
        exact absurd hpos (Nat.lt_irrefl 0)
      have hdigits : Nat.digits base v = v % base :: Nat.digits base (v / base) :=
        Nat.digits_def' (by omega) (by omega)
      rw [if_pos hpos, ih hroom' hlt, digitText, digitText, if_neg hv0, if_neg (by omega), hdigits,
        List.reverse_cons, List.map_append, List.append_assoc]
      rfl

/-! ## Sending characters -/

namespace Printf

/-- The state after `*dest++ = c`. -/
def put (s : Printf) (c : Char) : Printf :=
  { s with
    memory := Function.update s.memory s.dest c
    written := s.dest :: s.written
    dest := s.dest + 1 }

/-- The state after a character was sent, where it has room. -/
def emit (s : Printf) (c : Char) : Printf :=
  { (if s.sizeLeft > 1 then s.put c else s) with sizeLeft := s.sizeLeft - 1 }

/-- The state after `%%`. -/
def emitPercent (s : Printf) : Printf := { s.put '%' with sizeLeft := s.sizeLeft - 1 }

/-- The state after a piece was sent. -/
def send (s : Printf) : Piece × List Char → Printf
  | (.percent, _) => s.emitPercent
  | (_, text) => text.foldl emit s

/-- Sending a character does not look at the arguments. -/
theorem emit_args (s : Printf) (c : Char) (l : List Arg) :
    ({ s with args := l } : Printf).emit c = { s.emit c with args := l } := by
  unfold emit
  split <;> rfl

/-- It takes none of them. -/
@[simp] theorem args_emit (s : Printf) (c : Char) : (s.emit c).args = s.args := by
  unfold emit
  split <;> rfl

/-- Nor does sending some characters. -/
@[simp] theorem args_foldl_emit (s : Printf) (text : List Char) :
    (text.foldl emit s).args = s.args := by
  induction text generalizing s with
  | nil => rfl
  | cons c text ih => rw [List.foldl_cons, ih, args_emit]

/-- Sending some characters does not look at the arguments. -/
theorem foldl_emit_args (s : Printf) (text : List Char) (l : List Arg) :
    text.foldl emit { s with args := l } = { text.foldl emit s with args := l } := by
  induction text generalizing s with
  | nil => rfl
  | cons c text ih => rw [List.foldl_cons, List.foldl_cons, emit_args, ih]

/-- A piece that is rendered does not look at them either. -/
theorem send_args (s : Printf) (chunk : Piece × List Char) (l : List Arg) :
    ({ s with args := l } : Printf).send chunk = { s.send chunk with args := l } := by
  obtain ⟨p, text⟩ := chunk
  cases p
  case percent => rfl
  all_goals exact foldl_emit_args s text l

end Printf

variable {s s' : Printf} {chunks : List (Piece × List Char)} {text rest : List Char}
  {args : List Arg}

/-- `emit_char` sends a character. -/
theorem emitChar_apply (c : Char) : emitChar c s = .ok ((), s.emit c) := by
  rw [emitChar, get_bind_apply]
  by_cases h : s.sizeLeft > 1
  · rw [when_true h, Printf.emit, if_pos h]
    rfl
  · rw [when_false h, Printf.emit, if_neg h]
    rfl

/-- Some characters are sent one by one. -/
theorem emitChars_apply : emitChars text s = .ok ((), text.foldl Printf.emit s) := by
  induction text generalizing s with
  | nil => rfl
  | cons c text ih => rw [emitChars, bind_of_ok (emitChar_apply c), ih, List.foldl_cons]

/-- `s_itoa` sends the digits. -/
theorem sItoa_apply {v base : Nat} (hbase : 2 ≤ base) (hv : v < 2 ^ 64) :
    sItoa v base s = .ok ((), (digitText base v).foldl Printf.emit s) := by
  have hlt : v < base ^ 65 := calc
    v < 2 ^ 65 := by omega
    _ ≤ base ^ 65 := Nat.pow_le_pow_left hbase 65
  rw [sItoa, itoaFrom_eq hbase (by omega) hlt, List.append_nil]
  exact emitChars_apply

/-- The copy of a literal sends the characters up to the one at `fmt`. -/
theorem copyLiteral_apply (pre : List Char) (c : Char) (rest : List Char) :
    copyLiteral (pre ++ c :: rest) (c :: rest) s =
      .ok ((), (pre ++ [c]).foldl Printf.emit s) := by
  induction pre generalizing s with
  | nil =>
    have hstop : ∀ t : Printf, copyLiteral rest (c :: rest) t = .ok ((), t) := fun t => by
      cases rest with
      | nil => rfl
      | cons d rest =>
        rw [copyLiteral, if_neg (by simp)]
        rfl
    rw [List.nil_append, copyLiteral, if_pos (by simp), bind_of_ok (emitChar_apply c), hstop]
    rfl
  | cons d pre ih =>
    rw [List.cons_append, copyLiteral, if_pos (by simp; omega), bind_of_ok (emitChar_apply d), ih]
    rfl

/-! ## Conversions -/

/-- Where the reader of the modifiers stops: at the `NUL`, when the format ends inside the
conversion, or at the character that completes it. -/
inductive ReadsType (inttype : IntTypes) (seen rest : List Char) : Prop
  | unfinished (inttype' : IntTypes)
      (hread : readtypeFrom inttype (rest ++ [nul]) = .ok (inttype', nul, [nul]))
      (hpieces : piecesFrom (some (inttype, seen)) rest = [.unfinished (seen ++ rest)])
  | conversion (inttype' : IntTypes) (mods : List Char) (c : Char) (rest' : List Char)
      (hrest : rest = mods ++ c :: rest')
      (hread : readtypeFrom inttype (rest ++ [nul]) = .ok (inttype', c, c :: (rest' ++ [nul])))
      (hpieces : piecesFrom (some (inttype, seen)) rest =
        conversion inttype' (seen ++ mods ++ [c]) c :: piecesFrom none rest')

/-- The loop that reads the type of a conversion. -/
theorem readtypeFrom_spec (hnul : nul ∉ rest) (inttype : IntTypes) (seen : List Char) :
    ReadsType inttype seen rest := by
  induction rest generalizing inttype seen with
  | nil =>
    refine .unfinished inttype ?_ (by rw [piecesFrom, List.append_nil])
    rw [List.nil_append, readtypeFrom, if_pos rfl]
  | cons c rest ih =>
    obtain ⟨hc, hrest⟩ := not_or.1 fun h => hnul (List.mem_cons.2 h)
    have hc : c ≠ nul := Ne.symm hc
    have hmod : ∀ inttype', readtypeFrom inttype (c :: rest ++ [nul]) =
          readtypeFrom inttype' (rest ++ [nul]) →
        piecesFrom (some (inttype, seen)) (c :: rest) =
          piecesFrom (some (inttype', seen ++ [c])) rest →
        ReadsType inttype seen (c :: rest) := fun inttype' hread hpieces => by
      rcases ih hrest inttype' (seen ++ [c]) with ⟨t, hr, hp⟩ | ⟨t, mods, d, rest', rfl, hr, hp⟩
      · refine .unfinished t (hread.trans hr) ?_
        rw [hpieces, hp, List.append_assoc, List.singleton_append]
      · refine .conversion t (c :: mods) d rest' rfl (hread.trans hr) ?_
        rw [hpieces, hp]
        simp
    by_cases hl : c = 'l'
    · exact hmod _ (by rw [List.cons_append, readtypeFrom, if_neg hc, if_pos hl])
        (by rw [piecesFrom, if_pos hl])
    by_cases hp : c = 'p'
    · exact hmod _ (by rw [List.cons_append, readtypeFrom, if_neg hc, if_neg hl, if_pos hp])
        (by rw [piecesFrom, if_neg hl, if_pos hp])
    · refine .conversion inttype [] c rest rfl ?_ ?_
      · rw [List.cons_append, readtypeFrom, if_neg hc, if_neg hl, if_neg hp]
      · rw [piecesFrom, if_neg hl, if_neg hp, List.append_nil]

/-- `s_readint` takes the argument that the piece matches. -/
theorem sReadint_apply {inttype : IntTypes} {base : Nat} {iden : List Char}
    (h : (Piece.number inttype base iden).render s.args = some (text, args)) :
    ∃ v, v < 2 ^ 64 ∧ text = digitText base v ++ iden ∧
      sReadint inttype s = .ok (v, { s with args := args }) := by
  rw [sReadint, get_bind_apply]
  cases hargs : s.args with
  | nil =>
    rw [hargs] at h
    cases inttype <;> cases h
  | cons arg l =>
    rw [hargs] at h
    cases arg with
    | u32 v =>
      have hv : v.toNat < 2 ^ 64 := Nat.lt_trans v.toNat_lt (by decide)
      cases inttype
      case longlongint => cases h
      all_goals
        cases h
        exact ⟨v.toNat, hv, rfl, rfl⟩
    | u64 v =>
      cases inttype
      case longlongint =>
        cases h
        exact ⟨v.toNat, v.toNat_lt, rfl, rfl⟩
      all_goals cases h
    | str v => cases inttype <;> cases h

/-- A conversion of an integer sends its text. -/
theorem number_apply {inttype : IntTypes} {base n : Nat} {iden : List Char} (hbase : 2 ≤ base)
    (hiden : (iden.takeWhile (· ≠ nul)).take n = iden)
    (h : (Piece.number inttype base iden).render s.args = some (text, args)) :
    (do
      sItoa (← sReadint inttype) base
      sAddBaseIdentifier iden n
      return false : F Bool) s =
      .ok (false, { s.send (.number inttype base iden, text) with args := args }) := by
  obtain ⟨v, hv, rfl, hread⟩ := sReadint_apply h
  rw [bind_of_ok hread, bind_of_ok (sItoa_apply hbase hv), sAddBaseIdentifier, hiden,
    bind_of_ok emitChars_apply, ← List.foldl_append, Printf.foldl_emit_args]
  rfl

/-- The conversion of a string sends the string. -/
theorem string_apply (h : Piece.string.render s.args = some (text, args)) :
    (do
      emitChars (← readString).chars
      return false : F Bool) s = .ok (false, { s.send (.string, text) with args := args }) := by
  have hread : ∃ v, text = v.chars ∧ readString s = .ok (v, { s with args := args }) := by
    rw [readString, get_bind_apply]
    cases hargs : s.args with
    | nil =>
      rw [hargs] at h
      cases h
    | cons arg l =>
      rw [hargs] at h
      cases arg with
      | str v =>
        cases h
        exact ⟨v, rfl, rfl⟩
      | u32 v => cases h
      | u64 v => cases h
  obtain ⟨v, rfl, hread⟩ := hread
  rw [bind_of_ok hread, bind_of_ok emitChars_apply, Printf.foldl_emit_args]
  rfl

/-- `s_convert` says that a conversion is a literal, or sends its text. -/
theorem sConvert_apply {inttype : IntTypes} {seen : List Char} {c : Char}
    (h : (conversion inttype seen c).render s.args = some (text, args)) :
    (conversion inttype seen c = .literal seen ∧ sConvert inttype c s = .ok (true, s)) ∨
      sConvert inttype c s =
        .ok (false, { s.send (conversion inttype seen c, text) with args := args }) := by
  have hnone : ∀ base, (do
      sItoa (← sReadint inttype) base
      return false : F Bool) = (do
      sItoa (← sReadint inttype) base
      sAddBaseIdentifier [] 0
      return false : F Bool) := fun base => rfl
  unfold conversion at h ⊢
  unfold sConvert
  split_ifs at h ⊢ with hu hh hx hb ho hs hp
  · rw [hnone]
    exact .inr (number_apply (by omega) rfl h)
  · rw [hnone]
    exact .inr (number_apply (by omega) rfl h)
  · exact .inr (number_apply (by omega) (by decide) h)
  · exact .inr (number_apply (by omega) (by decide) h)
  · exact .inr (number_apply (by omega) (by decide) h)
  · exact .inr (string_apply h)
  · cases h
    exact .inr rfl
  · exact .inl ⟨rfl, rfl⟩

/-- A conversion character ends the conversion. -/
theorem conversion_ne_unfinished {inttype : IntTypes} {seen : List Char} {c : Char}
    (u : List Char) : conversion inttype seen c ≠ .unfinished u := by
  unfold conversion
  split_ifs <;> simp

namespace Printf

/-- The rest of the pieces does not look at the arguments. -/
theorem foldl_send_args (s : Printf) (chunks : List (Piece × List Char)) (l : List Arg) :
    chunks.foldl send { s with args := l } = { chunks.foldl send s with args := l } := by
  induction chunks generalizing s with
  | nil => rfl
  | cons chunk chunks ih => rw [List.foldl_cons, List.foldl_cons, send_args, ih]

end Printf

/-- A conversion sends its text, a literal one through the copy of its characters. -/
theorem conversion_apply {inttype : IntTypes} {pre : List Char} {c : Char}
    (h : (conversion inttype (pre ++ [c]) c).render s.args = some (text, args))
    (rest : List Char) (k : F Unit) :
    (do
      let isliteral ← sConvert inttype c
      when isliteral (copyLiteral (pre ++ c :: rest) (c :: rest))
      k : F Unit) s =
      k { s.send (conversion inttype (pre ++ [c]) c, text) with args := args } := by
  rcases sConvert_apply h with ⟨hlit, hrun⟩ | hrun
  · rw [hlit] at h ⊢
    cases h
    rw [bind_of_ok hrun, when_true rfl, bind_of_ok (copyLiteral_apply pre c rest)]
    congr 1
    rw [← Printf.args_foldl_emit s (pre ++ [c])]
    rfl
  · rw [bind_of_ok hrun, when_false (by simp)]
    rfl

/-! ## The loop -/

/-- The loop sends the pieces of the rest of a format, and leaves the string when the last of them
is not finished. -/
theorem vsnprintfLoop_eq {fuel : Nat} (hnul : nul ∉ rest) (hfuel : rest.length < fuel)
    (h : renderPieces (piecesFrom none rest) s.args = some chunks) :
    ((∀ u, Piece.unfinished u ∉ piecesFrom none rest) →
      ∃ l, vsnprintfLoop fuel (rest ++ [nul]) s =
        .ok ((), { chunks.foldl Printf.send s with args := l })) ∧
      ((∃ u, Piece.unfinished u ∈ piecesFrom none rest) →
        vsnprintfLoop fuel (rest ++ [nul]) s = .error .fault) := by
  induction fuel generalizing rest s chunks with
  | zero => exact absurd hfuel (Nat.not_lt_zero _)
  | succ fuel ih =>
    cases rest with
    | nil =>
      cases h
      refine ⟨fun _ => ⟨s.args, rfl⟩, ?_⟩
      rintro ⟨u, hu⟩
      cases hu
    | cons c rest =>
      obtain ⟨hc, hrest⟩ := not_or.1 fun h => hnul (List.mem_cons.2 h)
      have hlen : rest.length < fuel := Nat.lt_of_succ_lt_succ hfuel
      have hderef : (lift (derefChar (c :: (rest ++ [nul]))) : F Char) s = .ok (c, s) := rfl
      rw [List.cons_append, vsnprintfLoop, bind_of_ok hderef, if_neg (Ne.symm hc)]
      by_cases hpercent : c = '%'
      · subst hpercent
        rw [if_pos rfl]
        rcases readtypeFrom_spec hrest .integer ['%'] with
          ⟨t, hread, hpieces⟩ | ⟨t, mods, c, rest', rfl, hread, hpieces⟩
        · have hpieces : piecesFrom none ('%' :: rest) = _ := hpieces
          refine ⟨fun hfin => ?_, fun _ => ?_⟩
          · exact absurd (by rw [hpieces]; exact List.mem_singleton.2 rfl) (hfin _)
          · obtain ⟨n, rfl⟩ : ∃ n, fuel = n + 1 := ⟨fuel - 1, by omega⟩
            have hread : (lift (sReadtype ('%' :: (rest ++ [nul]))) : F _) s =
              .ok ((t, nul, [nul]), s) :=
              lift_eq_ok.2 ⟨hread, rfl⟩
            have hconvert : sConvert t nul s = .ok (true, s) := rfl
            have hcopy : copyLiteral ('%' :: (rest ++ [nul])) [nul] s = _ :=
              copyLiteral_apply ('%' :: rest) nul []
            rw [bind_of_ok hread]
            dsimp only
            rw [bind_of_ok hconvert, when_true rfl, bind_of_ok hcopy]
            rfl
        · have hpieces : piecesFrom none ('%' :: (mods ++ c :: rest')) =
              conversion t ('%' :: mods ++ [c]) c :: piecesFrom none rest' := hpieces
          have hassoc : mods ++ c :: rest' ++ [nul] = mods ++ c :: (rest' ++ [nul]) := by simp
          rw [hassoc] at hread
          have hread : (lift (sReadtype ('%' :: (mods ++ c :: (rest' ++ [nul])))) : F _) s =
              .ok ((t, c, c :: (rest' ++ [nul])), s) := lift_eq_ok.2 ⟨hread, rfl⟩
          have hrest' : nul ∉ rest' := fun hmem => hrest (by simp [hmem])
          have hlen' : rest'.length < fuel := by
            rw [List.length_append, List.length_cons] at hlen
            omega
          rw [hpieces, renderPieces] at h
          rw [hassoc, bind_of_ok hread, hpieces]
          cases hrender : (conversion t ('%' :: mods ++ [c]) c).render s.args with
          | none =>
            rw [hrender] at h
            cases h
          | some r =>
            obtain ⟨text, args'⟩ := r
            rw [hrender] at h
            obtain ⟨chunks', hchunks, rfl⟩ := Option.map_eq_some_iff.1 h
            have hrun := conversion_apply hrender (rest' ++ [nul])
              (vsnprintfLoop fuel (rest' ++ [nul]))
            obtain ⟨hok, herr⟩ := ih
              (s := { s.send (conversion t ('%' :: mods ++ [c]) c, text) with args := args' })
              hrest' hlen' hchunks
            refine ⟨fun hfin => ?_, ?_⟩
            · obtain ⟨l, hl⟩ := hok fun u hu => hfin u (.tail _ hu)
              refine ⟨l, (hrun.trans hl).trans ?_⟩
              rw [Printf.foldl_send_args]
              rfl
            · rintro ⟨u, hu⟩
              rcases List.mem_cons.1 hu with hu | hu
              · exact absurd hu.symm (conversion_ne_unfinished u)
              · exact hrun.trans (herr ⟨u, hu⟩)
      · have hpieces : piecesFrom none (c :: rest) = .literal [c] :: piecesFrom none rest := by
          rw [piecesFrom, if_neg hpercent]
        rw [hpieces, renderPieces] at h
        obtain ⟨chunks', hchunks, rfl⟩ := Option.map_eq_some_iff.1 h
        have hcopy : copyLiteral (c :: (rest ++ [nul])) (c :: (rest ++ [nul])) s =
            .ok ((), s.emit c) := copyLiteral_apply [] c (rest ++ [nul])
        rw [if_neg hpercent, bind_of_ok hcopy, hpieces]
        obtain ⟨hok, herr⟩ := ih (s := s.emit c) hrest hlen
          (by rw [Printf.args_emit]; exact hchunks)
        refine ⟨fun hfin => ?_, ?_⟩
        · obtain ⟨l, hl⟩ := hok fun u hu => hfin u (.tail _ hu)
          exact ⟨l, hl⟩
        · rintro ⟨u, hu⟩
          rcases List.mem_cons.1 hu with hu | hu
          · cases hu
          · exact herr ⟨u, hu⟩

end MeghaOS
