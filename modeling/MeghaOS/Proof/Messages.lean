import MeghaOS.Messages
import MeghaOS.Proof.Vsnprintf

/-!
# Messages stay in their buffers, or not

A chain of formatter calls passes the whole size of the buffer to every call, so that only the
position at which a call starts keeps it inside: `chain_inside` says that this is so exactly when
all the texts together fit into the buffer. `s_callPanic` reduces the size for its second call.
-/

namespace MeghaOS

open Exec

variable {s s' : Printf} {size : Nat}

/-! ## Chains of calls -/

/-- The piece was cut off by the end of the format. -/
def Piece.isUnfinished : Piece → Bool
  | .unfinished _ => true
  | _ => false

/-- A format is finished when none of its pieces is cut off. -/
theorem finished_iff (fmt : CString) :
    (∀ p ∈ fmt.pieces, p.isUnfinished = false) ↔ fmt.Finished := by
  constructor
  · intro h s hs
    cases h _ hs
  · intro h p hp
    cases p with
    | unfinished s => exact absurd hp (h s)
    | _ => rfl

instance (fmt : CString) : Decidable fmt.Finished := decidable_of_iff _ (finished_iff fmt)

/-- A format that is finished with arguments that match it. -/
structure Message where
  fmt : CString
  args : List Arg
  matched : (fmt.render args).isSome = true
  finished : fmt.Finished

namespace Message

/-- The pieces of a message with their texts. -/
def chunks (m : Message) : List (Piece × List Char) := (m.fmt.render m.args).get m.matched

/-- The full rendering of a message. -/
def text (m : Message) : List Char := textOf m.chunks

/-- A message renders to its pieces. -/
theorem render (m : Message) : m.fmt.render m.args = some m.chunks := (Option.some_get _).symm

end Message

/-- Calls of a formatter, each of which starts where the one before it would have ended. -/
def chain (size : Nat) : List Message → Int → F Int
  | [], len => return len
  | m :: rest, len => do
    let n ← kearlyVsnprintf len size m.fmt m.args
    chain size rest (int32 (len + n))

/-- All that was written lies inside the buffer. -/
def Printf.Inside (size : Nat) (s : Printf) : Prop := ∀ i ∈ s.written, 0 ≤ i ∧ i < size

/-- A run returns, and wrote inside the buffer only. -/
def Inside {α : Type} (size : Nat) (result : Except Halt (α × Printf)) : Prop :=
  ∃ a s', result = .ok (a, s') ∧ s'.Inside size

/-- A chain of messages returns, and keeps what was written before. -/
theorem chain_kept (size : Nat) (ms : List Message) (len : Int) :
    ∃ n s', chain size ms len s = .ok (n, s') ∧ ∀ i ∈ s.written, i ∈ s'.written := by
  induction ms generalizing s len with
  | nil => exact ⟨len, s, rfl, fun i hi => hi⟩
  | cons m ms ih =>
    obtain ⟨s₁, hrun, hcalled, -⟩ := kearlyVsnprintf_spec (s := s) size len m.render m.finished
    obtain ⟨n, s', hrun', hkept⟩ := ih (s := s₁) (int32 (len + int32 (textOf m.chunks).length))
    refine ⟨n, s', ?_, fun i hi => hkept i (hcalled.kept i hi)⟩
    rw [chain, bind_of_ok hrun]
    exact hrun'

/-- The length of all the texts of a chain. -/
def chainLength (ms : List Message) : Nat := (ms.map fun m => m.text.length).sum

/-- A chain that starts inside the buffer, but not at its beginning, stays inside exactly when its
texts fit into the rest of the buffer. -/
theorem chain_inside (hsize : size < 2 ^ 31) {ms : List Message} {pos : Nat} (hpos : 0 < pos)
    (hlt : pos < size) (hs : s.Inside size) :
    Inside size (chain size ms pos s) ↔ pos + chainLength ms < size := by
  induction ms generalizing s pos with
  | nil => exact ⟨fun _ => hlt, fun _ => ⟨pos, s, rfl, hs⟩⟩
  | cons m ms ih =>
    obtain ⟨s₁, hrun, hcalled, hprinted⟩ :=
      kearlyVsnprintf_spec (s := s) size pos m.render m.finished
    have hlength : chainLength (m :: ms) = m.text.length + chainLength ms := List.sum_cons
    have htext : m.text = textOf m.chunks := rfl
    rw [chain, bind_of_ok hrun, hlength]
    by_cases hfits : pos + m.text.length < size
    · have hp : PercentsBelow size 0 m.chunks :=
        percentsBelow_of_lt (renderPieces_percentTexts m.render) (by rw [← htext]; omega)
      have hpr := hprinted (by omega) hp
      rw [← htext] at hpr ⊢
      have hlen : int32 (pos + int32 m.text.length) = (pos + m.text.length : Nat) := by
        rw [int32_of_lt (n := m.text.length) (by omega), ← Nat.cast_add,
          int32_of_lt (n := pos + m.text.length) (by omega)]
      have hs₁ : s₁.Inside size := fun i hi => by
        rcases hpr.written i hi with hi | ⟨h1, h2⟩
        · exact hs i hi
        · exact ⟨by omega, by omega⟩
      rw [hlen, ih (by omega) hfits hs₁]
      omega
    · refine ⟨fun ⟨n, s', hrun', hin⟩ => ?_, fun h => by omega⟩
      obtain ⟨n', s'', hrun'', hkept⟩ := chain_kept (s := s₁) size ms
        (int32 (pos + int32 (textOf m.chunks).length))
      rw [hrun''] at hrun'
      cases hrun'
      obtain ⟨e, he, hle⟩ := hcalled.last
      have := (hin e (hkept e he)).2
      rw [← htext] at hle
      omega

/-- A chain of two parts. -/
theorem chain_append (ms ms' : List Message) (len : Int) :
    chain size (ms ++ ms') len = chain size ms len >>= chain size ms' := by
  induction ms generalizing len with
  | nil => rw [List.nil_append, chain, pure_bind]
  | cons m ms ih =>
    rw [List.cons_append, chain, chain, bind_assoc]
    exact bind_congr fun n => ih _

/-- A message without `%%` has room for every one of them. -/
theorem percentsBelow_of_noPercent {pieces : List Piece} {args : List Arg}
    {chunks : List (Piece × List Char)} {pos : Nat} (h : renderPieces pieces args = some chunks)
    (hno : Piece.percent ∉ pieces) : PercentsBelow size pos chunks := by
  induction pieces generalizing args chunks pos with
  | nil =>
    cases h
    trivial
  | cons p pieces ih =>
    rw [renderPieces] at h
    cases hp : p.render args with
    | none =>
      rw [hp] at h
      cases h
    | some r =>
      rw [hp] at h
      obtain ⟨rest, hrest, rfl⟩ := Option.map_eq_some_iff.1 h
      exact ⟨fun heq => absurd (heq ▸ List.mem_cons_self) hno,
        ih hrest fun hmem => hno (.tail _ hmem)⟩

/-- A first message at the beginning of the buffer, and further ones behind it. -/
def report (size : Nat) (m : Message) (ms : List Message) : F Unit := do
  let len ← kearlyVsnprintf 0 size m.fmt m.args
  let _ ← chain size ms len

/-- The messages of a report stay inside the buffer exactly when their texts fit into it
together. -/
theorem report_inside (hsize : size < 2 ^ 31) {m : Message} {ms : List Message}
    (hlength : 0 < m.text.length ∧ m.text.length + size < 2 ^ 32) (hms : ms ≠ [])
    (hno : Piece.percent ∉ m.fmt.pieces) {memory : Int → Char} :
    Inside size (report size m ms (.fresh memory)) ↔ chainLength (m :: ms) < size := by
  obtain ⟨s₁, hrun, hcalled, hprinted⟩ :=
    kearlyVsnprintf_spec (s := .fresh memory) size 0 m.render m.finished
  have htext : m.text = textOf m.chunks := rfl
  have hsum : chainLength (m :: ms) = m.text.length + chainLength ms := List.sum_cons
  have hunit : ∀ len, Inside size ((do let _ ← chain size ms len : F Unit) s₁) ↔
      Inside size (chain size ms len s₁) := fun len => by
    constructor
    · rintro ⟨_, s', hrun', hin⟩
      obtain ⟨n, s'', hrun'', hrest⟩ := bind_eq_ok.1 hrun'
      cases hrest
      exact ⟨n, _, hrun'', hin⟩
    · rintro ⟨n, s', hrun', hin⟩
      exact ⟨(), s', bind_of_ok hrun', hin⟩
  rw [report, bind_of_ok hrun, hunit, hsum, ← htext]
  by_cases hfits : m.text.length < size
  · have hpr := hprinted (by omega) (percentsBelow_of_noPercent m.render hno)
    rw [← htext] at hpr
    have hs₁ : s₁.Inside size := fun i hi => by
      rcases hpr.written i hi with hi | ⟨h1, h2⟩
      · cases hi
      · exact ⟨h1, by omega⟩
    rw [int32_of_lt (n := m.text.length) (by omega)]
    exact chain_inside hsize hlength.1 hfits hs₁
  · refine ⟨?_, fun h => by omega⟩
    rintro ⟨n, s', hrun', hin⟩
    obtain ⟨m', ms, rfl⟩ := List.exists_cons_of_ne_nil hms
    rw [chain] at hrun'
    obtain ⟨s₂, hrun₂, hcalled₂, -⟩ :=
      kearlyVsnprintf_spec (s := s₁) size (int32 m.text.length) m'.render m'.finished
    rw [bind_of_ok hrun₂] at hrun'
    obtain ⟨n', s'', hrun'', hkept⟩ := chain_kept (s := s₂) size ms
      (int32 (int32 m.text.length + int32 (textOf m'.chunks).length))
    rw [hrun''] at hrun'
    cases hrun'
    have hfirst := hin _ (hkept _ hcalled₂.first)
    simp only [int32, Int.bmod_def] at hfirst
    omega

/-! ## `kpanic_ndu` -/

def panicTitleMessage : Message := ⟨panicTitle, [], rfl, by decide⟩

def panicAtMessage (file : CString) (line : UInt32) : Message :=
  ⟨panicAt, [.str file, .u32 line], rfl, by decide⟩

def panicErrorMessage (errorNumber : UInt32) : Message :=
  ⟨panicError, [.u32 errorNumber], rfl, by decide⟩

def panicCallStackMessage : Message := ⟨panicCallStack, [], rfl, by decide⟩

def panicRaddrMessage (raddr : UInt32) : Message := ⟨panicRaddr, [.u32 raddr], rfl, by decide⟩

def panicEndMessage : Message := ⟨panicEnd, [], rfl, by decide⟩

/-- The messages before the one that the caller passes. -/
def panicStart (errorNumber line : UInt32) (file : CString) : List Message :=
  [panicAtMessage file line, panicErrorMessage errorNumber]

/-- The messages behind it. -/
def panicRest (raddrs : List UInt32) : List Message :=
  panicCallStackMessage :: ((raddrs.takeWhile (· > 0)).map panicRaddrMessage ++ [panicEndMessage])

/-- The messages of a panic. -/
def panicMessages (raddrs : List UInt32) (errorNumber line : UInt32) (file : CString)
    (m : Message) : List Message :=
  panicTitleMessage :: (panicStart errorNumber line file ++ m :: panicRest raddrs)

/-- The call stack is a chain of messages, one for each address. -/
theorem callStackFrom_eq (raddrs : List UInt32) (len : Int) :
    callStackFrom raddrs len =
      chain maxPrintableStringLength ((raddrs.takeWhile (· > 0)).map panicRaddrMessage) len := by
  induction raddrs generalizing len with
  | nil => rfl
  | cons raddr raddrs ih =>
    rw [callStackFrom]
    by_cases hpos : raddr > 0
    · rw [if_pos hpos, List.takeWhile_cons_of_pos (by simpa using hpos), List.map_cons, chain]
      exact bind_congr fun n => ih _
    · rw [if_neg hpos, List.takeWhile_cons_of_neg (by simpa using hpos)]
      rfl

/-- `kpanic_ndu` is a chain around the message of its caller. -/
theorem kpanicNdu_eq (raddrs : List UInt32) (errorNumber line : UInt32) (file fmt : CString)
    (l : List Arg) :
    kpanicNdu raddrs errorNumber line file fmt l = (do
      let len ← kearlyVsnprintf 0 maxPrintableStringLength panicTitle []
      let len ← chain maxPrintableStringLength (panicStart errorNumber line file) len
      let n ← kearlyVsnprintf len maxPrintableStringLength fmt l
      let _ ← chain maxPrintableStringLength (panicRest raddrs) (int32 (len + n))) := by
  simp only [kpanicNdu, panicStart, panicRest, chain, chain_append, callStackFrom_eq,
    kearlySnprintf,
    bind_assoc, pure_bind]
  rfl

/-! ## The log functions -/

def kdebugHeader (type : DebugLogType) (tickCount : UInt32) (func : CString) (line : UInt32) :
    Message :=
  ⟨kdebugMessage type, logArgs type tickCount func line, by cases type <;> rfl,
    by cases type <;> decide⟩

def cmDebugHeader (type : DebugLogType) (tickCount : UInt32) (func : CString) (line : UInt32) :
    Message :=
  ⟨cmDebugMessage type, logArgs type tickCount func line, by cases type <;> rfl,
    by cases type <;> decide⟩

/-! The length of a header is bounded by those of its format and its arguments. -/

/-- The length of the characters of a piece that are not an argument. -/
def Piece.ownLength : Piece → Nat
  | .literal s | .unfinished s => s.length
  | .percent => 1
  | .number _ _ iden => iden.length
  | .string => 0

/-- A bound of the length of the text of an argument. -/
def Arg.textLength : Arg → Nat
  | .u32 _ | .u64 _ => 64
  | .str s => s.chars.length

/-- The bases of the conversions. -/
def Piece.baseOk : Piece → Bool
  | .number _ base _ => decide (2 ≤ base)
  | _ => true

/-- The headers of `kdebug_log_ndu` are short. -/
theorem kdebugMessage_pieces (type : DebugLogType) :
    Piece.percent ∉ (kdebugMessage type).pieces ∧
      (∀ p ∈ (kdebugMessage type).pieces, p.baseOk = true) ∧
      ((kdebugMessage type).pieces.map Piece.ownLength).sum ≤ 100 := by
  cases type <;> decide

/-- So are those of `cm_debug_log_ndu`. -/
theorem cmDebugMessage_pieces (type : DebugLogType) :
    Piece.percent ∉ (cmDebugMessage type).pieces ∧
      (∀ p ∈ (cmDebugMessage type).pieces, p.baseOk = true) ∧
      ((cmDebugMessage type).pieces.map Piece.ownLength).sum ≤ 100 := by
  cases type <;> decide

/-- A piece renders to its own length and that of its argument at most. -/
theorem render_length_le {p : Piece} {args args' : List Arg} {text : List Char}
    (hbase : p.baseOk = true) (h : p.render args = some (text, args')) :
    text.length + (args'.map Arg.textLength).sum ≤
      p.ownLength + (args.map Arg.textLength).sum := by
  have hnumber : ∀ {base : Nat} {v : Nat} {iden : List Char} {rest : Nat}, 2 ≤ base → v < 2 ^ 64 →
      (digitText base v ++ iden).length + rest ≤ iden.length + (64 + rest) := fun hb hv => by
    have := digitText_length_le hb hv
    rw [List.length_append]
    omega
  have hu32 : ∀ v : UInt32, v.toNat < 2 ^ 64 := fun v => Nat.lt_trans v.toNat_lt (by decide)
  unfold Piece.render at h
  split at h
  case h_1 | h_2 | h_3 =>
    cases h
    exact Nat.le_refl _
  case h_4 v args =>
    cases h
    exact hnumber (of_decide_eq_true hbase) v.toNat_lt
  case h_5 v args | h_6 v args | h_7 v args =>
    cases h
    exact hnumber (of_decide_eq_true hbase) (hu32 v)
  case h_8 v args =>
    cases h
    simp [Piece.ownLength, Arg.textLength]
  case h_9 => cases h

/-- So does a format. -/
theorem renderPieces_length_le {pieces : List Piece} {args : List Arg}
    {chunks : List (Piece × List Char)} (hbase : ∀ p ∈ pieces, p.baseOk = true)
    (h : renderPieces pieces args = some chunks) :
    (textOf chunks).length ≤ (pieces.map Piece.ownLength).sum + (args.map Arg.textLength).sum := by
  induction pieces generalizing args chunks with
  | nil =>
    cases h
    exact Nat.zero_le _
  | cons p pieces ih =>
    rw [renderPieces] at h
    cases hp : p.render args with
    | none =>
      rw [hp] at h
      cases h
    | some r =>
      obtain ⟨text, args'⟩ := r
      rw [hp] at h
      obtain ⟨rest, hrest, rfl⟩ := Option.map_eq_some_iff.1 h
      have hle := render_length_le (hbase p (by simp)) hp
      have hle' := ih (fun q hq => hbase q (.tail _ hq)) hrest
      have hlen : (textOf ((p, text) :: rest)).length = text.length + (textOf rest).length :=
        List.length_append
      rw [hlen, List.map_cons, List.sum_cons]
      omega

/-- A message with the arguments of a log header is short, apart from the name of the function. -/
theorem header_length_lt {m : Message} {type : DebugLogType} {tickCount line : UInt32}
    {func : CString} (hargs : m.args = logArgs type tickCount func line)
    (hbase : ∀ p ∈ m.fmt.pieces, p.baseOk = true)
    (hown : (m.fmt.pieces.map Piece.ownLength).sum ≤ 100) : m.text.length + 4000 < 2 ^ 32 := by
  have hle := renderPieces_length_le hbase m.render
  have hfunc := func.fits
  have hsum : (m.args.map Arg.textLength).sum ≤ func.chars.length + 200 := by
    have hcolor : (logColor type).chars.length ≤ 5 := by cases type <;> decide
    rw [hargs]
    simp only [logArgs, List.map_cons, List.map_nil, List.sum_cons, List.sum_nil, Arg.textLength]
    have hgray : ansiColGray.chars.length = 5 := by decide
    have hreset : ansiColReset.chars.length = 4 := by decide
    omega
  have htext : m.text = textOf m.chunks := rfl
  rw [htext]
  omega

/-! ## The guarantee -/

/-- A call whose format is not finished ends a chain. -/
theorem not_inside_of_error {α : Type} {x : F α} {e : Halt} (h : x s = .error e) :
    ¬ Inside size (x s) := by
  rintro ⟨a, s', hrun, -⟩
  rw [h] at hrun
  cases hrun

/-- A log function stays inside its buffer exactly when the header and the message fit into it. -/
theorem log_inside {m : Message} (hsize : size < 2 ^ 31)
    (hlength : 0 < m.text.length ∧ m.text.length + size < 2 ^ 32)
    (hno : Piece.percent ∉ m.fmt.pieces) {fmt : CString} {l : List Arg}
    (hmatched : (fmt.render l).isSome = true) {memory : Int → Char} :
    Inside size ((do
      let len ← kearlyVsnprintf 0 size m.fmt m.args
      let _ ← kearlyVsnprintf len size fmt l : F Unit) (.fresh memory)) ↔
      ∃ hfin : fmt.Finished, chainLength [m, ⟨fmt, l, hmatched, hfin⟩] < size := by
  by_cases hfin : fmt.Finished
  · have hreport : (do
        let len ← kearlyVsnprintf 0 size m.fmt m.args
        let _ ← kearlyVsnprintf len size fmt l : F Unit) =
          report size m [⟨fmt, l, hmatched, hfin⟩] := by
      simp only [report, chain, bind_assoc, pure_bind]
    rw [hreport, report_inside hsize hlength (by simp) hno]
    exact ⟨fun h => ⟨hfin, h⟩, fun ⟨_, h⟩ => h⟩
  · obtain ⟨s₁, hrun, -⟩ :=
      kearlyVsnprintf_spec (s := .fresh memory) size 0 m.render m.finished
    refine ⟨fun h => absurd h (not_inside_of_error (e := .fault) ?_), fun ⟨h, _⟩ => absurd h hfin⟩
    rw [bind_of_ok hrun]
    exact bind_of_error (kearlyVsnprintf_unfinished _ (Option.some_get hmatched).symm hfin)

/-- `kpanic_ndu` stays inside its buffer exactly when all its messages fit into it. -/
theorem kpanicNdu_inside {raddrs : List UInt32} {errorNumber line : UInt32} {file fmt : CString}
    {l : List Arg} (hmatched : (fmt.render l).isSome = true) {memory : Int → Char} :
    Inside maxPrintableStringLength
        (kpanicNdu raddrs errorNumber line file fmt l (.fresh memory)) ↔
      ∃ hfin : fmt.Finished,
        chainLength (panicMessages raddrs errorNumber line file ⟨fmt, l, hmatched, hfin⟩) <
          maxPrintableStringLength := by
  rw [kpanicNdu_eq]
  by_cases hfin : fmt.Finished
  · have hreport : (do
        let len ← kearlyVsnprintf 0 maxPrintableStringLength panicTitle []
        let len ← chain maxPrintableStringLength (panicStart errorNumber line file) len
        let n ← kearlyVsnprintf len maxPrintableStringLength fmt l
        let _ ← chain maxPrintableStringLength (panicRest raddrs) (int32 (len + n)) : F Unit) =
          report maxPrintableStringLength panicTitleMessage
            (panicStart errorNumber line file ++ ⟨fmt, l, hmatched, hfin⟩ :: panicRest raddrs) := by
      simp only [report, chain, chain_append, bind_assoc]
      rfl
    rw [hreport, report_inside (by decide) (by decide) (by simp) (by decide)]
    exact ⟨fun h => ⟨hfin, h⟩, fun ⟨_, h⟩ => h⟩
  · obtain ⟨s₁, hrun, -⟩ := kearlyVsnprintf_spec (s := .fresh memory)
      maxPrintableStringLength 0 panicTitleMessage.render panicTitleMessage.finished
    obtain ⟨len, s₂, hstart, -⟩ := chain_kept (s := s₁) maxPrintableStringLength
      (panicStart errorNumber line file) (int32 (textOf panicTitleMessage.chunks).length)
    refine ⟨fun h => absurd h (not_inside_of_error (e := .fault) ?_), fun ⟨h, _⟩ => absurd h hfin⟩
    have hrun : kearlyVsnprintf 0 maxPrintableStringLength panicTitle [] (.fresh memory) = _ := hrun
    rw [bind_of_ok hrun, bind_of_ok hstart]
    exact bind_of_error (kearlyVsnprintf_unfinished _ (Option.some_get hmatched).symm hfin)

/-- `kdebug_log_ndu` writes a header and the text. -/
theorem kdebugLogNdu_inside {type : DebugLogType} {tickCount line : UInt32} {func fmt : CString}
    {l : List Arg} (hmatched : (fmt.render l).isSome = true) {memory : Int → Char} :
    Inside maxPrintableStringLength
        (kdebugLogNdu type tickCount func line fmt l (.fresh memory)) ↔
      ∃ hfin, chainLength [kdebugHeader type tickCount func line, ⟨fmt, l, hmatched, hfin⟩] <
        maxPrintableStringLength := by
  obtain ⟨hno, hbase, hown⟩ := kdebugMessage_pieces type
  have hlength : (kdebugHeader type tickCount func line).text.length + 4000 < 2 ^ 32 :=
    header_length_lt rfl hbase hown
  have hpos : 0 < (kdebugHeader type tickCount func line).text.length := by
    cases type <;> exact Nat.succ_pos _
  exact log_inside (m := kdebugHeader type tickCount func line) (by decide) ⟨hpos, hlength⟩ hno
    hmatched

/-- So does `cm_debug_log_ndu`. -/
theorem cmDebugLogNdu_inside {type : DebugLogType} {tickCount line : UInt32} {func fmt : CString}
    {l : List Arg} (hmatched : (fmt.render l).isSome = true) {memory : Int → Char} :
    Inside cmMaxPrintableStringLength
        (cmDebugLogNdu type tickCount func line fmt l (.fresh memory)) ↔
      ∃ hfin, chainLength [cmDebugHeader type tickCount func line, ⟨fmt, l, hmatched, hfin⟩] <
        cmMaxPrintableStringLength := by
  obtain ⟨hno, hbase, hown⟩ := cmDebugMessage_pieces type
  have hlength : (cmDebugHeader type tickCount func line).text.length + 4000 < 2 ^ 32 :=
    header_length_lt rfl hbase hown
  have hpos : 0 < (cmDebugHeader type tickCount func line).text.length := by
    cases type <;> exact Nat.succ_pos _
  exact log_inside (m := cmDebugHeader type tickCount func line) (by decide)
    ⟨hpos, Nat.lt_trans (Nat.add_lt_add_left (by decide) _) hlength⟩ hno hmatched

/-! ## `s_callPanic` -/

def stackFrame (frame : InterruptFrame) : Message :=
  ⟨stackFrameMessage, [.u32 frame.ip, .u32 frame.cs, .u32 frame.flags, .u32 frame.sp,
    .u32 frame.ss],
    rfl, by decide⟩

/-- `s_appendStackFrame` is one message. -/
theorem sAppendStackFrame_eq (frame : InterruptFrame) (buffer size : Int) :
    sAppendStackFrame frame buffer size = (do
      let _ ← kearlyVsnprintf buffer (size % 2 ^ 32).toNat (stackFrame frame).fmt
        (stackFrame frame).args) := rfl

/-- A number that an `INT` turns into an offset of the buffer has that offset as its low bits. -/
theorem mod_of_int32 {n : Int} (h0 : 0 ≤ int32 n) : n % 2 ^ 32 = int32 n := by
  simp only [int32, Int.bmod_def] at h0 ⊢
  omega

/-- `s_callPanic` stays inside its buffer exactly when the length that the first call returns does,
and every `%%` of it has room. -/
theorem sCallPanic_inside {frame : InterruptFrame} {fmt : CString} {l : List Arg}
    (hmatched : (fmt.render l).isSome = true) {memory : Int → Char} :
    Inside maxPrintableStringLength (sCallPanic frame fmt l (.fresh memory)) ↔
      fmt.Finished ∧
        PercentsBelow maxPrintableStringLength 0 ((fmt.render l).get hmatched) ∧
        (textOf ((fmt.render l).get hmatched)).length % 2 ^ 32 < maxPrintableStringLength := by
  have hrender : fmt.render l = some ((fmt.render l).get hmatched) :=
    (Option.some_get hmatched).symm
  generalize (fmt.render l).get hmatched = chunks at hrender ⊢
  rw [sCallPanic]
  by_cases hfin : fmt.Finished
  · obtain ⟨s₁, hrun, hcalled, hprinted⟩ :=
      kearlyVsnprintf_spec (s := .fresh memory) maxPrintableStringLength 0 hrender hfin
    have hmax : maxPrintableStringLength = 4000 := rfl
    rw [bind_of_ok hrun, sAppendStackFrame_eq]
    generalize hlen : int32 (textOf chunks).length = len
    generalize hsize : (int32 (maxPrintableStringLength - len) % 2 ^ 32).toNat = size
    obtain ⟨s₂, hrun₂, hcalled₂, hprinted₂⟩ := kearlyVsnprintf_spec (s := s₁) size len
      (stackFrame frame).render (stackFrame frame).finished
    have hinside : Inside maxPrintableStringLength ((do
        let _ ← kearlyVsnprintf len size (stackFrame frame).fmt (stackFrame frame).args : F Unit)
          s₁) ↔
          s₂.Inside maxPrintableStringLength := by
      rw [bind_of_ok hrun₂]
      constructor
      · rintro ⟨_, s', hret, hin⟩
        cases hret
        exact hin
      · exact fun hin => ⟨(), s₂, rfl, hin⟩
    rw [hinside]
    by_cases hfits : (textOf chunks).length % 2 ^ 32 < maxPrintableStringLength
    · have hlen' : len = ((textOf chunks).length % 2 ^ 32 : Nat) := by
        rw [← hlen, int32, Int.bmod_def]
        omega
      have hsize' : size = maxPrintableStringLength - (textOf chunks).length % 2 ^ 32 := by
        rw [← hsize, int32, Int.bmod_def]
        omega
      have hpr₂ := hprinted₂ (by omega)
        (percentsBelow_of_noPercent (stackFrame frame).render
          (show Piece.percent ∉ stackFrameMessage.pieces by decide))
      constructor
      · intro hin
        refine ⟨hfin, ?_, hfits⟩
        by_contra hno
        obtain ⟨e, he, hle⟩ := hcalled.beyond fun h => hno h.2
        have := (hin e (hcalled₂.kept e he)).2
        omega
      · rintro ⟨-, hp, -⟩ i hi
        have hpr := hprinted (by decide) hp
        rcases hpr₂.written i hi with hi | ⟨h1, h2⟩
        · rcases hpr.written i hi with hi | ⟨h1, h2⟩
          · cases hi
          · exact ⟨h1, by omega⟩
        · exact ⟨by omega, by omega⟩
    · refine ⟨fun hin => ?_, fun h => absurd h.2.2 hfits⟩
      have hfirst := hin len hcalled₂.first
      rw [← hlen] at hfirst
      have := mod_of_int32 hfirst.1
      omega
  · refine ⟨fun h => absurd h (not_inside_of_error (e := .fault) ?_), fun h => absurd h.1 hfin⟩
    exact bind_of_error (kearlyVsnprintf_unfinished _ hrender hfin)

/-- The messages of the four functions are written inside their buffers exactly when, with a format
that is finished, all their texts fit together; for `s_callPanic`, when the length that the first
call returns fits, and every `%%` in its text has room. -/
theorem messages_inside {fmt : CString} {l : List Arg} (hmatched : (fmt.render l).isSome = true)
    {memory : Int → Char} :
    (∀ raddrs errorNumber line file,
      Inside maxPrintableStringLength
          (kpanicNdu raddrs errorNumber line file fmt l (.fresh memory)) ↔
        ∃ hfin, chainLength (panicMessages raddrs errorNumber line file ⟨fmt, l, hmatched, hfin⟩) <
          maxPrintableStringLength) ∧
    (∀ type tickCount func line,
      Inside maxPrintableStringLength
          (kdebugLogNdu type tickCount func line fmt l (.fresh memory)) ↔
        ∃ hfin, chainLength [kdebugHeader type tickCount func line, ⟨fmt, l, hmatched, hfin⟩] <
          maxPrintableStringLength) ∧
    (∀ type tickCount func line,
      Inside cmMaxPrintableStringLength
          (cmDebugLogNdu type tickCount func line fmt l (.fresh memory)) ↔
        ∃ hfin, chainLength [cmDebugHeader type tickCount func line, ⟨fmt, l, hmatched, hfin⟩] <
          cmMaxPrintableStringLength) ∧
    ∀ frame, Inside maxPrintableStringLength (sCallPanic frame fmt l (.fresh memory)) ↔
      fmt.Finished ∧
        PercentsBelow maxPrintableStringLength 0 ((fmt.render l).get hmatched) ∧
        (textOf ((fmt.render l).get hmatched)).length % 2 ^ 32 < maxPrintableStringLength := by
  exact ⟨fun _ _ _ _ => kpanicNdu_inside hmatched, fun _ _ _ _ => kdebugLogNdu_inside hmatched,
    fun _ _ _ _ => cmDebugLogNdu_inside hmatched, fun _ => sCallPanic_inside hmatched⟩

/-- A name of 4000 characters. -/
def longName : CString where
  chars := List.replicate 4000 'a'
  noNul := fun h => absurd (List.eq_of_mem_replicate h) (by decide)
  fits := by
    rw [List.length_replicate]
    decide

def shortName : CString := { chars := "pmm.c".toList }

/-- The message `No memory`. -/
def noMemory : CString := { chars := "No memory".toList }

/-- The format of the test is finished. -/
theorem noMemory_finished : noMemory.Finished := by decide

/-- A panic in a file with a short name stays inside its buffer, and so do the other messages. -/
theorem messages_inside_short :
    Inside maxPrintableStringLength (kpanicNdu [0xC0100000] 3 7 shortName noMemory [] dots) ∧
      Inside maxPrintableStringLength (kdebugLogNdu .info 1 shortName 7 noMemory [] dots) ∧
      Inside cmMaxPrintableStringLength (cmDebugLogNdu .info 1 shortName 7 noMemory [] dots) ∧
      Inside maxPrintableStringLength (sCallPanic ⟨0, 8, 2, 0, 16⟩ noMemory [] dots) := by
  obtain ⟨hpanic, hdebug, hcm, hcall⟩ := @messages_inside noMemory [] rfl fun _ => '.'
  refine ⟨(hpanic _ _ _ _).2 ⟨noMemory_finished, ?_⟩, (hdebug _ _ _ _).2 ⟨noMemory_finished, ?_⟩,
    (hcm _ _ _ _).2 ⟨noMemory_finished, ?_⟩, (hcall _).2 ⟨noMemory_finished, ?_, ?_⟩⟩
  · decide +kernel
  · decide +kernel
  · decide +kernel
  · exact percentsBelow_of_noPercent (Option.some_get _).symm
      (show Piece.percent ∉ noMemory.pieces by decide)
  · decide +kernel

/-- The name of a file or of a function alone can be longer than the buffer. -/
theorem messages_inside_long :
    ¬ Inside maxPrintableStringLength (kpanicNdu [] 3 7 longName noMemory [] dots) ∧
      ¬ Inside maxPrintableStringLength (kdebugLogNdu .info 1 longName 7 noMemory [] dots) ∧
      ¬ Inside cmMaxPrintableStringLength (cmDebugLogNdu .info 1 longName 7 noMemory [] dots) ∧
      ¬ Inside maxPrintableStringLength
        (sCallPanic ⟨0, 8, 2, 0, 16⟩ { chars := "%s".toList } [.str longName] dots) := by
  refine ⟨fun h => ?_, fun h => ?_, fun h => ?_, fun h => ?_⟩
  · obtain ⟨_, hlt⟩ := (kpanicNdu_inside rfl).1 h
    have hlt : chainLength (panicMessages [] 3 7 longName ⟨noMemory, [], rfl, noMemory_finished⟩) <
      maxPrintableStringLength := hlt
    exact absurd hlt (by decide +kernel)
  · obtain ⟨_, hlt⟩ := (kdebugLogNdu_inside rfl).1 h
    have hlt : chainLength [kdebugHeader .info 1 longName 7,
      ⟨noMemory, [], rfl, noMemory_finished⟩] <
      maxPrintableStringLength := hlt
    exact absurd hlt (by decide +kernel)
  · obtain ⟨_, hlt⟩ := (cmDebugLogNdu_inside rfl).1 h
    have hlt : chainLength [cmDebugHeader .info 1 longName 7,
      ⟨noMemory, [], rfl, noMemory_finished⟩] <
      cmMaxPrintableStringLength := hlt
    exact absurd hlt (by decide +kernel)
  · exact absurd ((sCallPanic_inside rfl).1 h).2.2 (by decide +kernel)

end MeghaOS
