import MeghaOS.BootFile
import MeghaOS.Lib.Written

/-!
# File names and the boot files stored under them

`convert_to_f12_filename` keeps `di` at the number of characters that it has written, also across a
dot, where the index is moved and then made one less for the loop to make it one more. So the result
has always eleven characters, and those of a name in 8.3 form are its two parts, each padded with
spaces.
-/

namespace MeghaOS

open Exec

/-! ## What is written -/

/-- The characters written by the loop over the name, after those of `acc`. -/
def f12Loop : List UInt8 → List UInt8 → List UInt8
  | [], acc => acc
  | c :: fn, acc =>
    if c ≠ 0 ∧ acc.length < 11 then
      if c = charDot then f12Loop fn (acc ++ .replicate (8 - acc.length) charSpace)
      else f12Loop fn (acc ++ [c])
    else acc

/-- The characters written for a name. -/
def f12Chars (fn : List UInt8) : List UInt8 :=
  f12Loop fn [] ++ .replicate (11 - (f12Loop fn []).length) charSpace

section Written

variable {m : Memory} {p n : Nat} {fn acc : List UInt8}

theorem storeSpaces_written (di : Nat) :
    storeSpaces n di (p + acc.length) (written m p acc) =
      .ok ((di + n, p + acc.length + n), written m p (acc ++ .replicate n charSpace)) := by
  induction n generalizing di acc with
  | zero => simp [storeSpaces]
  | succ n ih =>
    have hstore : storeByte (p + acc.length) charSpace (written m p acc) =
        .ok ((), written m p (acc ++ [charSpace])) := by
      rw [storeByte, modify_apply, written_concat]
    have hlen : acc.length + 1 = (acc ++ [charSpace]).length := by simp
    have hout : p + (acc ++ [charSpace]).length + n = p + acc.length + (n + 1) := by simp; omega
    rw [storeSpaces, bind_of_ok hstore, Nat.add_assoc, hlen, ih, hout, Nat.add_right_comm,
      Nat.add_assoc di,
      List.append_assoc, List.singleton_append, ← List.replicate_succ]

/-- The index is the number of characters written. -/
theorem f12FilenameLoop_written :
    f12FilenameLoop fn acc.length (p + acc.length) (written m p acc) =
      .ok (((f12Loop fn acc).length, p + (f12Loop fn acc).length),
        written m p (f12Loop fn acc)) := by
  induction fn generalizing acc with
  | nil => rfl
  | cons c fn ih =>
    rw [f12FilenameLoop, f12Loop]
    by_cases hmore : c ≠ 0 ∧ acc.length < 11
    · rw [if_pos hmore, if_pos hmore]
      by_cases hdot : c = charDot
      · rw [if_pos hdot, if_pos hdot, bind_of_ok (storeSpaces_written _)]
        have hlen : acc.length + (8 - acc.length) =
            (acc ++ .replicate (8 - acc.length) charSpace).length := by
          simp
        show f12FilenameLoop fn (acc.length + (8 - acc.length) - 1 + 1)
          (p + acc.length + (8 - acc.length)) _ = _
        rw [Nat.sub_add_cancel (by omega), Nat.add_assoc, hlen]
        exact ih
      · rw [if_neg hdot, if_neg hdot]
        have hstore : storeByte (p + acc.length) c (written m p acc) =
            .ok ((), written m p (acc ++ [c])) := by
          rw [storeByte, modify_apply, written_concat]
        have hlen : acc.length + 1 = (acc ++ [c]).length := by simp
        rw [bind_of_ok hstore, Nat.add_assoc, hlen]
        exact ih
    · rw [if_neg hmore, if_neg hmore]
      rfl

theorem length_f12Loop_le (hacc : acc.length ≤ 11) : (f12Loop fn acc).length ≤ 11 := by
  induction fn generalizing acc with
  | nil => exact hacc
  | cons c fn ih =>
    rw [f12Loop]
    split
    · split
      · exact ih (by simp; omega)
      · exact ih (by simp; omega)
    · exact hacc

theorem length_f12Chars (fn : List UInt8) : (f12Chars fn).length = 11 := by
  have hle : (f12Loop fn []).length ≤ 11 := length_f12Loop_le (by simp)
  rw [f12Chars, List.length_append, List.length_replicate]
  omega

/-- A name is converted to eleven characters, which are stored at `out`. -/
theorem convertToF12Filename_eq (fn : List UInt8) (out : Nat) (m : Memory) :
    convertToF12Filename fn out m = .ok ((), written m out (f12Chars fn)) := by
  have hloop : f12FilenameLoop fn 0 out m =
      .ok (((f12Loop fn []).length, out + (f12Loop fn []).length),
          written m out (f12Loop fn [])) := by
    rw [← f12FilenameLoop_written, written_nil]
    rfl
  rw [convertToF12Filename, bind_of_ok hloop]
  exact bind_of_ok (storeSpaces_written _)

/-- No character that is written is a `NUL`. -/
theorem ne_zero_of_mem_f12Loop (hacc : ∀ c ∈ acc, c ≠ 0) : ∀ c ∈ f12Loop fn acc, c ≠ 0 := by
  induction fn generalizing acc with
  | nil => exact hacc
  | cons c fn ih =>
    rw [f12Loop]
    split
    · split
      · refine ih fun c' hc' => ?_
        rcases List.mem_append.1 hc' with hc' | hc'
        · exact hacc c' hc'
        · rw [List.eq_of_mem_replicate hc']
          decide
      · refine ih fun c' hc' => ?_
        rcases List.mem_append.1 hc' with hc' | hc'
        · exact hacc c' hc'
        · rw [List.mem_singleton.1 hc']
          exact (by assumption : c ≠ 0 ∧ _).1
    · exact hacc

theorem ne_zero_of_mem_f12Chars : ∀ c ∈ f12Chars fn, c ≠ 0 := by
  intro c hc
  rcases List.mem_append.1 hc with hc | hc
  · exact ne_zero_of_mem_f12Loop (by simp) c hc
  · rw [List.eq_of_mem_replicate hc]
    decide

end Written

/-! ## Names in 8.3 form -/

/-- A name of one to eight characters and an extension of up to three. -/
structure F12Name where
  name : List UInt8
  ext : List UInt8
  name_pos : 0 < name.length
  name_le : name.length ≤ 8
  ext_le : ext.length ≤ 3
  plain : ∀ c ∈ name ++ ext, c ≠ 0 ∧ c ≠ charDot

namespace F12Name

/-- The name as it is passed in. -/
def text (f : F12Name) : List UInt8 := f.name ++ charDot :: f.ext

/-- The name as a directory has it. -/
def padded (f : F12Name) : List UInt8 :=
  (f.name ++ .replicate (8 - f.name.length) charSpace) ++ (f.ext ++ .replicate
    (3 - f.ext.length) charSpace)

/-- Neither part ends with a space. -/
def Trimmed (f : F12Name) : Prop := f.name.getLast? ≠ some charSpace ∧ f.ext.getLast? ≠
    some charSpace

end F12Name

/-- Characters that are no dot are taken over. -/
theorem f12Loop_append {xs fn acc : List UInt8} (hplain : ∀ c ∈ xs, c ≠ 0 ∧ c ≠ charDot)
    (hlen : acc.length + xs.length ≤ 11) : f12Loop (xs ++ fn) acc = f12Loop fn (acc ++ xs) := by
  induction xs generalizing acc with
  | nil => simp
  | cons c xs ih =>
    rw [List.length_cons] at hlen
    obtain ⟨hzero, hdot⟩ := hplain c (.head _)
    rw [List.cons_append, f12Loop, if_pos ⟨hzero, by omega⟩, if_neg hdot,
      ih (fun c' hc' => hplain c' (.tail _ hc')) (by simp; omega), List.append_assoc,
        List.singleton_append]

/-- The two parts of a name are padded to eight and three characters. -/
theorem f12Chars_text (f : F12Name) : f12Chars f.text = f.padded := by
  have hname := f.name_le
  have hext := f.ext_le
  have hloop : f12Loop f.text [] = f.name ++ .replicate (8 - f.name.length) charSpace ++ f.ext := by
    rw [F12Name.text, f12Loop_append (fun c hc => f.plain c (List.mem_append_left _ hc))
      (by simp; omega),
      List.nil_append, f12Loop, if_pos ⟨by decide, by omega⟩, if_pos rfl]
    rw [← List.append_nil f.ext, f12Loop_append (fun c hc => f.plain c (List.mem_append_right _ hc))
      (by simp; omega), List.append_nil]
    rfl
  have hlen : 11 - (f12Loop f.text []).length = 3 - f.ext.length := by
    rw [hloop]
    simp
    omega
  rw [f12Chars, hlen, hloop, F12Name.padded]
  simp only [List.append_assoc]

/-- A part without spaces at its end can be read off the padded one. -/
theorem eq_of_padded_eq {xs ys : List UInt8} {c : UInt8} {i j : Nat} (hxs : xs.getLast? ≠ some c)
    (hys : ys.getLast? ≠ some c) (h : xs ++ .replicate i c = ys ++ .replicate j c) : xs = ys := by
  -- what the longer part has behind the shorter one is padding of that one
  have htail {zs ws : List UInt8} (hlast : (zs ++ ws).getLast? ≠ some c)
      (hws : ∀ w ∈ ws, w = c) : ws = [] := by
    rcases List.eq_nil_or_concat ws with rfl | ⟨ws, w, rfl⟩
    · rfl
    · obtain rfl := hws w (by simp)
      exact absurd (by simp) hlast
  rcases List.append_eq_append_iff.1 h with ⟨ws, rfl, hpad⟩ | ⟨ws, rfl, hpad⟩
  · have hws : ∀ w ∈ ws, w = c := fun w hw =>
      List.eq_of_mem_replicate (n := i) (by rw [hpad]; exact List.mem_append_left _ hw)
    rw [htail hys hws, List.append_nil]
  · have hws : ∀ w ∈ ws, w = c := fun w hw =>
      List.eq_of_mem_replicate (n := j) (by rw [hpad]; exact List.mem_append_left _ hw)
    rw [htail hxs hws, List.append_nil]

/-- Names without spaces at the end of a part are told apart. -/
theorem F12Name.text_eq_of_padded_eq {f g : F12Name} (hf : f.Trimmed) (hg : g.Trimmed)
    (h : f.padded = g.padded) : f.text = g.text := by
  have hname := f.name_le
  have hname' := g.name_le
  obtain ⟨hnames, hexts⟩ := List.append_inj h (by simp; omega)
  rw [text, text, eq_of_padded_eq hf.1 hg.1 hnames, eq_of_padded_eq hf.2 hg.2 hexts]

/-! ## Looking a file up -/

/-- Arrays of the length that is compared are compared as a whole. -/
theorem kMemcmp_eq {dest src : List UInt8} {n : Nat} (hdest : dest.length = n)
    (hsrc : src.length = n) :
    kMemcmp dest src n = .ok (decide (dest = src)) := by
  induction n generalizing dest src with
  | zero =>
    obtain rfl := List.length_eq_zero_iff.1 hdest
    obtain rfl := List.length_eq_zero_iff.1 hsrc
    rfl
  | succ n ih =>
    obtain ⟨d, dest, rfl⟩ := List.exists_cons_of_length_eq_add_one hdest
    obtain ⟨s, src, rfl⟩ := List.exists_cons_of_length_eq_add_one hsrc
    rw [kMemcmp]
    by_cases heq : d = s
    · rw [if_pos heq, ih (Nat.succ_injective hdest) (Nat.succ_injective hsrc)]
      simp [heq]
    · rw [if_neg heq]
      simp [heq]

/-- A string without a `NUL` has its length. -/
theorem kStrlen_eq {s rest : List UInt8} (hs : ∀ c ∈ s, c ≠ 0) :
    kStrlen (s ++ 0 :: rest) = .ok s.length := by
  induction s with
  | nil => rfl
  | cons c s ih =>
    rw [List.cons_append, kStrlen, if_pos (hs c (.head _)), ih fun c' hc' => hs c' (.tail _ hc')]
    rfl

/-- What is written is read back. -/
theorem loadBytes_written {m : Memory} {p : Nat} {acc xs : List UInt8} :
    loadBytes xs.length (p + acc.length) (written m p (acc ++ xs)) =
      .ok (xs, written m p (acc ++ xs)) := by
  induction xs generalizing acc with
  | nil => rfl
  | cons x xs ih =>
    have hload : loadByte (p + acc.length) (written m p (acc ++ x :: xs)) =
        .ok (x, written m p (acc ++ x :: xs)) := by
      have hx : written m p (acc ++ x :: xs) (p + acc.length) = x := by
        rw [written_add (by simp)]
        simp
      rw [loadByte, get_bind_apply, pure_apply, hx]
    have hrest : loadBytes xs.length (p + acc.length + 1) (written m p (acc ++ x :: xs)) =
        .ok (xs, written m p (acc ++ x :: xs)) := by
      have hacc : acc ++ x :: xs = (acc ++ [x]) ++ xs := by simp
      have hlen : acc.length + 1 = (acc ++ [x]).length := by simp
      rw [hacc, Nat.add_assoc, hlen]
      exact ih
    rw [List.length_cons, loadBytes, bind_of_ok hload, bind_of_ok hrest]
    rfl

/-- The first file with the name is found. -/
theorem findBootFileFrom_eq {name : List UInt8} (hname : name.length = 12)
    {before after : List NamedBootFile}
    {bfi : NamedBootFile} (hbefore : ∀ b ∈ before, b.name ≠ name) (hbfi : bfi.name = name) :
    findBootFileFrom name (before ++ bfi :: after) = .ok bfi := by
  induction before with
  | nil =>
    rw [List.nil_append, findBootFileFrom, kMemcmp_eq bfi.name_length hname, decide_eq_true hbfi]
    rfl
  | cons b before ih =>
    rw [List.cons_append, findBootFileFrom, kMemcmp_eq b.name_length hname,
      decide_eq_false (hbefore b (.head _))]
    exact ih fun b' hb' => hbefore b' (.tail _ hb')

/-- A file that is stored under the converted name is found, and it is the first one. -/
theorem kbootFindBootFileItem_first {bli : BootFiles} {fn : List UInt8} {item : NamedBootFile}
    (hitem : item ∈ bli.stored) (hname : item.name = f12Chars fn ++ [0]) (fat12FileName : Nat)
    (m : Memory) :
    ∃ before bfi after m', bli.stored = before ++ bfi :: after ∧ bfi.name = f12Chars fn ++ [0] ∧
      (∀ b ∈ before, b.name ≠ f12Chars fn ++ [0]) ∧
      kbootFindBootFileItem bli fn fat12FileName m = .ok (bfi, m') := by
  obtain ⟨bfi, hfind⟩ := Option.isSome_iff_exists.1
    ((List.find?_isSome (p := fun b : NamedBootFile => decide (b.name = f12Chars fn ++ [0]))).2
      ⟨item, hitem, decide_eq_true hname⟩)
  obtain ⟨hbfi, before, after, hsplit, hbefore⟩ := List.find?_eq_some_iff_append.1 hfind
  have hbefore' : ∀ b ∈ before, b.name ≠ f12Chars fn ++ [0] :=
    fun b hb => by simpa using hbefore b hb
  have hbfi' : bfi.name = f12Chars fn ++ [0] := of_decide_eq_true hbfi
  have hlen : (f12Chars fn ++ [0]).length = 12 := by rw [List.length_append, length_f12Chars]; rfl
  -- the array is zero at first, so that a `NUL` stays behind the eleven characters
  let m₀ : Memory := fun a => if fat12FileName ≤ a ∧ a < fat12FileName + 12 then 0 else m a
  have hset : kMemset fat12FileName 0 12 m = .ok (fat12FileName, m₀) := rfl
  have hnul : written m₀ fat12FileName (f12Chars fn) = written m₀ fat12FileName
      (f12Chars fn ++ [0]) := by
    have hin : fat12FileName ≤ fat12FileName + 11 ∧ fat12FileName + 11 < fat12FileName + 12 :=
      by omega
    have hlast : m₀ (fat12FileName + 11) = 0 := if_pos hin
    rw [← written_concat, length_f12Chars]
    refine (Function.update_eq_self_iff.2 ?_).symm
    rw [written_of_outside (.inr (by rw [length_f12Chars])), hlast]
  have hload : loadBytes 12 fat12FileName (written m₀ fat12FileName (f12Chars fn ++ [0])) =
      .ok (f12Chars fn ++ [0], written m₀ fat12FileName (f12Chars fn ++ [0])) := by
    rw [← hlen]
    exact @loadBytes_written m₀ fat12FileName [] _
  have hconvert := convertToF12Filename_eq fn fat12FileName m₀
  rw [hnul] at hconvert
  have hstrlen : kStrlen (f12Chars fn ++ [0]) = .ok 11 := by
    rw [kStrlen_eq ne_zero_of_mem_f12Chars, length_f12Chars]
  refine ⟨before, bfi, after, written m₀ fat12FileName (f12Chars fn ++ [0]), hsplit,
    hbfi', hbefore', ?_⟩
  rw [kbootFindBootFileItem, bind_of_ok hset, bind_of_ok hconvert, bind_of_ok hload, hstrlen,
    bind_of_ok (lift_ok _ _),
    if_pos rfl, hsplit, findBootFileFrom_eq hlen hbefore' hbfi', lift_ok]

/-- Every name is converted to eleven characters, a name in 8.3 form to its padded parts, which tell
such names apart, and the first file stored under a name is found. -/
theorem convertToF12Filename_spec :
    (∀ fn, ∃ chars : List UInt8, chars.length = 11 ∧
      ∀ out m, convertToF12Filename fn out m = .ok ((), written m out chars)) ∧
    (∀ f : F12Name, ∀ out m, convertToF12Filename f.text out m = .ok ((), written m out f.padded)) ∧
    (∀ f g : F12Name, f.Trimmed → g.Trimmed → f.text ≠ g.text → ∀ out m,
      convertToF12Filename f.text out m ≠ convertToF12Filename g.text out m) ∧
    (∀ (f : F12Name) (bli : BootFiles), (∃ item ∈ bli.stored, item.name = f.padded ++ [0]) →
      ∀ fat12FileName m, ∃ before bfi after m', bli.stored = before ++ bfi :: after ∧
        bfi.name = f.padded ++ [0] ∧ (∀ b ∈ before, b.name ≠ f.padded ++ [0]) ∧
        kbootFindBootFileItem bli f.text fat12FileName m = .ok (bfi, m')) := by
  have hpadded (f : F12Name) (out : Nat) (m : Memory) :
      convertToF12Filename f.text out m = .ok ((), written m out f.padded) := by
    rw [convertToF12Filename_eq, f12Chars_text]
  refine ⟨fun fn => ⟨f12Chars fn, length_f12Chars fn, convertToF12Filename_eq fn⟩, hpadded, ?_, ?_⟩
  · intro f g hf hg hne out m heq
    rw [hpadded, hpadded] at heq
    have hlen : f.padded.length = g.padded.length := by
      rw [← f12Chars_text, ← f12Chars_text, length_f12Chars, length_f12Chars]
    have hsame := (written_inj hlen).1 (congrArg Prod.snd (Except.ok.inj heq))
    exact hne (F12Name.text_eq_of_padded_eq hf hg hsame)
  · rintro f bli ⟨item, hitem, hname⟩ fat12FileName m
    rw [← f12Chars_text] at hname ⊢
    exact kbootFindBootFileItem_first hitem hname fat12FileName m

/-- `KERNEL.FLT`. -/
def kernelFile : F12Name where
  name := [0x4B, 0x45, 0x52, 0x4E, 0x45, 0x4C]
  ext := [0x46, 0x4C, 0x54]
  name_pos := by decide
  name_le := by decide
  ext_le := by decide
  plain := by simp [charDot]

/-- The boot files with the kernel in the second place, and again in the third. -/
def kernelFiles : BootFiles where
  filecount := 3
  files := ⟨.replicate 12 0, 0, 0, rfl⟩ :: .replicate 10 ⟨kernelFile.padded ++ [0],
    0x100000, 9, rfl⟩
  files_length := rfl
  filecount_le := by decide

/-- The kernel is found among the boot files. -/
theorem convertToF12Filename_spec_kernelFile :
    ∃ before bfi after m', kernelFiles.stored = before ++ bfi :: after ∧
      bfi.name = kernelFile.padded ++ [0] ∧ (∀ b ∈ before, b.name ≠ kernelFile.padded ++ [0]) ∧
      kbootFindBootFileItem kernelFiles kernelFile.text 0xC0004000 (fun _ => 0xAA) =
        .ok (bfi, m') :=
  convertToF12Filename_spec.2.2.2 kernelFile kernelFiles
    ⟨⟨kernelFile.padded ++ [0], 0x100000, 9, rfl⟩, by decide, rfl⟩ 0xC0004000 _

end MeghaOS
