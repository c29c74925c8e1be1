import MeghaOS.LoadFile
import MeghaOS.Lib.Written
import Mathlib.Tactic.IntervalCases

/-!
# The files that `loadFile` loads

A FAT entry that begins in the last byte of a sector ends in the next one, but `loadFile` reads one
sector, and takes the other half from the byte of memory behind its buffer. `loadFile_loads_iff`
says for which files it still follows their chains, and copies what is in them.
-/

namespace MeghaOS

open Fat12

/-- INT 13h reads the sectors of the floppy disk. -/
def ReadsFloppy (image : Image) (int13 : DiskAddress → Nat → Memory → Memory) : Prop :=
  ∀ a dest m, a.cylinder < 80 → a.head < headCount → 1 ≤ a.sector → a.sector ≤ sectorsPerTrack →
    int13 a dest m = written m dest (bootVolume.sectorBytes image
      ((a.cylinder * headCount + a.head) * sectorsPerTrack + (a.sector - 1)))

variable {image : Image} {int13 : DiskAddress → Nat → Memory → Memory} {m : Memory} {s : LoadState}
  {n i j k c es off : Nat}

/-- Outside of the buffer. -/
def OffBuffer (a : Nat) : Prop := a < buffer ∨ buffer + bytesPerSector ≤ a

/-! ## Reading sectors -/

/-- `csh` is the inverse of the order of the sectors. -/
theorem csh_spec (h : n < logicalSectors) :
    (csh n).cylinder < 80 ∧ (csh n).head < headCount ∧ 1 ≤ (csh n).sector ∧ (csh n).sector ≤
      sectorsPerTrack ∧
      ((csh n).cylinder * headCount + (csh n).head) * sectorsPerTrack + ((csh n).sector - 1) =
        n := by
  simp only [csh, logicalSectors, headCount, sectorsPerTrack] at *
  omega

/-- A sector is read into the buffer. -/
theorem readSector_mem (hread : ReadsFloppy image int13) (h : n < logicalSectors) :
    (readSector int13 n s).mem = written s.mem buffer (bootVolume.sectorBytes image n) := by
  obtain ⟨hc, hh, hs, hs', hn⟩ := csh_spec h
  rw [readSector, hread _ _ _ hc hh hs hs', hn]

/-- The sector is in the buffer. -/
theorem readSector_mem_buffer (hread : ReadsFloppy image int13) (h : n < logicalSectors)
    (hi : i < bytesPerSector) : (readSector int13 n s).mem (buffer + i) = image (n * 512 + i) := by
  have hlen : i < (bootVolume.sectorBytes image n).length := by
    rw [bootVolume.length_sectorBytes]
    exact hi
  rw [readSector_mem hread h, written_add hlen, bootVolume.getElem_sectorBytes]
  rfl

/-- The rest of the memory stays. -/
theorem readSector_mem_off (hread : ReadsFloppy image int13) (h : n < logicalSectors) {a : Nat}
    (ha : OffBuffer a) : (readSector int13 n s).mem a = s.mem a := by
  rw [readSector_mem hread h, written_of_outside]
  rw [bootVolume.length_sectorBytes]
  exact ha

/-! ## The directory search -/

/-- An entry of the root directory in the sector that is read. -/
theorem readSector_mem_entry (hread : ReadsFloppy image int13) (hi : i < 14) (hj : j < 16)
    (hk : k < 32) :
    (readSector int13 (19 + i) s).mem (buffer + j * 32 + k) = bootVolume.rootByte image
      (16 * i + j) k := by
  have hlba : 19 + i < logicalSectors := by
    simp only [logicalSectors]
    omega
  rw [Nat.add_assoc, readSector_mem_buffer hread hlba (by simp only [bytesPerSector]; omega)]
  refine congrArg image ?_
  show (19 + i) * 512 + (j * 32 + k) = 19 * 512 + (16 * i + j) * 32 + k
  omega

/-- The search in a sector finds the first entry with the name. -/
theorem searchRootEntry_eq {name : List UInt8} (hread : ReadsFloppy image int13) (hi : i < 14)
    (hn : j + n = 16) :
    searchRootEntry (readSector int13 (19 + i) s).mem name n (j * 32) =
      ((List.range' (16 * i + j) n).find? fun e => bootVolume.name image e = name).map
        fun e => (e - 16 * i) * 32 := by
  induction n generalizing j with
  | zero => rfl
  | succ n ih =>
    have hname : (List.range 11).map
      (fun k => (readSector int13 (19 + i) s).mem (buffer + j * 32 + k)) =
        bootVolume.name image (16 * i + j) := by
      refine List.map_congr_left fun k hk => readSector_mem_entry hread hi (by omega) ?_
      have := List.mem_range.1 hk
      omega
    rw [searchRootEntry, hname, List.range'_succ, List.find?_cons]
    by_cases heq : bootVolume.name image (16 * i + j) = name
    · rw [if_pos heq, decide_eq_true heq, Option.map_some, Nat.add_sub_cancel_left]
    · rw [if_neg heq, decide_eq_false heq, ← Nat.succ_mul, ih (by omega)]
      rfl

/-- The search in the directory finds the first entry with the name. -/
theorem readRootSectors_spec {name : List UInt8} {e : Nat} (hread : ReadsFloppy image int13)
    (hi : i + n = 14)
    (hfind : (List.range' (16 * i) (16 * n)).find? (fun e => bootVolume.name image e = name) =
      some e) :
    ∃ bx m', readRootSectors int13 name n (19 + i) s = (some bx, { s with mem := m' }) ∧
      (∀ k < 32, m' (buffer + bx + k) = bootVolume.rootByte image e k) ∧
      ∀ a, OffBuffer a → m' a = s.mem a := by
  induction n generalizing i s with
  | zero => cases hfind
  | succ n ih =>
    have hlba : 19 + i < logicalSectors := by
      simp only [logicalSectors]
      omega
    have hsplit : List.range' (16 * i) (16 * (n + 1)) =
        List.range' (16 * i) 16 ++ List.range' (16 * (i + 1)) (16 * n) := by
      rw [Nat.mul_succ 16 i, List.range'_append_1, Nat.mul_succ, Nat.add_comm 16]
    have hsearch : searchRootEntry (readSector int13 (19 + i) s).mem name 16 0 = _ :=
      searchRootEntry_eq hread (by omega) (Nat.zero_add 16)
    rw [hsplit, List.find?_append] at hfind
    rw [Nat.add_zero] at hsearch
    rw [readRootSectors, hsearch]
    cases hhere : (List.range' (16 * i) 16).find? fun e => bootVolume.name image e = name with
    | some e' =>
      rw [hhere, Option.some_or] at hfind
      cases hfind
      obtain ⟨hlo, hhi⟩ := List.mem_range'_1.1 (List.mem_of_find?_eq_some hhere)
      refine ⟨_, _, rfl, fun k hk => ?_, fun a ha => readSector_mem_off hread hlba ha⟩
      have hentry := readSector_mem_entry (s := s) (i := i) (j := e - 16 * i) hread
        (by omega) (by omega) hk
      rw [Nat.add_sub_cancel' hlo] at hentry
      exact hentry
    | none =>
      rw [hhere, Option.none_or] at hfind
      obtain ⟨bx, m', hrun, hentry, hoff⟩ := ih (s := readSector int13 (19 + i) s) (by omega) hfind
      exact ⟨bx, m', hrun, hentry, fun a ha => (hoff a ha).trans (readSector_mem_off hread hlba ha)⟩

/-! ## Copying -/

/-- Whatever is copied, it goes to consecutive offsets of the segment. -/
theorem repMovsb_shape (es n si : Nat) {di : Nat} (s : LoadState) (hdi : di < 2 ^ 16) : ∃ m' xs,
    repMovsb es n si di s = { s with mem := m', copied := s.copied ++ xs } ∧
      xs.map Prod.snd = (List.range n).map fun i => es * 16 + u16 (di + i) := by
  induction n generalizing si di s with
  | zero => exact ⟨s.mem, [], by simp [repMovsb], rfl⟩
  | succ n ih =>
    have hdi' : u16 (di + 1) < 2 ^ 16 := Nat.mod_lt _ (by decide)
    obtain ⟨m', xs, hrun, haddr⟩ := ih (u16 (si + 1))
      { s with
        mem := Function.update s.mem (es * 16 + di) (s.mem si)
        copied := s.copied ++ [(s.mem si, es * 16 + di)] } hdi'
    refine ⟨m', (s.mem si, es * 16 + di) :: xs, ?_, ?_⟩
    · rw [repMovsb, hrun, List.append_assoc, List.singleton_append]
    · have hzero : u16 (di + 0) = di := Nat.mod_eq_of_lt hdi
      rw [List.map_cons, haddr, List.range_succ_eq_map, List.map_cons, List.map_map, hzero]
      refine congrArg _ (List.map_congr_left fun i _ => ?_)
      simp only [Function.comp_apply, u16]
      omega

/-- Bytes of the buffer are copied to a destination behind it. -/
theorem repMovsb_spec {xs : List UInt8} {si di : Nat}
    (hxs : ∀ i (h : i < xs.length), s.mem (si + i) = xs[i])
    (hdest : buffer + bytesPerSector ≤ es * 16 + di)
    (hsi : si + xs.length ≤ buffer + bytesPerSector)
    (hdi : di + xs.length ≤ 2 ^ 16) :
    repMovsb es xs.length si di s =
      { s with
        mem := written s.mem (es * 16 + di) xs
        copied := s.copied ++ xs.zipIdx (es * 16 + di) } := by
  induction xs generalizing si di s with
  | nil => simp [repMovsb]
  | cons x xs ih =>
    have hx : s.mem si = x := hxs 0 (Nat.succ_pos _)
    rw [List.length_cons, repMovsb, hx, List.zipIdx_cons, ← written_cons]
    rw [List.length_cons] at hsi hdi
    rcases List.eq_nil_or_concat' xs with rfl | hne
    · simp [repMovsb]
    have hpos : 0 < xs.length := by
      obtain ⟨l, b, rfl⟩ := hne
      simp
    have hsi' : u16 (si + 1) = si + 1 :=
      Nat.mod_eq_of_lt (by simp only [buffer, bytesPerSector] at hsi; omega)
    have hdi' : u16 (di + 1) = di + 1 := Nat.mod_eq_of_lt (by omega)
    rw [hsi', hdi', ih (fun i hi => ?_) (by omega) (by omega) (by omega), ← Nat.add_assoc,
      List.append_assoc,
      List.singleton_append]
    show Function.update s.mem (es * 16 + di) x (si + 1 + i) = _
    rw [Function.update_of_ne (by omega), Nat.add_assoc, Nat.add_comm 1]
    exact hxs (i + 1) (Nat.succ_lt_succ hi)

/-! ## One turn -/

/-- The clusters `pre` are read, and the bytes `done` are copied to the destination. -/
structure Reading (m : Memory) (es off : Nat) (pre : List Nat) (done : List UInt8) (s : LoadState) :
    Prop where
  followed : s.followed = pre
  copied : s.copied = done.zipIdx (es * 16 + off)
  mem : ∀ a, OffBuffer a → s.mem a = written m (es * 16 + off) done a
  offset : s.osegoffset = u16 (off + done.length)

/-- The state behind the data of a cluster, from the memory and the bytes that the copying
leaves. -/
theorem readDataSector_of_copy {cx : Nat} {m' : Memory} {xs : List (UInt8 × Nat)} {s₁ : LoadState}
    (hs₁ : s₁ = readSector int13 (u16 (s.filesector + 31))
      { s with followed := s.followed ++ [s.filesector] })
    (hcx : (if s.fileremsize > 512 then 512 else s.fileremsize) = cx)
    (hcopy : repMovsb es cx buffer s.osegoffset s₁ = { s₁ with mem := m', copied := xs }) :
    readDataSector int13 es s = ⟨m', s.filesector, s.fileremsize - cx, u16 (s.osegoffset + cx),
      s.followed ++ [s.filesector], xs⟩ := by
  have hrun : readDataSector int13 es s =
      let cx := if s.fileremsize > 512 then 512 else s.fileremsize
      let s' := repMovsb es cx buffer s.osegoffset s₁
      { s' with fileremsize := s'.fileremsize - cx, osegoffset := u16 (s'.osegoffset + cx) } := by
    rw [hs₁]
    rfl
  rw [hcx] at hrun
  dsimp only at hrun
  rw [hrun, hcopy, hs₁]
  rfl

/-- Reading the sector of a cluster copies what is left of the file in it. -/
theorem readDataSector_spec {pre : List Nat} {done chunk : List UInt8}
    (hread : ReadsFloppy image int13)
    (h : Reading m es off pre done s) (hc : bootVolume.IsCluster c) (hsector : s.filesector = c)
    (hrem : s.fileremsize ≠ 0)
    (hchunk : chunk = (bootVolume.clusterBytes image c).take (min 512 s.fileremsize))
    (hdest : buffer + bytesPerSector ≤ es * 16 + off)
    (hfits : off + done.length + chunk.length ≤ 2 ^ 16) :
    Reading m es off (pre ++ [c]) (done ++ chunk) (readDataSector int13 es s) ∧
      (readDataSector int13 es s).filesector = c ∧
      (readDataSector int13 es s).fileremsize = s.fileremsize - chunk.length := by
  have hlen : chunk.length = min 512 s.fileremsize := by
    rw [hchunk, List.length_take, bootVolume.length_clusterBytes]
    exact Nat.min_eq_left (Nat.min_le_left _ _)
  have hcx : (if s.fileremsize > 512 then 512 else s.fileremsize) = chunk.length := by
    rw [hlen]
    split <;> omega
  have hoffset : s.osegoffset = off + done.length := h.offset.trans (Nat.mod_eq_of_lt (by omega))
  have hlba : u16 (s.filesector + 31) = bootVolume.dataSector + (c - 2) := by
    have hlow := hc.1
    have hhigh : c < 2 + (2880 - 33) := hc.2
    show (s.filesector + 31) % 2 ^ 16 = 33 + (c - 2)
    omega
  have hlt : u16 (s.filesector + 31) < logicalSectors := by
    have hhigh : c < 2 + (2880 - 33) := hc.2
    rw [hlba]
    show 33 + (c - 2) < 2880
    omega
  obtain ⟨s₁, hs₁⟩ : ∃ s₁, s₁ = readSector int13 (u16 (s.filesector + 31))
    { s with followed := s.followed ++ [s.filesector] } := ⟨_, rfl⟩
  have hbytes : ∀ i (hi : i < chunk.length), s₁.mem (buffer + i) = chunk[i] := by
    intro i hi
    have hi' : i < bytesPerSector := Nat.lt_of_lt_of_le hi (by rw [hlen]; exact Nat.min_le_left _ _)
    rw [hs₁, readSector_mem_buffer hread hlt hi', hlba]
    simp only [hchunk, List.getElem_take, Geometry.clusterBytes, Geometry.getElem_sectorBytes]
    rfl
  have hcopy : repMovsb es chunk.length buffer s.osegoffset s₁ = _ :=
    repMovsb_spec hbytes (by omega) (by simp only [bytesPerSector]; omega) (by omega)
  have hcopied : s₁.copied = s.copied := by rw [hs₁]; rfl
  have hmem : ∀ a, OffBuffer a → s₁.mem a = written m (es * 16 + off) done a := fun a ha => by
    rw [hs₁, readSector_mem_off hread hlt ha]
    exact h.mem a ha
  rw [readDataSector_of_copy hs₁ hcx hcopy]
  refine ⟨⟨?_, ?_, fun a ha => ?_, ?_⟩, hsector, rfl⟩
  · rw [h.followed, hsector]
  · rw [hcopied, h.copied, List.zipIdx_append, hoffset, ← Nat.add_assoc]
  · rw [hoffset, ← Nat.add_assoc, ← written_append]
    exact written_congr (hmem a ha)
  · rw [hoffset, List.length_append, Nat.add_assoc]

/-- The entry of a cluster, of which `loadFile` takes the second byte from behind its buffer where
that byte is in the next sector. -/
def entryRead (image : Image) (m : Memory) (c : Nat) : Nat :=
  entryOf c (bootVolume.fatByte image (Geometry.entryOffset c))
    (if bootVolume.EntryStraddles c then m (buffer + bytesPerSector)
    else bootVolume.fatByte image (Geometry.entryOffset c + 1))

/-- An entry that lies in one sector is read right. -/
theorem entryRead_of_not_straddles (h : ¬ bootVolume.EntryStraddles c) :
    entryRead image m c = bootVolume.fatEntry image c := by
  rw [entryRead, if_neg h]
  rfl

/-- The next cluster of the chain is read from the table. -/
theorem getNextSector_spec {pre : List Nat} {done : List UInt8} (hread : ReadsFloppy image int13)
    (h : Reading m es off pre done s) (hc : bootVolume.IsCluster c) (hsector : s.filesector = c) :
    Reading m es off pre done (getNextSector int13 s) ∧
      (getNextSector int13 s).fileremsize = s.fileremsize ∧
      (getNextSector int13 s).filesector = entryRead image (written m (es * 16 + off) done) c := by
  have hhigh : c < 2 + (2880 - 33) := hc.2
  have hoffset : u16 (s.filesector / 2 + s.filesector) = Geometry.entryOffset c := by
    have hmod : u16 (c / 2 + c) = c / 2 + c := Nat.mod_eq_of_lt (by omega)
    rw [hsector, hmod]
    show c / 2 + c = 3 * c / 2
    omega
  have hlt : Geometry.entryOffset c / bytesPerSector + reservedSector < logicalSectors := by
    show 3 * c / 2 / 512 + 1 < 2880
    omega
  have hin : Geometry.entryOffset c % bytesPerSector < bytesPerSector := Nat.mod_lt _ (by decide)
  have hlo : (readSector int13 (Geometry.entryOffset c / bytesPerSector + reservedSector) s).mem
      (buffer + Geometry.entryOffset c % bytesPerSector) = bootVolume.fatByte image
      (Geometry.entryOffset c) := by
    rw [readSector_mem_buffer hread hlt hin]
    refine congrArg image ?_
    show (Geometry.entryOffset c / 512 + 1) * 512 + Geometry.entryOffset c % 512 = 1 * 512 + _
    omega
  have hhi : (readSector int13 (Geometry.entryOffset c / bytesPerSector + reservedSector) s).mem
      (buffer + Geometry.entryOffset c % bytesPerSector + 1) =
        if bootVolume.EntryStraddles c then written m (es * 16 + off) done (buffer + bytesPerSector)
        else bootVolume.fatByte image (Geometry.entryOffset c + 1) := by
    by_cases hstraddles : bootVolume.EntryStraddles c
    · have hlast : Geometry.entryOffset c % bytesPerSector + 1 = bytesPerSector := hstraddles
      rw [if_pos hstraddles, Nat.add_assoc, hlast, readSector_mem_off hread hlt
        (.inr (Nat.le_refl _))]
      exact h.mem _ (.inr (Nat.le_refl _))
    · have hmore : Geometry.entryOffset c % bytesPerSector + 1 < bytesPerSector :=
        Nat.lt_of_le_of_ne hin hstraddles
      rw [if_neg hstraddles, Nat.add_assoc, readSector_mem_buffer hread hlt hmore]
      refine congrArg image ?_
      show (Geometry.entryOffset c / 512 + 1) * 512 + (Geometry.entryOffset c % 512 + 1) =
        1 * 512 + _
      omega
  have hrun : getNextSector int13 s =
      let ax := u16 (s.filesector / 2 + s.filesector)
      let s' := readSector int13 (ax / bytesPerSector + reservedSector) s
      { s' with
        filesector := entryOf s.filesector (s'.mem (buffer + ax % bytesPerSector))
          (s'.mem (buffer + ax % bytesPerSector + 1)) } := rfl
  rw [hoffset, hsector] at hrun
  dsimp only at hrun
  rw [hlo, hhi] at hrun
  rw [hrun]
  exact ⟨⟨h.followed, h.copied, fun a ha => (readSector_mem_off hread hlt ha).trans
    (h.mem a ha), h.offset⟩,
    rfl, rfl⟩

/-! ## The whole file -/

/-- What `loadFile` does for a file: it returns the size, follows the chain, and copies the bytes of
the file to the destination and nothing else but its buffer. -/
structure LoadsFile (m : Memory) (es off : Nat) (file : RootFile bootVolume image)
    (r : Nat × LoadState) :
    Prop where
  size : r.1 = file.size
  followed : r.2.followed = file.needed
  copied : r.2.copied = file.contents.zipIdx (es * 16 + off)
  mem : ∀ a, OffBuffer a → r.2.mem a = written m (es * 16 + off) file.contents a

/-- The bytes of these clusters. -/
def dataOf (image : Image) (l : List Nat) : List UInt8 := l.flatMap (bootVolume.clusterBytes image)

/-- A cluster is one sector. -/
theorem length_dataOf (l : List Nat) : (dataOf image l).length = l.length * 512 :=
  bootVolume.length_flatMap_clusterBytes image l

/-- One cluster more. -/
theorem dataOf_concat (l : List Nat) (c : Nat) :
    dataOf image (l ++ [c]) = dataOf image l ++ bootVolume.clusterBytes image c := by
  simp [dataOf]

/-- Where the entry of a cluster of the file lies in two sectors, the byte behind the buffer is as
good as the first one of the second sector. -/
def StraddlesRead (m : Memory) (es off : Nat) (file : RootFile bootVolume image) : Prop :=
  ∀ pre c c' rest, file.needed = pre ++ c :: c' :: rest → bootVolume.EntryStraddles c →
    entryRead image (written m (es * 16 + off) (dataOf image (pre ++ [c]))) c =
      bootVolume.fatEntry image c

/-- The file is found under its name, fits in the segment of the destination, and its chain is read
right. -/
structure Loadable (m : Memory) (es off : Nat) (name : List UInt8)
    (file : RootFile bootVolume image) : Prop where
  found : ∀ e, bootVolume.findEntry image name = some e →
    bootVolume.firstCluster image e = bootVolume.firstCluster image file.entry ∧
      bootVolume.fileSize image e % 2 ^ 16 = file.size
  fits : off + file.size ≤ 2 ^ 16
  straddled : StraddlesRead m es off file

/-! ## Every run -/

/-- The bytes are stored at consecutive offsets of the segment. -/
structure Consecutive (es off : Nat) (s : LoadState) : Prop where
  addresses : s.copied.map Prod.snd = (List.range s.copied.length).map fun i =>
    es * 16 + u16 (off + i)
  offset : s.osegoffset = u16 (off + s.copied.length)

/-- One turn goes on at the next offset. -/
theorem Consecutive.readDataSector (h : Consecutive es off s) :
    Consecutive es off (readDataSector int13 es s) := by
  have hlt : s.osegoffset < 2 ^ 16 := by
    rw [h.offset]
    exact Nat.mod_lt _ (by decide)
  obtain ⟨m', xs, hrun, haddr⟩ := repMovsb_shape es
    (if s.fileremsize > 512 then 512 else s.fileremsize) buffer
    (readSector int13 (u16 (s.filesector + 31)) { s with followed := s.followed ++ [s.filesector] })
      hlt
  have hlen : xs.length = if s.fileremsize > 512 then 512 else s.fileremsize := by
    rw [← List.length_map (f := Prod.snd), haddr, List.length_map, List.length_range]
  rw [readDataSector_of_copy rfl rfl hrun, ← hlen]
  refine ⟨?_, ?_⟩
  · show (s.copied ++ xs).map Prod.snd = (List.range (s.copied ++ xs).length).map _
    rw [List.map_append, h.addresses, haddr, h.offset, List.length_append, hlen, List.range_add,
      List.map_append, List.map_map]
    refine congrArg _ (List.map_congr_left fun i _ => ?_)
    simp only [Function.comp_apply, u16]
    omega
  · show u16 (s.osegoffset + xs.length) = u16 (off + (s.copied ++ xs).length)
    rw [h.offset, List.length_append]
    simp only [u16]
    omega

/-- The rest of the file goes behind what was copied. -/
theorem Consecutive.readFile {turns : Nat} (h : Consecutive es off s) :
    Consecutive es off (readFile int13 es turns s) := by
  induction turns generalizing s with
  | zero => exact h
  | succ turns ih =>
    have hnext : Consecutive es off (getNextSector int13 (MeghaOS.readDataSector int13 es s)) :=
      ⟨h.readDataSector.addresses, h.readDataSector.offset⟩
    rw [MeghaOS.readFile]
    dsimp only
    split_ifs
    · exact h
    · exact hnext
    · exact ih hnext

/-- Copying follows no entry. -/
theorem repMovsb_followed {si di : Nat} : (repMovsb es n si di s).followed = s.followed := by
  induction n generalizing si di s with
  | zero => rfl
  | succ n ih => exact ih

/-- One turn reads the sector of one cluster. -/
theorem readDataSector_followed : (readDataSector int13 es s).followed =
    s.followed ++ [s.filesector] :=
  repMovsb_followed

/-- The clusters that are read stay read. -/
theorem readFile_prefix {turns : Nat} : s.followed <+: (readFile int13 es turns s).followed := by
  induction turns generalizing s with
  | zero => exact List.prefix_rfl
  | succ turns ih =>
    have hturn : s.followed <+: (getNextSector int13 (readDataSector int13 es s)).followed :=
      ⟨[s.filesector], readDataSector_followed.symm⟩
    rw [readFile]
    dsimp only
    split_ifs
    · exact List.prefix_rfl
    · exact hturn
    · exact hturn.trans ih

/-- The cluster `filesector` is read next. -/
theorem readFile_followed {turns : Nat} (hrem : s.fileremsize ≠ 0) (hturns : turns ≠ 0) :
    s.followed ++ [s.filesector] <+: (readFile int13 es turns s).followed := by
  obtain ⟨turns, rfl⟩ := Nat.exists_eq_succ_of_ne_zero hturns
  have hturn : s.followed ++ [s.filesector] =
    (getNextSector int13 (readDataSector int13 es s)).followed :=
    readDataSector_followed.symm
  rw [readFile, if_neg hrem]
  dsimp only
  rw [hturn]
  split_ifs
  · exact List.prefix_rfl
  · exact readFile_prefix

/-! ## The turns of a file -/

section File

variable {file : RootFile bootVolume image} {pre rest : List Nat}

/-- The clusters `pre` are read, and `c` is next. -/
structure AtCluster (m : Memory) (es off : Nat) (file : RootFile bootVolume image)
    (pre : List Nat) (c : Nat)
    (s : LoadState) : Prop where
  reading : Reading m es off pre (dataOf image pre) s
  sector : s.filesector = c
  rem : s.fileremsize = file.size - pre.length * 512

/-- How much of the file is left, when these clusters of it are. -/
theorem size_bounds (hneeded : file.needed = pre ++ c :: rest) :
    (pre.length + rest.length) * 512 < file.size ∧ file.size ≤
      (pre.length + rest.length + 1) * 512 := by
  have hlen := file.length_needed (by decide)
  rw [hneeded, List.length_append, List.length_cons] at hlen
  change _ = (file.size + 512 - 1) / 512 at hlen
  omega

/-- A turn for a cluster that is not the last one. -/
theorem AtCluster.turn (hread : ReadsFloppy image int13) (h : AtCluster m es off file pre c s)
    (hneeded : file.needed = pre ++ c :: rest) (hrest : rest ≠ [])
    (hdest : buffer + bytesPerSector ≤ es * 16 + off) (hfits : off + file.size ≤ 2 ^ 16) :
    AtCluster m es off file (pre ++ [c])
    (entryRead image (written m (es * 16 + off) (dataOf image (pre ++ [c]))) c)
      (getNextSector int13 (readDataSector int13 es s)) := by
  have hbounds := size_bounds hneeded
  have hpos : 0 < rest.length := List.length_pos_iff.2 hrest
  have hrem := h.rem
  have hlen : (bootVolume.clusterBytes image c).length = 512 :=
    bootVolume.length_clusterBytes image c
  have hc : bootVolume.IsCluster c := file.isCluster_of_needed (by rw [hneeded]; simp)
  have hchunk : bootVolume.clusterBytes image c =
      (bootVolume.clusterBytes image c).take (min 512 s.fileremsize) := by
    rw [List.take_of_length_le]
    omega
  obtain ⟨hdata, hsector, hleft⟩ := readDataSector_spec hread h.reading hc h.sector
    (by omega) hchunk hdest
    (by rw [length_dataOf]; omega)
  rw [← dataOf_concat] at hdata
  obtain ⟨hnext, hleft', hentry⟩ := getNextSector_spec hread hdata hc hsector
  refine ⟨hnext, hentry, ?_⟩
  rw [hleft', hleft, List.length_append, List.length_singleton]
  omega

/-- The turn for the last cluster. -/
theorem AtCluster.last (hread : ReadsFloppy image int13) (h : AtCluster m es off file pre c s)
    (hneeded : file.needed = pre ++ [c]) (hdest : buffer + bytesPerSector ≤ es * 16 + off)
    (hfits : off + file.size ≤ 2 ^ 16) :
    Reading m es off file.needed file.contents (getNextSector int13 (readDataSector int13 es s)) ∧
      (getNextSector int13 (readDataSector int13 es s)).fileremsize = 0 := by
  have hbounds := size_bounds hneeded
  have hrem := h.rem
  rw [List.length_nil] at hbounds
  have hlen : (bootVolume.clusterBytes image c).length = 512 :=
    bootVolume.length_clusterBytes image c
  have hc : bootVolume.IsCluster c := file.isCluster_of_needed (by rw [hneeded]; simp)
  have hchunk : (bootVolume.clusterBytes image c).take s.fileremsize =
      (bootVolume.clusterBytes image c).take (min 512 s.fileremsize) := by
    rw [Nat.min_eq_right (by omega)]
  have hchunkLen : ((bootVolume.clusterBytes image c).take s.fileremsize).length =
      s.fileremsize := by
    rw [List.length_take, hlen]
    omega
  have hcontents : file.contents = dataOf image pre ++ (bootVolume.clusterBytes image c).take
      s.fileremsize := by
    rw [file.contents_eq (by decide), hneeded]
    show (dataOf image (pre ++ [c])).take file.size = _
    rw [dataOf_concat, List.take_append, List.take_of_length_le (by rw [length_dataOf]; omega),
      length_dataOf,
      hrem]
  obtain ⟨hdata, hsector, hleft⟩ := readDataSector_spec hread h.reading hc h.sector
    (by omega) hchunk hdest
    (by rw [length_dataOf, hchunkLen]; omega)
  obtain ⟨hnext, hleft', -⟩ := getNextSector_spec hread hdata hc hsector
  rw [hneeded, hcontents]
  refine ⟨hnext, ?_⟩
  rw [hleft', hleft, hchunkLen, Nat.sub_self]

/-- A file that is read is done. -/
theorem readFile_done {turns : Nat} (h : s.fileremsize = 0) : readFile int13 es turns s = s := by
  cases turns with
  | zero => rfl
  | succ turns => rw [readFile, if_pos h]

/-- The chain of the file goes on as the FAT says. -/
theorem fatEntry_of_needed {c' : Nat} (hneeded : file.needed = pre ++ c :: c' :: rest) :
    bootVolume.fatEntry image c = c' := by
  have hchain := file.needed_isChain
  rw [hneeded, List.isChain_append_cons_cons] at hchain
  exact hchain.2.1

/-- The number of a cluster of the file does not end the loop. -/
theorem ne_end_of_needed (file : RootFile bootVolume image) (h : c ∈ file.needed) : c ≠ 0xFFF := by
  have hhigh : c < 2 + (2880 - 33) := (file.isCluster_of_needed h).2
  omega

/-- A run that reads the chain right loads the file. -/
theorem AtCluster.loads {turns : Nat} (hread : ReadsFloppy image int13)
    (hdest : buffer + bytesPerSector ≤ es * 16 + off) (hfits : off + file.size ≤ 2 ^ 16)
    (hstraddled : StraddlesRead m es off file) (h : AtCluster m es off file pre c s)
    (hneeded : file.needed = pre ++ c :: rest) (hturns : s.fileremsize ≤ turns) :
    Reading m es off file.needed file.contents (readFile int13 es turns s) := by
  induction rest generalizing pre c s turns with
  | nil =>
    have hbounds := size_bounds hneeded
    have hrem := h.rem
    rw [List.length_nil] at hbounds
    obtain ⟨turns, rfl⟩ : ∃ k, turns = k + 1 := ⟨turns - 1, by omega⟩
    obtain ⟨hlast, hdone⟩ := h.last hread hneeded hdest hfits
    rw [readFile, if_neg (by omega)]
    dsimp only
    rw [readFile_done hdone, ite_self]
    exact hlast
  | cons c' rest ih =>
    have hbounds := size_bounds hneeded
    have hrem := h.rem
    rw [List.length_cons] at hbounds
    obtain ⟨turns, rfl⟩ : ∃ k, turns = k + 1 := ⟨turns - 1, by omega⟩
    have hturn := h.turn hread hneeded (List.cons_ne_nil _ _) hdest hfits
    have hentry : entryRead image (written m (es * 16 + off) (dataOf image (pre ++ [c]))) c =
        c' := by
      rw [← fatEntry_of_needed hneeded]
      by_cases hc : bootVolume.EntryStraddles c
      · exact hstraddled pre c c' rest hneeded hc
      · exact entryRead_of_not_straddles hc
    rw [hentry] at hturn
    have hleft := hturn.rem
    rw [List.length_append, List.length_singleton] at hleft
    rw [readFile, if_neg (by omega)]
    dsimp only
    rw [if_neg (by rw [hturn.sector]; exact ne_end_of_needed file (by rw [hneeded]; simp))]
    exact ih hturn (by rw [hneeded]; simp) (by omega)

/-- A run that follows the chain has read it right. -/
theorem AtCluster.followed {turns : Nat} (hread : ReadsFloppy image int13)
    (hdest : buffer + bytesPerSector ≤ es * 16 + off) (hfits : off + file.size ≤ 2 ^ 16)
    (h : AtCluster m es off file pre c s) (hneeded : file.needed = pre ++ c :: rest)
    (hturns : s.fileremsize ≤ turns)
    (hfollowed : (readFile int13 es turns s).followed = file.needed) :
    ∀ pre' d d' rest', file.needed = pre' ++ d :: d' :: rest' → pre.length ≤ pre'.length →
      entryRead image (written m (es * 16 + off) (dataOf image (pre' ++ [d]))) d = d' := by
  induction rest generalizing pre c s turns with
  | nil =>
    intro pre' d d' rest' hsplit hle
    have hlen := congrArg List.length (hneeded.symm.trans hsplit)
    simp only [List.length_append, List.length_cons, List.length_nil] at hlen
    omega
  | cons c' rest ih =>
    have hbounds := size_bounds hneeded
    have hrem := h.rem
    rw [List.length_cons] at hbounds
    obtain ⟨turns, rfl⟩ : ∃ k, turns = k + 1 := ⟨turns - 1, by omega⟩
    have hturn := h.turn hread hneeded (List.cons_ne_nil _ _) hdest hfits
    have hleft := hturn.rem
    rw [List.length_append, List.length_singleton] at hleft
    rw [readFile, if_neg (by omega)] at hfollowed
    dsimp only at hfollowed
    by_cases hend : (getNextSector int13 (readDataSector int13 es s)).filesector = 0xFFF
    · rw [if_pos hend, hturn.reading.followed, hneeded] at hfollowed
      simp at hfollowed
    rw [if_neg hend] at hfollowed
    have hprefix : _ <+: (readFile int13 es turns
      (getNextSector int13 (readDataSector int13 es s))).followed :=
      readFile_followed (by omega) (by omega)
    have hentry : entryRead image (written m (es * 16 + off) (dataOf image (pre ++ [c]))) c =
        c' := by
      rw [hfollowed, hneeded, hturn.reading.followed, hturn.sector] at hprefix
      obtain ⟨l, hl⟩ := hprefix
      rw [List.append_assoc, List.append_assoc, List.append_right_inj] at hl
      exact (List.cons.inj (List.cons.inj hl).2).1
    intro pre' d d' rest' hsplit hle
    rcases Nat.eq_or_lt_of_le hle with heq | hlt
    · obtain ⟨rfl, htail⟩ := List.append_inj (hneeded.symm.trans hsplit) heq
      cases htail
      exact hentry
    · rw [hentry] at hturn
      exact ih hturn (by rw [hneeded]; simp) (by omega) hfollowed pre' d d' rest' hsplit
        (by simp; omega)

end File

/-! ## The files that are loaded -/

/-- What `loadFile` does behind the directory search, from the entry `e` that it found. -/
theorem loadFile_found {ds dx e : Nat} (ax bx : Nat) (hread : ReadsFloppy image int13)
    (hfind : bootVolume.findEntry image (bootfilename m ds dx) = some e) :
    ∃ m', (∀ a, OffBuffer a → m' a = m a) ∧
      loadFile int13 ax bx ds dx m = (bootVolume.fileSize image e % 2 ^ 16,
        readFile int13 ax (bootVolume.fileSize image e % 2 ^ 16)
          ⟨m', bootVolume.firstCluster image e, bootVolume.fileSize image e % 2 ^ 16, bx,
            [], []⟩) := by
  have hfind' : (List.range' (16 * 0) (16 * 14)).find?
      (fun e => bootVolume.name image e = bootfilename m ds dx) = some e := by
    rw [Geometry.findEntry, List.range_eq_range'] at hfind
    exact hfind
  obtain ⟨b, m', hrun, hentry, hoff⟩ := readRootSectors_spec (s := ⟨m, 0, 0, bx, [], []⟩)
    hread rfl hfind'
  have hcluster : word (m' (buffer + b + 0x1A)) (m' (buffer + b + 0x1A + 1)) =
      bootVolume.firstCluster image e := by
    rw [hentry 0x1A (by decide), Nat.add_assoc (buffer + b), hentry 0x1B (by decide)]
    rfl
  have hsize : word (m' (buffer + b + 0x1C)) (m' (buffer + b + 0x1C + 1)) =
      bootVolume.fileSize image e % 2 ^ 16 := by
    rw [hentry 0x1C (by decide), Nat.add_assoc (buffer + b), hentry 0x1D (by decide),
      Geometry.fileSize,
      Nat.add_mul_mod_self_left]
    exact (Nat.mod_eq_of_lt (word_lt _ _)).symm
  refine ⟨m', hoff, ?_⟩
  rw [loadFile, hrun]
  dsimp only
  rw [hcluster, hsize]

/-- The state behind the directory search, when the entry that was found is that of the file. -/
theorem atCluster_first {file : RootFile bootVolume image} {m' : Memory}
    (hoff : ∀ a, OffBuffer a → m' a = m a)
    (hbx : off < 2 ^ 16) : AtCluster m es off file [] (bootVolume.firstCluster image file.entry)
      ⟨m', bootVolume.firstCluster image file.entry, file.size, off, [], []⟩ where
  reading :=
    { followed := rfl
      copied := rfl
      mem := fun a ha => by
        show m' a = written m _ [] a
        rw [written_nil]
        exact hoff a ha
      offset := (Nat.mod_eq_of_lt hbx).symm }
  sector := rfl
  rem := by rw [List.length_nil, Nat.zero_mul, Nat.sub_zero]

/-- Bytes stored one after the other from the start of the destination on have not left the
segment. -/
theorem Consecutive.fits {xs : List UInt8} (h : Consecutive es off s) (hne : xs ≠ [])
    (hcopied : s.copied = xs.zipIdx (es * 16 + off)) : off + xs.length ≤ 2 ^ 16 := by
  have haddr := h.addresses
  rw [hcopied, List.zipIdx_map_snd, List.length_zipIdx] at haddr
  have hpos : 0 < xs.length := List.length_pos_iff.2 hne
  have hlt : xs.length - 1 < xs.length := Nat.sub_lt hpos Nat.one_pos
  have hlast := congrArg (·[xs.length - 1]?) haddr
  rw [List.getElem?_range' hlt, List.getElem?_map, List.getElem?_range hlt, Option.map_some,
    Option.some.injEq] at hlast
  have hmod : u16 (off + (xs.length - 1)) < 2 ^ 16 := Nat.mod_lt _ (by decide)
  omega

/-- `loadFile` loads a file of the root directory if and only if its entry is the first one with its
name, up to what is read of it, it fits in the segment of the destination, and the byte of memory
behind the buffer is right wherever the entry of one of its clusters is in two sectors. -/
theorem loadFile_loads_iff {ax bx ds dx : Nat} (file : RootFile bootVolume image)
    (hread : ReadsFloppy image int13)
    (hname : bootVolume.name image file.entry = bootfilename m ds dx)
    (hsize : 1 ≤ file.size ∧ file.size ≤ 65535) (hbx : bx < 2 ^ 16)
    (hdest : buffer + bytesPerSector ≤ ax * 16 + bx) :
    LoadsFile m ax bx file (loadFile int13 ax bx ds dx m) ↔
      Loadable m ax bx (bootfilename m ds dx) file := by
  obtain ⟨e, he⟩ : ∃ e, bootVolume.findEntry image (bootfilename m ds dx) = some e :=
    Option.isSome_iff_exists.1 (List.find?_isSome.2
      ⟨file.entry, List.mem_range.2 file.entry_lt, decide_eq_true hname⟩)
  obtain ⟨m', hoff, hrun⟩ := loadFile_found ax bx hread he
  obtain ⟨rest, hneeded⟩ := file.needed_eq_cons (by decide) hsize.1
  rw [hrun]
  constructor
  · rintro ⟨hsize', hfollowed, hcopied, -⟩
    dsimp only at hsize' hfollowed hcopied
    rw [hsize'] at hfollowed hcopied
    have hcluster : bootVolume.firstCluster image e = bootVolume.firstCluster image file.entry := by
      have hne : file.size ≠ 0 := Nat.ne_of_gt hsize.1
      have hprefix : [] ++ [bootVolume.firstCluster image e] <+: (readFile int13 ax file.size
          ⟨m', bootVolume.firstCluster image e, file.size, bx, [], []⟩).followed :=
        readFile_followed (s := ⟨m', _, file.size, bx, [], []⟩) hne hne
      rw [hfollowed, hneeded] at hprefix
      obtain ⟨l, hl⟩ := hprefix
      exact (List.cons.inj hl).1
    have hstart : Consecutive ax bx ⟨m', bootVolume.firstCluster image e, file.size, bx, [], []⟩ :=
      ⟨rfl, (Nat.mod_eq_of_lt hbx).symm⟩
    have hfits : bx + file.size ≤ 2 ^ 16 := by
      rw [← file.length_contents]
      refine Consecutive.fits hstart.readFile (fun hnil => ?_) hcopied
      have hzero := file.length_contents
      rw [hnil, List.length_nil] at hzero
      omega
    refine ⟨fun e' he' => ?_, hfits, fun pre c c' rest' hsplit _ => ?_⟩
    · obtain rfl : e = e' := Option.some.inj (he.symm.trans he')
      exact ⟨hcluster, hsize'⟩
    · rw [hcluster] at hfollowed
      rw [fatEntry_of_needed hsplit]
      exact (atCluster_first hoff hbx).followed hread hdest hfits hneeded (Nat.le_refl _) hfollowed
        pre c c' rest'
        hsplit (Nat.zero_le _)
  · rintro ⟨hfound, hfits, hstraddled⟩
    obtain ⟨hcluster, hsize'⟩ := hfound e he
    rw [hcluster, hsize']
    have hend := (atCluster_first hoff hbx).loads hread hdest hfits hstraddled hneeded
      (Nat.le_refl _)
    exact ⟨rfl, hend.followed, hend.copied, hend.mem⟩

/-! ## A disk with one file -/

/-- The name of the kernel file. -/
def kernelFileName : List UInt8 :=
    [0x4B, 0x45, 0x52, 0x4E, 0x45, 0x4C, 0x20, 0x20, 0x46, 0x4C, 0x54]

/-- A floppy disk with the kernel file, its first cluster, its size, and the bytes of its FAT. -/
def kernelFloppy (first size : UInt8 × UInt8) (fat : List (Nat × UInt8)) : Image := fun a =>
  if a < 19 * 512 then (fat.lookup (a - 512)).getD 0
  else
    (kernelFileName ++ .replicate 15 0 ++ [first.1, first.2, size.1, size.2]).getD (a - 19 * 512) 0

/-- A memory with the name of the kernel file at 0x600. -/
def kernelNameMemory : Memory := written (fun _ => 0) 0x600 kernelFileName

/-- INT 13h for a floppy disk. -/
def floppyRead (image : Image) (a : DiskAddress) (dest : Nat) (m : Memory) : Memory :=
  written m dest (bootVolume.sectorBytes image
    ((a.cylinder * headCount + a.head) * sectorsPerTrack + (a.sector - 1)))

/-- The drive of the test reads its image. -/
theorem floppyRead_reads (image : Image) : ReadsFloppy image (floppyRead image) :=
    fun _ _ _ _ _ _ _ => rfl

/-- The kernel file has 513 bytes, in the clusters 2 and 3. -/
def smallKernelFloppy : Image := kernelFloppy (2, 0) (1, 2) [(3, 3), (4, 0xF0), (5, 0xFF)]

def smallKernelFile : RootFile bootVolume smallKernelFloppy where
  entry := 0
  entry_lt := by decide
  clusters := [2, 3]
  chain := ⟨by decide, by decide, by decide, by decide⟩
  enough := by decide

/-- The file of two clusters is loaded: the second one is found in the FAT. -/
theorem loadFile_loads_small : LoadsFile kernelNameMemory 0x1800 0 smallKernelFile
    (loadFile (floppyRead smallKernelFloppy) 0x1800 0 0 0x600 kernelNameMemory) := by
  have hfind : bootVolume.findEntry smallKernelFloppy (bootfilename kernelNameMemory 0 0x600) =
      some 0 := by
    decide +kernel
  refine (loadFile_loads_iff smallKernelFile (floppyRead_reads _) (by decide)
    (by decide) (by decide)
    (by decide)).2 ⟨fun e he => ?_, by decide, fun pre c c' rest hsplit hstraddles => ?_⟩
  · obtain rfl : 0 = e := Option.some.inj (hfind.symm.trans he)
    decide
  · -- only the entry of the first cluster is followed, and it lies in one sector
    have htwo : smallKernelFile.needed = [2, 3] := by decide
    rw [htwo] at hsplit
    obtain rfl : pre = [] := by
      have hlen := congrArg List.length hsplit
      simp only [List.length_append, List.length_cons, List.length_nil] at hlen
      exact List.eq_nil_of_length_eq_zero (by omega)
    obtain rfl : 2 = c := (List.cons.inj hsplit).1
    exact absurd hstraddles (by decide)

/-- The kernel file has 513 bytes, in the clusters 341 and 342. -/
def splitKernelFloppy : Image :=
  kernelFloppy (0x55, 1) (1, 2) [(511, 0x60), (512, 0x15), (513, 0xFF), (514, 0x0F)]

def splitKernelFile : RootFile bootVolume splitKernelFloppy where
  entry := 0
  entry_lt := by decide
  clusters := [341, 342]
  chain := ⟨by decide, by decide, by decide, by decide⟩
  enough := by decide

/-- Its second sector is looked for in cluster 6, when the byte behind the buffer is zero. -/
theorem loadFile_reads_behind : ¬ ∀ image int13 m ax bx ds dx (file : RootFile bootVolume image),
    ReadsFloppy image int13 → bootVolume.name image file.entry = bootfilename m ds dx →
    1 ≤ file.size ∧ file.size ≤ 65535 → bx < 2 ^ 16 → buffer + bytesPerSector ≤ ax * 16 + bx →
    LoadsFile m ax bx file (loadFile int13 ax bx ds dx m) := by
  intro hall
  have hfollowed := (hall _ (floppyRead splitKernelFloppy) kernelNameMemory 0x1800 0 0 0x600
    splitKernelFile
    (floppyRead_reads _) (by decide) (by decide) (by decide) (by decide)).followed
  have hread : (loadFile (floppyRead splitKernelFloppy) 0x1800 0 0 0x600
    kernelNameMemory).2.followed =
      [341, 6] := by decide +kernel
  rw [hread] at hfollowed
  exact absurd hfollowed (by decide)

end MeghaOS
