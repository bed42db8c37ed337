-- The archive is read back: the end record leads to the central directory, and
-- each of its headers to a file with the entry's name and contents.
import TaxiCam.ZipCrc
import TaxiCam.DeflateRuns

namespace taxi_camera.standalone

open bit_streams zip_format List

/-! ## Numbers -/

def bytes2 (v : Nat) : List UInt8 := u16 [] v

def bytes4 (v : Nat) : List UInt8 := u32 [] v

theorem u16_eq (s : List UInt8) (v : Nat) : u16 s v = s ++ bytes2 v := rfl

theorem u32_eq (s : List UInt8) (v : Nat) : u32 s v = s ++ bytes4 v := by
  rw [u32, u16_eq, u16_eq, append_assoc]
  rfl

variable {archive bytes later : List UInt8} {count offset size start v : Nat} {entry : ZipEntry}

theorem little_endian_bytes2 (h : v ≤ 0xFFFF) : little_endian (bytes2 v) = v := by
  have hlow : v &&& 0xFF = v % 256 := Nat.and_two_pow_sub_one_eq_mod v 8
  have hhigh : v >>> 8 &&& 0xFF = v / 256 % 256 := by
    rw [Nat.shiftRight_eq_div_pow]
    exact Nat.and_two_pow_sub_one_eq_mod _ 8
  simp only [bytes2, u16, nil_append, little_endian, UInt8.toNat_ofNat', hlow, hhigh]
  omega

theorem little_endian_append (a b : List UInt8) :
    little_endian (a ++ b) = little_endian a + 256 ^ a.length * little_endian b := by
  induction a with
  | nil => simp [little_endian]
  | cons c a ih =>
    rw [cons_append, little_endian, ih, little_endian, length_cons, Nat.pow_succ,
      Nat.mul_add, Nat.add_assoc, Nat.mul_comm (256 ^ a.length) 256, Nat.mul_assoc]

theorem little_endian_bytes4 (h : v ≤ 0xFFFFFFFF) : little_endian (bytes4 v) = v := by
  have hlow : v &&& 0xFFFF = v % 65536 := Nat.and_two_pow_sub_one_eq_mod v 16
  have hhigh : v >>> 16 &&& 0xFFFF = v / 65536 % 65536 := by
    rw [Nat.shiftRight_eq_div_pow]
    exact Nat.and_two_pow_sub_one_eq_mod _ 16
  have hsplit : bytes4 v = bytes2 (v &&& 0xFFFF) ++ bytes2 (v >>> 16 &&& 0xFFFF) := rfl
  rw [hsplit, little_endian_append, hlow, hhigh, little_endian_bytes2 (by omega), little_endian_bytes2 (by omega)]
  change v % 65536 + 256 ^ 2 * (v / 65536 % 65536) = v
  omega

theorem number2 (hv : v ≤ 0xFFFF) (h : (bytes.drop start).take 2 = bytes2 v) : number bytes start 2 = some v := by
  rw [number, h]
  exact (if_pos rfl).trans (congrArg some (little_endian_bytes2 hv))

theorem number4 (hv : v ≤ 0xFFFFFFFF) (h : (bytes.drop start).take 4 = bytes4 v) : number bytes start 4 = some v := by
  rw [number, h]
  exact (if_pos rfl).trans (congrArg some (little_endian_bytes4 hv))

theorem stretch_eq {found : List UInt8}
    (h : bytes.drop start = found ++ later) : stretch bytes start found.length = some found := by
  rw [stretch, h, take_left]
  exact if_pos rfl

/-- Behind the first part of the bytes the offsets go on from zero. -/
theorem number_append (a b : List UInt8) (start width : Nat) :
    number (a ++ b) (a.length + start) width = number b start width := by
  rw [number, number, ← drop_drop, drop_left]

/-! ## The records of an entry -/

variable {dos_time dos_date : Nat}

def method (entry : ZipEntry) : Nat := if deflated entry then 8 else 0

/-- The fields that both headers share. -/
def common_fields (method time date crc packed size name : Nat) : List UInt8 :=
  bytes2 20 ++ bytes2 0 ++ bytes2 method ++ bytes2 time ++ bytes2 date ++ bytes4 crc ++ bytes4 packed ++
    bytes4 size ++ bytes2 name ++ bytes2 0

/-- The fields read back, at their places from the first shared one. -/
theorem read_common {method time date crc packed name : Nat} (hmethod : method ≤ 0xFFFF)
    (hcrc : crc ≤ 0xFFFFFFFF) (hpacked : packed ≤ 0xFFFFFFFF) (hsize : size ≤ 0xFFFFFFFF)
    (hname : name ≤ 0xFFFF) {rest : List UInt8}
    (hbytes : bytes = common_fields method time date crc packed size name ++ rest) :
    number bytes 4 2 = some method ∧ number bytes 10 4 = some crc ∧
      number bytes 14 4 = some packed ∧ number bytes 18 4 = some size ∧
      number bytes 22 2 = some name ∧ number bytes 24 2 = some 0 ∧ bytes.drop 26 = rest := by
  subst hbytes
  exact ⟨number2 hmethod rfl, number4 hcrc rfl, number4 hpacked rfl, number4 hsize rfl,
    number2 hname rfl, number2 (by decide) rfl, rfl⟩

def common_bytes (dos_time dos_date : Nat) (entry : ZipEntry) : List UInt8 :=
  common_fields (method entry) dos_time dos_date (zip_crc32 entry.data) (body entry).length
    entry.data.length entry.name.length

theorem common_eq (entry : ZipEntry) (s : List UInt8) :
    common dos_time dos_date entry s = s ++ common_bytes dos_time dos_date entry := by
  simp only [common, u16_eq, u32_eq, common_bytes, common_fields, method, append_assoc]

def local_record (dos_time dos_date : Nat) (entry : ZipEntry) : List UInt8 :=
  bytes4 0x04034B50 ++ (common_bytes dos_time dos_date entry ++ (entry.name ++ body entry))

/-- The fields of a central header behind the shared ones. -/
def central_fields (offset : Nat) : List UInt8 :=
  bytes2 0 ++ bytes2 0 ++ bytes2 0 ++ bytes4 0 ++ bytes4 offset

def central_record (dos_time dos_date offset : Nat) (entry : ZipEntry) : List UInt8 :=
  (bytes4 0x02014B50 ++ bytes2 20) ++
    (common_bytes dos_time dos_date entry ++ (central_fields offset ++ entry.name))

theorem add_local_eq (out : List UInt8) (entry : ZipEntry) :
    add_local dos_time dos_date out entry = out ++ local_record dos_time dos_date entry := by
  simp only [add_local, common_eq, u32_eq, local_record, append_assoc]

theorem add_central_eq (offset : Nat) (directory : List UInt8) (entry : ZipEntry) :
    add_central dos_time dos_date offset directory entry =
      directory ++ central_record dos_time dos_date offset entry := by
  simp only [add_central, common_eq, u16_eq, u32_eq, central_record, central_fields, append_assoc]

theorem length_local_record (entry : ZipEntry) :
    (local_record dos_time dos_date entry).length = 30 + entry.name.length + (body entry).length := by
  have hcommon : (common_bytes dos_time dos_date entry).length = 26 := rfl
  have hsignature : (bytes4 0x04034B50).length = 4 := rfl
  rw [local_record, length_append, length_append, length_append, hcommon, hsignature]
  omega

theorem length_central_record (offset : Nat) (entry : ZipEntry) :
    (central_record dos_time dos_date offset entry).length = 46 + entry.name.length := by
  have hcommon : (common_bytes dos_time dos_date entry).length = 26 := rfl
  have hsignature : (bytes4 0x02014B50).length = 4 := rfl
  have hversion : (bytes2 20).length = 2 := rfl
  have hlast : (central_fields offset).length = 14 := rfl
  simp only [central_record, length_append, hcommon, hsignature, hversion, hlast]
  omega

/-- Names and sizes that the fields of a header hold. -/
structure Fits (entry : ZipEntry) : Prop where
  name : entry.name.length ≤ 0xFFFF
  data : entry.data.length ≤ 0xFFFFFFFF

theorem length_body (entry : ZipEntry) : (body entry).length ≤ entry.data.length := by
  unfold body
  split
  · rename_i h
    exact Nat.le_of_lt (of_decide_eq_true h)
  · exact Nat.le_refl _

def header (entry : ZipEntry) : Header :=
  { method := method entry, crc := zip_crc32 entry.data, packed := (body entry).length
    size := entry.data.length, name := entry.name }

/-- The numbers of an entry fit their fields. -/
theorem Fits.numbers (h : Fits entry) : method entry ≤ 0xFFFF ∧
    zip_crc32 entry.data ≤ 0xFFFFFFFF ∧ (body entry).length ≤ 0xFFFFFFFF := by
  refine ⟨?_, Nat.le_of_lt_succ (zip_crc32_eq entry.data).2, (length_body entry).trans h.data⟩
  unfold method
  split <;> decide

theorem read_local_record (h : Fits entry) (later : List UInt8) :
    read_local (local_record dos_time dos_date entry ++ later) = some (header entry, 30 + entry.name.length) := by
  obtain ⟨hmethod, hcrc, hpacked⟩ := h.numbers
  generalize hrest : common_bytes dos_time dos_date entry ++ (entry.name ++ (body entry ++ later)) = rest
  obtain ⟨hm, hc, hp, hs, hn, hx, hdrop⟩ := read_common hmethod hcrc hpacked h.data h.name hrest.symm
  have hbytes : local_record dos_time dos_date entry ++ later = bytes4 0x04034B50 ++ rest := by
    simp only [local_record, append_assoc, ← hrest]
  have hsignature : number (bytes4 0x04034B50 ++ rest) 0 4 = some 0x04034B50 := number4 (by decide) rfl
  have hname : stretch (bytes4 0x04034B50 ++ rest) 30 entry.name.length = some entry.name := stretch_eq hdrop
  have hskip (start width : Nat) : number (bytes4 0x04034B50 ++ rest) (4 + start) width =
      number rest start width := number_append (bytes4 0x04034B50) rest start width
  rw [hbytes]
  simp [read_local, hsignature, (hskip 4 2).trans hm, (hskip 10 4).trans hc, (hskip 14 4).trans hp,
    (hskip 18 4).trans hs, (hskip 22 2).trans hn, (hskip 24 2).trans hx, hname, header]

theorem read_central_record (h : Fits entry) (hoffset : offset ≤ 0xFFFFFFFF) (later : List UInt8) :
    read_central (central_record dos_time dos_date offset entry ++ later) =
      some (header entry, offset, 46 + entry.name.length) := by
  obtain ⟨hmethod, hcrc, hpacked⟩ := h.numbers
  generalize hlast : central_fields offset ++ (entry.name ++ later) = last
  generalize hrest : common_bytes dos_time dos_date entry ++ last = rest
  obtain ⟨hm, hc, hp, hs, hn, hx, hdrop⟩ := read_common hmethod hcrc hpacked h.data h.name hrest.symm
  have hbytes : central_record dos_time dos_date offset entry ++ later =
      (bytes4 0x02014B50 ++ bytes2 20) ++ rest := by
    simp only [central_record, append_assoc, ← hrest, ← hlast]
  generalize hfirst : bytes4 0x02014B50 ++ bytes2 20 = first at hbytes
  have hlength : first.length = 6 := by rw [← hfirst]; rfl
  have hsignature : number (first ++ rest) 0 4 = some 0x02014B50 := number4 (by decide) (by rw [← hfirst]; rfl)
  have hskip (start width : Nat) : number (first ++ rest) (6 + start) width = number rest start width := by
    rw [← hlength, number_append]
  -- The comment's length and the offset stand behind the shared fields.
  have hcommon : (common_bytes dos_time dos_date entry).length = 26 := rfl
  have hskip' (start width : Nat) : number rest (26 + start) width = number last start width := by
    rw [← hrest, ← hcommon, number_append]
  have hcomment : number last 0 2 = some 0 := number2 (by decide) (by rw [← hlast]; rfl)
  have hat : number last 10 4 = some offset := number4 hoffset (by rw [← hlast]; rfl)
  have hnames : (first ++ rest).drop 46 = entry.name ++ later := by
    have hlater : (first ++ rest).drop (6 + (26 + 14)) = entry.name ++ later := by
      rw [← drop_drop, ← hlength, drop_left, ← drop_drop, hdrop, ← hlast]
      exact drop_left' rfl
    exact hlater
  have hname : stretch (first ++ rest) 46 entry.name.length = some entry.name := stretch_eq hnames
  rw [hbytes]
  simp [read_central, hsignature, (hskip 4 2).trans hm, (hskip 10 4).trans hc, (hskip 14 4).trans hp,
    (hskip 18 4).trans hs, (hskip 22 2).trans hn, (hskip 24 2).trans hx,
    (hskip 26 2).trans ((hskip' 0 2).trans hcomment), (hskip 36 4).trans ((hskip' 10 4).trans hat),
    hname, header]

/-! ## Files -/

theorem unpack_body (entry : ZipEntry) : unpack (method entry) (body entry) = some entry.data := by
  unfold unpack method body
  cases deflated entry with
  | false => rfl
  | true =>
    obtain ⟨pairs, padding, hbits, hcodes, hexpand, hpadding⟩ := deflate_fixed_block entry.data
    exact rfc1951.inflate_block_of_tokens hcodes hexpand hpadding hbits

/-- The file of an entry whose local header stands at an offset. -/
def found (entry : ZipEntry) (offset : Nat) : Found :=
  { header := header entry, offset, start := offset + (30 + entry.name.length)
    contents := entry.data }

theorem read_file_record (h : Fits entry) (hat : archive.drop offset = local_record dos_time dos_date entry ++ later) :
    read_file archive (header entry) offset = some (found entry offset) := by
  have hlocal : read_local (local_record dos_time dos_date entry ++ later) =
      some (header entry, 30 + entry.name.length) := read_local_record h later
  rw [← hat] at hlocal
  have hdrop : archive.drop (offset + (30 + entry.name.length)) = body entry ++ later := by
    have hfixed : (bytes4 0x04034B50 ++ common_bytes dos_time dos_date entry ++ entry.name).length =
        30 + entry.name.length := by
      rw [length_append]
      rfl
    have hrecord : local_record dos_time dos_date entry ++ later =
        (bytes4 0x04034B50 ++ common_bytes dos_time dos_date entry ++ entry.name) ++ (body entry ++ later) := by
      simp only [local_record, append_assoc]
    rw [← drop_drop, hat, hrecord]
    exact drop_left' hfixed
  have hdata : stretch archive (offset + (30 + entry.name.length)) (header entry).packed =
      some (body entry) := stretch_eq hdrop
  have hunpack : unpack (header entry).method (body entry) = some entry.data := unpack_body entry
  have hcrc : crc32 entry.data = (header entry).crc := (zip_crc32_eq entry.data).1.symm
  have hsize : entry.data.length = (header entry).size := rfl
  simp [read_file, hlocal, hdata, hunpack, hcrc, hsize, found]

/-- The files of the entries, one behind the other. -/
def locals (dos_time dos_date : Nat) (entries : List ZipEntry) : List UInt8 :=
  entries.flatMap (local_record dos_time dos_date)

def directory_from (dos_time dos_date : Nat) : Nat → List ZipEntry → List UInt8
  | _, [] => []
  | offset, entry :: rest =>
    central_record dos_time dos_date offset entry ++
      directory_from dos_time dos_date (offset + (local_record dos_time dos_date entry).length) rest

def found_from : Nat → List ZipEntry → List Found
  | _, [] => []
  | offset, entry :: rest =>
    found entry offset :: found_from (offset + (30 + entry.name.length + (body entry).length)) rest

theorem read_directory_from (dos_time dos_date : Nat)
    (tail tail' : List UInt8) {entries : List ZipEntry} (hfits : ∀ entry ∈ entries, Fits entry)
    {position : Nat}
    (hlocals : archive.drop offset = locals dos_time dos_date entries ++ tail)
    (hdirectory : archive.drop position = directory_from dos_time dos_date offset entries ++ tail')
    (hend : offset + (locals dos_time dos_date entries).length ≤ 0xFFFFFFFF) :
    read_directory archive entries.length position = some (found_from offset entries) := by
  induction entries generalizing offset position with
  | nil => rfl
  | cons entry rest ih =>
    obtain ⟨hentry, hrest⟩ := forall_mem_cons.mp hfits
    have hlocals' : locals dos_time dos_date (entry :: rest) =
        local_record dos_time dos_date entry ++ locals dos_time dos_date rest := flatMap_cons
    rw [hlocals', append_assoc] at hlocals
    rw [hlocals', length_append] at hend
    rw [directory_from, append_assoc] at hdirectory
    have hcentral : read_central (archive.drop position) = some (header entry, offset, 46 + entry.name.length) := by
      rw [hdirectory]
      exact read_central_record hentry (by omega) _
    have hfile := read_file_record hentry hlocals
    have hlocals'' : archive.drop (offset + (local_record dos_time dos_date entry).length) =
        locals dos_time dos_date rest ++ tail := by
      rw [← drop_drop, hlocals, drop_left]
    have hdirectory' : archive.drop (position + (46 + entry.name.length)) = directory_from dos_time
        dos_date (offset + (local_record dos_time dos_date entry).length) rest ++ tail' := by
      rw [← drop_drop, hdirectory]
      exact drop_left' (length_central_record offset entry)
    have hnext := ih hrest hlocals'' hdirectory' (by omega)
    rw [length_local_record] at hnext
    simp [read_directory, hcentral, hfile, hnext, found_from]

/-! ## The writer -/

/-- The bytes of an archive of the entries, whatever their number. -/
def total (entries : List ZipEntry) : Nat :=
  (entries.map fun entry => 30 + entry.name.length + (body entry).length).sum +
    (entries.map fun entry => 46 + entry.name.length).sum + 22

/-- A count, a name or a size does not fit its field, or the whole archive, and with it an offset or
the size of the directory, is longer than 32 bits count. -/
def Unfit (entries : List ZipEntry) : Prop :=
  0xFFFF < entries.length ∨ (∃ entry ∈ entries, ¬ Fits entry) ∨ 0xFFFFFFFF < total entries

theorem length_locals (dos_time dos_date : Nat) (entries : List ZipEntry) :
    (locals dos_time dos_date entries).length = (entries.map fun entry =>
      30 + entry.name.length + (body entry).length).sum := by
  induction entries with
  | nil => rfl
  | cons entry rest ih =>
    rw [locals, flatMap_cons, length_append, length_local_record, map_cons, sum_cons, ← ih, locals]

theorem length_directory (dos_time dos_date offset : Nat) (entries : List ZipEntry) :
    (directory_from dos_time dos_date offset entries).length =
      (entries.map fun entry => 46 + entry.name.length).sum := by
  induction entries generalizing offset with
  | nil => rfl
  | cons entry rest ih =>
    rw [directory_from, length_append, length_central_record, ih, map_cons, sum_cons]

/-- The loop gives the files and their directory, unless an entry or the files do not fit. -/
theorem add_entries_eq (dos_time dos_date : Nat) (entries : List ZipEntry) {s : Archive}
    (hs : s.out.length ≤ 0xFFFFFFFF) :
    add_entries dos_time dos_date entries s = none ∧
        ((∃ entry ∈ entries, ¬ Fits entry) ∨ 0xFFFFFFFF < s.out.length + (locals dos_time dos_date entries).length) ∨
      add_entries dos_time dos_date entries s = some
          { out := s.out ++ locals dos_time dos_date entries
            directory := s.directory ++ directory_from dos_time dos_date s.out.length entries } ∧
        (∀ entry ∈ entries, Fits entry) ∧
        s.out.length + (locals dos_time dos_date entries).length ≤ 0xFFFFFFFF := by
  induction entries generalizing s with
  | nil =>
    refine .inr ⟨?_, by simp, hs⟩
    simp [add_entries, locals, directory_from]
  | cons entry rest ih =>
    have hlocals : locals dos_time dos_date (entry :: rest) =
        local_record dos_time dos_date entry ++ locals dos_time dos_date rest := flatMap_cons
    rw [add_entries]
    by_cases hfits : Fits entry
    · have hin : ¬ (entry.name.length > 0xFFFF ∨ entry.data.length > 0xFFFFFFFF) := by
        have := hfits.name
        have := hfits.data
        omega
      rw [if_neg hin, hlocals, length_append]
      dsimp only
      rw [add_local_eq, add_central_eq, length_append]
      split
      · exact .inl ⟨rfl, .inr (by omega)⟩
      rename_i hroom
      have hnext := ih (s := { out := s.out ++ local_record dos_time dos_date entry
                               directory := s.directory ++ central_record dos_time dos_date s.out.length entry })
        (by rw [length_append]; omega)
      rw [length_append] at hnext
      rcases hnext with ⟨heq, hbad⟩ | ⟨heq, hall, hsmall⟩
      · refine .inl ⟨heq, hbad.imp (fun ⟨e, he, hno⟩ => ⟨e, mem_cons_of_mem _ he, hno⟩) fun h => ?_⟩
        omega
      refine .inr ⟨?_, forall_mem_cons.mpr ⟨hfits, hall⟩, by omega⟩
      rw [heq, append_assoc, append_assoc]
      rfl
    refine .inl ⟨if_pos ?_, .inl ⟨entry, mem_cons_self, hfits⟩⟩
    by_contra hin
    exact hfits ⟨by omega, by omega⟩

/-- The end record. -/
def end_record (count size offset : Nat) : List UInt8 :=
  bytes4 0x06054B50 ++ bytes2 0 ++ bytes2 0 ++ bytes2 count ++ bytes2 count ++ bytes4 size ++
    bytes4 offset ++ bytes2 0

theorem add_end_eq (count : Nat) (s : Archive) : add_end count s =
    s.out ++ s.directory ++ end_record count s.directory.length s.out.length := by
  simp only [add_end, u16_eq, u32_eq, end_record, append_assoc]

theorem read_end_record (hcount : count ≤ 0xFFFF) (hsize : size ≤ 0xFFFFFFFF)
    (hoffset : offset ≤ 0xFFFFFFFF) (files : List UInt8) :
    read_end (files ++ end_record count size offset) = some { count, size, offset } := by
  have hlength : (files ++ end_record count size offset).length = files.length + 22 := by
    rw [length_append]
    rfl
  have hlast : (files ++ end_record count size offset).drop
      ((files ++ end_record count size offset).length - 22) = end_record count size offset := by
    rw [hlength, Nat.add_sub_cancel, drop_left]
  have hlong : ¬ (files ++ end_record count size offset).length < 22 := by omega
  generalize hbytes : end_record count size offset = bytes at *
  have h0 : number bytes 0 4 = some 0x06054B50 := number4 (by decide) (by rw [← hbytes]; rfl)
  have h4 : number bytes 4 2 = some 0 := number2 (by decide) (by rw [← hbytes]; rfl)
  have h6 : number bytes 6 2 = some 0 := number2 (by decide) (by rw [← hbytes]; rfl)
  have h8 : number bytes 8 2 = some count := number2 hcount (by rw [← hbytes]; rfl)
  have h10 : number bytes 10 2 = some count := number2 hcount (by rw [← hbytes]; rfl)
  have h12 : number bytes 12 4 = some size := number4 hsize (by rw [← hbytes]; rfl)
  have h16 : number bytes 16 4 = some offset := number4 hoffset (by rw [← hbytes]; rfl)
  have h20 : number bytes 20 2 = some 0 := number2 (by decide) (by rw [← hbytes]; rfl)
  rw [read_end, if_neg hlong, hlast]
  simp [h0, h4, h6, h8, h10, h12, h16, h20]

/-- An archive is its files, its directory and its end record, or empty. -/
theorem zip_archive_cases (dos_time dos_date : Nat) (entries : List ZipEntry) :
    zip_archive entries dos_time dos_date = [] ∧ Unfit entries ∨
      zip_archive entries dos_time dos_date = locals dos_time dos_date entries ++
          directory_from dos_time dos_date 0 entries ++ end_record entries.length
            (directory_from dos_time dos_date 0 entries).length
            (locals dos_time dos_date entries).length ∧
        ¬ Unfit entries := by
  have htotal : total entries = (locals dos_time dos_date entries).length +
      (directory_from dos_time dos_date 0 entries).length + 22 := by
    rw [total, length_locals, length_directory]
  unfold zip_archive
  by_cases hcount : entries.length > 0xFFFF
  · rw [if_pos hcount]
    exact .inl ⟨rfl, .inl hcount⟩
  rw [if_neg hcount]
  have hloop := add_entries_eq dos_time dos_date entries (s := {}) (Nat.zero_le _)
  simp only [length_nil, Nat.zero_add, nil_append] at hloop
  rcases hloop with ⟨heq, hbad⟩ | ⟨heq, hfits, hsmall⟩
  · rw [heq]
    refine .inl ⟨rfl, .inr (hbad.imp id fun hlong => ?_)⟩
    omega
  rw [heq]
  dsimp only
  have hlength : (add_end entries.length
      { out := locals dos_time dos_date entries
        directory := directory_from dos_time dos_date 0 entries }).length = total entries := by
    rw [add_end_eq, length_append, length_append, htotal]
    rfl
  rw [hlength]
  split
  · rename_i hlong
    exact .inl ⟨rfl, .inr (.inr hlong)⟩
  rename_i hshort
  refine .inr ⟨add_end_eq .., ?_⟩
  rintro (hmany | ⟨entry, hentry, hno⟩ | hlong)
  · exact hcount hmany
  · exact hno (hfits entry hentry)
  · exact hshort hlong

/-! ## The archive is read back -/

/-- A file with the name, the contents and the checksum of an entry, its data behind its local
header. -/
structure ReadAs (entry : ZipEntry) (file : Found) : Prop where
  name : file.header.name = entry.name
  size : file.header.size = entry.data.length
  crc : file.header.crc = crc32 entry.data
  packed : file.header.method = 0 ∧ file.header.packed = entry.data.length ∨
    file.header.method = 8 ∧ file.header.packed = (deflate_fixed entry.data).length ∧
      file.header.packed < entry.data.length
  start : file.start = file.offset + (30 + entry.name.length)
  contents : file.contents = entry.data

/-- A reader finds exactly the entries, in order; no range of a local header and its data overlaps
another one, and the directory and the end record stand behind them all. -/
def ReadBack (entries : List ZipEntry) (archive : List UInt8) : Prop :=
  ∃ last files, read_archive archive = some (last, files) ∧ last.count = entries.length ∧
    List.Forall₂ ReadAs entries files ∧
    (files.Pairwise fun a b => a.start + a.header.packed ≤ b.offset) ∧
    (∀ file ∈ files, file.start + file.header.packed ≤ last.offset) ∧
    last.offset + last.size + 22 = archive.length

theorem read_as_found (entry : ZipEntry) (offset : Nat) : ReadAs entry (found entry offset) where
  name := rfl
  size := rfl
  crc := (zip_crc32_eq entry.data).1
  packed := by
    cases hdeflated : deflated entry with
    | false => exact .inl ⟨by simp [found, header, method, hdeflated], by simp [found, header, body, hdeflated]⟩
    | true =>
      have hshort : (deflate_fixed entry.data).length < entry.data.length := of_decide_eq_true hdeflated
      have hbody : (found entry offset).header.packed = (deflate_fixed entry.data).length := by
        simp [found, header, body, hdeflated]
      exact .inr ⟨by simp [found, header, method, hdeflated], hbody, by rw [hbody]; exact hshort⟩
  start := rfl
  contents := rfl

theorem read_as_found_from (offset : Nat) (entries : List ZipEntry) :
    List.Forall₂ ReadAs entries (found_from offset entries) := by
  induction entries generalizing offset with
  | nil => exact .nil
  | cons entry rest ih => exact .cons (read_as_found entry offset) (ih _)

/-- The files stand one behind the other, from the first offset on. -/
theorem found_from_apart (dos_time dos_date offset : Nat) (entries : List ZipEntry) :
    ((found_from offset entries).Pairwise fun a b => a.start + a.header.packed ≤ b.offset) ∧
      ∀ file ∈ found_from offset entries, offset ≤ file.offset ∧
        file.start + file.header.packed ≤ offset + (locals dos_time dos_date entries).length := by
  induction entries generalizing offset with
  | nil => exact ⟨.nil, nofun⟩
  | cons entry rest ih =>
    obtain ⟨hapart, hrange⟩ := ih (offset + (30 + entry.name.length + (body entry).length))
    have hlength : (locals dos_time dos_date (entry :: rest)).length =
        30 + entry.name.length + (body entry).length + (locals dos_time dos_date rest).length := by
      rw [locals, flatMap_cons, length_append, length_local_record, locals]
    have hend : (found entry offset).start + (found entry offset).header.packed =
        offset + (30 + entry.name.length + (body entry).length) := by
      rw [← Nat.add_assoc offset]
      rfl
    refine ⟨pairwise_cons.mpr ⟨fun file hfile => ?_, hapart⟩, fun file hfile => ?_⟩
    · rw [hend]
      exact (hrange file hfile).1
    · rw [hlength]
      rcases mem_cons.mp hfile with rfl | hfile
      · exact ⟨Nat.le_refl _, by omega⟩
      have := hrange file hfile
      exact ⟨by omega, by omega⟩

theorem archives_are_well_formed (entries : List ZipEntry) (dos_time dos_date : Nat) :
    zip_archive entries dos_time dos_date = [] ∧ Unfit entries ∨
      ¬ Unfit entries ∧ ReadBack entries (zip_archive entries dos_time dos_date) := by
  refine (zip_archive_cases dos_time dos_date entries).imp id fun ⟨heq, hfit⟩ => ⟨hfit, ?_⟩
  have hcount : entries.length ≤ 0xFFFF := Nat.not_lt.mp fun h => hfit (.inl h)
  have hfits : ∀ entry ∈ entries, Fits entry := fun entry hentry =>
    Classical.not_not.mp fun hno => hfit (.inr (.inl ⟨entry, hentry, hno⟩))
  have hsmall : total entries ≤ 0xFFFFFFFF := Nat.not_lt.mp fun h => hfit (.inr (.inr h))
  rw [heq]
  rw [total, ← length_locals dos_time dos_date, ← length_directory dos_time dos_date 0] at hsmall
  generalize hfiles : locals dos_time dos_date entries = files at *
  generalize hdirectory : directory_from dos_time dos_date 0 entries = directory at *
  generalize hlast : end_record entries.length directory.length files.length = last at *
  obtain ⟨hapart, hrange⟩ := found_from_apart dos_time dos_date 0 entries
  rw [hfiles, Nat.zero_add] at hrange
  have hend := read_end_record hcount (show directory.length ≤ 0xFFFFFFFF by omega)
    (show files.length ≤ 0xFFFFFFFF by omega) (files ++ directory)
  rw [hlast] at hend
  have hread : read_directory (files ++ directory ++ last) entries.length files.length =
      some (found_from 0 entries) := by
    refine read_directory_from dos_time dos_date (directory ++ last) last hfits ?_ ?_ ?_
    · rw [drop_zero, hfiles, append_assoc]
    · rw [hdirectory, append_assoc, drop_left]
    · rw [hfiles]
      omega
  refine ⟨⟨entries.length, directory.length, files.length⟩, found_from 0 entries, ?_, rfl, read_as_found_from 0 entries, hapart,
    fun file hfile => (hrange file hfile).2, ?_⟩
  · rw [read_archive, hend]
    simp only [Option.bind_eq_bind, Option.bind_some, hread]
  · rw [length_append, length_append, ← hlast]
    rfl

/-- Empty entries, the last of them with a name of its own length. -/
def empty_entries (count length last : Nat) : List ZipEntry :=
  List.replicate count ⟨List.replicate length 0, []⟩ ++ [⟨List.replicate last 0, []⟩]

theorem length_empty_body (name : List UInt8) : (body ⟨name, []⟩).length = 0 :=
  Nat.le_zero.mp (length_body ⟨name, []⟩)

theorem length_empty_locals (count length last : Nat) :
    (locals 0 0 (empty_entries count length last)).length = count * (30 + length) + (30 + last) := by
  rw [length_locals, empty_entries, map_append, map_replicate, sum_append,
    sum_replicate_nat, map_singleton, sum_singleton]
  simp only [length_empty_body, length_replicate, Nat.add_zero]

theorem length_empty_directory (count length last : Nat) :
    (directory_from 0 0 0 (empty_entries count length last)).length = count * (46 + length) + (46 + last) := by
  rw [length_directory, empty_entries, map_append, map_replicate, sum_append,
    sum_replicate_nat, map_singleton, sum_singleton]
  simp only [length_replicate]

theorem fits_empty {length last : Nat} (hlength : length ≤ 0xFFFF) (hlast : last ≤ 0xFFFF) :
    ∀ entry ∈ empty_entries count length last, Fits entry := by
  intro entry hentry
  rcases mem_append.mp hentry with h | h
  · rw [eq_of_mem_replicate h]
    exact ⟨by rw [length_replicate]; exact hlength, Nat.zero_le _⟩
  rw [mem_singleton.mp h]
  exact ⟨by rw [length_replicate]; exact hlast, Nat.zero_le _⟩

/-- Every count, name, size and offset of these entries fits its field, and their archive would take
exactly four gibibytes; it is refused. -/
theorem four_gibibytes_are_refused : ∃ entries, entries.length ≤ 0xFFFF ∧
    (∀ entry ∈ entries, Fits entry) ∧ (locals 0 0 entries).length ≤ 0xFFFFFFFF ∧
    (directory_from 0 0 0 entries).length ≤ 0xFFFFFFFF ∧ total entries = 2 ^ 32 ∧
    zip_archive entries 0 0 = [] := by
  have hlocals := length_empty_locals 32749 65535 33422
  have hdirectory := length_empty_directory 32749 65535 33422
  have hfits : ∀ entry ∈ empty_entries 32749 65535 33422, Fits entry := fits_empty (by omega) (by omega)
  have hcount : (empty_entries 32749 65535 33422).length = 32750 := by
    rw [empty_entries, length_append, length_replicate]
    rfl
  generalize empty_entries 32749 65535 33422 = entries at *
  have htotal : total entries = 2 ^ 32 := by
    rw [total, ← length_locals 0 0, ← length_directory 0 0 0]
    omega
  refine ⟨entries, by omega, hfits, by omega, by omega, htotal, ?_⟩
  rcases zip_archive_cases 0 0 entries with ⟨heq, -⟩ | ⟨-, hfit⟩
  · exact heq
  · exact absurd (.inr (.inr (by rw [htotal]; omega))) hfit

end taxi_camera.standalone
