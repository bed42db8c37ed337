-- The fingerprints of code ranges of a loaded image: headers and relocations are
-- read first, and a range that a relocation rewrites is refused.
-- src/camera/code_contract.cpp. Addresses are relative to the image.

namespace taxi_camera.native_camera.code_contract

open List

def kReadable : Nat := 0x40000000
def kWritable : Nat := 0x80000000
def kExecutable : Nat := 0x20000000
def kDiscardable : Nat := 0x02000000
def kCodeLimit : Nat := 65536
def kMetadataLimit : Nat := 1024 * 1024

/-! ## The image and its reader -/

structure ReadWindow where
  size : Nat := 0
  readable : Bool := false

/-- The bytes do not change; what the reader answers may, from call to call. -/
structure ImageReader where
  byte : Nat → UInt8
  query : Nat → Nat → Nat → ReadWindow
  read : Nat → Nat → Nat → Bool

structure ImageSection where
  rva : Nat
  size : Nat
  flags : Nat

structure Inventory where
  valid_image : Bool := false
  machine : Nat := 0
  section_count : Nat := 0
  timestamp : Nat := 0
  image_size : Nat := 0
  checksum : Nat := 0
  sections : List ImageSection := []

structure CodeRange where
  rva : Nat
  size : Nat

structure CodeFingerprint where
  rva : Nat
  size : Nat
  hash : UInt64
deriving DecidableEq

structure CodeContractInventory where
  valid : Bool := false
  error : String := ""
  read_bytes : Nat := 0
  metadata_bytes : Nat := 0
  read_failures : Nat := 0
  relocations_checked : Bool := false
  relocation_rva : Nat := 0
  relocation_size : Nat := 0
  relocation_entries : Nat := 0
  relocation_blocks : Nat := 0
  relocation_blocks_skipped : Nat := 0
  records : List CodeFingerprint := []

/-- What is left of an allowance. -/
def CodeContractInventory.left (r : CodeContractInventory) (metadata : Bool) : Nat :=
  if metadata then kMetadataLimit - r.metadata_bytes else kCodeLimit - r.read_bytes

/-- The result so far, and the extents that the reader was asked for, by a query or by a read. -/
structure State where
  result : CodeContractInventory := {}
  asked : List (Nat × Nat) := []

/-- The error of a parser that fails is that of the result. -/
abbrev Parser := ExceptT String (StateM State)

def u16 (bytes : List UInt8) (i : Nat) : Nat := (bytes.getD i 0).toNat ||| (bytes.getD (i + 1) 0).toNat <<< 8

def u32 (bytes : List UInt8) (i : Nat) : Nat := u16 bytes i ||| u16 bytes (i + 2) <<< 16

def within (rva size start extent : Nat) : Bool :=
  decide (start ≤ rva) && decide (rva - start ≤ extent) && decide (size ≤ extent - (rva - start))

def overlap (a a_size b b_size : Nat) : Bool :=
  a_size != 0 && b_size != 0 && decide (a < b + b_size) && decide (b < a + a_size)

/-- `size` bytes from `rva` on. -/
def ImageReader.part (reader : ImageReader) (rva size : Nat) : List UInt8 :=
  (List.range size).map fun i => reader.byte (rva + i)

/-! ## The parser -/

def count (change : CodeContractInventory → CodeContractInventory) : Parser Unit :=
  modify fun s => { s with result := change s.result }

section
variable (reader : ImageReader) (image : Inventory) (ranges : List CodeRange)

/-- A call of the reader. -/
def ask {α : Type} (answer : Nat → Nat → Nat → α) (rva size : Nat) : Parser α := fun s =>
  (.ok (answer s.asked.length rva size), { s with asked := s.asked ++ [(rva, size)] })

def read_failed (error : String) : Parser Unit := do
  count fun r => { r with read_failures := r.read_failures + 1 }
  throw error

def section_range (rva size required excluded : Nat) : Bool :=
  size != 0 && within rva size 0 image.image_size &&
    image.sections.any fun s => s.flags &&& required == required && s.flags &&& excluded == 0 &&
      within rva size s.rva s.size

def sections_error (previous : List ImageSection) : List ImageSection → Option String
  | [] => none
  | s :: rest =>
    if !within s.rva s.size 0 image.image_size then some "A declared image section extends beyond the image."
    else if previous.any fun other => overlap s.rva s.size other.rva other.size then
      some "Overlapping image sections are unsupported."
    else sections_error (s :: previous) rest

def ranges_error (previous : List CodeRange) (total : Nat) : List CodeRange → Option String
  | [] => none
  | range :: rest =>
    if range.size == 0 || decide (8192 < range.size) || decide (kCodeLimit - total < range.size) ||
        !section_range image range.rva range.size (kReadable ||| kExecutable) (kWritable ||| kDiscardable) then
      some "A code range exceeds its byte limits or readable static executable section."
    else if previous.any fun other => overlap range.rva range.size other.rva other.size then
      some "Duplicate or overlapping code ranges are unsupported."
    else ranges_error (range :: previous) (total + range.size) rest

/-- The error that `validate` finds. -/
def validate : Option String :=
  if !image.valid_image || image.machine != 0x8664 || image.image_size == 0 ||
      decide (0x80000000 < image.image_size) || image.sections.isEmpty ||
      decide (image.section_count < image.sections.length) || image.section_count == 0 ||
      decide (96 < image.section_count) then some "Invalid AMD64 loaded-image metadata."
  else (sections_error image [] image.sections).or <|
    if ranges.isEmpty || decide (32 < ranges.length) then some "Request one to 32 explicit code ranges."
    else ranges_error image [] 0 ranges

/-- `header_limit_`, as `validate` leaves it. -/
def header_limit : Nat :=
  image.sections.foldl (fun limit s => if s.size ≠ 0 then min limit s.rva else limit) 0xffffffff

/-- The windows of a read from `offset` on. -/
def exact_from (rva size offset : Nat) : Parser Unit :=
  if offset < size then do
    let window ← ask reader.query (rva + offset) (size - offset)
    if _ : !window.readable ∨ window.size = 0 ∨ size - offset < window.size then
      read_failed "A code-contract query window is unreadable or invalid."
    else do
      let copied ← ask reader.read (rva + offset) window.size
      if copied then exact_from rva size (offset + window.size)
      else read_failed "Code-contract bytes could not be read exactly."
  else pure ()
termination_by size - offset

def exact (rva size : Nat) (metadata : Bool) : Parser (List UInt8) :=
  if !within rva size 0 image.image_size then throw "A required read extends beyond the loaded image."
  else do
    let s ← get
    if s.result.left metadata < size then throw "The code or relocation metadata read allowance was exhausted."
    else do
      count fun r => if metadata then { r with metadata_bytes := r.metadata_bytes + size }
        else { r with read_bytes := r.read_bytes + size }
      exact_from reader rva size 0
      pure (reader.part rva size)

def header (rva size : Nat) : Parser (List UInt8) :=
  if !within rva size 0 (header_limit image) then throw "A PE header read reaches a declared image section."
  else exact reader image rva size true

/-- The address and the size of the relocation directory. -/
def headers : Parser (Nat × Nat) := do
  let dos ← header reader image 0 64
  let pe := u32 dos 60
  if u16 dos 0 != 0x5a4d || decide (pe < 64) || decide (1024 * 1024 < pe) then
    throw "Invalid DOS signature or PE header offset."
  else do
    let coff ← header reader image pe 24
    let optional_size := u16 coff 20
    if u32 coff 0 != 0x4550 || u16 coff 4 != image.machine || u16 coff 6 != image.section_count ||
        u32 coff 8 != image.timestamp || decide (optional_size < 112) || decide (4096 < optional_size) then
      throw "Fresh PE identity or optional-header bounds differ from the validated image."
    else do
      let optional_rva := pe + 24
      let optional ← header reader image optional_rva 112
      let header_size := u32 optional 60
      let directories := u32 optional 108
      if u16 optional 0 != 0x20b || u32 optional 56 != image.image_size || u32 optional 64 != image.checksum ||
          header_size == 0 || decide (image.image_size < header_size) ||
          decide (header_limit image < header_size) ||
          !within optional_rva (optional_size + image.section_count * 40) 0 header_size ||
          decide ((optional_size - 112) / 8 < directories) then
        throw "The PE32+ header has invalid identity, directory or section-table bounds."
      else if 5 < directories then do
        let directory ← header reader image (optional_rva + 152) 8
        count fun r => { r with relocation_rva := u32 directory 0, relocation_size := u32 directory 4 }
        pure (u32 directory 0, u32 directory 4)
      else pure (0, 0)

/-- The bytes that an entry of this kind rewrites; only HIGHLOW and DIR64 are supported. -/
def width (type : Nat) : Nat := if type = 3 then 4 else if type = 10 then 8 else 0

/-- The entries of one piece of a block. -/
def entries (page : Nat) : List UInt8 → Parser Unit
  | low :: high :: rest => do
    count fun r => { r with relocation_entries := r.relocation_entries + 1 }
    let entry := u16 [low, high] 0
    let type := entry >>> 12
    if type = 0 then entries page rest
    else if width type = 0 then
      throw "An unsupported base-relocation kind prevents proving code-byte stability."
    else
      let site := page + (entry &&& 4095)
      if !within site (width type) 0 image.image_size then
        throw "A relocated field extends beyond the loaded image."
      else if ranges.any fun range => overlap site (width type) range.rva range.size then
        throw "A requested code range contains bytes affected by a base relocation."
      else entries page rest
  | _ => pure ()

variable (directory : Nat × Nat)

def relocation_data (rva size : Nat) : Parser (List UInt8) :=
  if !within rva size directory.1 directory.2 || !section_range image rva size kReadable kWritable then
    throw "A relocation metadata read escapes its declared readable data extent."
  else exact reader image rva size true

/-- The pieces of a block that is relevant. -/
def pieces (page block_rva block_size consumed : Nat) : Parser Unit :=
  if consumed < block_size then do
    let size := min 512 (block_size - consumed)
    let bytes ← relocation_data reader image directory (block_rva + consumed) size
    entries image ranges page bytes
    pieces page block_rva block_size (consumed + size)
  else pure ()
termination_by block_size - consumed

/-- The entries of a block; the largest field starts at 4095 and has eight bytes. -/
def payload (page block_rva block_size : Nat) : Parser Unit :=
  if ranges.any fun range => overlap page (4096 + 7) range.rva range.size then
    pieces reader image ranges directory page block_rva block_size 8
  else count fun r => { r with relocation_blocks_skipped := r.relocation_blocks_skipped + 1 }

/-- The blocks of the directory from `offset` on. -/
def blocks (offset : Nat) : Parser Unit :=
  if offset < directory.2 then
    if (directory.1 + offset) &&& 3 ≠ 0 then throw "A relocation block is not aligned on a 32-bit boundary."
    else do
      let block ← relocation_data reader image directory (directory.1 + offset) 8
      let page := u32 block 0
      let block_size := u32 block 4
      if _ : page &&& 4095 ≠ 0 ∨ image.image_size ≤ page ∨ block_size < 8 ∨ block_size &&& 1 ≠ 0 ∨
          directory.2 - offset < block_size then
        throw "A base-relocation block has invalid page, size or directory bounds."
      else do
        count fun r => { r with relocation_blocks := r.relocation_blocks + 1 }
        payload reader image ranges directory page (directory.1 + offset) block_size
        blocks (offset + block_size)
  else pure ()
termination_by directory.2 - offset

def relocations : Parser Unit :=
  if directory = (0, 0) then pure ()
  else if directory.1 = 0 ∨ directory.2 < 8 ∨ directory.1 &&& 3 ≠ 0 ∨
      !section_range image directory.1 directory.2 kReadable kWritable then
    throw "The base-relocation directory is invalid or outside readable image data."
  else if ranges.any fun range => overlap range.rva range.size directory.1 directory.2 then
    throw "A requested code range overlaps relocation metadata storage."
  else blocks reader image ranges directory 0

/-- FNV-1a over the bytes. -/
def fingerprint (bytes : List UInt8) : UInt64 :=
  bytes.foldl (fun hash byte => (hash ^^^ byte.toUInt64) * 1099511628211) 14695981039346656037

def run : Parser Unit := do
  match validate image ranges with
  | some error => throw error
  | none => do
    let directory ← headers reader image
    relocations reader image ranges directory
    count fun r => { r with relocations_checked := true }
    ranges.forM fun range => do
      let bytes ← exact reader image range.rva range.size false
      count fun r => { r with records := r.records ++ [⟨range.rva, range.size, fingerprint bytes⟩] }

def inspect_code_contract : CodeContractInventory :=
  match run reader image ranges {} with
  | (.ok _, s) => { s.result with valid := true }
  | (.error error, s) => { s.result with valid := false, error }

end

/-! ## What the image declares -/

namespace ImageReader

variable (reader : ImageReader)

def u16 (rva : Nat) : Nat := code_contract.u16 (reader.part rva 2) 0

def u32 (rva : Nat) : Nat := code_contract.u32 (reader.part rva 4) 0

/-- The relocation directory that the header declares. -/
def directory : Nat × Nat :=
  let optional := reader.u32 60 + 24
  if 5 < reader.u32 (optional + 108) then (reader.u32 (optional + 152), reader.u32 (optional + 156)) else (0, 0)

/-- A block at `offset` or after it. -/
inductive Block (directory : Nat × Nat) : Nat → Nat → Prop
  | here {offset : Nat} : offset < directory.2 → Block directory offset offset
  | later {offset block : Nat} : offset < directory.2 →
    Block directory (offset + reader.u32 (directory.1 + offset + 4)) block → Block directory offset block

/-- A HIGHLOW or a DIR64 entry rewrites these bytes. -/
def Rewrites (directory : Nat × Nat) (site size : Nat) : Prop :=
  ∃ block i, reader.Block directory 0 block ∧ 8 + 2 * i + 1 < reader.u32 (directory.1 + block + 4) ∧
    let entry := reader.u16 (directory.1 + block + (8 + 2 * i))
    (entry >>> 12 = 3 ∧ size = 4 ∨ entry >>> 12 = 10 ∧ size = 8) ∧
      site = reader.u32 (directory.1 + block) + (entry &&& 4095)

end ImageReader

variable {reader : ImageReader} {image : Inventory} {ranges : List CodeRange} {directory : Nat × Nat}
  {α β : Type} {s t : State} {u : Unit} {bytes : List UInt8} {rva size page : Nat}

theorem u16_part {i n : Nat} (h : i + 2 ≤ n) : u16 (reader.part rva n) i = reader.u16 (rva + i) := by
  have hfirst : i < n := by omega
  have hsecond : i + 1 < n := by omega
  simp [ImageReader.u16, ImageReader.part, u16, hfirst, hsecond, Nat.add_assoc]

theorem u32_part {i n : Nat} (h : i + 4 ≤ n) : u32 (reader.part rva n) i = reader.u32 (rva + i) := by
  have hlow : i + 2 ≤ n := by omega
  have hhigh : i + 2 + 2 ≤ n := by omega
  rw [ImageReader.u32, u32, u32, u16_part hlow, u16_part hhigh]
  simp [u16_part, Nat.add_assoc]

/-! ## A parser that succeeds -/

theorem ok_bind {x : Parser α} {f : α → Parser β} {b : β} (h : (x >>= f) s = (.ok b, t)) :
    ∃ a v, x s = (.ok a, v) ∧ f a v = (.ok b, t) := by
  rcases hx : x s with ⟨_ | a, v⟩ <;> simp only [bind, ExceptT.bind, ExceptT.mk, StateT.bind, hx] at h
  · cases h
  · exact ⟨a, v, rfl, h⟩

theorem exact_ok {metadata : Bool} (h : exact reader image rva size metadata s = (.ok bytes, t)) :
    bytes = reader.part rva size := by
  unfold exact at h
  split at h
  · cases h
  obtain ⟨_, _, -, h⟩ := ok_bind h
  split at h
  · cases h
  obtain ⟨_, _, -, h⟩ := ok_bind h
  obtain ⟨_, _, -, h⟩ := ok_bind h
  cases h
  rfl

theorem header_ok (h : header reader image rva size s = (.ok bytes, t)) : bytes = reader.part rva size := by
  unfold header at h
  split at h
  · cases h
  · exact exact_ok h

theorem relocation_data_ok (h : relocation_data reader image directory rva size s = (.ok bytes, t)) :
    bytes = reader.part rva size := by
  unfold relocation_data at h
  split at h
  · cases h
  · exact exact_ok h

theorem headers_ok (h : headers reader image s = (.ok directory, t)) : directory = reader.directory := by
  obtain ⟨dos, _, hdos, h⟩ := ok_bind h
  dsimp only at h
  split at h
  · cases h
  obtain ⟨coff, _, -, h⟩ := ok_bind h
  split at h
  · cases h
  obtain ⟨optional, _, hoptional, h⟩ := ok_bind h
  rw [header_ok hdos, u32_part (by omega)] at h hoptional
  split at h
  · cases h
  rw [header_ok hoptional, u32_part (by omega), Nat.zero_add] at h
  unfold ImageReader.directory
  split at h
  · rename_i hfive
    obtain ⟨found, _, hfound, h⟩ := ok_bind h
    cases h
    rw [if_pos hfive, header_ok hfound, u32_part (by omega), u32_part (by omega)]
  rename_i hfive
  cases h
  rw [if_neg hfive]

/-! ## What a walk spares -/

/-- The entry rewrites no byte of a range. -/
def Spared (ranges : List CodeRange) (page entry : Nat) : Prop :=
  ∀ range ∈ ranges, overlap (page + (entry &&& 4095)) (width (entry >>> 12)) range.rva range.size = false

theorem spared_of_width {entry : Nat} (h : width (entry >>> 12) = 0) : Spared ranges page entry := by
  intro range _
  simp [overlap, h]

/-- What the walk passes over is far from every range. -/
theorem spared_of_skipped {entry : Nat}
    (h : (ranges.any fun range => overlap page (4096 + 7) range.rva range.size) = false) :
    Spared ranges page entry := by
  intro range hrange
  have hfar := any_eq_false.mp h range hrange
  have hoffset : entry &&& 4095 ≤ 4095 := Nat.and_le_right
  have hwidth : width (entry >>> 12) ≤ 8 := by
    unfold width
    split
    · omega
    · split <;> omega
  simp only [overlap, Bool.and_eq_true, bne_iff_ne, decide_eq_true_eq] at hfar
  simp only [overlap, Bool.and_eq_false_iff, bne_eq_false_iff_eq, decide_eq_false_iff_not]
  omega

theorem entries_ok (h : entries image ranges page bytes s = (.ok u, t)) (i : Nat)
    (hi : 2 * i + 1 < bytes.length) : Spared ranges page (u16 bytes (2 * i)) := by
  induction bytes using entries.induct generalizing s i with
  | case1 low high rest ih =>
    obtain ⟨_, _, -, h⟩ := ok_bind h
    dsimp only at h
    have hrest : (∃ v, entries image ranges page rest v = (.ok u, t)) ∧ Spared ranges page (u16 [low, high] 0) := by
      split at h
      · rename_i htype
        exact ⟨⟨_, h⟩, spared_of_width (by rw [htype]; rfl)⟩
      split at h
      · cases h
      split at h
      · cases h
      split at h
      · cases h
      rename_i hany
      refine ⟨⟨_, h⟩, fun range hrange => ?_⟩
      have hno := any_eq_false.mp (by simpa using hany) range hrange
      simpa using hno
    obtain ⟨⟨v, hthen⟩, hfirst⟩ := hrest
    cases i with
    | zero => exact hfirst
    | succ i =>
      simp only [length_cons] at hi
      exact ih hthen i (by omega)
  | case2 bytes hshort =>
    exfalso
    match bytes with
    | [] => simp at hi
    | [_] => simp at hi
    | low :: high :: rest => exact hshort low high rest rfl

theorem pieces_ok {block_rva block_size consumed : Nat} {s t : State}
    (h : pieces reader image ranges directory page block_rva block_size consumed s = (.ok u, t)) (k : Nat)
    (hk : consumed ≤ k) (hsize : k + 1 < block_size) (heven : (k - consumed) % 2 = 0) :
    Spared ranges page (reader.u16 (block_rva + k)) := by
  rw [pieces, if_pos (by omega)] at h
  obtain ⟨bytes, _, hbytes, h⟩ := ok_bind h
  obtain ⟨_, v, hentries, h⟩ := ok_bind h
  rw [relocation_data_ok hbytes] at hentries
  by_cases hlast : k < consumed + min 512 (block_size - consumed)
  · have hspared := entries_ok hentries ((k - consumed) / 2) (by simp [ImageReader.part]; omega)
    rw [show 2 * ((k - consumed) / 2) = k - consumed by omega, u16_part (by omega),
      show block_rva + consumed + (k - consumed) = block_rva + k by omega] at hspared
    exact hspared
  · exact pieces_ok h k (by omega) hsize (by omega)
termination_by block_size - consumed

/-- The block at hand is spared, and the walk goes on behind it. -/
theorem blocks_step {offset : Nat} (h : blocks reader image ranges directory offset s = (.ok u, t))
    (hoffset : offset < directory.2) :
    (∀ i, 8 + 2 * i + 1 < reader.u32 (directory.1 + offset + 4) →
      Spared ranges (reader.u32 (directory.1 + offset)) (reader.u16 (directory.1 + offset + (8 + 2 * i)))) ∧
    ∃ v, blocks reader image ranges directory (offset + reader.u32 (directory.1 + offset + 4)) v = (.ok u, t) := by
  rw [blocks, if_pos hoffset] at h
  split at h
  · cases h
  obtain ⟨block, _, hblock, h⟩ := ok_bind h
  rw [relocation_data_ok hblock, u32_part (by omega), u32_part (by omega), Nat.add_zero] at h
  dsimp only at h
  split at h
  · cases h
  obtain ⟨_, _, -, h⟩ := ok_bind h
  obtain ⟨_, v, hwalked, h⟩ := ok_bind h
  refine ⟨fun i hi => ?_, v, h⟩
  unfold payload at hwalked
  split at hwalked
  · exact pieces_ok hwalked _ (by omega) hi (by omega)
  rename_i hany
  exact spared_of_skipped (by simpa using hany)

theorem blocks_ok {offset block : Nat} (hblock : reader.Block directory offset block)
    (h : blocks reader image ranges directory offset s = (.ok u, t)) (i : Nat)
    (hi : 8 + 2 * i + 1 < reader.u32 (directory.1 + block + 4)) :
    Spared ranges (reader.u32 (directory.1 + block)) (reader.u16 (directory.1 + block + (8 + 2 * i))) := by
  induction hblock generalizing s with
  | here hoffset => exact (blocks_step h hoffset).1 i hi
  | later hoffset _ ih =>
    obtain ⟨v, hlater⟩ := (blocks_step h hoffset).2
    exact ih hlater hi

theorem Block.in_directory {offset block : Nat} (h : reader.Block directory offset block) : 0 < directory.2 := by
  cases h with
  | here hoffset => omega
  | later hoffset _ => omega

/-- No field that an entry of the directory rewrites overlaps a range. -/
theorem relocations_ok (h : relocations reader image ranges directory s = (.ok u, t)) {site width : Nat}
    (hsite : reader.Rewrites directory site width) {range : CodeRange} (hrange : range ∈ ranges) :
    overlap site width range.rva range.size = false := by
  obtain ⟨block, i, hblock, hi, hwidth, rfl⟩ := hsite
  unfold relocations at h
  split at h
  · rename_i hnone
    have hsome := Block.in_directory hblock
    rw [hnone] at hsome
    cases hsome
  split at h
  · cases h
  split at h
  · cases h
  have hspared := blocks_ok hblock h i hi range hrange
  rcases hwidth with ⟨htype, rfl⟩ | ⟨htype, rfl⟩ <;> rwa [htype] at hspared

/-! ## What a walk asks for -/

/-- However it ends, the reader is asked for such extents alone. -/
def Asks (P : Nat × Nat → Prop) (x : Parser α) : Prop := ∀ s, ∀ extent ∈ (x s).2.asked, extent ∈ s.asked ∨ P extent

section
variable {P : Nat × Nat → Prop}

theorem Asks.pure (a : α) : Asks P (pure a : Parser α) := fun _ _ h => .inl h

theorem Asks.throw (error : String) : Asks P (throw error : Parser α) := fun _ _ h => .inl h

theorem Asks.count (change : CodeContractInventory → CodeContractInventory) : Asks P (count change) :=
  fun _ _ h => .inl h

theorem Asks.bind {x : Parser α} {f : α → Parser β} (hx : Asks P x) (hf : ∀ a, Asks P (f a)) : Asks P (x >>= f) := by
  intro s extent h
  have hfirst := hx s
  rcases hrun : x s with ⟨_ | a, v⟩ <;>
    simp only [Bind.bind, ExceptT.bind, ExceptT.mk, StateT.bind, hrun] at h hfirst
  · exact hfirst extent h
  · rcases hf a v extent h with h | h
    · exact hfirst extent h
    · exact .inr h

theorem Asks.ask (answer : Nat → Nat → Nat → α) (h : P (rva, size)) : Asks P (ask answer rva size) := by
  intro s extent hextent
  rcases mem_append.mp hextent with hold | hnew
  · exact .inl hold
  rw [mem_singleton.mp hnew]
  exact .inr h

end

/-- An extent of the directory. -/
def Inside (directory extent : Nat × Nat) : Prop := within extent.1 extent.2 directory.1 directory.2 = true

theorem exact_from_asks {offset : Nat} (hin : Inside directory (rva, size)) :
    Asks (Inside directory) (exact_from reader rva size offset) := by
  have hpart : ∀ first extent, first + extent ≤ size → Inside directory (rva + first, extent) := by
    intro first extent hle
    simp only [Inside, within, Bool.and_eq_true, decide_eq_true_eq] at hin ⊢
    omega
  rw [exact_from]
  split
  · refine (Asks.ask _ (hpart _ _ (by omega))).bind fun window => ?_
    split
    · exact (Asks.count _).bind fun _ => Asks.throw _
    refine (Asks.ask _ (hpart _ _ (by omega))).bind fun copied => ?_
    split
    · exact exact_from_asks hin
    · exact (Asks.count _).bind fun _ => Asks.throw _
  · exact Asks.pure _
termination_by size - offset

theorem relocation_data_asks : Asks (Inside directory) (relocation_data reader image directory rva size) := by
  unfold relocation_data
  split
  · exact Asks.throw _
  rename_i hin
  simp only [Bool.or_eq_true, Bool.not_eq_true', not_or, Bool.not_eq_false] at hin
  unfold exact
  split
  · exact Asks.throw _
  refine Asks.bind (fun _ _ h => .inl h) fun s => ?_
  split
  · exact Asks.throw _
  · exact (Asks.count _).bind fun _ => (exact_from_asks hin.1).bind fun _ => Asks.pure _

theorem entries_asks : Asks (Inside directory) (entries image ranges page bytes) := by
  induction bytes using entries.induct with
  | case1 low high rest ih =>
    refine (Asks.count _).bind fun _ => ?_
    dsimp only
    split
    · exact ih
    split
    · exact Asks.throw _
    split
    · exact Asks.throw _
    split
    · exact Asks.throw _
    · exact ih
  | case2 bytes hshort =>
    unfold entries
    split
    · exact absurd rfl (hshort _ _ _)
    · exact Asks.pure _

theorem pieces_asks {block_rva block_size consumed : Nat} :
    Asks (Inside directory) (pieces reader image ranges directory page block_rva block_size consumed) := by
  rw [pieces]
  split
  · exact relocation_data_asks.bind fun _ => entries_asks.bind fun _ => pieces_asks
  · exact Asks.pure _
termination_by block_size - consumed

theorem blocks_asks {offset : Nat} : Asks (Inside directory) (blocks reader image ranges directory offset) := by
  rw [blocks]
  split
  · split
    · exact Asks.throw _
    refine relocation_data_asks.bind fun _ => ?_
    dsimp only
    split
    · exact Asks.throw _
    refine (Asks.count _).bind fun _ => Asks.bind ?_ fun _ => blocks_asks
    unfold payload
    split
    · exact pieces_asks
    · exact Asks.count _
  · exact Asks.pure _
termination_by directory.2 - offset

/-- A valid result has no byte that a relocation of the image rewrites, and the walk, which comes to an end
for every content of the directory, asks for extents inside it alone. -/
theorem no_relocated_byte_is_fingerprinted (reader : ImageReader) (image : Inventory) (ranges : List CodeRange) :
    ((inspect_code_contract reader image ranges).valid = true →
      ∀ range ∈ ranges, ∀ site size, reader.Rewrites reader.directory site size →
        ∀ rva, range.rva ≤ rva → rva < range.rva + range.size → ¬(site ≤ rva ∧ rva < site + size)) ∧
    ∀ (directory : Nat × Nat) (s : State), ∀ extent ∈ (relocations reader image ranges directory s).2.asked,
      extent ∈ s.asked ∨ within extent.1 extent.2 directory.1 directory.2 = true := by
  refine ⟨fun hvalid range hrange site size hsite rva hfirst hlast hin => ?_, fun directory => ?_⟩
  · unfold inspect_code_contract at hvalid
    rcases hrun : run reader image ranges {} with ⟨_ | _, v⟩ <;> rw [hrun] at hvalid
    · cases hvalid
    · unfold run at hrun
      rcases hvalidate : validate image ranges with _ | _ <;> rw [hvalidate] at hrun
      rotate_left
      · cases hrun
      obtain ⟨directory, _, hheaders, hrun⟩ := ok_bind hrun
      obtain ⟨_, _, hwalk, -⟩ := ok_bind hrun
      rw [headers_ok hheaders] at hwalk
      have hapart := relocations_ok hwalk hsite hrange
      simp only [overlap, Bool.and_eq_false_iff, bne_eq_false_iff_eq, decide_eq_false_iff_not] at hapart
      omega
  · unfold relocations
    split
    · exact Asks.pure _
    split
    · exact Asks.throw _
    split
    · exact Asks.throw _
    · exact blocks_asks

/-- An image with one block for the page at 4096, whose entry rewrites 4120 to 4127, and an empty one. -/
def small_image : ImageReader where
  byte
    | 0 => 0x4d | 1 => 0x5a | 60 => 64
    | 64 => 0x50 | 65 => 0x45 | 68 => 0x64 | 69 => 0x86 | 70 => 2 | 84 => 160
    | 88 => 0x0b | 89 => 0x02 | 145 => 0x40 | 149 => 2 | 196 => 6 | 241 => 0x20 | 244 => 20
    | 8193 => 0x10 | 8196 => 12 | 8200 => 0x18 | 8201 => 0xa0 | 8205 => 0x30 | 8208 => 8
    | _ => 0
  query _ _ maximum := { size := maximum, readable := true }
  read _ _ _ := true

/-- A range that ends where the field begins. -/
theorem a_range_beside_a_field :
    let image : Inventory :=
      { valid_image := true, machine := 0x8664, section_count := 2, image_size := 0x4000
        sections := [⟨4096, 4096, 0x60000000⟩, ⟨8192, 4096, 0x42000000⟩] }
    (inspect_code_contract small_image image [⟨4112, 8⟩]).valid = true ∧
      small_image.Rewrites small_image.directory 4120 8 ∧
      ∀ site size, small_image.Rewrites small_image.directory site size → ¬(site ≤ 4119 ∧ 4119 < site + size) := by
  intro image
  have hvalid : (inspect_code_contract small_image image [⟨4112, 8⟩]).valid = true := by decide +kernel
  refine ⟨hvalid, ⟨0, 0, .here (by decide +kernel), by decide +kernel, by decide +kernel⟩, fun site size hsite => ?_⟩
  exact (no_relocated_byte_is_fingerprinted small_image image [⟨4112, 8⟩]).1 hvalid _ (mem_singleton.mpr rfl)
    site size hsite 4119 (by decide) (by decide)

end taxi_camera.native_camera.code_contract
