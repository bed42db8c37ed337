-- RFC 1951 for a stream of one block with fixed Huffman codes: the codes, the
-- lengths and distances with their extra bits, and the reading of the block.
import TaxiCam.BitStreams
import TaxiCam.Lz77
import Mathlib.Data.List.Range

namespace rfc1951

open bit_streams lz77 List

/-! ## The tables -/

/-- 3.2.6: the code of a literal, of the end of the block or of a length. Huffman codes start with
their most significant bit. -/
def fixed_code (symbol : Nat) : List Bool :=
  if symbol < 144 then msb 8 (0x30 + symbol)
  else if symbol < 256 then msb 9 (0x190 + (symbol - 144))
  else if symbol < 280 then msb 7 (symbol - 256)
  else msb 8 (0xC0 + (symbol - 280))

/-- 3.2.5: four codes of each number of extra bits from 265 on, and one for the longest match. -/
def length_extra (symbol : Nat) : Nat :=
  if symbol < 265 ∨ symbol = 285 then 0 else (symbol - 261) / 4

/-- The shortest length of a code: each code goes on where the one before it ends. -/
def length_base (symbol : Nat) : Nat :=
  if symbol = 285 then 258
  else 3 + ((List.range (symbol - 257)).map fun i => 2 ^ length_extra (257 + i)).sum

def distance_extra (code : Nat) : Nat := (code - 2) / 2

def distance_base (code : Nat) : Nat :=
  1 + ((List.range code).map fun i => 2 ^ distance_extra i).sum

/-! ## Reading -/

/-- A number of `n` bits, least significant first. -/
def read (n : Nat) (bits : List Bool) : Option (Nat × List Bool) :=
  if n ≤ bits.length then some (of_lsb (bits.take n), bits.drop n) else none

/-- The symbol whose code comes next. -/
def read_symbol (bits : List Bool) : Option (Nat × List Bool) :=
  ((List.range 288).find? fun symbol => (fixed_code symbol).isPrefixOf bits).map fun symbol =>
    (symbol, bits.drop (fixed_code symbol).length)

/-- A distance code: five bits, as a Huffman code. -/
def read_distance_code (bits : List Bool) : Option (Nat × List Bool) :=
  if 5 ≤ bits.length then some (of_msb (bits.take 5), bits.drop 5) else none

/-- What follows a length code. Codes 286 and 287, and distance codes 30 and 31, never occur. -/
def read_copy (symbol : Nat) (bits : List Bool) : Option (Token UInt8 × List Bool) :=
  if symbol > 285 then none
  else do
    let (extra, bits) ← read (length_extra symbol) bits
    let (code, bits) ← read_distance_code bits
    if code > 29 then none
    else
      let (far, bits) ← read (distance_extra code) bits
      some (.copy (length_base symbol + extra) (distance_base code + far), bits)

/-- The block up to its end, and the bits behind it. Each symbol takes a bit at least. -/
def inflate_block : Nat → List Bool → List UInt8 → Option (List UInt8 × List Bool)
  | 0, _, _ => none
  | fuel + 1, bits, out => do
    let (symbol, bits) ← read_symbol bits
    if symbol = 256 then some (out, bits)
    else
      let (token, bits) ←
        if symbol < 256 then some (.literal (UInt8.ofNat symbol), bits) else read_copy symbol bits
      let out ← token.expand out
      inflate_block fuel bits out

/-- A stream of one final block with fixed codes, which ends in its last byte. -/
def inflate (stream : List UInt8) : Option (List UInt8) := do
  let bits := stream.flatMap byte_bits
  let (final, bits) ← read 1 bits
  let (kind, bits) ← read 2 bits
  if final = 1 ∧ kind = 1 then
    let (out, rest) ← inflate_block bits.length bits []
    if rest.length < 8 then some out else none
  else none

/-! ## The codes are read back -/

variable {pairs : List (List Bool × Token UInt8)} {code n symbol v : Nat}

theorem read_lsb (h : v < 2 ^ n) (rest : List Bool) : read n (lsb n v ++ rest) = some (v, rest) := by
  have hlength : (lsb n v).length = n := length_lsb n v
  rw [read, if_pos (by rw [length_append]; omega), take_left' hlength, drop_left' hlength, of_lsb_small h]

theorem read_distance_msb (h : code < 32) (rest : List Bool) :
    read_distance_code (msb 5 code ++ rest) = some (code, rest) := by
  have hlength : (msb 5 code).length = 5 := length_msb 5 code
  rw [read_distance_code, if_pos (by rw [length_append]; omega), take_left' hlength,
    drop_left' hlength, of_msb_small h]

/-- A word of bits that begins another one is its high end. -/
theorem msb_prefix {m u : Nat} (hu : u < 2 ^ m) (hv : v < 2 ^ n) (h : msb m u <+: msb n v) :
    ∃ k, n = m + k ∧ u = v / 2 ^ k := by
  have hle := h.length_le
  rw [length_msb, length_msb] at hle
  obtain ⟨k, rfl⟩ := Nat.exists_eq_add_of_le hle
  refine ⟨k, rfl, ?_⟩
  have hsplit : msb (m + k) v = msb m (v / 2 ^ k) ++ msb k v := by
    rw [msb, Nat.add_comm m k, lsb_add, reverse_append, msb, msb]
  rw [hsplit] at h
  have heq := prefix_of_prefix_length_le h (prefix_append ..) (by simp)
  have hsame := List.IsPrefix.eq_of_length heq (by simp)
  have hhigh : v / 2 ^ k < 2 ^ m := by
    rw [Nat.div_lt_iff_lt_mul (Nat.two_pow_pos k), ← Nat.pow_add]
    exact hv
  rw [← of_msb_small hu, hsame, of_msb_small hhigh]

/-- The length and the number of a fixed code. -/
theorem fixed_code_eq (h : symbol < 288) : ∃ n v, fixed_code symbol = msb n v ∧ v < 2 ^ n ∧
      (symbol < 144 ∧ n = 8 ∧ v = 0x30 + symbol ∨ 144 ≤ symbol ∧ symbol < 256 ∧ n = 9 ∧ v = 0x100 + symbol ∨
        256 ≤ symbol ∧ symbol < 280 ∧ n = 7 ∧ v + 256 = symbol ∨
        280 ≤ symbol ∧ n = 8 ∧ v + 88 = symbol) := by
  unfold fixed_code
  split
  · exact ⟨8, _, rfl, by omega, .inl ⟨by omega, rfl, rfl⟩⟩
  split
  · exact ⟨9, _, rfl, by omega, .inr (.inl ⟨by omega, by omega, rfl, by omega⟩)⟩
  split
  · exact ⟨7, _, rfl, by omega, .inr (.inr (.inl ⟨by omega, by omega, rfl, by omega⟩))⟩
  · exact ⟨8, _, rfl, by omega, .inr (.inr (.inr ⟨by omega, rfl, by omega⟩))⟩

/-- No fixed code begins another one. -/
theorem fixed_code_leads {a b : Nat} (ha : a < 288) (hb : b < 288) (h : fixed_code a <+: fixed_code b) : a = b := by
  obtain ⟨m, u, hau, hu, hacase⟩ := fixed_code_eq ha
  obtain ⟨n, v, hbv, hv, hbcase⟩ := fixed_code_eq hb
  rw [hau, hbv] at h
  obtain ⟨k, rfl, rfl⟩ := msb_prefix hu hv h
  have hk : k = 0 ∨ k = 1 ∨ k = 2 := by omega
  rcases hk with rfl | rfl | rfl <;> omega

theorem read_symbol_fixed (h : symbol < 288) (rest : List Bool) :
    read_symbol (fixed_code symbol ++ rest) = some (symbol, rest) := by
  have hfind : (List.range 288).find?
      (fun s => (fixed_code s).isPrefixOf (fixed_code symbol ++ rest)) = some symbol := by
    rw [List.find?_eq_some_iff_getElem]
    refine ⟨List.isPrefixOf_iff_prefix.mpr (prefix_append ..), symbol, by simpa using h, by simp, fun s hs => ?_⟩
    rw [getElem_range, Bool.not_eq_true', ← Bool.not_eq_true, isPrefixOf_iff_prefix]
    intro hprefix
    rcases prefix_or_prefix_of_prefix hprefix (prefix_append ..) with hshort | hshort
    · exact absurd (fixed_code_leads (by omega) h hshort) (by omega)
    · exact absurd (fixed_code_leads h (by omega) hshort) (by omega)
  rw [read_symbol, hfind, Option.map_some, drop_left]

/-! ## Tokens -/

/-- The bits of a token: read as the next thing of a block, whatever follows them. -/
structure Codes (code : List Bool) (token : Token UInt8) : Prop where
  nonempty : code ≠ []
  reads : ∀ fuel rest out, inflate_block (fuel + 1) (code ++ rest) out =
    (token.expand out).bind (inflate_block fuel rest)

theorem codes_literal (b : UInt8) : Codes (fixed_code b.toNat) (.literal b) := by
  have hlt : b.toNat < 256 := b.toNat_lt
  refine ⟨fun h => ?_, fun fuel rest out => ?_⟩
  · obtain ⟨n, v, heq, -, hcase⟩ := fixed_code_eq (show b.toNat < 288 by omega)
    have hlength := congrArg List.length (heq.symm.trans h)
    rw [length_msb, length_nil] at hlength
    omega
  · rw [inflate_block, read_symbol_fixed (by omega)]
    have hne : b.toNat ≠ 256 := by omega
    simp [hne, hlt, UInt8.ofNat_toNat]

/-- A copy: its length code and its distance code, each with its extra bits. -/
theorem codes_copy {extra far : Nat} (hsymbol : 257 ≤ symbol ∧ symbol ≤ 285)
    (hcode : code ≤ 29) (hextra : extra < 2 ^ length_extra symbol) (hfar : far < 2 ^ distance_extra code) :
    Codes (fixed_code symbol ++ (lsb (length_extra symbol) extra ++ (msb 5 code ++ lsb (distance_extra code) far)))
      (.copy (length_base symbol + extra) (distance_base code + far)) := by
  refine ⟨fun h => ?_, fun fuel rest out => ?_⟩
  · have hlength := congrArg List.length h
    simp at hlength
  · have hne : symbol ≠ 256 := by omega
    have hbig : ¬ symbol < 256 := by omega
    have hlong : ¬ symbol > 285 := by omega
    have hfew : ¬ code > 29 := by omega
    have hread := read_lsb hextra (msb 5 code ++ (lsb (distance_extra code) far ++ rest))
    have hread' := read_distance_msb (show code < 32 by omega) (lsb (distance_extra code) far ++ rest)
    have hread'' := read_lsb hfar rest
    simp only [append_assoc]
    rw [inflate_block, read_symbol_fixed (by omega)]
    simp [hne, hbig, read_copy, hlong, hread, hread', hfew, hread'']

theorem read_end (fuel : Nat) (rest : List Bool) (out : List UInt8) :
    inflate_block (fuel + 1) (fixed_code 256 ++ rest) out = some (out, rest) := by
  rw [inflate_block, read_symbol_fixed (by decide)]
  simp

/-- A block of tokens and the end of the block: inflating expands the tokens. -/
theorem inflate_tokens {out out' : List UInt8} {fuel : Nat} (hcodes : ∀ pair ∈ pairs, Codes pair.1 pair.2)
    (hexpand : expand out (pairs.map (·.2)) = some out') (hfuel : pairs.length < fuel)
    (rest : List Bool) :
    inflate_block fuel (pairs.flatMap (·.1) ++ (fixed_code 256 ++ rest)) out = some (out', rest) := by
  induction pairs generalizing out fuel with
  | nil =>
    obtain ⟨fuel, rfl⟩ := Nat.exists_eq_succ_of_ne_zero (Nat.ne_of_gt hfuel)
    obtain rfl := Option.some.inj hexpand
    exact read_end fuel rest out
  | cons pair pairs ih =>
    obtain ⟨fuel, rfl⟩ := Nat.exists_eq_succ_of_ne_zero (Nat.ne_of_gt (Nat.zero_lt_of_lt hfuel))
    obtain ⟨hpair, hpairs⟩ := forall_mem_cons.mp hcodes
    rw [map_cons, expand, Option.bind_eq_some_iff] at hexpand
    obtain ⟨next, hnext, hexpand⟩ := hexpand
    rw [flatMap_cons, append_assoc, hpair.reads, hnext, Option.bind_some]
    exact ih hpairs hexpand (Nat.lt_of_succ_lt_succ hfuel)

theorem length_le_bits (hcodes : ∀ pair ∈ pairs, Codes pair.1 pair.2) :
    pairs.length ≤ (pairs.flatMap (·.1)).length := by
  induction pairs with
  | nil => exact Nat.le_refl _
  | cons pair pairs ih =>
    obtain ⟨hpair, hpairs⟩ := forall_mem_cons.mp hcodes
    have hpos := length_pos_iff.mpr hpair.nonempty
    have := ih hpairs
    rw [flatMap_cons, length_append, length_cons]
    omega

/-- The stream of a block of tokens. -/
theorem inflate_block_of_tokens {stream : List UInt8}
    {out : List UInt8} {padding : List Bool} (hcodes : ∀ pair ∈ pairs, Codes pair.1 pair.2)
    (hexpand : expand [] (pairs.map (·.2)) = some out) (hpadding : padding.length < 8)
    (hbits : stream.flatMap byte_bits =
      lsb 1 1 ++ (lsb 2 1 ++ (pairs.flatMap (·.1) ++ (fixed_code 256 ++ padding)))) :
    inflate stream = some out := by
  have hfuel : pairs.length < (pairs.flatMap (·.1) ++ (fixed_code 256 ++ padding)).length := by
    have := length_le_bits hcodes
    have hend : (fixed_code 256).length = 7 := by decide
    rw [length_append, length_append]
    omega
  have hblock := inflate_tokens hcodes hexpand hfuel padding
  generalize pairs.flatMap (·.1) ++ (fixed_code 256 ++ padding) = block at hbits hblock
  have hfinal := read_lsb (n := 1) (v := 1) (by decide) (lsb 2 1 ++ block)
  have hkind := read_lsb (n := 2) (v := 1) (by decide) block
  unfold inflate
  rw [hbits]
  dsimp only
  rw [hfinal]
  dsimp only [Option.bind_eq_bind, Option.bind_some]
  rw [hkind]
  dsimp only [Option.bind_some]
  rw [hblock]
  simp [hpadding]

end rfc1951
