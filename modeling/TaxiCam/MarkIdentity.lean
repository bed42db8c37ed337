-- Display identity by panel marks: the keys that name a display by its gauge,
-- and the store of the marks that were read from each panel texture.
-- src/shared/mark_identity.hpp.
import TaxiCam.Decimal
import TaxiCam.Keyed
import TaxiCam.PanelMarks
import TaxiCam.Runs
import Mathlib.Data.List.Sort

namespace taxi_camera.mark_identity

open panel_marks List

/-! ## Keys -/

def KeySize : Nat := 32

/-- The text of a key: what stands before the first 0 of its array. -/
abbrev Key := List UInt8

/-- `"#%u/%u"` in an array of 16 characters. -/
def rank_suffix (rank count : Nat) : List UInt8 :=
  (35 :: decimal.print rank ++ 47 :: decimal.print count).take (16 - 1)

/-- `"@gauge"`, or `"@gauge#rank/count"` for one of `count` textures carrying the gauge; the gauge
name is cut to fit. -/
def make_key (gauge : List UInt8) (rank count : Nat) : Key :=
  let suffix := if count > 1 then rank_suffix rank count else []
  let room := KeySize - 2 - suffix.length
  64 :: gauge.take room ++ suffix

structure ParsedKey where
  gauge : List UInt8
  rank : Nat := 0
  count : Nat := 1
deriving DecidableEq

/-- `std::string::rfind`. -/
def rfind (c : UInt8) : List UInt8 → Option Nat
  | [] => none
  | x :: rest =>
    match rfind c rest with
    | some at_ => some (at_ + 1)
    | none => if x = c then some 0 else none

/-- `isspace` of the C locale. -/
def is_space (c : UInt8) : Bool := decide (c = 32 ∨ (9 ≤ c ∧ c ≤ 13))

/-- A number as an `unsigned`: one over 64 bits is the largest. -/
def to_unsigned (minus : Bool) (value : Nat) : Nat :=
  if value > 0xffffffffffffffff then 0xffffffff
  else if minus then (0x100000000 - value % 0x100000000) % 0x100000000
  else value % 0x100000000

/-- `"%u"` of `sscanf`: spaces, a sign and digits, and the text after them. -/
def scan_unsigned (text : List UInt8) : Option (Nat × List UInt8) :=
  let text := text.dropWhile is_space
  let minus := decide (text.head? = some 45)
  let text := if text.head? = some 45 ∨ text.head? = some 43 then text.tail else text
  let digits := text.takeWhile decimal.is_digit
  if digits = [] then none
  else some (to_unsigned minus (decimal.value digits), text.dropWhile decimal.is_digit)

/-- `"#%u/%u%c"` of `sscanf`, when it reads the two numbers and nothing stands after them. -/
def scan_rank : List UInt8 → Option (Nat × Nat)
  | 35 :: text =>
    match scan_unsigned text with
    | some (rank, 47 :: rest) =>
      match scan_unsigned rest with
      | some (count, []) => some (rank, count)
      | _ => none
    | _ => none
  | _ => none

/-- A text that ends in a rank of several, and the rank. -/
def ranked (text : List UInt8) : Option ParsedKey :=
  match rfind 35 text with
  | some hash =>
    match scan_rank (text.drop hash) with
    | some (rank, count) =>
      if count > 1 ∧ rank < count then some { gauge := text.take hash, rank, count } else none
    | none => none
  | none => none

def parse_key : Key → Option ParsedKey
  | 64 :: text =>
    if text = [] then none
    else
      let out := (ranked text).getD { gauge := text }
      if out.gauge = [] then none else some out
  | _ => none

/-- The number in a panel name; `strtoul` ends at the largest number of 32 bits. -/
def panel_number (panel : List UInt8) : Nat :=
  let digits := (panel.dropWhile fun c => !decimal.is_digit c).takeWhile decimal.is_digit
  min (decimal.value digits) 0xffffffff

/-! ## Textures -/

structure Gauge where
  panel : Text 48
  name : Text 48
  index : UInt8
  x : UInt16
  y : UInt16
  width : UInt16
  height : UInt16
  panel_width : UInt16
  panel_height : UInt16
deriving DecidableEq

/-- A texture with marks; its gauges are in the order of their index. -/
structure Texture where
  id : Nat
  copied : Bool
  gauges : List Gauge
  marked : gauges ≠ []
  sorted : gauges.Pairwise fun a b => a.index ≤ b.index
deriving DecidableEq

namespace Texture

/-- `std::min_element`: the first of the least index. -/
def first (t : Texture) : Gauge :=
  match t.gauges, t.marked with
  | g :: rest, _ => rest.foldl (fun least x => if x.index < least.index then x else least) g
  | [], h => absurd rfl h

/-- The gauge of that name; a name that was cut matches the gauge it was cut from. -/
def gauge (t : Texture) (name : List UInt8) (cut : Bool) : Option Gauge :=
  t.gauges.find? fun g =>
    if cut then name.isPrefixOf g.name.chars else decide (name = g.name.chars)

end Texture

/-! ## The store -/

/-- The textures in the order they were read; no id stands twice. -/
structure Store where
  textures : List Texture := []
  distinct : (textures.map Texture.id).Nodup := by exact List.nodup_nil

namespace Store

def find (s : Store) (id : Nat) : Option Texture :=
  s.textures.find? fun texture => decide (texture.id = id)

variable {t : Texture}

theorem find_of_mem (s : Store) (ht : t ∈ s.textures) : s.find t.id = some t := by
  unfold find
  rw [find?_eq_some_iff_append]
  obtain ⟨before, after, heq⟩ := append_of_mem ht
  refine ⟨decide_eq_true rfl, before, after, heq, ?_⟩
  intro x hx
  have hids := s.distinct
  rw [heq, map_append, nodup_append] at hids
  have hne := hids.2.2 x.id (mem_map_of_mem hx) t.id (by simp)
  simpa using hne

theorem mem_of_find (s : Store) {id : Nat} (h : s.find id = some t) : t ∈ s.textures ∧ t.id = id := by
  exact ⟨mem_of_find?_eq_some h, by simpa using find?_some h⟩

theorem not_mem_of_find (s : Store) {id : Nat} (h : s.find id = none) : id ∉ s.textures.map Texture.id := by
  intro hid
  obtain ⟨t, ht, rfl⟩ := mem_map.mp hid
  rw [s.find_of_mem ht] at h
  cases h

/-- A texture whose id the store does not have yet. -/
def push_back (s : Store) (t : Texture) (h : s.find t.id = none) : Store where
  textures := s.textures ++ [t]
  distinct := by
    rw [List.map_append]
    refine List.nodup_append.mpr ⟨s.distinct, List.nodup_singleton t.id, ?_⟩
    intro a ha b hb hab
    rw [List.map_singleton, List.mem_singleton] at hb
    exact s.not_mem_of_find h (hb ▸ hab ▸ ha)

/-- The texture in the place of the one with its id. -/
def replace (s : Store) (t : Texture) : Store where
  textures := keyed.modify Texture.id t.id (fun _ => t) s.textures
  distinct := by
    rw [keyed.map_key_modify_of fun x hx => hx.symm]
    exact s.distinct

def gauge_of (m : Mark) : Gauge where
  panel := m.name
  name := m.gauge_name
  index := m.gauge
  x := m.x
  y := m.y
  width := m.width
  height := m.height
  panel_width := m.panel_width
  panel_height := m.panel_height

/-- The gauges of a picture's marks, in the order of their index. -/
def gauges_of (marks : List Mark) : List Gauge :=
  ((marks.filter fun m => decide (m.kind = .gauge)).map gauge_of).insertionSort
    fun a b => a.index ≤ b.index

theorem gauges_of_sorted (marks : List Mark) : (gauges_of marks).Pairwise fun a b => a.index ≤ b.index := by
  exact pairwise_insertionSort _ _

/-- A picture's marks: gauge blocks only. True when they are new. -/
def read (s : Store) (id : Nat) (marks : List Mark) : Store × Bool :=
  if h : gauges_of marks = [] then (s, false)
  else
    let texture : Texture :=
      { id, copied := false, gauges := gauges_of marks, marked := h, sorted := gauges_of_sorted marks }
    match hfind : s.find id with
    | some existing =>
      (s.replace texture, existing.copied || decide (existing.gauges ≠ texture.gauges))
    | none => (s.push_back texture hfind, true)

/-- Forget textures that are gone. -/
def retain (s : Store) (alive : Nat → Bool) : Store where
  textures := s.textures.filter fun texture => alive texture.id
  distinct := s.distinct.sublist (List.filter_sublist.map Texture.id)

/-- One turn of the loop over the feeds: a texture without marks takes those of its source. -/
def take_marks (alive : Nat → Bool) (out : Store × Nat) (feed : Nat × Nat) : Store × Nat :=
  match out.1.find feed.1, hfind : out.1.find feed.2 with
  | some source, none =>
    if alive feed.2 then
      (out.1.push_back { source with id := feed.2, copied := true } hfind, out.2 + 1)
    else out
  | _, _ => out

/-- The loop goes on while a turn takes marks. -/
def inherit_turns (feeds : List (Nat × Nat)) (alive : Nat → Bool) : (turns : Nat) → Store × Nat →
    Store × Nat
  | 0, out => out
  | turns + 1, out =>
    let next := feeds.foldl (take_marks alive) out
    if next.2 = out.2 then next else inherit_turns feeds alive turns next

/-- How many turns there are at most: `inherit_ends`. -/
def inherit (s : Store) (feeds : List (Nat × Nat)) (alive : Nat → Bool) : Store × Nat :=
  inherit_turns feeds alive (feeds.length + 1) (s, 0)

/-- The panel of the texture's gauge of that name. -/
def panel_of (gauge : List UInt8) (cut : Bool) (t : Texture) : Nat :=
  match t.gauge gauge cut with
  | some g => panel_number g.panel.chars
  | none => 0

/-- One turn of the loop of `owners`: the newest texture of each panel. -/
def own (gauge : List UInt8) (cut : Bool) (out : List Texture) (texture : Texture) : List Texture :=
  if texture.copied = true ∨ texture.gauge gauge cut = none then out
  else
    let panel := panel_of gauge cut texture
    if out.any fun t => decide (panel_of gauge cut t = panel) then
      keyed.modify (panel_of gauge cut) panel
        (fun t => if texture.id > t.id then texture else t) out
    else out ++ [texture]

/-- The textures carrying a gauge, one per panel, in panel number order. -/
def owners (s : Store) (gauge : List UInt8) (cut : Bool) : List Texture :=
  (s.textures.foldl (own gauge cut) []).insertionSort
    fun a b => panel_of gauge cut a ≤ panel_of gauge cut b

/-- The place of the texture's panel among the textures that carry its gauge. -/
def rank_of (s : Store) (texture : Texture) : Option Nat :=
  let gauge := texture.first.name.chars
  let panel := panel_number texture.first.panel.chars
  (s.owners gauge false).findIdx? fun t => decide (panel_of gauge false t = panel)

/-- A texture's key: its identifying gauge, ranked among the textures that carry it. -/
def key_of (s : Store) (texture : Texture) : Key :=
  let gauge := texture.first.name.chars
  match s.rank_of texture with
  | some i => make_key gauge (i % 0x100000000) ((s.owners gauge false).length % 0x100000000)
  | none => []

/-- One turn of the loop over the feeds: a newer copy with the gauge that the texture feeds. -/
def newer_copy (s : Store) (gauge : List UInt8) (cut : Bool) (id next : Nat) (feed : Nat × Nat) :
    Nat :=
  match if feed.1 = id then s.find feed.2 else none with
  | some copy =>
    if copy.copied = true ∧ copy.gauge gauge cut ≠ none ∧ copy.id > next then copy.id else next
  | none => next

/-- The newest copy with the gauge that a texture feeds; zero is none. -/
def newest_copy (s : Store) (feeds : List (Nat × Nat)) (gauge : List UInt8) (cut : Bool)
    (id : Nat) : Nat :=
  feeds.foldl (s.newer_copy gauge cut id) 0

/-- Along the copies, at most `steps` of them. -/
def follow (s : Store) (feeds : List (Nat × Nat)) (gauge : List UInt8) (cut : Bool) :
    (steps : Nat) → (id : Nat) → Nat
  | 0, id => id
  | steps + 1, id =>
    let next := s.newest_copy feeds gauge cut id
    if next = 0 then id else follow s feeds gauge cut steps next

/-- A key as long as a key can be was cut to fit: its gauge name is the front of one. -/
def cut_to_fit (key : Key) : Bool := decide (key.length = KeySize - 1)

/-- The live texture showing the display named by the key. -/
def resolve (s : Store) (key : Key) (feeds : List (Nat × Nat)) : Nat :=
  match parse_key key with
  | none => 0
  | some parsed =>
    let cut := cut_to_fit key
    let list := s.owners parsed.gauge cut
    if list.length ≠ parsed.count then 0
    else
      match list[parsed.rank]? with
      | some owner => s.follow feeds parsed.gauge cut feeds.length owner.id
      | none => 0

end Store

end taxi_camera.mark_identity
