import Mathlib.Data.List.MinMax
import Mathlib.Data.List.TakeWhile
import Mathlib.Data.Set.List
import ProxyConfig.Duration
import ProxyConfig.Proofs.Text.Patterns

/-!
Spans of time, item by item.  `scan?` reads a span from left to right and never goes back: it takes all
the digits that are there, a fraction if a point is next, and the longest unit.  Main statement: the
pattern of spans describes the texts of one or more items, no text is that of different items, and the
scan finds them (`unit_spans_read_one_way`).
-/

namespace ProxyConfig

namespace Duration

open Text (Pattern)

structure Digits where
  text : List Char
  filled : text ≠ []
  digits : ∀ c ∈ text, c.isDigit = true

def fractionText : Option Digits → List Char
  | none => []
  | some fraction => '.' :: fraction.text

def spanUnits : List String := ["ns", "us", "µs", "ms", "s", "m", "h", "d"]

abbrev SpanUnit : Type := { name : String // name ∈ spanUnits }

def unitText (u : SpanUnit) : List Char := u.1.toList

/-- A number, perhaps with a fraction, and the unit that it counts. -/
structure Item where
  whole : Digits
  fraction : Option Digits
  unit : SpanUnit

def Item.text (i : Item) : List Char :=
  i.whole.text ++ (fractionText i.fraction ++ unitText i.unit)

def takeDigits? (s : List Char) : Option (Digits × List Char) :=
  if filled : s.takeWhile Char.isDigit ≠ [] then
    some (⟨s.takeWhile Char.isDigit, filled, fun _ there => List.mem_takeWhile_imp there⟩,
      s.dropWhile Char.isDigit)
  else none

def takeFraction? : List Char → Option (Option Digits × List Char)
  | '.' :: s => (takeDigits? s).map fun (fraction, rest) => (some fraction, rest)
  | s => some (none, s)

def unitsOf (s : List Char) : List SpanUnit :=
  spanUnits.attach.filter fun u => (unitText u).isPrefixOf s

def takeUnit? (s : List Char) : Option (SpanUnit × List Char) :=
  ((unitsOf s).argmax fun u => (unitText u).length).map fun u => (u, s.drop (unitText u).length)

def takeItem? (s : List Char) : Option (Item × List Char) := do
  let (whole, s) ← takeDigits? s
  let (fraction, s) ← takeFraction? s
  let (unit, s) ← takeUnit? s
  pure (⟨whole, fraction, unit⟩, s)

section Take

variable {s rest : List Char}

theorem takeDigits?_append (d : Digits) (ended : ∀ c ∈ rest.head?, c.isDigit = false) :
    takeDigits? (d.text ++ rest) = some (d, rest) := by
  have stopped : rest.takeWhile Char.isDigit = [] := by
    cases rest with
    | nil => rfl
    | cons c rest => exact List.takeWhile_cons_of_neg (by simp [ended c rfl])
  have behind : rest.dropWhile Char.isDigit = rest := by
    have parts := @List.takeWhile_append_dropWhile _ Char.isDigit rest
    rwa [stopped, List.nil_append] at parts
  simp only [takeDigits?, List.takeWhile_append_of_pos d.digits, List.dropWhile_append_of_pos d.digits,
    stopped, behind, List.append_nil, d.filled, ne_eq, not_false_eq_true, ↓reduceDIte]

theorem eq_of_takeDigits? {d : Digits} (taken : takeDigits? s = some (d, rest)) :
    s = d.text ++ rest := by
  unfold takeDigits? at taken
  split at taken
  · cases taken
    exact List.takeWhile_append_dropWhile.symm
  · cases taken

theorem takeFraction?_append (f : Option Digits)
    (ended : ∀ c ∈ rest.head?, c.isDigit = false ∧ c ≠ '.') :
    takeFraction? (fractionText f ++ rest) = some (f, rest) := by
  cases f with
  | none =>
    change takeFraction? rest = some (none, rest)
    unfold takeFraction?
    split
    · exact absurd rfl (ended '.' rfl).2
    · rfl
  | some d =>
    have taken : takeDigits? (d.text ++ rest) = some (d, rest) :=
      takeDigits?_append d fun c first => (ended c first).1
    simp [fractionText, takeFraction?, taken]

theorem eq_of_takeFraction? {f : Option Digits} (taken : takeFraction? s = some (f, rest)) :
    s = fractionText f ++ rest := by
  unfold takeFraction? at taken
  split at taken
  · next s =>
    obtain ⟨⟨d, behind⟩, digits, same⟩ := Option.map_eq_some_iff.1 taken
    cases same
    rw [eq_of_takeDigits? digits]
    rfl
  · cases taken
    rfl

theorem mem_unitsOf_iff {u : SpanUnit} : u ∈ unitsOf s ↔ unitText u <+: s := by
  simp [unitsOf]

theorem eq_of_unitText_eq {u v : SpanUnit} (same : unitText u = unitText v) : u = v :=
  Subtype.ext (String.toList_inj.1 same)

theorem begins_unitText (u : SpanUnit) :
    ∃ c more, unitText u = c :: more ∧ c.isDigit = false ∧ c ≠ '.' := by
  have all : ∀ name ∈ spanUnits, name.toList.head?.any (fun c => !c.isDigit && c != '.') := by decide
  have first := all u.1 u.2
  change (unitText u).head?.any _ = true at first
  cases text : unitText u with
  | nil => simp [text] at first
  | cons c more => simpa [text] using first

theorem not_isDigit_of_mem_unitText (u : SpanUnit) : ∀ c ∈ unitText u, c.isDigit = false := by
  have all : ∀ name ∈ spanUnits, name.toList.all (fun c => !c.isDigit) := by decide
  intro c there
  simpa using List.all_eq_true.1 (all u.1 u.2) c there

theorem takeUnit?_append (u : SpanUnit) (ended : ∀ c ∈ rest.head?, c.isDigit = true) :
    takeUnit? (unitText u ++ rest) = some (u, rest) := by
  have listed : u ∈ unitsOf (unitText u ++ rest) := mem_unitsOf_iff.2 (List.prefix_append _ _)
  cases longest : (unitsOf (unitText u ++ rest)).argmax fun v => (unitText v).length with
  | none =>
    rw [List.argmax_eq_none.1 longest] at listed
    cases listed
  | some v =>
    have begins : unitText v <+: unitText u ++ rest := mem_unitsOf_iff.1 (List.argmax_mem longest)
    have longer : (unitText u).length ≤ (unitText v).length :=
      List.le_of_mem_argmax (f := fun w : SpanUnit => (unitText w).length) listed longest
    obtain ⟨more, text⟩ : unitText u <+: unitText v :=
      List.prefix_of_prefix_length_le (List.prefix_append _ _) begins longer
    have same : v = u := by
      apply eq_of_unitText_eq
      cases more with
      | nil => rw [← text, List.append_nil]
      | cons c more =>
        -- what the longer unit has behind this one would begin with a digit
        rw [← text, List.prefix_append_right_inj] at begins
        obtain ⟨behind, rfl⟩ := begins
        have inside : c ∈ unitText v := by simp [← text]
        have digit := ended c rfl
        rw [not_isDigit_of_mem_unitText v c inside] at digit
        cases digit
    rw [takeUnit?, longest, same, Option.map_some, List.drop_left]

theorem eq_of_takeUnit? {u : SpanUnit} (taken : takeUnit? s = some (u, rest)) :
    s = unitText u ++ rest := by
  obtain ⟨v, longest, same⟩ := Option.map_eq_some_iff.1 taken
  cases same
  obtain ⟨behind, rfl⟩ := mem_unitsOf_iff.1 (List.argmax_mem longest)
  rw [List.drop_left]

theorem takeItem?_append (i : Item) (ended : ∀ c ∈ rest.head?, c.isDigit = true) :
    takeItem? (i.text ++ rest) = some (i, rest) := by
  obtain ⟨c, more, text, mark, unpointed⟩ := begins_unitText i.unit
  -- each scan stops where the next part begins, by the first character of that
  have whole : takeDigits? (i.whole.text ++ (fractionText i.fraction ++ (unitText i.unit ++ rest))) =
      some (i.whole, fractionText i.fraction ++ (unitText i.unit ++ rest)) := by
    apply takeDigits?_append
    intro d first
    cases fraction : i.fraction with
    | none =>
      rw [fraction, fractionText, List.nil_append, text] at first
      cases first
      exact mark
    | some f =>
      rw [fraction, fractionText] at first
      cases first
      rfl
  have fraction : takeFraction? (fractionText i.fraction ++ (unitText i.unit ++ rest)) =
      some (i.fraction, unitText i.unit ++ rest) := by
    apply takeFraction?_append
    intro d first
    rw [text] at first
    cases first
    exact ⟨mark, unpointed⟩
  have unit : takeUnit? (unitText i.unit ++ rest) = some (i.unit, rest) :=
    takeUnit?_append i.unit ended
  simp only [Item.text, List.append_assoc, takeItem?, whole, fraction, unit, Option.bind_eq_bind,
    Option.bind_some, Option.pure_def]

theorem eq_of_takeItem? {i : Item} (taken : takeItem? s = some (i, rest)) : s = i.text ++ rest := by
  simp only [takeItem?, Option.bind_eq_bind, Option.bind_eq_some_iff, Option.pure_def,
    Option.some.injEq, Prod.mk.injEq] at taken
  obtain ⟨⟨whole, behindWhole⟩, first, ⟨fraction, behindFraction⟩, second, ⟨unit, behindUnit⟩, third,
    rfl, rfl⟩ := taken
  dsimp only at second third ⊢
  rw [eq_of_takeDigits? first, eq_of_takeFraction? second, eq_of_takeUnit? third, Item.text,
    List.append_assoc, List.append_assoc]

theorem length_lt_of_takeItem? {i : Item} (taken : takeItem? s = some (i, rest)) :
    rest.length < s.length := by
  have some : 0 < i.whole.text.length := List.length_pos_iff.2 i.whole.filled
  rw [eq_of_takeItem? taken, Item.text]
  simp only [List.length_append]
  omega

end Take

/-- The items of a text, if it is items from its beginning to its end. -/
def scan? (s : List Char) : Option (List Item) :=
  match _ : takeItem? s with
  | none => none
  | some (i, rest) => if rest = [] then some [i] else (scan? rest).map (i :: ·)
termination_by s.length
decreasing_by exact length_lt_of_takeItem? ‹_›

theorem isDigit_of_head?_flatMap (items : List Item) :
    ∀ c ∈ (items.flatMap Item.text).head?, c.isDigit = true := by
  intro c first
  cases items with
  | nil => cases first
  | cons i items =>
    obtain ⟨d, more, text⟩ := List.exists_cons_of_ne_nil i.whole.filled
    rw [List.flatMap_cons, Item.text, text] at first
    cases first
    exact i.whole.digits c (by rw [text]; exact List.mem_cons_self)

/-- An item in front of other items is taken, and the scan goes on behind it. -/
theorem scan?_append (i : Item) {rest : List Char} (ended : ∀ c ∈ rest.head?, c.isDigit = true) :
    scan? (i.text ++ rest) = if rest = [] then some [i] else (scan? rest).map (i :: ·) := by
  have taken := takeItem?_append i ended
  rw [scan?]
  split
  · next stuck =>
    rw [taken] at stuck
    cases stuck
  · next j behind other =>
    rw [taken] at other
    cases other
    rfl

theorem scan?_flatMap {items : List Item} (filled : items ≠ []) :
    scan? (items.flatMap Item.text) = some items := by
  induction items with
  | nil => exact absurd rfl filled
  | cons i items ih =>
    rw [List.flatMap_cons, scan?_append i (isDigit_of_head?_flatMap items)]
    cases items with
    | nil => rfl
    | cons j items =>
      have more : (j :: items).flatMap Item.text ≠ [] := by
        simp [Item.text, j.whole.filled]
      rw [if_neg more, ih nofun, Option.map_some]

theorem eq_of_scan? {s : List Char} {items : List Item} (found : scan? s = some items) :
    items ≠ [] ∧ items.flatMap Item.text = s := by
  fun_induction scan? s generalizing items with
  | case1 => cases found
  | case2 s i taken =>
    cases found
    rw [eq_of_takeItem? taken]
    simp
  | case3 s i rest taken more ih =>
    obtain ⟨others, later, rfl⟩ := Option.map_eq_some_iff.1 found
    obtain ⟨-, text⟩ := ih later
    rw [eq_of_takeItem? taken, List.flatMap_cons, text]
    exact ⟨nofun, rfl⟩

theorem scan?_eq_some_iff {s : List Char} {items : List Item} :
    scan? s = some items ↔ items ≠ [] ∧ items.flatMap Item.text = s := by
  constructor
  · exact eq_of_scan?
  · rintro ⟨filled, rfl⟩
    exact scan?_flatMap filled

open Text.Pattern

theorem inRanges_digit (c : Char) : inRanges [('0', '9')] c = c.isDigit := by
  have read : c.isDigit = ('0' ≤ c && c ≤ '9') := rfl
  simp [inRanges, read]

theorem matches_digits_iff {s : List Char} :
    Matches (.many1 .digit) s ↔ ∃ d : Digits, d.text = s := by
  rw [Pattern.digit, matches_many1_one_iff]
  simp only [inRanges_digit]
  constructor
  · rintro ⟨filled, digits⟩
    exact ⟨⟨s, filled, digits⟩, rfl⟩
  · rintro ⟨d, rfl⟩
    exact ⟨d.filled, d.digits⟩

theorem matches_fraction_iff {s : List Char} :
    Matches (.optional (.seq (.char '.') (.many1 .digit))) s ↔
      ∃ f : Option Digits, fractionText f = s := by
  simp only [Pattern.optional, matches_alt_iff, matches_seq_iff, matches_char_iff, matches_digits_iff,
    matches_empty_iff]
  constructor
  · rintro (⟨_, _, rfl, rfl, d, rfl⟩ | rfl)
    · exact ⟨some d, rfl⟩
    · exact ⟨none, rfl⟩
  · rintro ⟨f, rfl⟩
    cases f with
    | none => exact .inr rfl
    | some d => exact .inl ⟨['.'], d.text, rfl, rfl, d, rfl⟩

theorem matches_unit_iff {s : List Char} :
    Matches (.anyOf spanUnits) s ↔ ∃ u : SpanUnit, unitText u = s := by
  rw [matches_anyOf_iff]
  constructor
  · rintro ⟨name, known, rfl⟩
    exact ⟨⟨name, known⟩, rfl⟩
  · rintro ⟨u, rfl⟩
    exact ⟨u.1, u.2, rfl⟩

theorem matches_unitItem_iff {s : List Char} : Matches unitItem s ↔ ∃ i : Item, i.text = s := by
  change Matches (.seq (.many1 .digit) (.seq (.optional (.seq (.char '.') (.many1 .digit)))
    (.anyOf spanUnits))) s ↔ _
  rw [matches_seq_iff]
  simp only [matches_seq_iff, matches_digits_iff, matches_fraction_iff, matches_unit_iff]
  constructor
  · rintro ⟨_, _, rfl, ⟨whole, rfl⟩, _, _, rfl, ⟨fraction, rfl⟩, unit, rfl⟩
    exact ⟨⟨whole, fraction, unit⟩, rfl⟩
  · rintro ⟨i, rfl⟩
    exact ⟨_, _, rfl, ⟨i.whole, rfl⟩, _, _, rfl, ⟨i.fraction, rfl⟩, i.unit, rfl⟩

theorem accepts_unitSpan_iff {s : List Char} :
    unitSpan.accepts s = true ↔ ∃ items : List Item, items ≠ [] ∧ items.flatMap Item.text = s := by
  rw [accepts_iff, unitSpan, matches_many1_iff]
  simp only [matches_unitItem_iff]
  constructor
  · rintro ⟨parts, filled, rfl, described⟩
    obtain ⟨items, rfl⟩ : parts ∈ Set.range (List.map Item.text) := by
      rw [Set.range_list_map]
      exact described
    exact ⟨items, by simpa using filled, List.flatMap_def⟩
  · rintro ⟨items, filled, rfl⟩
    refine ⟨items.map Item.text, by simpa using filled, List.flatMap_def.symm, fun t there => ?_⟩
    obtain ⟨i, -, same⟩ := List.mem_map.1 there
    exact ⟨i, same⟩

/-- The pattern of spans describes the texts of one or more items.  Such a text is that of no other
items, and the scan, which takes all digits and the longest unit each time, accepts it and finds them. -/
theorem unit_spans_read_one_way (s : List Char) :
    (unitSpan.accepts s = true ↔ ∃ items : List Item, items ≠ [] ∧ items.flatMap Item.text = s) ∧
    (unitSpan.accepts s = true ↔ ∃! items : List Item, items ≠ [] ∧ items.flatMap Item.text = s) ∧
    (unitSpan.accepts s = true ↔ (scan? s).isSome = true) ∧
    ∀ items, scan? s = some items ↔ items ≠ [] ∧ items.flatMap Item.text = s := by
  have scanned (items : List Item) := @scan?_eq_some_iff s items
  refine ⟨accepts_unitSpan_iff, ?_, ?_, scanned⟩
  · simp only [accepts_unitSpan_iff, ← scanned]
    constructor
    · rintro ⟨items, found⟩
      exact ⟨items, found, fun other again => Option.some.inj (again.symm.trans found)⟩
    · rintro ⟨items, found, -⟩
      exact ⟨items, found⟩
  · simp only [accepts_unitSpan_iff, ← scanned, Option.isSome_iff_exists]

end Duration

end ProxyConfig
