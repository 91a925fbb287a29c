import ProxyConfig.Text.Pattern

/-!
What patterns describe, by the way they are written.  Main statements: a repetition describes the texts
that fall into parts of the pattern (`matches_many1_iff`), and one of a class of characters the texts of
such characters (`matches_many1_one_iff`).
-/

namespace ProxyConfig.Text.Pattern

theorem matches_char_iff {c : Char} {s : List Char} : Matches (char c) s ↔ s = [c] := by
  constructor
  · intro h
    cases h with
    | one inside =>
      simp only [inRanges, List.any_cons, List.any_nil, Bool.or_false, Bool.and_eq_true,
        decide_eq_true_eq] at inside
      rw [Char.le_antisymm inside.2 inside.1]
  · rintro rfl
    exact .one (by simp [inRanges])

theorem matches_literal_iff {t s : List Char} : Matches (literal t) s ↔ s = t := by
  induction t generalizing s with
  | nil => exact matches_empty_iff
  | cons c t ih =>
    rw [literal, matches_seq_iff]
    simp only [matches_char_iff, ih]
    constructor
    · rintro ⟨_, _, rfl, rfl, rfl⟩
      rfl
    · rintro rfl
      exact ⟨[c], t, rfl, rfl, rfl⟩

theorem matches_anyOf_iff {texts : List String} {s : List Char} :
    Matches (anyOf texts) s ↔ ∃ t ∈ texts, s = t.toList := by
  induction texts with
  | nil => simp [anyOf, not_matches_none]
  | cons t texts ih => simp [anyOf, matches_alt_iff, matches_literal_iff, ih]

theorem matches_optional_seq_iff {p q : Pattern} {s : List Char} :
    Matches (seq (optional q) p) s ↔
      (∃ u rest, s = u ++ rest ∧ Matches q u ∧ Matches p rest) ∨ Matches p s := by
  rw [matches_seq_iff]
  simp only [optional, matches_alt_iff, matches_empty_iff]
  constructor
  · rintro ⟨u, rest, rfl, there | rfl, h⟩
    · exact .inl ⟨u, rest, rfl, there, h⟩
    · exact .inr h
  · rintro (⟨u, rest, rfl, there, h⟩ | h)
    · exact ⟨u, rest, rfl, .inl there, h⟩
    · exact ⟨[], s, rfl, .inr rfl, h⟩

theorem matches_star_iff {p : Pattern} {s : List Char} :
    Matches (star p) s ↔ ∃ parts : List (List Char), parts.flatten = s ∧ ∀ t ∈ parts, Matches p t := by
  constructor
  · intro h
    generalize rep : star p = r at h
    induction h with
    | starNil => exact ⟨[], rfl, List.forall_mem_nil _⟩
    | starCons first _ _ ih =>
      cases rep
      obtain ⟨parts, rfl, others⟩ := ih rfl
      exact ⟨_ :: parts, rfl, List.forall_mem_cons.2 ⟨first, others⟩⟩
    | _ => cases rep
  · rintro ⟨parts, rfl, described⟩
    induction parts with
    | nil => exact .starNil
    | cons t parts ih =>
      obtain ⟨first, others⟩ := List.forall_mem_cons.1 described
      exact .starCons first (ih others)

theorem matches_many1_iff {p : Pattern} {s : List Char} :
    Matches (many1 p) s ↔
      ∃ parts : List (List Char), parts ≠ [] ∧ parts.flatten = s ∧ ∀ t ∈ parts, Matches p t := by
  rw [many1, matches_seq_iff]
  simp only [matches_star_iff]
  constructor
  · rintro ⟨t, _, rfl, first, parts, rfl, others⟩
    exact ⟨t :: parts, nofun, rfl, List.forall_mem_cons.2 ⟨first, others⟩⟩
  · rintro ⟨parts, some, rfl, described⟩
    cases parts with
    | nil => exact absurd rfl some
    | cons t parts =>
      obtain ⟨first, others⟩ := List.forall_mem_cons.1 described
      exact ⟨t, _, rfl, first, parts, rfl, others⟩

section Classes

variable {ranges : List (Char × Char)} {s : List Char}

theorem matches_one_iff :
    Matches (one ranges) s ↔ ∃ c, s = [c] ∧ inRanges ranges c = true := by
  constructor
  · intro h
    cases h with
    | one inside => exact ⟨_, rfl, inside⟩
  · rintro ⟨c, rfl, inside⟩
    exact .one inside

theorem matches_upTo_one_iff {n : Nat} :
    Matches (upTo n (one ranges)) s ↔ s.length ≤ n ∧ ∀ c ∈ s, inRanges ranges c = true := by
  induction n generalizing s with
  | zero =>
    cases s with
    | nil => simp [Matches.upToNil]
    | cons c s => exact ⟨nofun, by simp⟩
  | succ n ih =>
    cases s with
    | nil => simp [Matches.upToNil]
    | cons c s =>
      rw [matches_upTo_cons_iff, List.length_cons, Nat.add_le_add_iff_right, List.forall_mem_cons]
      constructor
      · rintro ⟨u, v, rfl, first, others⟩
        obtain ⟨d, single, inside⟩ := matches_one_iff.1 first
        obtain ⟨rfl, rfl⟩ := List.cons.inj single
        obtain ⟨short, rest⟩ := ih.1 others
        exact ⟨short, inside, rest⟩
      · rintro ⟨short, inside, rest⟩
        exact ⟨[], s, rfl, .one inside, ih.2 ⟨short, rest⟩⟩

theorem matches_many1_one_iff :
    Matches (many1 (one ranges)) s ↔ s ≠ [] ∧ ∀ c ∈ s, inRanges ranges c = true := by
  rw [matches_many1_iff]
  constructor
  · rintro ⟨parts, some, rfl, described⟩
    have single (t : List Char) (there : t ∈ parts) := matches_one_iff.1 (described t there)
    constructor
    · intro empty
      cases parts with
      | nil => exact some rfl
      | cons t parts =>
        obtain ⟨c, rfl, -⟩ := single t List.mem_cons_self
        cases empty
    · intro c there
      obtain ⟨t, listed, holds⟩ := List.mem_flatten.1 there
      obtain ⟨d, rfl, inside⟩ := single t listed
      rwa [List.mem_singleton.1 holds]
  · rintro ⟨some, inside⟩
    have whole : (s.map fun c => [c]).flatten = s := by
      rw [← List.flatMap_def, List.flatMap_singleton']
    refine ⟨s.map fun c => [c], by simpa using some, whole, fun t there => ?_⟩
    obtain ⟨c, holds, rfl⟩ := List.mem_map.1 there
    exact .one (inside c holds)

end Classes

end ProxyConfig.Text.Pattern
