/-!
Patterns of texts: character classes, sequences, alternatives and repetitions.  `Matches` says which
texts a pattern describes, and `accepts` decides it character by character: `after c p` is the pattern
of what may follow `c` in a text of `p`.  Main statement: `accepts_iff`.
-/

namespace ProxyConfig.Text

inductive Pattern where
  /-- No text at all. -/
  | none
  /-- The empty text. -/
  | empty
  /-- One character out of the ranges. -/
  | one (ranges : List (Char × Char))
  | seq (p q : Pattern)
  | alt (p q : Pattern)
  | star (p : Pattern)
  | upTo (n : Nat) (p : Pattern)
  deriving DecidableEq, Repr

namespace Pattern

def inRanges (ranges : List (Char × Char)) (c : Char) : Bool :=
  ranges.any fun (low, high) => low ≤ c && c ≤ high

inductive Matches : Pattern → List Char → Prop
  | empty : Matches .empty []
  | one (h : inRanges ranges c = true) : Matches (.one ranges) [c]
  | seq (hs : Matches p s) (ht : Matches q t) : Matches (.seq p q) (s ++ t)
  | left (h : Matches p s) : Matches (.alt p q) s
  | right (h : Matches q s) : Matches (.alt p q) s
  | starNil : Matches (.star p) []
  | starCons (hs : Matches p s) (ht : Matches (.star p) t) : Matches (.star p) (s ++ t)
  | upToNil : Matches (.upTo n p) []
  | upToCons (hs : Matches p s) (ht : Matches (.upTo n p) t) : Matches (.upTo (n + 1) p) (s ++ t)

def char (c : Char) : Pattern := one [(c, c)]

def digit : Pattern := one [('0', '9')]

def literal : List Char → Pattern
  | [] => empty
  | c :: rest => seq (char c) (literal rest)

def anyOf : List String → Pattern
  | [] => none
  | s :: rest => alt (literal s.toList) (anyOf rest)

def optional (p : Pattern) : Pattern := alt p empty

def many1 (p : Pattern) : Pattern := seq p (star p)

/-- Whether a pattern describes the empty text. -/
def nullable : Pattern → Bool
  | none | one _ => false
  | empty | star _ | upTo _ _ => true
  | seq p q => p.nullable && q.nullable
  | alt p q => p.nullable || q.nullable

def joinSeq : Pattern → Pattern → Pattern
  | none, _ => none
  | empty, q => q
  | p, q => seq p q

def joinAlt (p q : Pattern) : Pattern :=
  if p = none then q else if q = none || p = q then p else alt p q

/-- The pattern of what may follow `c`. -/
def after (c : Char) : Pattern → Pattern
  | none | empty => none
  | one ranges => if inRanges ranges c then empty else none
  | seq p q =>
    joinAlt (joinSeq (p.after c) q) (if p.nullable then q.after c else none)
  | alt p q => joinAlt (p.after c) (q.after c)
  | star p => joinSeq (p.after c) (star p)
  | upTo n p =>
    match n with
    | 0 => none
    | n + 1 => joinSeq (p.after c) (upTo n p)

def accepts (p : Pattern) (s : List Char) : Bool := (s.foldl (fun p c => p.after c) p).nullable

theorem not_matches_none {s : List Char} : ¬ Matches none s := nofun

theorem matches_empty_iff {s : List Char} : Matches empty s ↔ s = [] :=
  ⟨fun h => by cases h; rfl, fun h => h ▸ .empty⟩

theorem matches_seq_iff {p q : Pattern} {s : List Char} :
    Matches (seq p q) s ↔ ∃ u v, s = u ++ v ∧ Matches p u ∧ Matches q v :=
  ⟨fun h => by cases h with | seq hs ht => exact ⟨_, _, rfl, hs, ht⟩,
    fun ⟨_, _, h, hu, hv⟩ => h ▸ .seq hu hv⟩

theorem matches_alt_iff {p q : Pattern} {s : List Char} :
    Matches (alt p q) s ↔ Matches p s ∨ Matches q s :=
  ⟨fun h => by cases h with | left h => exact .inl h | right h => exact .inr h,
    fun h => h.elim .left .right⟩

theorem matches_joinSeq {p q : Pattern} {s : List Char} :
    Matches (joinSeq p q) s ↔ Matches (seq p q) s := by
  cases p with
  | none => simp [joinSeq, matches_seq_iff, not_matches_none]
  | empty =>
    rw [joinSeq, matches_seq_iff]
    exact ⟨fun h => ⟨[], s, rfl, .empty, h⟩, fun ⟨_, _, hs, hu, hv⟩ => by
      rw [matches_empty_iff.1 hu] at hs; simpa [hs] using hv⟩
  | _ => rfl

theorem matches_joinAlt {p q : Pattern} {s : List Char} :
    Matches (joinAlt p q) s ↔ Matches p s ∨ Matches q s := by
  rw [joinAlt]
  split
  · subst p; simp [not_matches_none]
  · split
    · rename_i h
      rw [Bool.or_eq_true, decide_eq_true_iff, decide_eq_true_iff] at h
      rcases h with rfl | rfl <;> simp [not_matches_none]
    · exact matches_alt_iff

theorem nullable_iff {p : Pattern} : p.nullable = true ↔ Matches p [] := by
  induction p with
  | none => simp [nullable, not_matches_none]
  | empty => simp [nullable, matches_empty_iff]
  | one => exact ⟨nofun, nofun⟩
  | seq p q ihp ihq =>
    rw [nullable, Bool.and_eq_true, ihp, ihq, matches_seq_iff]
    constructor
    · exact fun ⟨hp, hq⟩ => ⟨[], [], rfl, hp, hq⟩
    · rintro ⟨u, v, h, hu, hv⟩
      obtain ⟨rfl, rfl⟩ := List.append_eq_nil_iff.1 h.symm
      exact ⟨hu, hv⟩
  | alt p q ihp ihq => simp [nullable, matches_alt_iff, ihp, ihq]
  | star => exact ⟨fun _ => .starNil, fun _ => rfl⟩
  | upTo => exact ⟨fun _ => .upToNil, fun _ => rfl⟩

theorem matches_star_cons_iff {p : Pattern} {c : Char} {s : List Char} :
    Matches (star p) (c :: s) ↔ ∃ u v, s = u ++ v ∧ Matches p (c :: u) ∧ Matches (star p) v := by
  constructor
  · intro h
    generalize hp : star p = r at h
    generalize ht : c :: s = t at h
    induction h generalizing s with
    | @starCons _ u v hs hr _ ih =>
      cases hp
      cases u with
      | nil => exact ih rfl ht
      | cons d u =>
        obtain ⟨rfl, rfl⟩ := List.cons.inj ht
        exact ⟨u, v, rfl, hs, hr⟩
    | _ => simp_all
  · rintro ⟨u, v, rfl, hu, hv⟩
    exact .starCons hu hv

theorem Matches.upTo_succ {n : Nat} {p : Pattern} {s : List Char} (h : Matches (.upTo n p) s) :
    Matches (.upTo (n + 1) p) s := by
  induction n generalizing s with
  | zero => cases h; exact .upToNil
  | succ n ih =>
    cases h with
    | upToNil => exact .upToNil
    | upToCons hs ht => exact .upToCons hs (ih ht)

theorem matches_upTo_cons_iff {n : Nat} {p : Pattern} {c : Char} {s : List Char} :
    Matches (upTo (n + 1) p) (c :: s) ↔
      ∃ u v, s = u ++ v ∧ Matches p (c :: u) ∧ Matches (upTo n p) v := by
  constructor
  · intro h
    induction n generalizing s with
    | zero =>
      generalize ht : c :: s = t at h
      cases h with
      | upToNil => simp at ht
      | @upToCons _ u _ v hs hv =>
        cases hv
        simp only [List.append_nil] at ht
        subst ht
        exact ⟨s, [], by simp, hs, .upToNil⟩
    | succ n ih =>
      generalize ht : c :: s = t at h
      cases h with
      | upToNil => simp at ht
      | @upToCons _ u _ v hs hv =>
        cases u with
        | nil =>
          simp only [List.nil_append] at ht
          -- a round that takes nothing is left out; the bound need not be reached
          obtain ⟨a, b, rfl, ha, hb⟩ := ih (ht ▸ hv)
          exact ⟨a, b, rfl, ha, hb.upTo_succ⟩
        | cons d u =>
          obtain ⟨rfl, rfl⟩ := List.cons.inj ht
          exact ⟨u, v, rfl, hs, hv⟩
  · rintro ⟨u, v, rfl, hu, hv⟩
    exact .upToCons hu hv

theorem matches_seq_cons_iff {p q : Pattern} {c : Char} {s : List Char} :
    Matches (seq p q) (c :: s) ↔
      (∃ u v, s = u ++ v ∧ Matches p (c :: u) ∧ Matches q v) ∨
        (Matches p [] ∧ Matches q (c :: s)) := by
  rw [matches_seq_iff]
  constructor
  · rintro ⟨u, v, h, hu, hv⟩
    cases u with
    | nil => exact .inr ⟨hu, by simpa [h] using hv⟩
    | cons d u =>
      obtain ⟨rfl, rfl⟩ := List.cons.inj h
      exact .inl ⟨u, v, rfl, hu, hv⟩
  · rintro (⟨u, v, rfl, hu, hv⟩ | ⟨hu, hv⟩)
    · exact ⟨c :: u, v, rfl, hu, hv⟩
    · exact ⟨[], c :: s, rfl, hu, hv⟩

theorem matches_after_iff {p : Pattern} {c : Char} {s : List Char} :
    Matches (p.after c) s ↔ Matches p (c :: s) := by
  induction p generalizing s with
  | none => simp [after, not_matches_none]
  | empty => simp [after, not_matches_none, matches_empty_iff]
  | one ranges =>
    rw [after]
    split
    · rename_i h
      rw [matches_empty_iff]
      exact ⟨fun hs => hs ▸ .one h, fun hs => by cases hs; rfl⟩
    · rename_i h
      exact ⟨fun hs => absurd hs not_matches_none, fun hs => by cases hs with | one h' => exact absurd h' h⟩
  | seq p q ihp ihq =>
    rw [after, matches_joinAlt, matches_joinSeq, matches_seq_iff, matches_seq_cons_iff]
    simp only [ihp]
    cases hp : p.nullable with
    | true => simp [ihq, nullable_iff.1 hp]
    | false =>
      have : ¬ Matches p [] := fun h => by simp [nullable_iff.2 h] at hp
      simp [this, not_matches_none]
  | alt p q ihp ihq => rw [after, matches_joinAlt, matches_alt_iff, ihp, ihq]
  | star p ih =>
    rw [after, matches_joinSeq, matches_seq_iff, matches_star_cons_iff]
    simp only [ih]
  | upTo n p ih =>
    cases n with
    | zero => exact ⟨fun h => absurd h not_matches_none, nofun⟩
    | succ n =>
      rw [after, matches_joinSeq, matches_seq_iff, matches_upTo_cons_iff]
      simp only [ih]

theorem accepts_iff {p : Pattern} {s : List Char} : p.accepts s = true ↔ Matches p s := by
  induction s generalizing p with
  | nil => exact nullable_iff
  | cons c s ih => exact (ih (p := p.after c)).trans matches_after_iff

end Pattern

end ProxyConfig.Text
