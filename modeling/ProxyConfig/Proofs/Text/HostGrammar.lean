import ProxyConfig.Proofs.Text.HostNames

/-!
The grammar of hosts, in terms of their characters.  A label is described by its length, its characters
and its two ends (`Host.accepts_label_iff`).  Main statement: a host is valid exactly if it is short
enough and is, behind at most one scheme, an address of version 6 in brackets, or labels with points
between them, behind at most one star (`Host.valid_iff_grammar`).
-/

namespace ProxyConfig

namespace Text

/-- What stands in a text behind the one of the fronts that it begins with; all of it, if it begins with
none of them. -/
def Behind (fronts : List String) (s rest : List Char) : Prop :=
  (∃ t ∈ fronts, s = t.toList ++ rest) ∨ (rest = s ∧ ∀ t ∈ fronts, ¬ t.toList <+: s)

theorem after?_eq_none_iff {t s : List Char} : after? t s = none ↔ ¬ t <+: s := by
  rw [Option.eq_none_iff_forall_ne_some]
  constructor
  · rintro apart ⟨rest, text⟩
    exact apart rest (after?_eq_some_iff.2 text.symm)
  · intro apart rest front
    exact apart ⟨rest, (after?_eq_some_iff.1 front).symm⟩

theorem front_or_iff {t s rest other : List Char} :
    s = t ++ rest ∨ (rest = other ∧ ¬ t <+: s) ↔ rest = (after? t s).getD other := by
  cases front : after? t s with
  | some bare =>
    rw [after?_eq_some_iff] at front
    subst front
    simp [eq_comm]
  | none =>
    have missing : ¬ t <+: s := after?_eq_none_iff.1 front
    have begins : s ≠ t ++ rest := fun text => missing ⟨rest, text.symm⟩
    simp [missing, begins]

theorem behind_singleton_iff {t : String} {s rest : List Char} :
    Behind [t] s rest ↔ rest = (after? t.toList s).getD s := by
  rw [← front_or_iff]
  simp [Behind]

theorem behind_pair_iff {t u : String} {s rest : List Char}
    (apart : ∀ bare, ¬ u.toList <+: t.toList ++ bare) :
    Behind [t, u] s rest ↔ rest = (after? t.toList s).getD ((after? u.toList s).getD s) := by
  rw [← front_or_iff, ← front_or_iff]
  simp only [Behind, List.mem_cons, List.not_mem_nil, or_false, exists_eq_or_imp, exists_eq_left,
    forall_eq_or_imp, forall_eq]
  constructor
  · rintro ((text | text) | ⟨rfl, front, other⟩)
    · exact .inl text
    · refine .inr ⟨.inl text, ?_⟩
      rintro ⟨bare, rfl⟩
      exact apart bare ⟨rest, text.symm⟩
    · exact .inr ⟨.inr ⟨rfl, other⟩, front⟩
  · rintro (text | ⟨text | ⟨rfl, other⟩, front⟩)
    · exact .inl (.inl text)
    · exact .inl (.inr text)
    · exact .inr ⟨rfl, front, other⟩

end Text

namespace Host

open Text Pattern

/-- One to 63 ASCII letters, digits and hyphens, of which the first and the last are no hyphens. -/
structure IsLabel (s : List Char) : Prop where
  filled : 1 ≤ s.length
  short : s.length ≤ 63
  inside : ∀ c ∈ s, c.isAlphanum = true ∨ c = '-'
  first : ∀ c ∈ s.head?, c.isAlphanum = true
  last : ∀ c ∈ s.getLast?, c.isAlphanum = true

theorem inRanges_letterOrDigit_iff {c : Char} :
    inRanges [('a', 'z'), ('A', 'Z'), ('0', '9')] c = true ↔ c.isAlphanum = true := by
  have read : c.isAlphanum =
      ((decide ('A' ≤ c ∧ c ≤ 'Z') || ('a' ≤ c && c ≤ 'z')) || ('0' ≤ c && c ≤ '9')) := rfl
  rw [read]
  simp only [inRanges, List.any_cons, List.any_nil, Bool.or_false, Bool.or_eq_true,
    Bool.and_eq_true, decide_eq_true_eq, or_assoc]
  exact or_left_comm

theorem inRanges_letterDigitOrHyphen_iff {c : Char} :
    inRanges [('a', 'z'), ('A', 'Z'), ('0', '9'), ('-', '-')] c = true ↔
      c.isAlphanum = true ∨ c = '-' := by
  have split : inRanges [('a', 'z'), ('A', 'Z'), ('0', '9'), ('-', '-')] c =
      (inRanges [('a', 'z'), ('A', 'Z'), ('0', '9')] c || ('-' ≤ c && c ≤ '-')) := by
    simp [inRanges, Bool.or_assoc]
  have hyphen : '-' ≤ c ∧ c ≤ '-' ↔ c = '-' :=
    ⟨fun both => Char.le_antisymm both.2 both.1, by rintro rfl; decide⟩
  rw [split, Bool.or_eq_true, inRanges_letterOrDigit_iff]
  simp [hyphen]

theorem matches_label_iff {s : List Char} :
    Matches label s ↔ (∃ c, s = [c] ∧ c.isAlphanum = true) ∨
      ∃ c middle d, s = c :: (middle ++ [d]) ∧ c.isAlphanum = true ∧ middle.length ≤ 61 ∧
        (∀ e ∈ middle, e.isAlphanum = true ∨ e = '-') ∧ d.isAlphanum = true := by
  rw [label, matches_seq_iff]
  simp only [Pattern.optional, matches_alt_iff, matches_empty_iff, matches_seq_iff, letterOrDigit,
    letterDigitOrHyphen, matches_one_iff, matches_upTo_one_iff, inRanges_letterOrDigit_iff,
    inRanges_letterDigitOrHyphen_iff]
  constructor
  · rintro ⟨_, _, rfl, ⟨c, rfl, first⟩, ⟨middle, _, rfl, ⟨short, inside⟩, d, rfl, last⟩ | rfl⟩
    · exact .inr ⟨c, middle, d, rfl, first, short, inside, last⟩
    · exact .inl ⟨c, rfl, first⟩
  · rintro (⟨c, rfl, first⟩ | ⟨c, middle, d, rfl, first, short, inside, last⟩)
    · exact ⟨[c], [], rfl, ⟨c, rfl, first⟩, .inr rfl⟩
    · exact ⟨[c], _, rfl, ⟨c, rfl, first⟩, .inl ⟨middle, [d], rfl, ⟨short, inside⟩, d, rfl, last⟩⟩

theorem accepts_label_iff {s : List Char} : label.accepts s = true ↔ IsLabel s := by
  rw [accepts_iff, matches_label_iff]
  constructor
  · rintro (⟨c, rfl, first⟩ | ⟨c, middle, d, rfl, first, short, inside, last⟩)
    · exact ⟨by simp, by simp, by simp [first], by simp [first], by simp [first]⟩
    · refine ⟨by simp, by simp; omega, ?_, by simp [first], ?_⟩
      · intro e there
        rcases List.mem_cons.1 there with rfl | there
        · exact .inl first
        · rcases List.mem_append.1 there with there | there
          · exact inside e there
          · exact .inl (List.mem_singleton.1 there ▸ last)
      · rw [← List.cons_append, List.getLast?_concat]
        rintro e ⟨⟩
        exact last
  · intro h
    obtain ⟨c, rest, rfl⟩ := List.exists_cons_of_length_pos h.filled
    have first : c.isAlphanum = true := h.first c rfl
    rcases List.eq_nil_or_concat rest with rfl | ⟨middle, d, rfl⟩
    · exact .inl ⟨c, rfl, first⟩
    · rw [List.concat_eq_append] at h ⊢
      have short := h.short
      rw [List.length_cons, List.length_append, List.length_singleton] at short
      have inside : ∀ e ∈ middle, e.isAlphanum = true ∨ e = '-' := fun e there =>
        h.inside e (List.mem_cons_of_mem c (List.mem_append_left [d] there))
      have last : d.isAlphanum = true := by
        refine h.last d ?_
        rw [← List.cons_append, List.getLast?_concat]
        rfl
      exact .inr ⟨c, middle, d, rfl, first, by omega, inside, last⟩

theorem behind_schemes_iff {s rest : List Char} :
    Behind ["https://", "http://"] s rest ↔ rest = (Domain.splitScheme s).2 := by
  rw [behind_pair_iff (by simp), Domain.splitScheme]
  cases after? "https://".toList s with
  | some => rfl
  | none => cases after? "http://".toList s <;> rfl

theorem labels_iff {s : List Char} : Labels s ↔ ∀ part ∈ splitAll (· == '.') s, IsLabel part :=
  forall₂_congr fun _ _ => accepts_label_iff

/-- A host is valid exactly if, without the blanks around it, it is not empty, takes no more than 253
bytes and is one of two things behind the scheme that it may begin with: an address of version 6 in
brackets, or, behind the star and the point that it may begin with, labels with points between them. -/
theorem valid_iff_grammar {host : String} :
    valid host = true ↔
      trimmed host.toList ≠ [] ∧ (String.ofList (trimmed host.toList)).utf8ByteSize ≤ 253 ∧
        ∃ bare, Behind ["https://", "http://"] (trimmed host.toList) bare ∧
          ((∃ inner, bare = '[' :: (inner ++ [']']) ∧ Address.isV6 inner = true) ∨
            ∃ name, Behind ["*."] bare name ∧
              ∀ part ∈ splitAll (· == '.') name, IsLabel part) := by
  simp only [behind_schemes_iff, behind_singleton_iff, exists_eq_left]
  rw [valid_iff, Bare, labels_iff]
  rfl

example : valid (String.ofList (List.replicate 63 'a')) = true := by decide +kernel

example : valid (String.ofList (List.replicate 64 'a')) = false := by decide +kernel

end Host

end ProxyConfig
