import ProxyConfig.Host
import ProxyConfig.Proofs.Text.AcceptedTexts
import ProxyConfig.Proofs.Text.Patterns

/-!
Names of hosts, label by label.  The pattern of a name is read deterministically: a scheme is cut off,
then a star, and what is left is cut at its points.  Main statements: a name is accepted exactly if each
part is a label (`Host.accepts_name_iff`), and a host is valid exactly if it is such a name or an
address of version 6 in brackets, of no more than 253 bytes (`Host.valid_iff`).
-/

namespace ProxyConfig

namespace Text

theorem after?_append_of_not_mem {c : Char} {t : List Char} (apart : c ∉ t) (s rest : List Char) :
    after? t (s ++ c :: rest) = (after? t s).map (· ++ c :: rest) := by
  induction t generalizing s with
  | nil => rfl
  | cons d t ih =>
    rw [List.mem_cons, not_or] at apart
    cases s with
    | nil => simp [after?, Ne.symm apart.1]
    | cons e s =>
      rw [List.cons_append, after?, after?, ih apart.2]
      split <;> rfl

namespace Pattern

/-- Where nothing of a pattern begins with a text, the text in front is read in one way only. -/
theorem matches_behind_iff {p : Pattern} {t s : List Char} (apart : ∀ rest, ¬ Matches p (t ++ rest)) :
    (∃ rest, s = t ++ rest ∧ Matches p rest) ∨ Matches p s ↔ Matches p ((after? t s).getD s) := by
  cases behind : after? t s with
  | some rest =>
    rw [after?_eq_some_iff] at behind
    subst behind
    simp [apart]
  | none =>
    have front : ¬ ∃ rest, s = t ++ rest ∧ Matches p rest := by
      rintro ⟨rest, text, -⟩
      rw [after?_eq_some_iff.2 text] at behind
      cases behind
    rw [or_iff_right front, Option.getD_none]

end Pattern

end Text

namespace Host

open Text Pattern

def labels : Pattern := .seq label (.star (.seq (.char '.') label))

def Labels (s : List Char) : Prop :=
  ∀ part ∈ splitAll (· == '.') s, label.accepts part = true

instance : DecidablePred Labels := fun s =>
  inferInstanceAs (Decidable (∀ part ∈ splitAll (· == '.') s, label.accepts part = true))

def unstarred (s : List Char) : List Char := (after? ['*', '.'] s).getD s

theorem labels_append_iff {s t : List Char} : Labels (s ++ '.' :: t) ↔ Labels s ∧ Labels t := by
  rw [Labels, splitAll_append rfl, List.forall_mem_append]
  rfl

theorem labels_iff_of_not_mem {s : List Char} (whole : '.' ∉ s) :
    Labels s ↔ label.accepts s = true := by
  have uncut : ∀ c ∈ s, (c == '.') = false :=
    fun c there => beq_eq_false_iff_ne.2 fun same => whole (same ▸ there)
  rw [Labels, splitAll_eq_singleton uncut, List.forall_mem_singleton]

theorem point_not_mem_of_label {s : List Char} (accepted : label.accepts s = true) : '.' ∉ s :=
  not_mem_of_accepts accepted (by decide)

theorem labels_of_matches {s t : List Char} (first : Matches label s)
    (others : Matches (.star (.seq (.char '.') label)) t) : Labels (s ++ t) := by
  have one {u : List Char} (h : Matches label u) : Labels u :=
    (labels_iff_of_not_mem (point_not_mem_of_label (accepts_iff.2 h))).2 (accepts_iff.2 h)
  generalize rep : Pattern.star (.seq (.char '.') label) = r at others
  induction others generalizing s with
  | starNil =>
    rw [List.append_nil]
    exact one first
  | @starCons _ u t next _ _ ih =>
    cases rep
    obtain ⟨point, v, rfl, h, second⟩ := matches_seq_iff.1 next
    rw [matches_char_iff.1 h, List.append_assoc, List.singleton_append]
    exact labels_append_iff.2 ⟨one first, ih second rfl⟩
  | _ => cases rep

theorem matches_labels_iff {s : List Char} : Matches labels s ↔ Labels s := by
  constructor
  · intro h
    obtain ⟨u, v, rfl, first, others⟩ := matches_seq_iff.1 h
    exact labels_of_matches first others
  · intro h
    induction length : s.length using Nat.strongRecOn generalizing s with
    | ind n ih =>
      by_cases point : '.' ∈ s
      · -- the first label, and what stands behind the first point
        obtain ⟨first, rest, rfl, whole⟩ := List.eq_append_cons_of_mem point
        obtain ⟨one, others⟩ := labels_append_iff.1 h
        have shorter : rest.length < n := by
          rw [← length, List.length_append, List.length_cons]
          omega
        obtain ⟨second, back, rfl, next, more⟩ := matches_seq_iff.1 (ih _ shorter others rfl)
        exact .seq (accepts_iff.1 ((labels_iff_of_not_mem whole).1 one))
          (.starCons (.seq (matches_char_iff.2 rfl) next) more)
      · rw [← List.append_nil s]
        exact .seq (accepts_iff.1 ((labels_iff_of_not_mem point).1 h)) .starNil

def unschemed : Pattern := .seq (.optional (.literal ['*', '.'])) labels

theorem matches_unschemed_iff {s : List Char} :
    Matches unschemed s ↔ Labels (unstarred s) := by
  have apart (rest : List Char) : ¬ Matches labels (['*', '.'] ++ rest) :=
    not_matches_of_mem (c := '*') (by decide) List.mem_cons_self
  rw [← matches_labels_iff, unstarred, ← matches_behind_iff apart, unschemed,
    matches_optional_seq_iff]
  simp only [matches_literal_iff]
  exact or_congr_left ⟨fun ⟨_, rest, text, front, h⟩ => ⟨rest, front ▸ text, h⟩,
    fun ⟨rest, text, h⟩ => ⟨_, rest, text, rfl, h⟩⟩

theorem accepts_name_iff {s : List Char} :
    name.accepts s = true ↔ Labels (unstarred (Domain.splitScheme s).2) := by
  -- a colon stands in neither alternative without a scheme, so a scheme cannot be read as part of
  -- a name
  have apart (t : List Char) (colon : ':' ∈ t) (rest : List Char) :
      ¬ Matches unschemed (t ++ rest) :=
    not_matches_of_mem (c := ':') (by decide) (List.mem_append_left rest colon)
  have schemes : Matches name s ↔
      (∃ rest, s = "https://".toList ++ rest ∧ Matches unschemed rest) ∨
        (∃ rest, s = "http://".toList ++ rest ∧ Matches unschemed rest) ∨
          Matches unschemed s := by
    rw [name, matches_optional_seq_iff, ← or_assoc]
    simp only [matches_anyOf_iff, List.mem_cons, List.not_mem_nil, or_false]
    refine or_congr_left ⟨?_, ?_⟩
    · rintro ⟨_, rest, text, ⟨_, rfl | rfl, rfl⟩, h⟩
      · exact .inl ⟨rest, text, h⟩
      · exact .inr ⟨rest, text, h⟩
    · rintro (⟨rest, text, h⟩ | ⟨rest, text, h⟩)
      · exact ⟨_, rest, text, ⟨_, .inl rfl, rfl⟩, h⟩
      · exact ⟨_, rest, text, ⟨_, .inr rfl, rfl⟩, h⟩
  rw [accepts_iff, schemes, ← matches_unschemed_iff, matches_behind_iff (apart _ (by decide)),
    Domain.splitScheme]
  cases https : after? "https://".toList s with
  | some bare =>
    rw [after?_eq_some_iff] at https
    subst https
    have other : after? "http://".toList ("https://".toList ++ bare) = .none := by simp [after?]
    rw [other, Option.getD_none, or_iff_left (apart _ (by decide) bare)]
    simp
  | none =>
    have front : ¬ ∃ rest, s = "https://".toList ++ rest ∧ Matches unschemed rest := by
      rintro ⟨rest, text, -⟩
      rw [after?_eq_some_iff.2 text] at https
      cases https
    rw [or_iff_right front]
    cases after? "http://".toList s <;> rfl

theorem bracketed?_eq_some {s inner : List Char} (cut : bracketed? s = some inner) :
    s = '[' :: (inner ++ [']']) := by
  unfold bracketed? at cut
  split at cut
  case h_1 rest =>
    split at cut
    case isTrue closed =>
      cases cut
      obtain ⟨front, rfl⟩ := List.getLast?_eq_some_iff.1 closed
      rw [List.dropLast_concat]
    case isFalse => cases cut
  case h_2 => cases cut

def Bare (s : List Char) : Prop :=
  (∃ inner, s = '[' :: (inner ++ [']']) ∧ Address.isV6 inner = true) ∨ Labels (unstarred s)

theorem not_labels_of_mem {c : Char} (unmentioned : unschemed.mentions c = false) {s : List Char}
    (there : c ∈ s) : ¬ Labels (unstarred s) :=
  mt matches_unschemed_iff.2 (not_matches_of_mem unmentioned there)

theorem valid_iff {host : String} :
    valid host = true ↔ trimmed host.toList ≠ [] ∧
      (String.ofList (trimmed host.toList)).utf8ByteSize ≤ lengthLimit ∧
        Bare (Domain.splitScheme (trimmed host.toList)).2 := by
  dsimp only [valid]
  rw [Bool.and_eq_true, Bool.and_eq_true, and_assoc]
  refine and_congr (by simp) (and_congr (by simp) ?_)
  split
  case h_1 inner cut =>
    rw [bracketed?_eq_some cut, Bare, or_iff_left (not_labels_of_mem (c := '[') (by decide)
      List.mem_cons_self)]
    simp
  case h_2 uncut =>
    have named : ¬ ∃ inner, (Domain.splitScheme (trimmed host.toList)).2 =
        '[' :: (inner ++ [']']) ∧ Address.isV6 inner = true := by
      rintro ⟨inner, text, -⟩
      simp [text, bracketed?] at uncut
    rw [accepts_name_iff, Bare, or_iff_right named]

theorem not_labels_nil : ¬ Labels [] := by decide

theorem Bare.ne_nil {s : List Char} (bare : Bare s) : s ≠ [] := by
  rintro rfl
  rcases bare with ⟨inner, text, -⟩ | labels
  · cases text
  · exact not_labels_nil labels

theorem Bare.not_mem {s : List Char} (bare : Bare s) {c : Char} (foreign : Address.Foreign c)
    (unmentioned : unschemed.mentions c = false) (opening : c ≠ '[') (closing : c ≠ ']') :
    c ∉ s := by
  rcases bare with ⟨inner, rfl, v6⟩ | labels
  · simp [opening, closing, Address.not_mem_of_isV6 foreign v6]
  · exact fun there => not_labels_of_mem unmentioned there labels

theorem Bare.not_isBlank {s : List Char} (bare : Bare s) : ∀ c ∈ s, isBlank c = false := by
  intro c there
  refine Bool.eq_false_iff.2 fun blank => ?_
  have other := eq_false_of_isBlank (fun c => unschemed.mentions c || c == '[' || c == ']')
    (by decide +kernel) blank
  simp only [Bool.or_eq_false_iff, beq_eq_false_iff_ne] at other
  exact bare.not_mem (Address.foreign_of_isBlank blank) other.1.1 other.1.2 other.2 there

theorem splitScheme_eq (s : List Char) :
    ∃ scheme : String, s = scheme.toList ++ (Domain.splitScheme s).2 := by
  unfold Domain.splitScheme
  split
  case h_1 bare https => exact ⟨_, after?_eq_some_iff.1 https⟩
  case h_2 =>
    split
    case h_1 bare http => exact ⟨_, after?_eq_some_iff.1 http⟩
    case h_2 => exact ⟨"", rfl⟩

theorem splitScheme_eq_self {s : List Char} (https : after? "https://".toList s = .none)
    (http : after? "http://".toList s = .none) : Domain.splitScheme s = (.none, s) := by
  rw [Domain.splitScheme, https, http]

theorem Bare.splitScheme {s : List Char} (bare : Bare s) : (Domain.splitScheme s).2 = s := by
  rcases bare with ⟨inner, rfl, v6⟩ | labels
  · rw [splitScheme_eq_self (by simp [after?]) (by simp [after?])]
  · have behind {t : List Char} (colon : ':' ∈ t) : after? t s = .none := by
      refine Option.eq_none_iff_forall_ne_some.2 fun rest front => ?_
      refine not_labels_of_mem (c := ':') (by decide) ?_ labels
      rw [after?_eq_some_iff.1 front]
      exact List.mem_append_left rest colon
    rw [splitScheme_eq_self (behind (by decide)) (behind (by decide))]

theorem splitScheme_append (s rest : List Char) :
    (Domain.splitScheme (s ++ '.' :: rest)).2 = (Domain.splitScheme s).2 ++ '.' :: rest := by
  unfold Domain.splitScheme
  rw [after?_append_of_not_mem (by decide), after?_append_of_not_mem (by decide)]
  cases after? "https://".toList s with
  | some => rfl
  | none => cases after? "http://".toList s <;> rfl

theorem unstarred_append {s : List Char} (more : s ≠ ['*']) (rest : List Char) :
    unstarred (s ++ '.' :: rest) = unstarred s ++ '.' :: rest := by
  unfold unstarred
  match s with
  | [] => rfl
  | [c] =>
    have other : '*' ≠ c := fun same => more (same ▸ rfl)
    simp [after?, other]
  | c :: d :: s =>
    simp only [List.cons_append, after?]
    split
    · split <;> rfl
    · rfl

/-- What can be put in front of labels, with a point between: a star, or labels again. -/
def Front (s : List Char) : Prop := s = ['*'] ∨ Labels (unstarred s)

instance : DecidablePred Front := fun s =>
  inferInstanceAs (Decidable (s = ['*'] ∨ Labels (unstarred s)))

theorem labels_unstarred_append_iff {s rest : List Char} :
    Labels (unstarred (s ++ '.' :: rest)) ↔ Front s ∧ Labels rest := by
  by_cases star : s = ['*']
  · subst star
    simp [Front, unstarred, after?]
  · rw [unstarred_append star, labels_append_iff, Front, or_iff_right star]

theorem bare_append_iff {s rest : List Char} (bare : Bare rest) :
    Bare (s ++ '.' :: rest) ↔ Front s ∧ Labels rest := by
  rw [← labels_unstarred_append_iff, Bare, or_iff_right_iff_imp]
  rintro ⟨inner, text, v6⟩
  rcases List.eq_nil_or_concat rest with none | ⟨front, last, concat⟩
  · exact absurd none bare.ne_nil
  · rw [List.concat_eq_append] at concat
    subst concat
    have closed : (s ++ '.' :: front) ++ [last] = ('[' :: inner) ++ [']'] := by simpa using text
    obtain ⟨opened, same⟩ := List.append_inj' closed rfl
    obtain rfl : last = ']' := (List.cons.inj same).1
    rcases bare with ⟨mid, brackets, -⟩ | labels
    · -- the second bracket would stand inside the first ones
      have front_eq : front ++ [']'] = ('[' :: mid) ++ [']'] := brackets
      rw [List.append_cancel_right front_eq] at opened
      have inside : '[' ∈ inner := by
        cases s with
        | nil => cases opened
        | cons c s =>
          rw [← (List.cons.inj opened).2]
          simp
      exact absurd inside (Address.not_mem_of_isV6 (by decide) v6)
    · exact absurd labels (not_labels_of_mem (c := ']') (by decide) (by simp))

end Host

end ProxyConfig
