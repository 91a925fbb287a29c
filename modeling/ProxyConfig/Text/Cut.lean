/-!
Taking texts apart and putting them together, over lists of characters: cutting at the first or the
last occurrence of a character, at every occurrence, and joining again.  Main statements:
`cutFirst` finds the first occurrence and `cutLast` the last one, and `after?` succeeds on what begins
with the text.
-/

namespace ProxyConfig.Text

def cutFirst (c : Char) : List Char → Option (List Char × List Char)
  | [] => none
  | d :: rest =>
    if d = c then some ([], rest)
    else (cutFirst c rest).map fun (before, after) => (d :: before, after)

def cutLast (c : Char) (s : List Char) : Option (List Char × List Char) :=
  (cutFirst c s.reverse).map fun (after, before) => (before.reverse, after.reverse)

/-- What stands between the characters that satisfy `p`, in order; there is always at least one
such part. -/
def splitAll (p : Char → Bool) : List Char → List (List Char)
  | [] => [[]]
  | c :: rest =>
    if p c then [] :: splitAll p rest
    else match splitAll p rest with
      | [] => [[c]]
      | part :: parts => (c :: part) :: parts

/-- What follows the text `t` in a text that begins with it. -/
def after? : (t s : List Char) → Option (List Char)
  | [], s => some s
  | _ :: _, [] => none
  | c :: t, d :: s => if c = d then after? t s else none

def sameLetters (s t : String) : Bool :=
  s.toList.map Char.toLower == t.toList.map Char.toLower

def join (between : String) : List String → String
  | [] => ""
  | [s] => s
  | s :: rest => s ++ between ++ join between rest

theorem cutFirst_eq_some {c : Char} {s before after : List Char}
    (h : cutFirst c s = some (before, after)) : s = before ++ c :: after ∧ c ∉ before := by
  induction s generalizing before with
  | nil => simp [cutFirst] at h
  | cons d s ih =>
    by_cases hd : d = c
    · obtain ⟨rfl, rfl⟩ : [] = before ∧ s = after := by simpa [cutFirst, hd] using h
      simp [hd]
    · cases hs : cutFirst c s with
      | none => simp [cutFirst, hd, hs] at h
      | some p =>
        obtain ⟨b, a⟩ := p
        obtain ⟨rfl, rfl⟩ : d :: b = before ∧ a = after := by simpa [cutFirst, hd, hs] using h
        obtain ⟨rfl, hb⟩ := ih hs
        simp [Ne.symm hd, hb]

theorem cutFirst_append {c : Char} {before : List Char} (new : c ∉ before) (after : List Char) :
    cutFirst c (before ++ c :: after) = some (before, after) := by
  induction before with
  | nil => simp [cutFirst]
  | cons d before ih =>
    rw [List.mem_cons, not_or] at new
    simp [cutFirst, Ne.symm new.1, ih new.2]

theorem cutLast_append {c : Char} (before : List Char) {after : List Char} (last : c ∉ after) :
    cutLast c (before ++ c :: after) = some (before, after) := by
  simp [cutLast, cutFirst_append (mt List.mem_reverse.1 last)]

theorem cutLast_eq_some {c : Char} {s before after : List Char}
    (cut : cutLast c s = some (before, after)) : s = before ++ c :: after ∧ c ∉ after := by
  obtain ⟨⟨behind, front⟩, found, same⟩ := Option.map_eq_some_iff.1 cut
  cases same
  obtain ⟨text, new⟩ := cutFirst_eq_some found
  refine ⟨?_, mt List.mem_reverse.1 new⟩
  rw [← List.reverse_reverse s, text]
  simp

theorem cutLast_eq_none_iff {c : Char} {s : List Char} : cutLast c s = none ↔ c ∉ s := by
  constructor
  · intro uncut there
    obtain ⟨behind, front, text, new⟩ := List.eq_append_cons_of_mem (List.mem_reverse.2 there)
    rw [cutLast, text, cutFirst_append new] at uncut
    cases uncut
  · intro whole
    cases cut : cutLast c s with
    | none => rfl
    | some parts => exact absurd ((cutLast_eq_some cut).1 ▸ by simp) whole

theorem splitAll_ne_nil (p : Char → Bool) (s : List Char) : splitAll p s ≠ [] := by
  cases s with
  | nil => simp [splitAll]
  | cons c s =>
    rw [splitAll]
    split
    · simp
    · split <;> simp

theorem splitAll_append {p : Char → Bool} {c : Char} (hc : p c = true) (s t : List Char) :
    splitAll p (s ++ c :: t) = splitAll p s ++ splitAll p t := by
  induction s with
  | nil => simp [splitAll, hc]
  | cons d s ih =>
    rw [List.cons_append, splitAll, splitAll, ih]
    split
    · rfl
    · obtain ⟨part, parts, some⟩ := List.exists_cons_of_ne_nil (splitAll_ne_nil p s)
      rw [some]
      rfl

theorem splitAll_eq_singleton {p : Char → Bool} {s : List Char} (h : ∀ c ∈ s, p c = false) :
    splitAll p s = [s] := by
  induction s with
  | nil => rfl
  | cons c s ih =>
    obtain ⟨hc, hs⟩ := List.forall_mem_cons.1 h
    simp [splitAll, hc, ih hs]

theorem after?_eq_some_iff {t s rest : List Char} : after? t s = some rest ↔ s = t ++ rest := by
  induction t generalizing s with
  | nil => simp [after?, eq_comm]
  | cons c t ih =>
    cases s with
    | nil => simp [after?]
    | cons d s => by_cases h : c = d <;> simp [after?, h, ih, eq_comm]

end ProxyConfig.Text
