import ProxyConfig.Text.Blank

/-!
The words of a text.  Main statements: a blank divides the words before it from those behind it, no
word is empty or has a blank in it, and a text that neither begins nor ends with a blank is one word
exactly if it has no blank (`length_words_eq_one_iff`).
-/

namespace ProxyConfig.Text

section Runs

variable {c d : Char} {s : List Char}

-- The two equations are stated here because those that come with `runs` take long to derive.
theorem runs_singleton (c : Char) : runs [c] = if isBlank c then [] else [[c]] := (rfl)

theorem runs_cons_cons (c d : Char) (s : List Char) :
    runs (c :: d :: s) =
      if isBlank c then runs (d :: s)
      else if isBlank d then [c] :: runs (d :: s)
      else match runs (d :: s) with
        | [] => [[c]]
        | w :: ws => (c :: w) :: ws := (rfl)

theorem runs_of_blank (blank : isBlank c = true) (s : List Char) : runs (c :: s) = runs s := by
  cases s with
  | nil => exact if_pos blank
  | cons d s => exact if_pos blank

theorem runs_single (filled : isBlank c = false) : runs [c] = [[c]] := by
  rw [runs_singleton, if_neg (by simp [filled])]

theorem runs_last (filled : isBlank c = false) (blank : isBlank d = true) (s : List Char) :
    runs (c :: d :: s) = [c] :: runs s := by
  rw [runs_cons_cons, if_neg (by simp [filled]), if_pos blank, runs_of_blank blank]

theorem runs_more (filled : isBlank c = false) (next : isBlank d = false) {w : List Char}
    {ws : List (List Char)} (behind : runs (d :: s) = w :: ws) :
    runs (c :: d :: s) = (c :: w) :: ws := by
  rw [runs_cons_cons, if_neg (by simp [filled]), if_neg (by simp [next]), behind]

theorem exists_runs_cons (filled : isBlank c = false) (s : List Char) :
    ∃ w ws, runs (c :: s) = (c :: w) :: ws := by
  induction s generalizing c with
  | nil => exact ⟨[], [], runs_single filled⟩
  | cons d s ih =>
    cases next : isBlank d with
    | true => exact ⟨[], _, runs_last filled next s⟩
    | false =>
      obtain ⟨w, ws, behind⟩ := ih next
      exact ⟨d :: w, ws, runs_more filled next behind⟩

theorem runs_append_blank (blank : isBlank c = true) (s t : List Char) :
    runs (s ++ c :: t) = runs s ++ runs t := by
  induction s with
  | nil => exact runs_of_blank blank t
  | cons d s ih =>
    cases first : isBlank d with
    | true => rw [List.cons_append, runs_of_blank first, runs_of_blank first, ih]
    | false =>
      cases s with
      | nil => rw [List.cons_append, List.nil_append, runs_last first blank, runs_single first]; rfl
      | cons e s =>
        cases next : isBlank e with
        | true =>
          rw [List.cons_append, runs_of_blank next, runs_of_blank next] at ih
          rw [List.cons_append, List.cons_append, runs_last first next, runs_last first next, ih]
          rfl
        | false =>
          -- `d` and `e` are in one run, which `e` begins in the shorter text
          obtain ⟨w, ws, behind⟩ := exists_runs_cons next s
          have whole : runs (e :: (s ++ c :: t)) = (e :: w) :: (ws ++ runs t) := by
            rw [← List.cons_append, ih, behind]
            rfl
          rw [List.cons_append, List.cons_append, runs_more first next whole,
            runs_more first next behind]
          rfl

theorem runs_eq_singleton (some : s ≠ []) (filled : ∀ c ∈ s, isBlank c = false) :
    runs s = [s] := by
  induction s with
  | nil => exact absurd rfl some
  | cons c s ih =>
    obtain ⟨first, rest⟩ := List.forall_mem_cons.1 filled
    cases s with
    | nil => exact runs_single first
    | cons d s => exact runs_more first (rest d List.mem_cons_self) (ih nofun rest)

theorem forall_mem_runs {P : List Char → Prop} (one : ∀ c, isBlank c = false → P [c])
    (more : ∀ c w, isBlank c = false → P w → P (c :: w)) : ∀ w ∈ runs s, P w := by
  induction s with
  | nil => exact fun _ there => absurd there List.not_mem_nil
  | cons c s ih =>
    cases first : isBlank c with
    | true => rwa [runs_of_blank first]
    | false =>
      cases s with
      | nil =>
        rw [runs_single first]
        exact List.forall_mem_singleton.2 (one c first)
      | cons d s =>
        cases next : isBlank d with
        | true =>
          rw [runs_of_blank next] at ih
          rw [runs_last first next]
          exact List.forall_mem_cons.2 ⟨one c first, ih⟩
        | false =>
          obtain ⟨v, vs, behind⟩ := exists_runs_cons next s
          rw [behind] at ih
          obtain ⟨run, others⟩ := List.forall_mem_cons.1 ih
          rw [runs_more first next behind]
          exact List.forall_mem_cons.2 ⟨more c _ first run, others⟩

theorem not_isBlank_of_mem_runs {w : List Char} (there : w ∈ runs s) : ∀ c ∈ w, isBlank c = false :=
  forall_mem_runs (P := fun w => ∀ c ∈ w, isBlank c = false)
    (fun _ filled => List.forall_mem_singleton.2 filled)
    (fun _ _ filled rest => List.forall_mem_cons.2 ⟨filled, rest⟩) w there

theorem ne_nil_of_mem_runs {w : List Char} (there : w ∈ runs s) : w ≠ [] :=
  forall_mem_runs (P := (· ≠ [])) (fun c _ => List.cons_ne_nil c []) (fun c w _ _ => List.cons_ne_nil c w)
    w there

theorem exists_runs_append (filled : isBlank c = false) (s : List Char) :
    ∃ w ws, runs (s ++ [c]) = w :: ws := by
  induction s with
  | nil => exact ⟨_, _, runs_single filled⟩
  | cons d s ih =>
    cases first : isBlank d with
    | true => rwa [List.cons_append, runs_of_blank first]
    | false =>
      obtain ⟨w, ws, some⟩ := exists_runs_cons first (s ++ [c])
      exact ⟨d :: w, ws, some⟩

end Runs

theorem words_append_blank {c : Char} (blank : isBlank c = true) (s t : String) :
    words (s ++ String.ofList [c] ++ t) = words s ++ words t := by
  have text : (s ++ String.ofList [c] ++ t).toList = s.toList ++ c :: t.toList := by simp
  rw [words, text, runs_append_blank blank, List.map_append]
  rfl

theorem words_eq_singleton {s : String} (some : s ≠ "") (filled : ∀ c ∈ s.toList, isBlank c = false) :
    words s = [s] := by
  have chars : s.toList ≠ [] := by simpa using some
  rw [words, runs_eq_singleton chars filled, List.map_singleton, String.ofList_toList]

theorem not_isBlank_of_mem_words {s w : String} (there : w ∈ words s) :
    ∀ c ∈ w.toList, isBlank c = false := by
  obtain ⟨run, listed, rfl⟩ := List.mem_map.1 there
  rw [String.toList_ofList]
  exact not_isBlank_of_mem_runs listed

theorem ne_empty_of_mem_words {s w : String} (there : w ∈ words s) : w ≠ "" := by
  obtain ⟨run, listed, rfl⟩ := List.mem_map.1 there
  rw [Ne, ← String.toList_inj, String.toList_ofList]
  exact ne_nil_of_mem_runs listed

/-- A text that neither begins nor ends with a blank. -/
def Trimmed (s : List Char) : Prop :=
  (∀ c ∈ s.head?, isBlank c = false) ∧ ∀ c ∈ s.getLast?, isBlank c = false

theorem trimmed_toList_trim (s : String) : Trimmed (trim s).toList := by
  rw [toList_trim]
  constructor
  · intro c first
    obtain ⟨rest, text⟩ := List.head?_eq_some_iff.1 first
    exact trimLeft_head ((trimLeft_trimmed s.toList).trans text)
  · intro c last
    rw [trimmed, List.getLast?_reverse] at last
    obtain ⟨rest, text⟩ := List.head?_eq_some_iff.1 last
    exact trimLeft_head text

theorem trimmed_eq_self {s : List Char} (ends : Trimmed s) : trimmed s = s := by
  have last : ∀ c ∈ s.reverse.head?, isBlank c = false := by
    rw [List.head?_reverse]
    exact ends.2
  rw [trimmed, trimLeft_eq_self ends.1, trimLeft_eq_self last, List.reverse_reverse]

theorem trim_eq_self {s : String} (ends : Trimmed s.toList) : trim s = s := by
  rw [trim, trimmed_eq_self ends, String.ofList_toList]

theorem Trimmed.append {s t : List Char} (first : Trimmed s) (second : Trimmed t) :
    Trimmed (s ++ t) := by
  constructor
  · intro c there
    rw [List.head?_append, Option.mem_def, Option.or_eq_some_iff] at there
    exact there.elim (first.1 c) fun ⟨_, behind⟩ => second.1 c behind
  · intro c there
    rw [List.getLast?_append, Option.mem_def, Option.or_eq_some_iff] at there
    exact there.elim (second.2 c) fun ⟨_, before⟩ => first.2 c before

theorem trimmed_of_filled {s : List Char} (filled : ∀ c ∈ s, isBlank c = false) : Trimmed s :=
  ⟨fun c first => filled c (List.mem_of_mem_head? first),
    fun c last => filled c (List.mem_of_mem_getLast? last)⟩

theorem words_ne_nil {s : String} (some : s ≠ "") (ends : Trimmed s.toList) : words s ≠ [] := by
  cases text : s.toList with
  | nil => exact absurd (String.toList_inj.1 text) some
  | cons c rest =>
    obtain ⟨w, ws, runs⟩ := exists_runs_cons (ends.1 c (by rw [text]; rfl)) rest
    rw [words, text, runs]
    exact List.cons_ne_nil _ _

theorem length_words_eq_one_iff {s : String} (some : s ≠ "") (ends : Trimmed s.toList) :
    (words s).length = 1 ↔ ∀ c ∈ s.toList, isBlank c = false := by
  constructor
  · intro one c there
    by_cases blank : isBlank c = true
    · -- both sides of a blank in the middle have a word
      obtain ⟨front, back, text⟩ := List.append_of_mem there
      have divided : words s = (runs front ++ runs back).map String.ofList := by
        rw [words, text, runs_append_blank blank]
      rw [text] at ends
      cases front with
      | nil => simpa using ends.1 c rfl
      | cons first front =>
        have final : ∀ d ∈ (c :: back).getLast?, isBlank d = false := by
          intro d last
          exact ends.2 d (by rw [List.getLast?_append, last]; rfl)
        rcases List.eq_nil_or_concat back with rfl | ⟨init, last, concat⟩
        · simpa using final c rfl
        · rw [List.concat_eq_append] at concat
          subst concat
          rw [← List.cons_append, List.getLast?_concat] at final
          obtain ⟨_, _, before⟩ := exists_runs_cons (ends.1 first rfl) front
          obtain ⟨_, _, behind⟩ := exists_runs_append (final last rfl) init
          rw [divided, before, behind] at one
          simp at one
    · exact Bool.eq_false_iff.2 blank
  · intro filled
    rw [words_eq_singleton some filled]
    rfl

end ProxyConfig.Text
