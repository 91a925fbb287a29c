import ProxyConfig.Caddyfile.Argument

/-!
The tokens of a line.  White space separates them outside quotes; a token that begins with a quote
goes on to the next quote that is not escaped, and a backslash inside it stands for the character
behind it.  Anywhere else, quotes and backslashes are characters like others.  Main statements: a
quoted argument is one token again, and it is the text that was quoted (`tokensFrom_quoteArg`); and
tokens that are no words take more of a line than their own characters (`spentOn_le`).
-/

namespace ProxyConfig.Caddyfile

/-- Where in a line the next character stands: between tokens, or behind a part of one, which is kept
in reverse. -/
inductive Spot where
  | between
  | inWord (word : List Char)
  | inQuotes (token : List Char)
  | behindBackslash (token : List Char)

def tokensFrom : Spot → List Char → Option (List (List Char))
  | .between, [] => some []
  | .inWord word, [] => some [word.reverse]
  | .inQuotes _, [] | .behindBackslash _, [] => none
  | .between, c :: s =>
    if Text.isBlank c then tokensFrom .between s
    else if c = '"' then tokensFrom (.inQuotes []) s
    else tokensFrom (.inWord [c]) s
  | .inWord word, c :: s =>
    if Text.isBlank c then (tokensFrom .between s).map (word.reverse :: ·)
    else tokensFrom (.inWord (c :: word)) s
  | .inQuotes token, c :: s =>
    if c = '"' then (tokensFrom .between s).map (token.reverse :: ·)
    else if c = '\\' then tokensFrom (.behindBackslash token) s
    else tokensFrom (.inQuotes (c :: token)) s
  | .behindBackslash token, c :: s => tokensFrom (.inQuotes (c :: token)) s

def tokens? (line : String) : Option (List String) :=
  (tokensFrom .between line.toList).map fun tokens => tokens.map String.ofList

/-- A text that is one token as it stands: a word that does not begin with a quote. -/
structure Word (s : List Char) : Prop where
  ne_nil : s ≠ []
  filled : ∀ c ∈ s, Text.isBlank c = false
  unquoted : s.head? ≠ some '"'

instance (s : List Char) : Decidable (Word s) :=
  let _ : Decidable (∀ c ∈ s, Text.isBlank c = false) := List.decidableBAll _ s
  decidable_of_iff (s ≠ [] ∧ (∀ c ∈ s, Text.isBlank c = false) ∧ s.head? ≠ some '"')
    ⟨fun ⟨filling, filled, unquoted⟩ => ⟨filling, filled, unquoted⟩,
      fun word => ⟨word.ne_nil, word.filled, word.unquoted⟩⟩

def Ended (s : List Char) : Prop := ∀ c ∈ s.head?, Text.isBlank c = true

variable {s t : List Char}

theorem ended_nil : Ended [] := nofun

theorem ended_cons {c : Char} (blank : Text.isBlank c = true) : Ended (c :: s) := by
  intro d first
  cases first
  exact blank

theorem tokensFrom_blanks {blanks : List Char} (blank : ∀ c ∈ blanks, Text.isBlank c = true)
    (s : List Char) : tokensFrom .between (blanks ++ s) = tokensFrom .between s := by
  induction blanks with
  | nil => rfl
  | cons c blanks ih =>
    obtain ⟨first, rest⟩ := List.forall_mem_cons.1 blank
    rw [List.cons_append, tokensFrom, if_pos first, ih rest]

theorem tokensFrom_inWord {word : List Char} (filled : ∀ c ∈ s, Text.isBlank c = false)
    (ended : Ended t) :
    tokensFrom (.inWord word) (s ++ t) =
      (tokensFrom .between t).map ((word.reverse ++ s) :: ·) := by
  induction s generalizing word with
  | nil =>
    cases t with
    | nil => simp [tokensFrom]
    | cons c t => simp [tokensFrom, ended c rfl]
  | cons c s ih =>
    obtain ⟨first, rest⟩ := List.forall_mem_cons.1 filled
    rw [List.cons_append, tokensFrom, if_neg (by simp [first]), ih rest]
    simp

theorem tokensFrom_word (word : Word s) (ended : Ended t) :
    tokensFrom .between (s ++ t) = (tokensFrom .between t).map (s :: ·) := by
  cases s with
  | nil => exact absurd rfl word.ne_nil
  | cons c s =>
    obtain ⟨first, rest⟩ := List.forall_mem_cons.1 word.filled
    have unquoted : c ≠ '"' := fun quote => word.unquoted (congrArg some quote)
    rw [List.cons_append, tokensFrom, if_neg (by simp [first]), if_neg unquoted,
      tokensFrom_inWord rest ended]
    rfl

theorem tokensFrom_inQuotes (token s t : List Char) :
    tokensFrom (.inQuotes token) (s.flatMap quotedChar ++ '"' :: t) =
      (tokensFrom .between t).map ((token.reverse ++ s) :: ·) := by
  induction s generalizing token with
  | nil => simp [tokensFrom]
  | cons c s ih =>
    have one : tokensFrom (.inQuotes token) (quotedChar c ++ (s.flatMap quotedChar ++ '"' :: t)) =
        tokensFrom (.inQuotes (c :: token)) (s.flatMap quotedChar ++ '"' :: t) := by
      unfold quotedChar
      split
      case h_1 => rfl
      case h_2 => rfl
      case h_3 backslash quote =>
        rw [List.singleton_append, tokensFrom, if_neg quote, if_neg backslash]
    rw [List.flatMap_cons, List.append_assoc, one, ih]
    simp

theorem word_of_needsQuotes (fine : needsQuotes s = false) : Word s := by
  rw [needsQuotes, Bool.or_eq_false_iff, List.any_eq_false] at fine
  obtain ⟨some, plain⟩ := fine
  refine ⟨by simpa using some, fun c there => ?_, fun quote => ?_⟩
  · exact (Bool.or_eq_false_iff.1 (Bool.eq_false_iff.2 (plain c there))).1
  · exact absurd (Bool.or_true _) (plain '"' (List.mem_of_mem_head? quote))

/-- Whether or not it needed quotes, an argument is the one token of its text. -/
theorem tokensFrom_quoteArg (raw : String) (ended : Ended t) :
    tokensFrom .between ((quoteArg raw).toList ++ t) =
      (tokensFrom .between t).map (raw.toList :: ·) := by
  by_cases needed : needsQuotes raw.toList = true
  · have quoted : (quoteArg raw).toList = '"' :: raw.toList.flatMap quotedChar ++ ['"'] := by
      rw [quoteArg, if_pos needed, String.toList_ofList]
    have quote : Text.isBlank '"' = false := rfl
    rw [quoted, List.append_assoc, List.cons_append, tokensFrom, if_neg (by simp [quote]),
      if_pos rfl, List.singleton_append, tokensFrom_inQuotes]
    rfl
  · have fine : needsQuotes raw.toList = false := Bool.eq_false_iff.2 needed
    rw [quoteArg_eq_self fine]
    exact tokensFrom_word (word_of_needsQuotes fine) ended

theorem toList_spaced (s t : String) : (s ++ " " ++ t).toList = s.toList ++ ' ' :: t.toList := by
  simp

/-- A word and a quoted argument with a space between are the tokens of their line, and so no two
texts are quoted alike. -/
theorem quoted_argument_reads_back :
    (∀ w raw : String, w ≠ "" → (∀ c ∈ w.toList, Text.isBlank c = false ∧ c ≠ '"') →
      tokens? (w ++ " " ++ quoteArg raw) = some [w, raw]) ∧
    ∀ raw other : String, quoteArg raw = quoteArg other → raw = other := by
  have argument (raw : String) : tokensFrom .between (quoteArg raw).toList = some [raw.toList] := by
    simpa [tokensFrom] using tokensFrom_quoteArg raw ended_nil
  constructor
  · intro w raw filling plain
    have word : Word w.toList :=
      ⟨by simpa using filling, fun c there => (plain c there).1,
        fun quote => (plain '"' (List.mem_of_mem_head? quote)).2 rfl⟩
    have space : Text.isBlank ' ' = true := rfl
    rw [tokens?, toList_spaced, tokensFrom_word word (ended_cons space), tokensFrom, if_pos space,
      argument]
    simp
  · intro raw other same
    have read := argument raw
    rw [same, argument other] at read
    simpa [String.toList_inj] using read.symm

theorem quoted_argument_reads_back_backslashes :
    tokens? ("header" ++ " " ++ quoteArg "") = some ["header", ""] ∧
      tokens? ("header" ++ " " ++ quoteArg "a\\ \\\"b\n\\") =
        some ["header", "a\\ \\\"b\n\\"] ∧
      quoteArg "a\\ \\\"b\n\\" = "\"a\\\\ \\\\\\\"b\n\\\\\"" := by
  have plain : ∀ c ∈ "header".toList, Text.isBlank c = false ∧ c ≠ '"' := by
    have every : ("header".toList.all fun c => !Text.isBlank c && c != '"') = true := by decide
    simpa using List.all_eq_true.1 every
  obtain ⟨line, -⟩ := quoted_argument_reads_back
  exact ⟨line "header" "" (by decide) plain,
    line "header" "a\\ \\\"b\n\\" (by decide) plain, by decide⟩

def spent (token : List Char) : Nat := if Word token then token.length else token.length + 2

/-- How many characters of a line tokens take at least, blanks apart. -/
def spentOn : List (List Char) → Nat
  | [] => 0
  | token :: rest => spent token + spentOn rest

def Spot.spent : Spot → Nat
  | between => 0
  | inWord word => word.length
  | inQuotes token => token.length + 1
  | behindBackslash token => token.length + 2

def Spot.Sound : Spot → Prop
  | inWord word => Word word.reverse
  | _ => True

theorem spent_of_word (word : Word s) : spent s = s.length := if_pos word

theorem spent_of_not_word (other : ¬ Word s) : spent s = s.length + 2 := if_neg other

theorem le_spent (s : List Char) : s.length ≤ spent s := by
  unfold spent
  split <;> omega

theorem spent_le (s : List Char) : spent s ≤ s.length + 2 := by
  unfold spent
  split <;> omega

theorem Word.extend {word : List Char} {c : Char} (read : Word word.reverse)
    (filled : Text.isBlank c = false) : Word (c :: word).reverse := by
  rw [List.reverse_cons]
  refine ⟨by simp, ?_, ?_⟩
  · rw [List.forall_mem_append]
    exact ⟨read.filled, List.forall_mem_singleton.2 filled⟩
  · rw [List.head?_append, Option.or_of_isSome (by simpa using read.ne_nil)]
    exact read.unquoted

theorem word_singleton {c : Char} (filled : Text.isBlank c = false) (unquoted : c ≠ '"') :
    Word [c] :=
  ⟨nofun, List.forall_mem_singleton.2 filled, fun quote => unquoted (Option.some.inj quote)⟩

theorem tokensFrom_step {spot : Spot} {c : Char} {tokens : List (List Char)} (sound : spot.Sound)
    (read : tokensFrom spot (c :: s) = some tokens) :
    (∃ next : Spot, next.Sound ∧ next.spent ≤ spot.spent + 1 ∧ tokensFrom next s = some tokens) ∨
      ∃ token rest, tokens = token :: rest ∧ spent token ≤ spot.spent + 1 ∧
        tokensFrom .between s = some rest := by
  -- the character goes into the token, ends it, or stands between tokens
  cases spot with
  | between =>
    rw [tokensFrom] at read
    split at read
    case isTrue => exact .inl ⟨.between, trivial, Nat.zero_le _, read⟩
    case isFalse filled =>
      split at read
      case isTrue => exact .inl ⟨.inQuotes [], trivial, Nat.le_refl _, read⟩
      case isFalse unquoted =>
        have word := word_singleton (Bool.eq_false_iff.2 filled) unquoted
        exact .inl ⟨.inWord [c], word, Nat.le_refl _, read⟩
  | inWord word =>
    rw [tokensFrom] at read
    split at read
    case isTrue =>
      obtain ⟨rest, later, rfl⟩ := Option.map_eq_some_iff.1 read
      have paid := spent_of_word sound
      rw [List.length_reverse] at paid
      exact .inr ⟨_, rest, rfl, paid ▸ Nat.le_succ _, later⟩
    case isFalse filled =>
      have longer := Word.extend sound (Bool.eq_false_iff.2 filled)
      exact .inl ⟨.inWord (c :: word), longer, Nat.le_refl _, read⟩
  | inQuotes token =>
    rw [tokensFrom] at read
    split at read
    case isTrue =>
      obtain ⟨rest, later, rfl⟩ := Option.map_eq_some_iff.1 read
      have paid := spent_le token.reverse
      rw [List.length_reverse] at paid
      exact .inr ⟨_, rest, rfl, paid, later⟩
    case isFalse =>
      split at read
      case isTrue => exact .inl ⟨.behindBackslash token, trivial, Nat.le_refl _, read⟩
      case isFalse => exact .inl ⟨.inQuotes (c :: token), trivial, Nat.le_refl _, read⟩
  | behindBackslash token =>
    exact .inl ⟨.inQuotes (c :: token), trivial, Nat.le_succ _, read⟩

theorem spentOn_le {spot : Spot} {line : List Char} {tokens : List (List Char)} (sound : spot.Sound)
    (read : tokensFrom spot line = some tokens) : spentOn tokens ≤ spot.spent + line.length := by
  induction line generalizing spot tokens with
  | nil =>
    cases spot with
    | between =>
      cases read
      exact Nat.zero_le _
    | inWord word =>
      cases read
      have paid := spent_of_word sound
      rw [List.length_reverse] at paid
      exact Nat.le_of_eq paid
    | inQuotes => cases read
    | behindBackslash => cases read
  | cons c line ih =>
    rw [List.length_cons]
    obtain ⟨next, soundNext, paid, later⟩ | ⟨token, rest, rfl, paid, later⟩ :=
      tokensFrom_step sound read
    · have spent := ih soundNext later
      omega
    · have spent : spentOn rest ≤ Spot.between.spent + line.length := ih trivial later
      rw [Spot.spent, Nat.zero_add] at spent
      rw [spentOn]
      omega

end ProxyConfig.Caddyfile
