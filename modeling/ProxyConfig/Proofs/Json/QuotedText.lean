import ProxyConfig.Json.Reader
import ProxyConfig.Json.Value

/-!
A quoted text reads back.  Reading undoes one escape at a time (`readQuoted_escape`), whether the
character stands for itself, behind a backslash, or as its code; so the text between the quotes
comes back in the order in which it was written, and reading goes on behind the closing quote
(`readQuoted_escaped`).
-/

namespace ProxyConfig.Json

open Text

theorem escaped_cons (c : Char) (s : List Char) : escaped (c :: s) = escape c ++ escaped s := rfl

theorem escape_length_pos (c : Char) : 0 < (escape c).length := by
  unfold escape
  split
  case h_8 => split <;> simp
  all_goals simp

theorem length_le_escaped (s : List Char) : s.length ≤ (escaped s).length := by
  induction s with
  | nil => simp
  | cons c s ih =>
    have hc := escape_length_pos c
    rw [escaped_cons, List.length_append, List.length_cons]
    omega

theorem readHex_control {n : Nat} (h : n < 0x20) (rest : List Piece) :
    readHex (.char '0' :: .char '0' :: .char (hexDigit (n / 16)) :: .char (hexDigit (n % 16)) ::
      rest) = .ok (n, rest) := by
  have hdigits : ∀ n < 0x20,
      width [.char '0', .char '0', .char (hexDigit (n / 16)), .char (hexDigit (n % 16))] = 4 ∧
        Numeral.value? 16 ['0', '0', hexDigit (n / 16), hexDigit (n % 16)] = some n := by
    decide
  obtain ⟨hwidth, hvalue⟩ := hdigits n h
  simp only [readHex, List.take, hwidth]
  simp [charsOf?, hvalue]

theorem pairUp_control {c : Char} (h : c.toNat < 0x20) (rest : List Piece) :
    pairUp c.toNat rest = .ok (.char c, rest) := by
  unfold pairUp
  rw [if_pos (by simp; omega), Char.ofNat_toNat]

theorem readQuoted_escape (fuel : Nat) (acc : List Char) (c : Char) (rest : List Piece) :
    readQuoted (fuel + 1) .none acc ((escape c).map .char ++ rest) =
      readQuoted fuel .none (c :: acc) rest := by
  unfold escape
  split
  case h_8 =>
    split
    case isTrue h => simp [readQuoted, readHex_control h, Except.bind, pairUp_control h]
    case isFalse h => simp [readQuoted, h]
  all_goals simp [readQuoted, simpleEscape?]

theorem readQuoted_escaped (s acc : List Char) (rest : List Piece) {fuel : Nat}
    (hfuel : s.length < fuel) :
    readQuoted fuel .none acc ((escaped s).map .char ++ .char '"' :: rest) =
      .ok (some (String.ofList (acc.reverse ++ s)), rest) := by
  induction s generalizing acc fuel with
  | nil =>
    obtain ⟨fuel, rfl⟩ := Nat.exists_eq_succ_of_ne_zero (Nat.ne_of_gt hfuel)
    simp [escaped, readQuoted]
  | cons c s ih =>
    obtain ⟨fuel, rfl⟩ := Nat.exists_eq_succ_of_ne_zero (Nat.ne_of_gt (Nat.zero_lt_of_lt hfuel))
    have hs : s.length < fuel := by simpa using hfuel
    rw [escaped_cons, List.map_append, List.append_assoc, readQuoted_escape, ih (c :: acc) hs]
    simp

theorem piecesOf_quoted (s : String) :
    piecesOf (quoted s) = .char '"' :: ((escaped s.toList).map .char ++ [.char '"']) := by
  simp [piecesOf, quoted]

theorem length_lt_quoted (s : String) : s.toList.length + 2 ≤ (piecesOf (quoted s)).length := by
  have h := length_le_escaped s.toList
  simp only [piecesOf_quoted, List.length_cons, List.length_append, List.length_map,
    List.length_nil]
  omega

theorem readQuoted_quoted (s : String) (rest : List Piece) {fuel : Nat}
    (hfuel : s.toList.length < fuel) :
    readQuoted fuel .none [] ((escaped s.toList).map .char ++ .char '"' :: rest) =
      .ok (some s, rest) := by
  rw [readQuoted_escaped s.toList [] rest hfuel]
  simp

end ProxyConfig.Json
