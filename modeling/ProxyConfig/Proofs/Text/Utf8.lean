import Mathlib.Tactic.IntervalCases
import ProxyConfig.Text.Pieces

/-!
Text that was encoded as UTF-8 is read back.  Main statement: the pieces of the bytes of a text are
its characters, so that none is stray and the bytes spell the text.
-/

namespace ProxyConfig.Text

theorem Lead.of?_two {n : Nat} (low : 2 ≤ n) (high : n < 32) :
    Lead.of? (UInt8.ofNat (n + 192)) = some ⟨0x80, 0xBF, 0, n⟩ := by
  interval_cases n <;> rfl

theorem Lead.of?_three {n : Nat} (high : n < 16) :
    Lead.of? (UInt8.ofNat (n + 224)) =
      some ⟨if n = 0 then 0xA0 else 0x80, if n = 13 then 0x9F else 0xBF, 1, n⟩ := by
  interval_cases n <;> rfl

theorem Lead.of?_four {n : Nat} (high : n < 5) :
    Lead.of? (UInt8.ofNat (n + 240)) =
      some ⟨if n = 0 then 0x90 else 0x80, if n = 4 then 0x8F else 0xBF, 2, n⟩ := by
  interval_cases n <;> rfl

theorem begin_ascii (done : List Piece) {n : Nat} (high : n < 128) :
    begin done (UInt8.ofNat n) = ⟨.char (Char.ofNat n) :: done, none⟩ := by
  have size : (UInt8.ofNat n).toNat = n := by
    rw [UInt8.toNat_ofNat']
    omega
  have small : UInt8.ofNat n < 0x80 := by
    rw [UInt8.lt_iff_toNat_lt, size]
    exact high
  rw [begin, if_pos small, size]

theorem begin_lead (done : List Piece) {n : Nat} (low : 128 ≤ n) (high : n < 256) {lead : Lead}
    (found : Lead.of? (UInt8.ofNat n) = some lead) :
    begin done (UInt8.ofNat n) = ⟨done, some lead⟩ := by
  have large : ¬ UInt8.ofNat n < 0x80 := by
    rw [UInt8.lt_iff_toNat_lt, UInt8.toNat_ofNat']
    change ¬ n % 2 ^ 8 < 128
    omega
  rw [begin, if_neg large, found]

theorem next_inside (done : List Piece) {low high : UInt8} (more bits : Nat) {n : Nat}
    (above : low.toNat ≤ n + 128) (below : n + 128 ≤ high.toNat) :
    Progress.next ⟨done, some ⟨low, high, more, bits⟩⟩ (UInt8.ofNat (n + 128)) =
      match more with
      | 0 => ⟨.char (Char.ofNat (bits * 64 + n)) :: done, none⟩
      | more + 1 => ⟨done, some ⟨0x80, 0xBF, more, bits * 64 + n⟩⟩ := by
  have size : (UInt8.ofNat (n + 128)).toNat = n + 128 := by
    have byte := high.toNat_lt
    rw [UInt8.toNat_ofNat']
    omega
  have fits : (low ≤ UInt8.ofNat (n + 128) && UInt8.ofNat (n + 128) ≤ high) = true := by
    rw [Bool.and_eq_true, decide_eq_true_iff, decide_eq_true_iff, UInt8.le_iff_toNat_le,
      UInt8.le_iff_toNat_le, size]
    exact ⟨above, below⟩
  cases more with
  | zero => simp only [Progress.next, fits, size, Nat.add_sub_cancel, ↓reduceIte]
  | succ more => simp only [Progress.next, fits, size, Nat.add_sub_cancel, ↓reduceIte]

theorem next_usual (done : List Piece) (more bits : Nat) {n : Nat} (small : n < 64) :
    Progress.next ⟨done, some ⟨0x80, 0xBF, more, bits⟩⟩ (UInt8.ofNat (n + 128)) =
      match more with
      | 0 => ⟨.char (Char.ofNat (bits * 64 + n)) :: done, none⟩
      | more + 1 => ⟨done, some ⟨0x80, 0xBF, more, bits * 64 + n⟩⟩ :=
  next_inside done more bits (Nat.le_add_left 128 n)
    (Nat.add_le_add_right (Nat.le_of_lt_succ small) 128)

theorem foldl_utf8EncodeChar (done : List Piece) (c : Char) :
    (String.utf8EncodeChar c).foldl Progress.next ⟨done, none⟩ = ⟨.char c :: done, none⟩ := by
  have char : Char.ofNat c.val.toNat = c := Char.ofNat_toNat c
  have valid : c.val.toNat < 0xD800 ∨ 0xDFFF < c.val.toNat ∧ c.val.toNat < 0x110000 := c.valid
  unfold String.utf8EncodeChar
  generalize c.val.toNat = v at char valid
  dsimp only
  split_ifs with one two three
  · rw [List.foldl_cons, List.foldl_nil, Progress.next, begin_ascii done (by omega), char]
  · -- two bytes: five bits and six
    have found := Lead.of?_two (n := v / 64 % 32) (by omega) (by omega)
    have value : v / 64 % 32 * 64 + v % 64 = v := by omega
    rw [List.foldl_cons, Progress.next, begin_lead done (by omega) (by omega) found,
      List.foldl_cons, next_usual done 0 _ (Nat.mod_lt v (by decide)), List.foldl_nil]
    dsimp only
    rw [value, char]
  · -- three bytes: the second one is where overlong forms and surrogates would show
    have found := Lead.of?_three (n := v / 4096 % 16) (by omega)
    have value : (v / 4096 % 16 * 64 + v / 64 % 64) * 64 + v % 64 = v := by omega
    rw [List.foldl_cons, Progress.next, begin_lead done (by omega) (by omega) found,
      List.foldl_cons, next_inside done 1 _ ?_ ?_]
    · dsimp only
      rw [List.foldl_cons, next_usual done 0 _ (Nat.mod_lt v (by decide)), List.foldl_nil]
      dsimp only
      rw [value, char]
    · split
      · change 160 ≤ _
        omega
      · exact Nat.le_add_left 128 _
    · split
      · change _ ≤ 159
        omega
      · change _ ≤ 191
        omega
  · -- four bytes: likewise, with U+10FFFF as the last code
    have found := Lead.of?_four (n := v / 262144 % 8) (by omega)
    have value : ((v / 262144 % 8 * 64 + v / 4096 % 64) * 64 + v / 64 % 64) * 64 + v % 64 = v := by
      omega
    rw [List.foldl_cons, Progress.next, begin_lead done (by omega) (by omega) found,
      List.foldl_cons, next_inside done 2 _ ?_ ?_]
    · dsimp only
      rw [List.foldl_cons, next_usual done 1 _ (Nat.mod_lt _ (by decide))]
      dsimp only
      rw [List.foldl_cons, next_usual done 0 _ (Nat.mod_lt v (by decide)), List.foldl_nil]
      dsimp only
      rw [value, char]
    · split
      · change 144 ≤ _
        omega
      · exact Nat.le_add_left 128 _
    · split
      · change _ ≤ 143
        omega
      · change _ ≤ 191
        omega

theorem foldl_flatMap_utf8EncodeChar (done : List Piece) (s : List Char) :
    (s.flatMap String.utf8EncodeChar).foldl Progress.next ⟨done, none⟩ =
      ⟨(s.map Piece.char).reverse ++ done, none⟩ := by
  induction s generalizing done with
  | nil => rfl
  | cons c s ih =>
    rw [List.flatMap_cons, List.foldl_append, foldl_utf8EncodeChar, ih]
    simp

theorem pieces_toUTF8 (s : String) : pieces s.toUTF8 = piecesOf s := by
  have bytes : s.toUTF8.data.toList = s.toList.flatMap String.utf8EncodeChar := by
    rw [String.toUTF8, ← String.utf8Encode_toList, List.utf8Encode, List.data_toByteArray]
  rw [pieces, bytes, foldl_flatMap_utf8EncodeChar, piecesOf, Progress.finish]
  simp

theorem strict_toUTF8 (s : String) : strict s.toUTF8 = some s := by
  rw [strict, pieces_toUTF8, charsOf?_piecesOf]
  simp

end ProxyConfig.Text
