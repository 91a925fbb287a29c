/-!
White space as the `White_Space` property of Unicode has it, and what is cut at it: the ends of a
text (`trim`) and the words inside it (`words`).  Main statements: what `trimLeft` leaves does not
begin with a blank, a text that begins with none is left as it is, and trimming twice is trimming
once (`trim_trim`).
-/

namespace ProxyConfig.Text

def isBlank (c : Char) : Bool :=
  let n := c.toNat
  (9 ≤ n && n ≤ 13) || n == 0x20 || n == 0x85 || n == 0xA0 || n == 0x1680 ||
    (0x2000 ≤ n && n ≤ 0x200A) || n == 0x2028 || n == 0x2029 || n == 0x202F || n == 0x205F ||
    n == 0x3000

theorem isBlank_of_isWhitespace {c : Char} (h : c.isWhitespace) : isBlank c := by
  simp only [Char.isWhitespace, Bool.or_eq_true, decide_eq_true_eq] at h
  rcases h with ((rfl | rfl) | rfl) | rfl <;> rfl

def trimLeft (s : List Char) : List Char := s.dropWhile isBlank

def trimmed (s : List Char) : List Char := (trimLeft (trimLeft s).reverse).reverse

def trim (s : String) : String := String.ofList (trimmed s.toList)

def blank (s : String) : Bool := (trimmed s.toList).isEmpty

@[simp] theorem toList_trim (s : String) : (trim s).toList = trimmed s.toList := by
  simp [trim]

def runs : List Char → List (List Char)
  | [] => []
  | c :: rest =>
    if isBlank c then runs rest
    else match rest with
      | [] => [[c]]
      | d :: _ =>
        if isBlank d then [c] :: runs rest
        else match runs rest with
          | [] => [[c]]
          | w :: ws => (c :: w) :: ws

def words (s : String) : List String := (runs s.toList).map String.ofList

theorem trimLeft_head {s : List Char} {c : Char} {r : List Char} (h : trimLeft s = c :: r) :
    isBlank c = false := by
  induction s with
  | nil => simp [trimLeft] at h
  | cons a s ih =>
    cases ha : isBlank a with
    | true => exact ih (by simpa [trimLeft, ha] using h)
    | false =>
      have : a = c := by simpa [trimLeft, ha] using (List.cons.inj (by simpa [trimLeft, ha] using h)).1
      exact this ▸ ha

theorem trimLeft_eq_self {s : List Char} (h : ∀ c ∈ s.head?, isBlank c = false) :
    trimLeft s = s := by
  cases s with
  | nil => rfl
  | cons c s => simp [trimLeft, h c (by simp)]

@[simp] theorem trimLeft_trimLeft (s : List Char) : trimLeft (trimLeft s) = trimLeft s := by
  refine trimLeft_eq_self fun c hc => ?_
  obtain ⟨r, hr⟩ := List.head?_eq_some_iff.mp hc
  exact trimLeft_head hr

theorem trimLeft_trimmed (s : List Char) : trimLeft (trimmed s) = trimmed s := by
  refine trimLeft_eq_self fun c hc => ?_
  obtain ⟨r, hr⟩ := List.head?_eq_some_iff.mp hc
  have hsuffix : trimLeft (trimLeft s).reverse <:+ (trimLeft s).reverse :=
    List.dropWhile_suffix isBlank
  obtain ⟨t, ht⟩ : trimmed s <+: trimLeft s := by
    simpa [trimmed] using List.reverse_prefix.mpr hsuffix
  rw [hr, List.cons_append] at ht
  exact trimLeft_head ht.symm

@[simp] theorem trimmed_trimmed (s : List Char) : trimmed (trimmed s) = trimmed s := by
  rw [trimmed, trimLeft_trimmed]
  simp [trimmed]

@[simp] theorem trim_trim (s : String) : trim (trim s) = trim s := by
  simp [trim]

end ProxyConfig.Text
