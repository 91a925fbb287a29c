import ProxyConfig.Lint.Checks
import ProxyConfig.Proofs.Text.HostGrammar
import ProxyConfig.Proofs.Text.Words

/-!
Hosts with a scheme in front.  A scheme is no part of the name, but it counts towards the length of the
host.  Main statement: a scheme in front of a host that has none changes nothing about its being valid,
unless the host is one of the longest valid ones, which a scheme makes too long.
-/

namespace ProxyConfig

namespace Host

open Text

def schemes : List String := ["https://", "http://"]

theorem valid_iff_of_behind {host : String} {bare : List Char} (ends : Text.trim host = host)
    (behind : Behind schemes host.toList bare) :
    valid host = true ↔ host.utf8ByteSize ≤ lengthLimit ∧ Bare bare := by
  have text : trimmed host.toList = host.toList := by rw [← toList_trim, ends]
  have split : bare = (Domain.splitScheme host.toList).2 := behind_schemes_iff.1 behind
  rw [valid_iff, text, String.ofList_toList, ← split]
  refine and_iff_right_of_imp fun ⟨_, inside⟩ empty => inside.ne_nil ?_
  rw [split, empty]
  rfl

theorem behind_of_plain {host : String}
    (plain : ∀ typed ∈ schemes, host.startsWith typed = false) :
    Behind schemes host.toList host.toList := by
  refine .inr ⟨rfl, fun typed there => ?_⟩
  rw [← String.startsWith_string_iff, plain typed there]
  exact Bool.false_ne_true

section Scheme

variable {scheme host : String} (known : scheme ∈ schemes) (ends : Text.trim host = host)
  (plain : ∀ typed ∈ schemes, host.startsWith typed = false)
include known ends plain

theorem valid_append_iff :
    valid (scheme ++ host) = true ↔
      valid host = true ∧ scheme.utf8ByteSize + host.utf8ByteSize ≤ lengthLimit := by
  have ends' : Text.trim (scheme ++ host) = scheme ++ host := by
    have front : Trimmed scheme.toList := by
      simp only [schemes, List.mem_cons, List.not_mem_nil, or_false] at known
      rcases known with rfl | rfl <;> exact trimmed_of_filled (by simp [isBlank])
    refine trim_eq_self ?_
    rw [String.toList_append]
    exact front.append (ends ▸ trimmed_toList_trim host)
  have behind : Behind schemes (scheme ++ host).toList host.toList :=
    .inl ⟨scheme, known, String.toList_append⟩
  rw [valid_iff_of_behind ends (behind_of_plain plain), valid_iff_of_behind ends' behind,
    String.utf8ByteSize_append]
  constructor
  · rintro ⟨short, bare⟩
    exact ⟨⟨by omega, bare⟩, short⟩
  · rintro ⟨⟨-, bare⟩, short⟩
    exact ⟨short, bare⟩

end Scheme

/-- A host without blanks around it and without a scheme is valid with a scheme in front exactly if it
is valid without one and both together are short enough.  So the three ways to write it have one answer
unless the host is valid and longer than 245 bytes. -/
theorem valid_with_scheme_iff {host : String} (ends : Text.trim host = host)
    (plain : ∀ typed ∈ schemes, host.startsWith typed = false) :
    (∀ scheme ∈ schemes, valid (scheme ++ host) = true ↔
      valid host = true ∧ scheme.utf8ByteSize + host.utf8ByteSize ≤ lengthLimit) ∧
    (valid ("https://" ++ host) = valid ("http://" ++ host) ∧
        valid ("http://" ++ host) = valid host ↔
      (valid host = true → host.utf8ByteSize ≤ 245)) := by
  have one (scheme : String) (known : scheme ∈ schemes) := valid_append_iff known ends plain
  refine ⟨one, ?_⟩
  have https : valid ("https://" ++ host) = true ↔ valid host = true ∧ 8 + host.utf8ByteSize ≤ 253 :=
    one "https://" (by simp [schemes])
  have http : valid ("http://" ++ host) = true ↔ valid host = true ∧ 7 + host.utf8ByteSize ≤ 253 :=
    one "http://" (by simp [schemes])
  rw [@Bool.eq_iff_iff (valid ("https://" ++ host)), @Bool.eq_iff_iff _ (valid host), https, http]
  cases valid host with
  | false => simp
  | true =>
    simp only [true_and, iff_true, true_implies]
    omega

def run (n : Nat) : String := String.ofList (List.replicate n 'a')

theorem toList_run (n : Nat) : (run n).toList = List.replicate n 'a' := String.toList_ofList

theorem utf8ByteSize_run (n : Nat) : (run n).utf8ByteSize = n := by
  induction n with
  | zero => rfl
  | succ n ih =>
    have longer : run (n + 1) = "a" ++ run n := by
      rw [← String.toList_inj, String.toList_append, toList_run, toList_run]
      rfl
    have letter : "a".utf8ByteSize = 1 := rfl
    rw [longer, String.utf8ByteSize_append, ih, letter, Nat.add_comm]

theorem isLabel_replicate {n : Nat} (some : 1 ≤ n) (short : n ≤ 63) :
    IsLabel (List.replicate n 'a') := by
  have letters : ∀ c ∈ List.replicate n 'a', c.isAlphanum = true := by
    intro c there
    rw [List.eq_of_mem_replicate there]
    rfl
  exact
    { filled := by rwa [List.length_replicate]
      short := by rwa [List.length_replicate]
      inside := fun c there => .inl (letters c there)
      first := fun c there => letters c (List.mem_of_mem_head? there)
      last := fun c there => letters c (List.mem_of_mem_getLast? there) }

theorem labels_run {n : Nat} (some : 1 ≤ n) (short : n ≤ 63) : Labels (run n).toList := by
  have whole : '.' ∉ List.replicate n 'a' := fun there =>
    absurd (List.eq_of_mem_replicate there) (by decide)
  rw [toList_run, labels_iff_of_not_mem whole, accepts_label_iff]
  exact isLabel_replicate some short

def longName (last : Nat) : String := run 63 ++ "." ++ run 63 ++ "." ++ run 63 ++ "." ++ run last

theorem toList_longName (last : Nat) :
    (longName last).toList = (run 63).toList ++ '.' :: ((run 63).toList ++
      '.' :: ((run 63).toList ++ '.' :: (run last).toList)) := by
  simp [longName]

theorem utf8ByteSize_longName (last : Nat) : (longName last).utf8ByteSize = 192 + last := by
  have point : ".".utf8ByteSize = 1 := rfl
  simp only [longName, String.utf8ByteSize_append, utf8ByteSize_run, point]

theorem trim_longName (last : Nat) : Text.trim (longName last) = longName last := by
  refine trim_eq_self (trimmed_of_filled fun c there => ?_)
  have known : c = 'a' ∨ c = '.' := by
    simp only [toList_longName, toList_run, List.mem_append, List.mem_cons,
      List.mem_replicate] at there
    grind
  rcases known with rfl | rfl <;> rfl

theorem startsWith_longName (last : Nat) :
    ∀ typed ∈ schemes, (longName last).startsWith typed = false := by
  simp [schemes, String.startsWith_string_eq_false_iff, toList_longName, toList_run, List.replicate]

theorem valid_longName {last : Nat} (some : 1 ≤ last) (short : last ≤ 61) :
    valid (longName last) = true := by
  have labels : Labels (longName last).toList := by
    have most : Labels (run 63).toList := labels_run (by decide) (by decide)
    rw [toList_longName, labels_append_iff, labels_append_iff, labels_append_iff]
    exact ⟨most, most, most, labels_run some (by omega)⟩
  have unstarred : unstarred (longName last).toList = (longName last).toList := by
    simp [Host.unstarred, toList_longName, toList_run, List.replicate, after?]
  rw [valid_iff_of_behind (trim_longName last) (behind_of_plain (startsWith_longName last)),
    utf8ByteSize_longName, Bare, unstarred]
  exact ⟨by unfold lengthLimit; omega, .inr labels⟩

theorem valid_with_scheme_iff_longName :
    Text.trim (longName 53) = longName 53 ∧
      (∀ typed ∈ schemes, (longName 53).startsWith typed = false) ∧
      (longName 53).utf8ByteSize = 245 ∧ valid (longName 53) = true ∧
      valid ("https://" ++ longName 53) = true ∧ valid ("http://" ++ longName 53) = true := by
  have size : (longName 53).utf8ByteSize = 245 := utf8ByteSize_longName 53
  have accepted : valid (longName 53) = true := valid_longName (by decide) (by decide)
  obtain ⟨-, equal⟩ := valid_with_scheme_iff (trim_longName 53) (startsWith_longName 53)
  obtain ⟨https, http⟩ := equal.2 fun _ => Nat.le_of_eq size
  exact ⟨trim_longName 53, startsWith_longName 53, size, accepted, by rw [https, http, accepted],
    by rw [http, accepted]⟩

def hosting (host : String) : Document where
  general := { enabled := true }
  domains := [.serving "d" host]

theorem lint_hosting (host : String) :
    (hosting host).lint = Lint.host ⟨.domain "d", "fromDomain"⟩ host := by
  have ids : (hosting host).lintIds = [] := rfl
  have general : (hosting host).general.lint = [] := by
    change General.lint { enabled := true } = []
    decide +kernel
  have domain : (hosting host).domains.flatMap (hosting host).lintDomain =
      Lint.host ⟨.domain "d", "fromDomain"⟩ host := by
    change (Lint.host _ host ++ [] ++ [] ++ []) ++ [] = _
    simp only [List.append_nil]
    rfl
  rw [Document.lint, ids, general, domain]
  simp [hosting]

/-- The longest names are valid, and with a scheme in front they are not. -/
theorem longest_invalid_with_scheme :
    Text.trim (longName 61) = longName 61 ∧
      (∀ typed ∈ schemes, (longName 61).startsWith typed = false) ∧
      (longName 61).utf8ByteSize = 253 ∧
      valid (longName 61) = true ∧ valid ("https://" ++ longName 61) = false ∧
      valid ("http://" ++ longName 61) = false ∧ (hosting (longName 61)).lint = [] ∧
      (hosting ("https://" ++ longName 61)).lint =
        [.invalidHost ⟨.domain "d", "fromDomain"⟩ ("https://" ++ longName 61)] := by
  have size : (longName 61).utf8ByteSize = 253 := utf8ByteSize_longName 61
  have accepted : valid (longName 61) = true := valid_longName (by decide) (by decide)
  have refused {scheme : String} (known : scheme ∈ schemes) (some : 0 < scheme.utf8ByteSize) :
      valid (scheme ++ longName 61) = false := by
    rw [Bool.eq_false_iff, ne_eq,
      valid_append_iff known (trim_longName 61) (startsWith_longName 61), size]
    unfold lengthLimit
    omega
  have https : valid ("https://" ++ longName 61) = false := refused (by simp [schemes]) (by decide)
  have http : valid ("http://" ++ longName 61) = false := refused (by simp [schemes]) (by decide)
  refine ⟨trim_longName 61, startsWith_longName 61, size, accepted, https, http, ?_, ?_⟩
  · rw [lint_hosting, Lint.host, accepted]
    rfl
  · rw [lint_hosting, Lint.host, https]
    rfl

end Host

end ProxyConfig
