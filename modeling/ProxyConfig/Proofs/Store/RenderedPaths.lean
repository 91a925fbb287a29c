import Mathlib.Data.List.TakeWhile
import ProxyConfig.Proofs.Store.FailedCertificates

/-!
The path that a certificate is referred to by, and the one that it is stored at.  The first is put
together from the directory's text without the slashes at its end, the second is the path of an entry of
the directory.  Main statement: both are the same up to repeated slashes, so that a stored certificate is
read at the first one, unless the directory's text has nothing but slashes; then nothing is left of it,
and a path from the root becomes a name alone.
-/

namespace ProxyConfig

open FileTree ProxyConfig.Path Store

namespace Path

def squeeze : List Char → List Char
  | [] => []
  | c :: rest => if c = '/' ∧ rest.head? = some '/' then squeeze rest else c :: squeeze rest

/-- Paths that are the same up to repeated slashes. -/
def Respelled (s t : String) : Prop := squeeze s.toList = squeeze t.toList

instance (s t : String) : Decidable (Respelled s t) := inferInstanceAs (Decidable (_ = _))

theorem head?_squeeze (s : List Char) : (squeeze s).head? = s.head? := by
  fun_induction squeeze s with
  | case1 => rfl
  | case2 c rest double ih => rw [ih, double.2, double.1, List.head?_cons]
  | case3 c rest single ih => rfl

theorem mem_squeeze_iff {c : Char} {s : List Char} : c ∈ squeeze s ↔ c ∈ s := by
  fun_induction squeeze s with
  | case1 => rfl
  | case2 d rest double ih =>
    have again : '/' ∈ rest := List.mem_of_mem_head? double.2
    rw [ih, List.mem_cons, double.1]
    exact (or_iff_right_of_imp fun same => same ▸ again).symm
  | case3 d rest single ih => rw [List.mem_cons, ih, List.mem_cons]

theorem squeeze_slash_slash (s t : List Char) :
    squeeze (s ++ '/' :: '/' :: t) = squeeze (s ++ '/' :: t) := by
  induction s with
  | nil => rw [List.nil_append, squeeze, if_pos ⟨rfl, rfl⟩, List.nil_append]
  | cons c s ih =>
    have head : (s ++ '/' :: '/' :: t).head? = (s ++ '/' :: t).head? := by cases s <;> rfl
    rw [List.cons_append, List.cons_append, squeeze, squeeze, head, ih]

theorem squeeze_slashes (s t : List Char) (n : Nat) :
    squeeze (s ++ List.replicate (n + 1) '/' ++ t) = squeeze (s ++ '/' :: t) := by
  induction n with
  | zero => rw [List.append_assoc]; rfl
  | succ n ih =>
    rw [← ih, List.append_assoc, List.append_assoc]
    exact squeeze_slash_slash s (List.replicate n '/' ++ t)

theorem splitAll_squeeze (s : List Char) : ∃ part parts others,
    Text.splitAll (· == '/') s = part :: parts ∧
      Text.splitAll (· == '/') (squeeze s) = part :: others ∧
      others.filter (· ≠ []) = parts.filter (· ≠ []) ∧ others.getLast? = parts.getLast? := by
  -- the first part is the same on both sides, so a character can be put in front of it
  fun_induction squeeze s with
  | case1 => exact ⟨[], [], [], rfl, rfl, rfl, rfl⟩
  | case2 c rest double ih =>
    obtain ⟨part, parts, others, split, squeezed, named, last⟩ := ih
    obtain ⟨rfl, next⟩ := double
    obtain ⟨behind, rfl⟩ := List.head?_eq_some_iff.1 next
    obtain ⟨rfl, rfl⟩ : [] = part ∧ Text.splitAll (· == '/') behind = parts := by
      simpa [Text.splitAll] using split
    refine ⟨[], [] :: Text.splitAll (· == '/') behind, others, by simp [Text.splitAll], squeezed,
      by simpa using named, ?_⟩
    obtain ⟨first, more, some⟩ :=
      List.exists_cons_of_ne_nil (Text.splitAll_ne_nil (· == '/') behind)
    rw [last, some, List.getLast?_cons_cons]
  | case3 c rest single ih =>
    obtain ⟨part, parts, others, split, squeezed, named, last⟩ := ih
    by_cases slash : c = '/'
    · refine ⟨[], part :: parts, part :: others, by simp [Text.splitAll, slash, split],
        by simp [Text.splitAll, slash, squeezed], ?_, ?_⟩
      · rw [List.filter_cons, List.filter_cons, named]
      · rw [List.getLast?_cons, List.getLast?_cons, last]
    · exact ⟨c :: part, parts, others, by simp [Text.splitAll, slash, split],
        by simp [Text.splitAll, slash, squeezed], named, last⟩

theorem components_squeeze (s : String) :
    components (String.ofList (squeeze s.toList)) = components s := by
  obtain ⟨part, parts, others, split, squeezed, named, -⟩ := splitAll_squeeze s.toList
  have filled (l : List (List Char)) :
      (l.map String.ofList).filter (fun c => c != "" && c != ".") =
        ((l.filter (· ≠ [])).map String.ofList).filter (fun c => c != "" && c != ".") := by
    rw [List.filter_map, List.filter_map, List.filter_filter]
    refine congrArg _ (List.filter_congr fun word _ => ?_)
    cases word <;> simp
  rw [components, components, String.toList_ofList, split, squeezed, filled, filled (part :: parts),
    List.filter_cons, List.filter_cons, named]

theorem leadsToDirectory_squeeze (s : String) :
    leadsToDirectory (String.ofList (squeeze s.toList)) = leadsToDirectory s := by
  obtain ⟨part, parts, others, split, squeezed, -, last⟩ := splitAll_squeeze s.toList
  rw [leadsToDirectory, leadsToDirectory, String.toList_ofList, split, squeezed, List.getLast?_cons,
    List.getLast?_cons, last]

theorem locateFile_squeeze (t : FileTree) (s : String) :
    t.locateFile (String.ofList (squeeze s.toList)) = t.locateFile s := by
  have empty : (String.ofList (squeeze s.toList)).isEmpty = s.isEmpty := by
    rw [Bool.eq_iff_iff, String.isEmpty_iff, String.isEmpty_iff, ← String.toList_eq_nil_iff,
      ← String.toList_eq_nil_iff, String.toList_ofList, ← List.head?_eq_none_iff, head?_squeeze,
      List.head?_eq_none_iff]
  rw [locateFile, locateFile, leadsToDirectory_squeeze, locate, locate, String.toList_ofList, empty,
    components_squeeze]
  simp only [mem_squeeze_iff]

/-- In every tree, paths that differ in repeated slashes are paths of one file. -/
theorem Respelled.readPath_eq {s r : String} (same : Respelled s r) (t : FileTree) :
    t.readPath s = t.readPath r := by
  rw [readPath, readPath, ← locateFile_squeeze t s, same, locateFile_squeeze]

theorem startsWith_slash_iff {s : String} :
    s.startsWith "/" = true ↔ s.toList.head? = some '/' := by
  rw [String.startsWith_string_iff]
  cases s.toList <;> simp [eq_comm]

theorem Respelled.startsWith_eq {s r : String} (same : Respelled s r) :
    s.startsWith "/" = r.startsWith "/" := by
  rw [Bool.eq_iff_iff, startsWith_slash_iff, startsWith_slash_iff, ← head?_squeeze, same,
    head?_squeeze]

theorem Plain.startsWith_join {name : String} (plain : Plain name) (directory : String) :
    (join directory name).startsWith "/" = directory.startsWith "/" := by
  rw [join, plain.not_startsWith, Bool.false_or]
  split
  case isTrue none =>
    rw [String.isEmpty_iff.1 none, plain.not_startsWith]
    rfl
  case isFalse some =>
    obtain ⟨c, rest, text⟩ : ∃ c rest, directory.toList = c :: rest :=
      List.exists_cons_of_ne_nil (mt String.toList_eq_nil_iff.1 (mt String.isEmpty_iff.2 some))
    rw [Bool.eq_iff_iff, startsWith_slash_iff, startsWith_slash_iff]
    split <;> simp [text]

end Path

namespace Certificate

def OnlySlashes (directory : String) : Prop :=
  directory ≠ "" ∧ ∀ c ∈ directory.toList, c = '/'

instance : DecidablePred OnlySlashes := fun directory =>
  inferInstanceAs (Decidable (directory ≠ "" ∧ ∀ c ∈ directory.toList, c = '/'))

def slashes (n : Nat) : String := String.ofList (List.replicate n '/')

theorem directoryText_append_slashes (directory : String) (n : Nat) :
    directoryText (directory ++ slashes n) = directoryText directory := by
  have all : ∀ c ∈ List.replicate n '/', (c == '/') = true := by simp
  simp [directoryText, slashes, List.dropWhile_append_of_pos all]

section Forward

variable {directory name : String} (forward : '\\' ∉ directory.toList)
include forward

theorem directoryText_eq :
    directoryText directory = (directory.toList.reverse.dropWhile (· == '/')).reverse := by
  have slashed := calc
    directory.toList.map (fun c => if c = '\\' then '/' else c)
    _ = directory.toList.map id :=
      List.map_congr_left fun c there => if_neg fun same => forward (by rwa [← same])
    _ = directory.toList := List.map_id _
  rw [directoryText, slashed]

theorem exists_slashes :
    (∃ n, directory.toList = directoryText directory ++ List.replicate n '/') ∧
      (directoryText directory).getLast? ≠ some '/' := by
  rw [directoryText_eq forward]
  constructor
  · refine ⟨(directory.toList.reverse.takeWhile (· == '/')).length, ?_⟩
    have all : directory.toList.reverse.takeWhile (· == '/') = List.replicate _ '/' :=
      List.eq_replicate_iff.2 ⟨rfl, fun c there => by simpa using List.mem_takeWhile_imp there⟩
    rw [← List.reverse_inj, List.reverse_append, List.reverse_replicate, List.reverse_reverse, ← all,
      List.takeWhile_append_dropWhile]
  · intro last
    rw [List.getLast?_reverse] at last
    have other := List.head?_dropWhile_not (· == '/') directory.toList.reverse
    rw [last] at other
    exact absurd other (by decide)

theorem onlySlashes_iff :
    OnlySlashes directory ↔ directory ≠ "" ∧ directoryText directory = [] := by
  rw [OnlySlashes, directoryText_eq forward, List.reverse_eq_nil_iff, List.dropWhile_eq_nil_iff]
  simp

theorem toList_join (plain : Plain name) (some : directory ≠ "") : ∃ n,
    (join directory name).toList =
      directoryText directory ++ List.replicate (n + 1) '/' ++ name.toList := by
  obtain ⟨⟨n, text⟩, last⟩ := exists_slashes forward
  rw [join, plain.not_startsWith, Bool.false_or, if_neg (mt String.isEmpty_iff.1 some)]
  split
  case isFalse =>
    refine ⟨n, ?_⟩
    rw [String.toList_append, String.toList_append, text, List.replicate_succ']
    simp
  case isTrue slash =>
    rw [String.toList_append]
    cases n with
    | succ n => exact ⟨n, by rw [← text]⟩
    | zero =>
      rw [← String.endsWith_toSlice, String.Slice.endsWith_string_iff] at slash
      obtain ⟨front, ending⟩ := slash
      rw [List.replicate_zero, List.append_nil] at text
      refine absurd ?_ last
      rw [← text]
      simpa using congrArg List.getLast? ending.symm

theorem respelled_of_not_onlySlashes (plain : Plain name) (some : ¬ OnlySlashes directory) :
    Respelled (path directory name) (join directory name) := by
  by_cases none : directory = ""
  · subst none
    rw [join, plain.not_startsWith]
    rfl
  · obtain ⟨n, text⟩ := toList_join forward plain none
    obtain ⟨c, rest, core⟩ := List.exists_cons_of_ne_nil fun empty =>
      some ((onlySlashes_iff forward).2 ⟨none, empty⟩)
    have rendered : (path directory name).toList = directoryText directory ++ '/' :: name.toList := by
      simp [path, core]
    rw [Respelled, text, rendered, squeeze_slashes]

theorem startsWith_path_eq_iff (plain : Plain name) :
    (path directory name).startsWith "/" = directory.startsWith "/" ↔ ¬ OnlySlashes directory := by
  constructor
  · intro same only
    obtain ⟨some, core⟩ := (onlySlashes_iff forward).1 only
    have alone : path directory name = name := by rw [path, core]
    have root : directory.startsWith "/" = true := by
      obtain ⟨c, rest, text⟩ := List.exists_cons_of_ne_nil (mt String.toList_eq_nil_iff.1 some)
      rw [startsWith_slash_iff, text, only.2 c (text ▸ List.mem_cons_self), List.head?_cons]
    rw [alone, root, plain.not_startsWith] at same
    cases same
  · intro some
    rw [(respelled_of_not_onlySlashes forward plain some).startsWith_eq, plain.startsWith_join]

end Forward

end Certificate

namespace Store

variable {p : Paths} {t u : FileTree} {name : String} {content : ByteArray}

theorem readPath_of_saveCertificate (saved : saveCertificate p name content t = (.ok (), u)) :
    u.readPath (join p.certsDir name) = .ok content := by
  by_cases valid : Certificate.validName name = true
  · have plain := Certificate.plain_of_validName valid
    rw [saveCertificate_eq_replaceFile valid] at saved
    rcases made : t.makePath p.certsDir with ⟨_ | e, v⟩
    · obtain ⟨entries, shows⟩ := shows_of_makePath made
      rw [replaceFile_of_makePath plain made] at saved
      obtain ⟨result, after⟩ := shows.replaceFile plain content
      rw [saved] at result after
      have ok := mapError_eq_ok_iff.1 result.symm
      refine (after.readPath_eq_ok_iff plain content).2
        ⟨not_long_of_temporary (not_long_of_replaced ok), ?_⟩
      rw [child?_replaced_of_ok ok, if_neg (temporary_ne name).symm, if_pos rfl]
    · rw [replaceFile_of_not_made plain made] at saved
      cases saved
  · rw [saveCertificate, if_neg valid] at saved
    cases saved

end Store

namespace Certificate

/-- Of a directory without backslashes and an allowed name: the path that the compiled text has is the
one that the store writes to, up to repeated slashes, exactly if the directory's text is not made of
slashes only; in the same cases one is from the root exactly if the directory is.  Slashes at the end of
the directory's text never count, and what was saved is read at the path. -/
theorem path_respells_join_iff {directory name : String} (forward : '\\' ∉ directory.toList)
    (valid : validName name = true) :
    (Respelled (path directory name) (join directory name) ↔ ¬ OnlySlashes directory) ∧
      ((path directory name).startsWith "/" = directory.startsWith "/" ↔ ¬ OnlySlashes directory) ∧
      (∀ n, path (directory ++ slashes n) name = path directory name) ∧
      (¬ OnlySlashes directory → ∀ (p : Paths) (t u : FileTree) content, p.certsDir = directory →
        saveCertificate p name content t = (.ok (), u) →
        u.readPath (path directory name) = .ok content) := by
  have plain := plain_of_validName valid
  have respelled := respelled_of_not_onlySlashes forward plain
  have root := startsWith_path_eq_iff forward plain
  refine ⟨⟨fun same => ?_, respelled⟩, root, fun n => ?_, fun some p t u content located saved => ?_⟩
  · rw [← root, same.startsWith_eq, plain.startsWith_join]
  · rw [path, path, directoryText_append_slashes]
  · rw [(respelled some).readPath_eq, ← located]
    exact readPath_of_saveCertificate saved

theorem path_respells_join_iff_firstSave :
    '\\' ∉ "/srv//certs".toList ∧ validName "site.pem" = true ∧ ¬ OnlySlashes "/srv//certs" ∧
      Respelled (path "/srv//certs" "site.pem") (join "/srv//certs" "site.pem") ∧
      (path "/srv//certs" "site.pem").startsWith "/" = "/srv//certs".startsWith "/" ∧
      ∃ u, saveCertificate (.of "/srv//") "site.pem" "A".toUTF8 empty = (.ok (), u) ∧
        u.readPath (path ("/srv//certs" ++ slashes 2) "site.pem") = .ok "A".toUTF8 := by
  have forward : '\\' ∉ "/srv//certs".toList := by decide
  have valid : validName "site.pem" = true := by decide
  obtain ⟨same, root, any, stored⟩ := path_respells_join_iff forward valid
  have some : ¬ OnlySlashes "/srv//certs" := fun only =>
    absurd (only.2 's' (by simp)) (by decide)
  have saved : saveCertificate (.of "/srv//") "site.pem" "A".toUTF8 empty =
      (.ok (), (saveCertificate (.of "/srv//") "site.pem" "A".toUTF8 empty).2) :=
    Prod.ext (by decide +kernel) rfl
  refine ⟨forward, valid, some, same.2 some, root.2 some, _, saved, ?_⟩
  rw [any]
  exact stored some _ _ _ _ (by decide +kernel) saved

/-- The root directory has such a text: its certificates are stored in it, and the path that they are
referred to by is a name alone. -/
theorem root_path_relative :
    path "/" "site.pem" = "site.pem" ∧ join "/" "site.pem" = "/site.pem" ∧
      ¬ ∀ directory name, '\\' ∉ directory.toList → validName name = true →
        Respelled (path directory name) (join directory name) := by
  refine ⟨by decide, by decide +kernel, fun all => ?_⟩
  exact absurd (all "/" "site.pem" (by decide) (by decide)) (by decide +kernel)

end Certificate

end ProxyConfig
