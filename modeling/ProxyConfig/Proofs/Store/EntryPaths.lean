import ProxyConfig.Store.Basic

/-!
Paths of the entries of a directory.  Main statements: for a plain name, the path of an entry leads
to where the directory's path leads and one name further, and its parent leads to the directory.
Both hold of every spelling of the directory's path, with slashes at its end or without a name at
all.
-/

namespace ProxyConfig.Path

/-- A name that leads from a directory to an entry of it and nowhere else. -/
structure Plain (name : String) : Prop where
  named : name ≠ ""
  notHere : name ≠ "."
  notUp : name ≠ ".."
  noSlash : '/' ∉ name.toList
  noZero : '\x00' ∉ name.toList

instance : DecidablePred Plain := fun name =>
  decidable_of_iff
    (name ≠ "" ∧ name ≠ "." ∧ name ≠ ".." ∧ '/' ∉ name.toList ∧ '\x00' ∉ name.toList)
    ⟨fun ⟨named, notHere, notUp, noSlash, noZero⟩ => ⟨named, notHere, notUp, noSlash, noZero⟩,
      fun plain => ⟨plain.named, plain.notHere, plain.notUp, plain.noSlash, plain.noZero⟩⟩

theorem components_append_slash (s t : String) :
    components (s ++ "/" ++ t) = components s ++ components t := by
  have text : (s ++ "/" ++ t).toList = s.toList ++ '/' :: t.toList := by simp
  rw [components, text, Text.splitAll_append (by decide), List.map_append, List.filter_append]
  rfl

section Plain

variable {name : String} (plain : Plain name)
include plain

theorem Plain.splitAll : Text.splitAll (· == '/') name.toList = [name.toList] := by
  refine Text.splitAll_eq_singleton fun c hc => ?_
  have apart : c ≠ '/' := fun same => plain.noSlash (same ▸ hc)
  simpa using apart

theorem Plain.components : components name = [name] := by
  rw [Path.components, plain.splitAll]
  simp [plain.named, plain.notHere]

theorem Plain.not_startsWith : name.startsWith "/" = false := by
  rw [String.startsWith_string_eq_false_iff]
  exact fun first => plain.noSlash (first.subset (by simp))

theorem join_cases (directory : String) :
    directory = "" ∧ join directory name = name ∨
      ∃ front, join directory name = front ++ "/" ++ name ∧
        components front = components directory ∧
        ('\x00' ∈ front.toList ↔ '\x00' ∈ directory.toList) := by
  rw [join, plain.not_startsWith, Bool.false_or]
  split
  case isTrue none => exact .inl ⟨String.isEmpty_iff.1 none, rfl⟩
  case isFalse some =>
    split
    case isFalse => exact .inr ⟨directory, rfl, rfl, .rfl⟩
    case isTrue slash =>
      rw [← String.endsWith_toSlice, String.Slice.endsWith_string_iff] at slash
      obtain ⟨front, text⟩ := slash
      have whole : directory = String.ofList front ++ "/" := by
        rw [← String.toList_inj]
        simpa using text.symm
      refine .inr ⟨String.ofList front, by rw [whole], ?_, by simp [whole]⟩
      have ending := components_append_slash (String.ofList front) ""
      rw [String.append_empty, ← whole] at ending
      rw [ending]
      exact (List.append_nil _).symm

theorem components_join (directory : String) :
    components (join directory name) = components directory ++ [name] := by
  rcases join_cases plain directory with ⟨rfl, eq⟩ | ⟨front, eq, same, -⟩
  · rw [eq, plain.components]
    rfl
  · rw [eq, components_append_slash, plain.components, same]

theorem zero_mem_join_iff (directory : String) :
    '\x00' ∈ (join directory name).toList ↔ '\x00' ∈ directory.toList := by
  rcases join_cases plain directory with ⟨rfl, eq⟩ | ⟨front, eq, -, same⟩
  · simp [eq, plain.noZero]
  · simp [eq, plain.noZero, same]

theorem parent_join (directory : String) :
    components (parent (join directory name)) = components directory ∧
      ('\x00' ∈ (parent (join directory name)).toList ↔ '\x00' ∈ directory.toList) := by
  rcases join_cases plain directory with ⟨rfl, eq⟩ | ⟨front, eq, same, zero⟩
  · have uncut : parent name = "" := by
      rw [parent, Text.cutLast_eq_none_iff.2 plain.noSlash]
    rw [eq, uncut]
    exact ⟨rfl, .rfl⟩
  · have cut : parent (front ++ "/" ++ name) = front := by
      have text : (front ++ "/" ++ name).toList = front.toList ++ '/' :: name.toList := by simp
      rw [parent, text, Text.cutLast_append _ plain.noSlash]
      exact String.ofList_toList
    rw [eq, cut]
    exact ⟨same, zero⟩

theorem join_ne_empty (directory : String) : join directory name ≠ "" := by
  rcases join_cases plain directory with ⟨-, eq⟩ | ⟨front, eq, -⟩
  · rw [eq]
    exact plain.named
  · simp [eq, plain.named]

theorem not_leadsToDirectory_join (directory : String) :
    leadsToDirectory (join directory name) = false := by
  have last : (Text.splitAll (· == '/') (join directory name).toList).getLast? =
      some name.toList := by
    rcases join_cases plain directory with ⟨-, eq⟩ | ⟨front, eq, -⟩
    · rw [eq, plain.splitAll]
      rfl
    · have text : (front ++ "/" ++ name).toList = front.toList ++ '/' :: name.toList := by simp
      rw [eq, text, Text.splitAll_append (by decide), plain.splitAll]
      simp
  have apart {word : String} (ne : name ≠ word) : name.toList ≠ word.toList :=
    fun same => ne (String.toList_inj.1 same)
  have named := apart plain.named
  have here := apart plain.notHere
  have up := apart plain.notUp
  simp_all [leadsToDirectory]

theorem join_append (directory ending : String) (longer : Plain (name ++ ending)) :
    join directory name ++ ending = join directory (name ++ ending) := by
  rw [join, join, plain.not_startsWith, longer.not_startsWith]
  split
  · rfl
  · split <;> simp [String.append_assoc]

end Plain

end ProxyConfig.Path

namespace ProxyConfig

open ProxyConfig.Path

theorem Certificate.plain_of_validName {name : String} (valid : validName name = true) :
    Plain name := by
  simp only [validName, Bool.and_eq_true, bne_iff_ne, Bool.not_eq_true', List.all_eq_true] at valid
  obtain ⟨⟨⟨some, here⟩, points⟩, chars⟩ := valid
  refine ⟨some, here, ?_, fun slash => ?_, fun zero => ?_⟩
  · rintro rfl
    exact absurd points (by decide)
  · simpa using chars _ slash
  · simpa using chars _ zero

end ProxyConfig
