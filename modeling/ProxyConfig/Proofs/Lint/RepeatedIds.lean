import Mathlib.Data.List.Count
import Mathlib.Data.List.Nodup
import ProxyConfig.Proofs.Lint.Rearranged

/-!
The report on repeated ids.  `Repeats` says which report is right: it has the texts that stand in a list
more than once, each of them once, in the order in which they come back.  Main statement: the findings
about a document begin with such a report for each collection, and no other finding is about a repeated
id (`repeated_ids_reported`).
-/

namespace ProxyConfig

namespace Lint

/-- Where a text comes back in a list: its second place. -/
def returnPlace (xs : List String) (x : String) : Nat := xs.idxOfNth x 1

/-- What there is to report about the texts that stand in a list more than once. -/
structure Repeats (xs report : List String) : Prop where
  mem_iff : ∀ x, x ∈ report ↔ 2 ≤ xs.count x
  once : report.Nodup
  ordered : report.Pairwise fun x y => returnPlace xs x < returnPlace xs y

theorem returnPlace_append_cons {before : List String} {x : String} (once : before.count x = 1)
    (rest : List String) : returnPlace (before ++ x :: rest) x = before.length := by
  have passed : (before ++ x :: rest).countBefore x before.length = 1 := by
    rw [List.countBefore_eq_count_take, List.take_left, once]
  have there : before.length < (before ++ x :: rest).length := by simp
  have here : (before ++ x :: rest)[before.length] == x := by simp
  rw [returnPlace, ← passed]
  exact List.idxOfNth_countBefore_of_lt_length_of_beq here

section Walk

variable {met reported before : List String} (walked : Walked met reported before)
include walked

theorem Walked.length_le_returnPlace {x : String} {xs : List String}
    (later : x ∈ repeatedAfter met reported xs) :
    before.length ≤ returnPlace (before ++ xs) x := by
  induction xs generalizing met reported before with
  | nil => cases later
  | cons y xs ih =>
    obtain ⟨met', reported', walked', report⟩ := walked.step y xs
    rw [report, List.mem_append] at later
    cases later with
    | inl here =>
      split at here
      · next once =>
        rw [List.mem_singleton.1 here]
        exact Nat.le_of_eq (returnPlace_append_cons once xs).symm
      · cases here
    | inr later =>
      have behind := ih walked' later
      rw [List.append_assoc, List.length_append] at behind
      exact Nat.le_of_succ_le behind

theorem Walked.pairwise_returnPlace (xs : List String) :
    (repeatedAfter met reported xs).Pairwise fun x y =>
      returnPlace (before ++ xs) x < returnPlace (before ++ xs) y := by
  induction xs generalizing met reported before with
  | nil => exact List.Pairwise.nil
  | cons y xs ih =>
    obtain ⟨met', reported', walked', report⟩ := walked.step y xs
    have others := ih walked'
    have behind (z : String) (later : z ∈ repeatedAfter met' reported' xs) :=
      walked'.length_le_returnPlace later
    simp only [List.append_assoc, List.singleton_append, List.length_append,
      List.length_singleton] at others behind
    rw [report]
    split
    · next once =>
      apply List.Pairwise.cons
      · intro z later
        rw [returnPlace_append_cons once]
        exact behind z later
      · exact others
    · exact others

end Walk

theorem repeats_repeated (xs : List String) : Repeats xs (repeated xs) where
  mem_iff _ := mem_repeated_iff
  once := by
    apply List.nodup_iff_count_le_one.2
    intro x
    rw [count_repeated]
    split <;> omega
  ordered := walked_nil.pairwise_returnPlace xs

theorem Repeats.unique {xs report other : List String} (first : Repeats xs report)
    (second : Repeats xs other) : other = report := by
  have same : other.Perm report := by
    apply (List.perm_ext_iff_of_nodup second.once first.once).2
    intro x
    rw [second.mem_iff, first.mem_iff]
  apply same.eq_of_pairwise _ second.ordered first.ordered
  intro x y _ _ forwards backwards
  exact absurd backwards (Nat.lt_asymm forwards)

theorem repeats_iff {xs report : List String} : Repeats xs report ↔ report = repeated xs :=
  ⟨(repeats_repeated xs).unique, fun same => same ▸ repeats_repeated xs⟩

example : repeated ["a", "b", "c", "b", "a", "b", "b", "a"] = ["b", "a"] := by decide

end Lint

def Finding.repeatedIn? (collection : Collection) : Finding → Option String
  | .duplicateId other id => if other = collection then some id else none
  | _ => none

namespace Document

open Lint

def reportedIds (doc : Document) (collection : Collection) : List String :=
  doc.lint.filterMap (Finding.repeatedIn? collection)

theorem filterMap_duplicates (collection other : Collection) (ids : List String) :
    (duplicates other ids).filterMap (Finding.repeatedIn? collection) =
      if other = collection then repeated ids else [] := by
  rw [duplicates, List.filterMap_map]
  by_cases same : other = collection <;> simp [Finding.repeatedIn?, Function.comp_def, same]

theorem filterMap_lintIds (doc : Document) (collection : Collection) :
    doc.lintIds.filterMap (Finding.repeatedIn? collection) = repeated (doc.idsOf collection) := by
  rw [lintIds_eq, List.filterMap_flatMap]
  simp only [filterMap_duplicates]
  cases collection <;> simp [Collection.all]

theorem reportedIds_eq (doc : Document) (collection : Collection) :
    doc.reportedIds collection = repeated (doc.idsOf collection) := by
  obtain ⟨others, split, apart⟩ := doc.exists_lint_eq
  have none : others.filterMap (Finding.repeatedIn? collection) = [] := by
    apply List.filterMap_eq_nil_iff.2
    intro f found
    cases f with
    | duplicateId named id => exact absurd found (apart named id)
    | _ => rfl
  rw [reportedIds, split, List.filterMap_append, none, List.append_nil, filterMap_lintIds]

/-- The ids that are found to be repeated in a collection are those that stand there at least twice, each
of them once, in the order of their second places.  These findings come first, collection by collection,
and no other finding is about a repeated id. -/
theorem repeated_ids_reported (doc : Document) :
    (∀ collection report, doc.reportedIds collection = report ↔
      Repeats (doc.idsOf collection) report) ∧
    (Collection.all.map Collection.text =
        ["domains", "subdomains", "handlers", "accessLists", "basicAuths", "headers", "layer4"] ∧
      ∀ collection, collection ∈ Collection.all) ∧
    ∃ others,
      doc.lint = (Collection.all.flatMap fun collection =>
        (doc.reportedIds collection).map (.duplicateId collection)) ++ others ∧
      ∀ collection id, .duplicateId collection id ∉ others := by
  refine ⟨fun collection report => ?_, ⟨rfl, fun collection => ?_⟩, ?_⟩
  · rw [repeats_iff, reportedIds_eq]
    exact eq_comm
  · cases collection <;> decide
  · obtain ⟨others, split, apart⟩ := doc.exists_lint_eq
    refine ⟨others, ?_, apart⟩
    simp only [reportedIds_eq]
    rw [split, lintIds_eq]
    rfl

end Document

end ProxyConfig
