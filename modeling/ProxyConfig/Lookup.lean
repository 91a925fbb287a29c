import ProxyConfig.Document.Basic
import ProxyConfig.TextMap

/-!
The entities that sites and handlers refer to, by id.  They are filed one after the other in one pass
over the document, each in place of an earlier one with its id.  Main statement: what an id leads to is
the last entity with it (`find?_byId`).
-/

namespace ProxyConfig

/-- The last element with the given id. -/
def lastWith (idOf : α → String) (id : String) (xs : List α) : Option α :=
  xs.reverse.find? fun a => idOf a = id

def TextMap.byId (idOf : α → String) (xs : List α) : TextMap α :=
  xs.foldl (fun entries a => entries.insert (idOf a) a) []

structure EntityIndex where
  accessLists : TextMap AccessList
  credentials : TextMap Credential
  headers : TextMap HeaderRule

namespace Document

def entityIndex (doc : Document) : EntityIndex where
  accessLists := .byId AccessList.id doc.accessLists
  credentials := .byId Credential.id doc.credentials
  headers := .byId HeaderRule.id doc.headers

def accessList? (doc : Document) (id : String) : Option AccessList :=
  doc.entityIndex.accessLists.find? id

def credential? (doc : Document) (id : String) : Option Credential :=
  doc.entityIndex.credentials.find? id

def header? (doc : Document) (id : String) : Option HeaderRule :=
  doc.entityIndex.headers.find? id

end Document

theorem lastWith_append (idOf : α → String) (id : String) (xs ys : List α) :
    lastWith idOf id (xs ++ ys) = (lastWith idOf id ys).or (lastWith idOf id xs) := by
  simp [lastWith, List.find?_append]

theorem lastWith_cons (idOf : α → String) (id : String) (a : α) (xs : List α) :
    lastWith idOf id (a :: xs) =
      (lastWith idOf id xs).or (if idOf a = id then some a else none) := by
  rw [← List.singleton_append, lastWith_append]
  by_cases h : idOf a = id <;> simp [lastWith, h]

theorem lastWith_map {idOf : α → String} {f : α → α} (same : ∀ a, idOf (f a) = idOf a)
    (id : String) (xs : List α) :
    lastWith idOf id (xs.map f) = (lastWith idOf id xs).map f := by
  have asked : (fun a => decide (idOf a = id)) ∘ f = fun a => decide (idOf a = id) :=
    funext fun a => congrArg (fun other => decide (other = id)) (same a)
  rw [lastWith, ← List.map_reverse, List.find?_map, asked, lastWith]

theorem isSome_lastWith_iff {idOf : α → String} {id : String} {xs : List α} :
    (lastWith idOf id xs).isSome = true ↔ id ∈ xs.map idOf := by
  simp [lastWith]

theorem lastWith_id {idOf : α → String} {id : String} {xs : List α} {a : α}
    (h : lastWith idOf id xs = some a) : idOf a = id ∧ a ∈ xs := by
  obtain ⟨hp, -⟩ := List.find?_eq_some_iff_append.1 h
  exact ⟨by simpa using hp, by simpa using List.mem_of_find?_eq_some h⟩

/-- What counts is the element behind which no other one has the id. -/
theorem lastWith_eq_some_iff {idOf : α → String} {id : String} {xs : List α} {a : α} :
    lastWith idOf id xs = some a ↔
      ∃ before after, xs = before ++ a :: after ∧ idOf a = id ∧ ∀ b ∈ after, idOf b ≠ id := by
  unfold lastWith
  rw [List.find?_eq_some_iff_append]
  constructor
  · rintro ⟨ha, after, before, hxs, hafter⟩
    refine ⟨before.reverse, after.reverse, ?_, by simpa using ha, ?_⟩
    · rw [← List.reverse_reverse xs, hxs]
      simp
    · exact fun b hb => by simpa using hafter b (List.mem_reverse.1 hb)
  · rintro ⟨before, after, rfl, ha, hafter⟩
    refine ⟨by simpa using ha, after.reverse, before.reverse, by simp, ?_⟩
    exact fun b hb => by simpa using hafter b (List.mem_reverse.1 hb)

theorem TextMap.find?_foldl_insert (idOf : α → String) (id : String) (xs : List α)
    (entries : TextMap α) :
    (xs.foldl (fun entries a => entries.insert (idOf a) a) entries).find? id =
      (lastWith idOf id xs).or (entries.find? id) := by
  induction xs generalizing entries with
  | nil => rfl
  | cons a xs ih =>
    rw [List.foldl_cons, ih, find?_insert, lastWith_cons, Option.or_assoc]
    by_cases here : idOf a = id <;> simp [here]

theorem TextMap.find?_byId (idOf : α → String) (id : String) (xs : List α) :
    (byId idOf xs).find? id = lastWith idOf id xs :=
  (find?_foldl_insert idOf id xs []).trans Option.or_none

theorem TextMap.isSome_find?_byId_iff {idOf : α → String} {id : String} {xs : List α} :
    ((byId idOf xs).find? id).isSome = true ↔ id ∈ xs.map idOf := by
  rw [find?_byId]
  exact isSome_lastWith_iff

theorem TextMap.mem_of_find?_byId {idOf : α → String} {id : String} {xs : List α} {a : α}
    (found : (byId idOf xs).find? id = some a) : idOf a = id ∧ a ∈ xs := by
  rw [find?_byId] at found
  exact lastWith_id found

namespace Document

theorem accessList?_eq (doc : Document) (id : String) :
    doc.accessList? id = lastWith AccessList.id id doc.accessLists :=
  TextMap.find?_byId AccessList.id id doc.accessLists

theorem credential?_eq (doc : Document) (id : String) :
    doc.credential? id = lastWith Credential.id id doc.credentials :=
  TextMap.find?_byId Credential.id id doc.credentials

theorem header?_eq (doc : Document) (id : String) :
    doc.header? id = lastWith HeaderRule.id id doc.headers :=
  TextMap.find?_byId HeaderRule.id id doc.headers

end Document

end ProxyConfig
