import Mathlib.Data.List.Pairwise
import ProxyConfig.Proofs.Caddyfile.Pruning

/-!
Repeated ids among the access lists, the credentials and the header rules.  `lastEntries` keeps the
last element of each id, so that no id repeats and each leads where it led.  Main statement: a
document compiles to the same text when only those entries are left, in any order, and when anything
else happens to these collections as long as the ids in use lead to the same entries.
-/

namespace ProxyConfig

section LastEntries

variable {α : Type} {idOf : α → String} {xs ys : List α}

/-- The list without the elements behind which another one has the same id. -/
def lastEntries (idOf : α → String) (xs : List α) : List α :=
  xs.pwFilter fun a b => idOf a ≠ idOf b

theorem nodup_map_lastEntries (idOf : α → String) (xs : List α) :
    ((lastEntries idOf xs).map idOf).Nodup :=
  List.pairwise_map.2 (List.pairwise_pwFilter xs)

theorem lastWith_lastEntries (idOf : α → String) (id : String) (xs : List α) :
    lastWith idOf id (lastEntries idOf xs) = lastWith idOf id xs := by
  induction xs with
  | nil => rfl
  | cons a xs ih =>
    rw [lastWith_cons]
    by_cases last : ∀ b ∈ lastEntries idOf xs, idOf a ≠ idOf b
    · rw [lastEntries, List.pwFilter_cons_of_pos last, lastWith_cons]
      exact congrArg (Option.or · _) ih
    · rw [lastEntries, List.pwFilter_cons_of_neg last]
      refine ih.trans ?_
      -- the element left out has an id that is found further behind
      by_cases same : idOf a = id
      · have later : (lastWith idOf id (lastEntries idOf xs)).isSome = true := by
          rw [isSome_lastWith_iff, ← same]
          simpa [eq_comm] using last
        rw [ih] at later
        obtain ⟨b, found⟩ := Option.isSome_iff_exists.1 later
        rw [found, Option.some_or]
      · rw [if_neg same, Option.or_none]

theorem lastWith_eq_some_iff_of_nodup (distinct : (xs.map idOf).Nodup) {id : String} {a : α} :
    lastWith idOf id xs = some a ↔ a ∈ xs ∧ idOf a = id := by
  refine ⟨fun found => (lastWith_id found).symm, fun ⟨there, has⟩ => ?_⟩
  have some : (lastWith idOf id xs).isSome = true :=
    isSome_lastWith_iff.2 (List.mem_map.2 ⟨a, there, has⟩)
  obtain ⟨b, found⟩ := Option.isSome_iff_exists.1 some
  obtain ⟨hasToo, thereToo⟩ := lastWith_id found
  rw [found, List.inj_on_of_nodup_map distinct thereToo there (hasToo.trans has.symm)]

theorem lastWith_perm (reordered : ys.Perm xs) (distinct : (xs.map idOf).Nodup) (id : String) :
    lastWith idOf id ys = lastWith idOf id xs := by
  have distinctToo : (ys.map idOf).Nodup := (reordered.map idOf).nodup_iff.2 distinct
  refine Option.ext fun a => ?_
  rw [lastWith_eq_some_iff_of_nodup distinct, lastWith_eq_some_iff_of_nodup distinctToo,
    reordered.mem_iff]

theorem lastWith_perm_lastEntries (reordered : ys.Perm (lastEntries idOf xs)) (id : String) :
    lastWith idOf id ys = lastWith idOf id xs := by
  rw [lastWith_perm reordered (nodup_map_lastEntries idOf xs), lastWith_lastEntries]

end LastEntries

structure Document.LeadsAlike (doc doc' : Document) : Prop where
  accessLists : ∀ id, doc.UsesAccessList id →
    lastWith AccessList.id id doc'.accessLists = lastWith AccessList.id id doc.accessLists
  credentials : ∀ id, doc.UsesCredential id →
    lastWith Credential.id id doc'.credentials = lastWith Credential.id id doc.credentials
  headers : ∀ id, doc.UsesHeader id →
    lastWith HeaderRule.id id doc'.headers = lastWith HeaderRule.id id doc.headers

namespace Caddyfile

variable {certsDir : String} {doc doc' : Document}

theorem accessControl_congr (names : String) {ids : List String}
    (same : ∀ id ∈ ids,
      lastWith AccessList.id id doc'.accessLists = lastWith AccessList.id id doc.accessLists) :
    accessControl doc' names ids = accessControl doc names ids := by
  have found : ids.filterMap doc'.accessList? = ids.filterMap doc.accessList? :=
    List.filterMap_congr fun id there => by
      rw [Document.accessList?_eq, same id there, Document.accessList?_eq]
  rw [accessControl, found, accessControl]

theorem basicAuth_congr {ids : List String}
    (same : ∀ id ∈ ids,
      lastWith Credential.id id doc'.credentials = lastWith Credential.id id doc.credentials) :
    basicAuth doc' ids = basicAuth doc ids := by
  have found : ids.filterMap doc'.credential? = ids.filterMap doc.credential? :=
    List.filterMap_congr fun id there => by
      rw [Document.credential?_eq, same id there, Document.credential?_eq]
  rw [basicAuth, found, basicAuth]

section Alike

variable (alike : doc.LeadsAlike doc')
include alike

theorem handlerBlock_congr {h : Handler} (listed : h ∈ doc.handlers)
    (rendered : h.IsRendered doc) : handlerBlock certsDir doc' h = handlerBlock certsDir doc h := by
  have rules : accessControl doc' handlerMatchers h.accessLists =
      accessControl doc handlerMatchers h.accessLists :=
    accessControl_congr _ fun id used => alike.accessLists id (.inr ⟨h, listed, rendered, used⟩)
  have auth : basicAuth doc' h.credentials = basicAuth doc h.credentials :=
    basicAuth_congr fun id used => alike.credentials id (.inr ⟨h, listed, rendered, used⟩)
  have changes : h.headers.filterMap doc'.header? = h.headers.filterMap doc.header? :=
    List.filterMap_congr fun id used => by
      rw [Document.header?_eq, alike.headers id (.inr ⟨h, listed, rendered, used⟩), Document.header?_eq]
  rw [handlerBlock, rules, auth, changes, handlerBlock]

theorem siteBlock_congr (handlers : doc'.handlers = doc.handlers)
    (on : doc.general.enabled = true) {d : Domain} (enabled : d ∈ doc.enabledDomains) :
    siteBlock certsDir doc' (siteOf certsDir doc d) =
      siteBlock certsDir doc (siteOf certsDir doc d) := by
  have rules : accessControl doc' siteMatchers d.accessLists =
      accessControl doc siteMatchers d.accessLists :=
    accessControl_congr _ fun id used => alike.accessLists id (.inl ⟨d, enabled, used⟩)
  have auth : basicAuth doc' d.credentials = basicAuth doc d.credentials :=
    basicAuth_congr fun id used => alike.credentials id (.inl ⟨d, enabled, used⟩)
  have served : (doc'.handlers.filter (attaches · (siteOf certsDir doc d))).map
        (handlerBlock certsDir doc') =
      (doc.handlers.filter (attaches · (siteOf certsDir doc d))).map
        (handlerBlock certsDir doc) := by
    rw [handlers]
    refine List.map_congr_left fun h kept => ?_
    obtain ⟨listed, attached⟩ := List.mem_filter.1 kept
    exact handlerBlock_congr alike listed ⟨on, d, enabled, attaches_siteOf_iff.1 attached⟩
  have domain : (siteOf certsDir doc d).domain = d := rfl
  rw [siteBlock, domain, rules, auth, served]
  rfl

end Alike

theorem compile_congr {accessLists : List AccessList} {credentials : List Credential}
    {headers : List HeaderRule}
    (alike : doc.LeadsAlike { doc with accessLists, credentials, headers }) :
    compile certsDir { doc with accessLists, credentials, headers } = compile certsDir doc := by
  refine compile_eq_of_siteBlock_eq rfl rfl fun site there => ?_
  obtain ⟨on, d, enabled, rfl⟩ := mem_renderedSites_iff.1 there
  exact siteBlock_congr alike rfl on enabled

/-- A document compiles to the same text with only the last access list, credential and header rule of
each id, in any order; and it compiles to the same text with any other such collections in which each
id that an enabled domain or a rendered handler refers to has the same last entry. -/
theorem compile_eq_of_lastEntries (certsDir : String) (doc : Document)
    (accessLists : List AccessList) (credentials : List Credential) (headers : List HeaderRule) :
    (accessLists.Perm (lastEntries AccessList.id doc.accessLists) →
        credentials.Perm (lastEntries Credential.id doc.credentials) →
        headers.Perm (lastEntries HeaderRule.id doc.headers) →
        compile certsDir { doc with accessLists, credentials, headers } = compile certsDir doc) ∧
      ((∀ id, doc.UsesAccessList id →
          lastWith AccessList.id id accessLists = lastWith AccessList.id id doc.accessLists) →
        (∀ id, doc.UsesCredential id →
          lastWith Credential.id id credentials = lastWith Credential.id id doc.credentials) →
        (∀ id, doc.UsesHeader id →
          lastWith HeaderRule.id id headers = lastWith HeaderRule.id id doc.headers) →
        compile certsDir { doc with accessLists, credentials, headers } = compile certsDir doc) := by
  constructor
  · intro lists auth changes
    exact compile_congr
      { accessLists := fun id _ => lastWith_perm_lastEntries lists id
        credentials := fun id _ => lastWith_perm_lastEntries auth id
        headers := fun id _ => lastWith_perm_lastEntries changes id }
  · intro lists auth changes
    exact compile_congr ⟨lists, auth, changes⟩

def repeating : Document where
  general := { enabled := true }
  domains := [
    { Domain.serving "a" "a.example" with accessLists := ["office"], credentials := ["root"] }]
  handlers := [{ Handler.proxying "h" "a" ["one"] (.ofNat 80) with headers := ["trace"] }]
  accessLists := [
    { id := "office", clientIps := ["10.0.0.1"] },
    { id := "home", clientIps := ["10.0.0.2"] },
    { id := "office", clientIps := ["10.0.0.3"], invert := true }]
  credentials := [
    { id := "root", username := "root", password := "old" },
    { id := "root", username := "root", password := "new" },
    { id := "guest", username := "guest", password := "guest" }]
  headers := [
    { id := "trace", fieldName := "X-Trace", value := "on" },
    { id := "trace", fieldName := "X-Trace" }]

theorem compile_eq_of_lastEntries_repeating :
    ((lastEntries AccessList.id repeating.accessLists).map (·.clientIps) =
        [["10.0.0.2"], ["10.0.0.3"]] ∧
      compile "./certs" { repeating with
        accessLists := (lastEntries AccessList.id repeating.accessLists).reverse
        credentials := (lastEntries Credential.id repeating.credentials).reverse
        headers := (lastEntries HeaderRule.id repeating.headers).reverse } =
      compile "./certs" repeating) ∧
    (¬ repeating.UsesAccessList "home" ∧ ¬ repeating.UsesCredential "guest" ∧
      compile "./certs" { repeating with
        accessLists := repeating.accessLists.filter (·.id ≠ "home")
        credentials := repeating.credentials.filter (·.id ≠ "guest")
        headers := repeating.headers } =
      compile "./certs" repeating) := by
  have office {id : String} (used : repeating.UsesAccessList id) : id = "office" := by
    simpa [Document.Uses, repeating, Document.enabledDomains, Domain.serving,
      Handler.proxying] using used
  have root {id : String} (used : repeating.UsesCredential id) : id = "root" := by
    simpa [Document.Uses, repeating, Document.enabledDomains, Domain.serving,
      Handler.proxying] using used
  refine ⟨⟨by decide, (compile_eq_of_lastEntries "./certs" repeating _ _ _).1 (List.reverse_perm _)
    (List.reverse_perm _) (List.reverse_perm _)⟩, fun used => absurd (office used) (by decide),
    fun used => absurd (root used) (by decide),
    (compile_eq_of_lastEntries "./certs" repeating _ _ _).2 (fun id used => ?_)
      (fun id used => ?_) fun _ _ => rfl⟩
  · rw [office used]
    rfl
  · rw [root used]
    rfl

end Caddyfile

end ProxyConfig
