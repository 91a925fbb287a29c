import Mathlib.Data.List.Count
import Mathlib.Data.List.Perm.Basic
import ProxyConfig.Proofs.Lint.FoundByCheck

/-!
What the findings about a document do not depend on.  An entity is checked by itself, and of all others
only the ids are looked at (`SameIds`), so that neither places nor switches count.  Main statement: a
document with its collections in another order has the same findings in another order, one for each
repeated id, and a document with other switches has the same findings.
-/

namespace ProxyConfig

def Collection.all : List Collection :=
  [domains, subdomains, handlers, accessLists, credentials, headers, rawRoutes]

namespace Lint

variable {xs ys : List String}

theorem repeated_perm (same : xs.Perm ys) : (repeated xs).Perm (repeated ys) :=
  List.perm_iff_count.2 fun x => by rw [count_repeated, count_repeated, same.count_eq]

theorem duplicates_perm (collection : Collection) (same : xs.Perm ys) :
    (duplicates collection xs).Perm (duplicates collection ys) :=
  (repeated_perm same).map _

theorem count_duplicates (collection other : Collection) (xs : List String) (id : String) :
    (duplicates other xs).count (.duplicateId collection id) =
      if other = collection then if 2 ≤ xs.count id then 1 else 0 else 0 := by
  by_cases same : other = collection
  · subst same
    have injective : Function.Injective (Finding.duplicateId other) :=
      fun _ _ equal => (Finding.duplicateId.inj equal).2
    rw [duplicates, List.count_map_of_injective _ _ injective, count_repeated, if_pos rfl]
  · have absent : .duplicateId collection id ∉ duplicates other xs := by
      simp [mem_duplicates_iff, Ne.symm same]
    rw [List.count_eq_zero_of_not_mem absent, if_neg same]

theorem references_congr {known others : List String} (same : ∀ id, id ∈ others ↔ id ∈ known)
    (owner : Owner) (target : Target) (ids : List String) :
    references owner target others ids = references owner target known ids := by
  have found (id : String) : others.contains id = known.contains id := by
    rw [Bool.eq_iff_iff, List.contains_iff_mem, List.contains_iff_mem, same]
  simp only [references, found]

end Lint

namespace Document

open Lint

variable {doc doc' : Document}

def SameIds (doc doc' : Document) : Prop :=
  ∀ collection id, id ∈ doc'.idsOf collection ↔ id ∈ doc.idsOf collection

section SameIds

variable (same : SameIds doc doc')
include same

theorem SameIds.lintDomain (d : Domain) : doc'.lintDomain d = doc.lintDomain d := by
  dsimp only [Document.lintDomain]
  rw [@references_congr doc.accessListIds doc'.accessListIds (same .accessLists),
    @references_congr doc.credentialIds doc'.credentialIds (same .credentials)]

theorem SameIds.lintSubdomain (s : Subdomain) : doc'.lintSubdomain s = doc.lintSubdomain s := by
  dsimp only [Document.lintSubdomain]
  rw [@references_congr doc.domainIds doc'.domainIds (same .domains),
    @references_congr doc.accessListIds doc'.accessListIds (same .accessLists),
    @references_congr doc.credentialIds doc'.credentialIds (same .credentials)]

theorem SameIds.lintBinding (h : Handler) : doc'.lintBinding h = doc.lintBinding h := by
  unfold Document.lintBinding
  rw [@references_congr doc.subdomainIds doc'.subdomainIds (same .subdomains),
    @references_congr doc.domainIds doc'.domainIds (same .domains)]

theorem SameIds.lintHandler (h : Handler) : doc'.lintHandler h = doc.lintHandler h := by
  dsimp only [Document.lintHandler]
  rw [same.lintBinding,
    @references_congr doc.accessListIds doc'.accessListIds (same .accessLists),
    @references_congr doc.credentialIds doc'.credentialIds (same .credentials),
    @references_congr doc.headerIds doc'.headerIds (same .headers)]

end SameIds

theorem lintIds_eq (doc : Document) :
    doc.lintIds = Collection.all.flatMap fun collection =>
      duplicates collection (doc.idsOf collection) := by
  simp [Document.lintIds, Collection.all, idsOf]

/-- The second document has the entities of the first one, each collection in any order. -/
structure Rearranged (doc doc' : Document) : Prop where
  general : doc'.general = doc.general
  domains : doc'.domains.Perm doc.domains
  subdomains : doc'.subdomains.Perm doc.subdomains
  handlers : doc'.handlers.Perm doc.handlers
  accessLists : doc'.accessLists.Perm doc.accessLists
  credentials : doc'.credentials.Perm doc.credentials
  headers : doc'.headers.Perm doc.headers
  rawRoutes : doc'.rawRoutes.Perm doc.rawRoutes

theorem Rearranged.idsOf (moved : Rearranged doc doc') (collection : Collection) :
    (doc'.idsOf collection).Perm (doc.idsOf collection) := by
  cases collection with
  | domains => exact moved.domains.map _
  | subdomains => exact moved.subdomains.map _
  | handlers => exact moved.handlers.map _
  | accessLists => exact moved.accessLists.map _
  | credentials => exact moved.credentials.map _
  | headers => exact moved.headers.map _
  | rawRoutes => exact moved.rawRoutes.map _

theorem Rearranged.sameIds (moved : Rearranged doc doc') : SameIds doc doc' :=
  fun collection _ => (moved.idsOf collection).mem_iff

theorem Rearranged.lintIds (moved : Rearranged doc doc') : doc'.lintIds.Perm doc.lintIds := by
  rw [lintIds_eq, lintIds_eq]
  exact List.Perm.flatMap_left _ fun collection _ =>
    duplicates_perm collection (moved.idsOf collection)

theorem Rearranged.lint (moved : Rearranged doc doc') : doc'.lint.Perm doc.lint := by
  have same := moved.sameIds
  have domains : (doc'.domains.flatMap doc'.lintDomain).Perm
      (doc.domains.flatMap doc.lintDomain) := by
    rw [funext same.lintDomain]
    exact moved.domains.flatMap_right _
  have subdomains : (doc'.subdomains.flatMap doc'.lintSubdomain).Perm
      (doc.subdomains.flatMap doc.lintSubdomain) := by
    rw [funext same.lintSubdomain]
    exact moved.subdomains.flatMap_right _
  have handlers : (doc'.handlers.flatMap doc'.lintHandler).Perm
      (doc.handlers.flatMap doc.lintHandler) := by
    rw [funext same.lintHandler]
    exact moved.handlers.flatMap_right _
  rw [Document.lint, moved.general]
  exact (((((moved.lintIds.append_right _).append domains).append subdomains).append
    handlers).append (moved.accessLists.flatMap_right _)).append (moved.rawRoutes.flatMap_right _)

theorem count_duplicateId (doc : Document) (collection : Collection) (id : String) :
    doc.lint.count (.duplicateId collection id) =
      if 2 ≤ (doc.idsOf collection).count id then 1 else 0 := by
  obtain ⟨others, split, apart⟩ := doc.exists_lint_eq
  have ids : doc.lintIds.count (.duplicateId collection id) =
      if 2 ≤ (doc.idsOf collection).count id then 1 else 0 := by
    rw [lintIds_eq]
    simp only [Collection.all, List.flatMap_cons, List.flatMap_nil, List.count_append,
      count_duplicates]
    cases collection <;> simp
  rw [split, List.count_append, ids, List.count_eq_zero_of_not_mem (apart collection id), Nat.add_zero]

def switchedOff (doc : Document) : Document :=
  { doc with
    general := { doc.general with enabled := false, rawEnabled := false }
    domains := doc.domains.map fun d => { d with enabled := false }
    subdomains := doc.subdomains.map fun s => { s with enabled := false }
    handlers := doc.handlers.map fun h => { h with enabled := false }
    rawRoutes := doc.rawRoutes.map fun r => { r with enabled := false } }

theorem idsOf_switchedOff (doc : Document) (collection : Collection) :
    doc.switchedOff.idsOf collection = doc.idsOf collection := by
  cases collection <;> simp [idsOf, switchedOff, domainIds, subdomainIds, handlerIds, accessListIds,
    credentialIds, headerIds, rawRouteIds, Function.comp_def]

theorem lint_switchedOff (doc : Document) : doc.switchedOff.lint = doc.lint := by
  have same : SameIds doc doc.switchedOff := fun collection id => by rw [idsOf_switchedOff]
  have ids : doc.switchedOff.lintIds = doc.lintIds := by
    simp only [lintIds_eq, idsOf_switchedOff]
  have domains : doc.switchedOff.domains.flatMap doc.switchedOff.lintDomain =
      doc.domains.flatMap doc.lintDomain := by
    rw [funext same.lintDomain]
    exact List.flatMap_map _ _ _
  have subdomains : doc.switchedOff.subdomains.flatMap doc.switchedOff.lintSubdomain =
      doc.subdomains.flatMap doc.lintSubdomain := by
    rw [funext same.lintSubdomain]
    exact List.flatMap_map _ _ _
  have handlers : doc.switchedOff.handlers.flatMap doc.switchedOff.lintHandler =
      doc.handlers.flatMap doc.lintHandler := by
    rw [funext same.lintHandler]
    exact List.flatMap_map _ _ _
  have rawRoutes : doc.switchedOff.rawRoutes.flatMap RawRoute.lint =
      doc.rawRoutes.flatMap RawRoute.lint := List.flatMap_map _ _ _
  rw [Document.lint, ids, domains, subdomains, handlers, rawRoutes]
  rfl

/-- A document with its collections in another order has the same findings in another order, among them
one for each repeated id; and documents that differ in their switches alone have the same findings. -/
theorem lint_order_and_switches (doc : Document) :
    (∀ doc', Rearranged doc doc' → doc'.lint.Perm doc.lint) ∧
      (∀ collection id, doc.lint.count (.duplicateId collection id) =
        if 2 ≤ (doc.idsOf collection).count id then 1 else 0) ∧
      ∀ doc' : Document, doc'.switchedOff = doc.switchedOff → doc'.lint = doc.lint := by
  refine ⟨fun doc' => Rearranged.lint, doc.count_duplicateId, fun doc' same => ?_⟩
  rw [← lint_switchedOff, same, lint_switchedOff]

def twins : Document where
  general := { enabled := true }
  domains := [.serving "d" "one.example", .serving "d" "two.example"]
  handlers := [.proxying "h" "d" ["one"] (.ofNat 80)]

theorem lint_order_and_switches_twins :
    { twins with domains := twins.domains.reverse }.lint.Perm twins.lint ∧
      twins.lint.count (.duplicateId .domains "d") = 1 ∧
      { twins with general := {} }.lint = twins.lint := by
  obtain ⟨order, repeated, switches⟩ := lint_order_and_switches twins
  exact ⟨order _ ⟨rfl, List.reverse_perm _, .refl _, .refl _, .refl _, .refl _, .refl _, .refl _⟩,
    repeated .domains "d", switches _ rfl⟩

end Document

end ProxyConfig
