import ProxyConfig.Lookup
import ProxyConfig.Proofs.Lint.FoundByCheck

/-!
The references of a document.  Whether one dangles is decided by the ids of a collection, and what is
rendered for it by a search for the last entity with the id; the two agree (`contains_idsOf`).  Main
statement: the findings about references are those of the ids that lead nowhere, list by list
(`Document.isDangling_lint`).
-/

namespace ProxyConfig

/-- Ids by which something in a document refers to other things of one kind. -/
structure ReferenceList where
  owner : Owner
  target : Target
  ids : List String

def Target.collection : Target → Collection
  | domain => .domains
  | subdomain => .subdomains
  | accessList => .accessLists
  | credential => .credentials
  | header => .headers

def Document.resolves (doc : Document) : Target → String → Bool
  | .domain, id => doc.domains.any (·.id = id)
  | .subdomain, id => doc.subdomains.any (·.id = id)
  | .accessList, id => (doc.accessList? id).isSome
  | .credential, id => (doc.credential? id).isSome
  | .header, id => (doc.header? id).isSome

namespace ReferenceList

def dangling (doc : Document) (l : ReferenceList) : List String :=
  l.ids.filter fun id => !doc.resolves l.target id

def findings (doc : Document) (l : ReferenceList) : List Finding :=
  (l.dangling doc).map (.danglingReference l.owner l.target)

end ReferenceList

def Domain.referenceLists (d : Domain) : List ReferenceList :=
  [⟨.domain d.id, .accessList, d.accessLists⟩, ⟨.domain d.id, .credential, d.credentials⟩]

def Subdomain.referenceLists (s : Subdomain) : List ReferenceList :=
  [⟨.subdomain s.id, .domain, [s.domainId]⟩, ⟨.subdomain s.id, .accessList, s.accessLists⟩,
    ⟨.subdomain s.id, .credential, s.credentials⟩]

def Handler.binding (h : Handler) : List ReferenceList :=
  if h.subdomainId ≠ "" then [⟨.handler h.id, .subdomain, [h.subdomainId]⟩]
  else if h.domainId ≠ "" then [⟨.handler h.id, .domain, [h.domainId]⟩]
  else []

def Handler.referenceLists (h : Handler) : List ReferenceList :=
  h.binding ++ [⟨.handler h.id, .accessList, h.accessLists⟩,
    ⟨.handler h.id, .credential, h.credentials⟩, ⟨.handler h.id, .header, h.headers⟩]

def Document.referenceLists (doc : Document) : List ReferenceList :=
  doc.domains.flatMap Domain.referenceLists ++ doc.subdomains.flatMap Subdomain.referenceLists ++
    doc.handlers.flatMap Handler.referenceLists

def Finding.isDangling : Finding → Bool
  | danglingReference .. => true
  | _ => false

open Finding

theorem Finding.isDangling_eq_nil {fs : List Finding}
    (absent : ∀ owner target id, .danglingReference owner target id ∉ fs) :
    fs.filter isDangling = [] := by
  refine List.filter_eq_nil_iff.2 fun f hf => ?_
  cases f with
  | danglingReference owner target id => exact absurd hf (absent owner target id)
  | _ => exact Bool.false_ne_true

namespace Document

open Lint

variable (doc : Document)

theorem contains_idsOf (target : Target) (id : String) :
    (doc.idsOf target.collection).contains id = doc.resolves target id := by
  rw [Bool.eq_iff_iff, List.contains_iff_mem]
  cases target with
  | domain => simp [Target.collection, idsOf, domainIds, resolves]
  | subdomain => simp [Target.collection, idsOf, subdomainIds, resolves]
  | accessList => exact TextMap.isSome_find?_byId_iff.symm
  | credential => exact TextMap.isSome_find?_byId_iff.symm
  | header => exact TextMap.isSome_find?_byId_iff.symm

theorem findings_eq_references (l : ReferenceList) :
    l.findings doc = references l.owner l.target (doc.idsOf l.target.collection) l.ids := by
  simp only [references, contains_idsOf, ReferenceList.findings, ReferenceList.dangling]

theorem isDangling_findings (ls : List ReferenceList) :
    (ls.flatMap (ReferenceList.findings doc)).filter isDangling =
      ls.flatMap (ReferenceList.findings doc) := by
  refine List.filter_eq_self.2 fun f hf => ?_
  obtain ⟨l, -, hf⟩ := List.mem_flatMap.1 hf
  obtain ⟨id, -, rfl⟩ := List.mem_map.1 hf
  rfl

theorem lintDomain_eq (d : Domain) :
    doc.lintDomain d = host ⟨.domain d.id, "fromDomain"⟩ d.host ++
      port ⟨.domain d.id, "fromPort"⟩ d.port ++
      d.referenceLists.flatMap (ReferenceList.findings doc) := by
  simp only [lintDomain, Domain.referenceLists, List.flatMap_cons, List.flatMap_nil,
    List.append_nil, List.append_assoc, findings_eq_references]
  rfl

theorem isDangling_lintDomain (d : Domain) :
    (doc.lintDomain d).filter isDangling =
      d.referenceLists.flatMap (ReferenceList.findings doc) := by
  have values : (host ⟨.domain d.id, "fromDomain"⟩ d.host ++
      port ⟨.domain d.id, "fromPort"⟩ d.port).filter isDangling = [] :=
    isDangling_eq_nil fun _ _ _ => by simp [mem_host_iff, mem_port_iff]
  rw [lintDomain_eq, List.filter_append, values, isDangling_findings, List.nil_append]

theorem lintSubdomain_eq (s : Subdomain) : ∃ front back, s.referenceLists = front ++ back ∧
    doc.lintSubdomain s = front.flatMap (ReferenceList.findings doc) ++
      (if Text.blank s.fragment then
        [.invalidField ⟨.subdomain s.id, "fromDomain"⟩ .emptyFragment] else []) ++
      back.flatMap (ReferenceList.findings doc) := by
  refine ⟨[_], _, rfl, ?_⟩
  simp only [lintSubdomain, List.flatMap_cons, List.flatMap_nil, List.append_nil,
    List.append_assoc, findings_eq_references]
  rfl

theorem isDangling_lintSubdomain (s : Subdomain) :
    (doc.lintSubdomain s).filter isDangling =
      s.referenceLists.flatMap (ReferenceList.findings doc) := by
  have fragment : (if Text.blank s.fragment then
      [invalidField ⟨.subdomain s.id, "fromDomain"⟩ .emptyFragment] else []).filter
        isDangling = [] :=
    isDangling_eq_nil fun _ _ _ => by split <;> simp
  obtain ⟨front, back, lists, findings⟩ := doc.lintSubdomain_eq s
  rw [findings, lists, List.filter_append, List.filter_append, fragment, isDangling_findings,
    isDangling_findings, List.append_nil, List.flatMap_append]

theorem isDangling_lintBinding (h : Handler) :
    (doc.lintBinding h).filter isDangling =
      h.binding.flatMap (ReferenceList.findings doc) := by
  have bound (target : Target) (id : String) :
      (references (.handler h.id) target (doc.idsOf target.collection) [id]).filter isDangling =
        [⟨.handler h.id, target, [id]⟩].flatMap (ReferenceList.findings doc) := by
    rw [← isDangling_findings, List.flatMap_singleton, findings_eq_references]
  unfold lintBinding Handler.binding
  split
  · exact bound .subdomain h.subdomainId
  · split
    · exact bound .domain h.domainId
    · rfl

theorem isDangling_lintHandler (h : Handler) :
    (doc.lintHandler h).filter isDangling =
      h.referenceLists.flatMap (ReferenceList.findings doc) := by
  have values : h.lintValues.filter isDangling = [] :=
    isDangling_eq_nil fun _ _ _ => by simp [Handler.lintValues, mem_port_iff, mem_duration_iff]
  have targets : h.lintTargets.filter isDangling = [] :=
    isDangling_eq_nil fun _ _ _ => by
      unfold Handler.lintTargets
      cases h.action <;> simp
  have lists : doc.lintHandler h = doc.lintBinding h ++
      [⟨.handler h.id, .accessList, h.accessLists⟩, ⟨.handler h.id, .credential, h.credentials⟩,
        ⟨.handler h.id, .header, h.headers⟩].flatMap (ReferenceList.findings doc) ++
      (h.lintValues ++ h.lintTargets) := by
    simp only [lintHandler, List.flatMap_cons, List.flatMap_nil, List.append_nil,
      List.append_assoc, findings_eq_references]
    rfl
  rw [lists, List.filter_append, List.filter_append, List.filter_append, values, targets,
    isDangling_lintBinding, isDangling_findings, List.append_nil, List.append_nil,
    Handler.referenceLists, List.flatMap_append]

theorem isDangling_lint :
    doc.lint.filter isDangling = doc.referenceLists.flatMap (ReferenceList.findings doc) := by
  have ids : doc.lintIds.filter isDangling = [] :=
    isDangling_eq_nil fun _ _ _ => by simp [lintIds, mem_duplicates_iff]
  have general : doc.general.lint.filter isDangling = [] :=
    isDangling_eq_nil fun _ _ _ => by simp [General.lint, mem_port_iff, mem_duration_iff]
  have accessLists : (doc.accessLists.flatMap AccessList.lint).filter isDangling = [] :=
    isDangling_eq_nil fun _ _ _ => by simp [AccessList.lint, mem_addresses_iff]
  have rawRoutes : (doc.rawRoutes.flatMap RawRoute.lint).filter isDangling = [] :=
    isDangling_eq_nil fun _ _ _ => by simp [RawRoute.lint, mem_port_iff, mem_duration_iff]
  simp only [lint, List.filter_append, ids, general, accessLists, rawRoutes, List.nil_append,
    List.append_nil]
  simp only [List.filter_flatMap, isDangling_lintDomain, isDangling_lintSubdomain,
    isDangling_lintHandler, referenceLists, List.flatMap_append, List.flatMap_assoc]

end Document

end ProxyConfig
