import ProxyConfig.Lint.Checks

/-!
Which findings the checks make.  Each check makes findings of one form, so that a finding says where it
comes from.  Main statement: a repeated id is found in a collection exactly if it stands there at least
twice.
-/

namespace ProxyConfig

namespace Lint

variable {f : Finding}

theorem mem_repeated_iff {x : String} {xs : List String} :
    x ∈ repeated xs ↔ 2 ≤ xs.count x := by
  rw [← List.one_le_count_iff, count_repeated]
  split <;> omega

theorem mem_duplicates_iff {collection : Collection} {ids : List String} :
    f ∈ duplicates collection ids ↔ ∃ id, 2 ≤ ids.count id ∧ f = .duplicateId collection id := by
  simp only [duplicates, List.mem_map, mem_repeated_iff, @eq_comm _ f]

theorem mem_references_iff {owner : Owner} {target : Target} {known ids : List String} :
    f ∈ references owner target known ids ↔
      ∃ id, (id ∈ ids ∧ id ∉ known) ∧ f = .danglingReference owner target id := by
  simp [references, @eq_comm _ f]

theorem mem_port_iff {spot : Spot} {t : NumberText} :
    f ∈ port spot t ↔ (t.isBlank = false ∧ t.port? = none) ∧ f = .invalidPort spot t.raw := by
  simp [port]

theorem mem_duration_iff {spot : Spot} {s : String} :
    f ∈ duration spot s ↔ Duration.valid s = false ∧ f = .invalidDuration spot s := by
  simp [duration]

theorem mem_host_iff {spot : Spot} {s : String} :
    f ∈ host spot s ↔ Host.valid s = false ∧ f = .invalidHost spot s := by
  simp [host]

theorem mem_addresses_iff {spot : Spot} {texts : List String} :
    f ∈ addresses spot texts ↔ ∃ s ∈ texts.filterMap Caddyfile.present?,
      Address.isAddressOrRange s.toList = false ∧ f = .invalidAddress spot s := by
  simp [Lint.addresses, @eq_comm _ f]

end Lint

namespace Document

open Lint

def idsOf (doc : Document) : Collection → List String
  | .domains => doc.domainIds
  | .subdomains => doc.subdomainIds
  | .handlers => doc.handlerIds
  | .accessLists => doc.accessListIds
  | .credentials => doc.credentialIds
  | .headers => doc.headerIds
  | .rawRoutes => doc.rawRouteIds

variable {doc : Document} {collection : Collection} {id : String}

theorem duplicateId_mem_lintIds_iff :
    .duplicateId collection id ∈ doc.lintIds ↔ 2 ≤ (doc.idsOf collection).count id := by
  cases collection <;> simp [lintIds, mem_duplicates_iff, idsOf]

theorem duplicateId_notMem_lintHandler (h : Handler) :
    .duplicateId collection id ∉ doc.lintHandler h := by
  have binding : .duplicateId collection id ∉ doc.lintBinding h := by
    unfold lintBinding
    split
    · simp [mem_references_iff]
    · split <;> simp [mem_references_iff]
  have targets : .duplicateId collection id ∉ h.lintTargets := by
    unfold Handler.lintTargets
    cases h.action <;> simp
  have values : .duplicateId collection id ∉ h.lintValues := by
    simp [Handler.lintValues, mem_port_iff, mem_duration_iff]
  simp [lintHandler, binding, targets, values, mem_references_iff]

/-- The findings about repeated ids stand first, and no other finding is about one. -/
theorem exists_lint_eq (doc : Document) :
    ∃ others, doc.lint = doc.lintIds ++ others ∧
      ∀ collection id, .duplicateId collection id ∉ others := by
  refine ⟨doc.general.lint ++ (doc.domains.flatMap doc.lintDomain ++
    (doc.subdomains.flatMap doc.lintSubdomain ++ (doc.handlers.flatMap doc.lintHandler ++
      (doc.accessLists.flatMap AccessList.lint ++ doc.rawRoutes.flatMap RawRoute.lint)))), ?_, ?_⟩
  · simp only [lint, List.append_assoc]
  · simp [General.lint, lintDomain, lintSubdomain, AccessList.lint, RawRoute.lint,
      duplicateId_notMem_lintHandler, mem_port_iff, mem_duration_iff, mem_host_iff,
      mem_addresses_iff, mem_references_iff]

theorem duplicateId_mem_lint_iff :
    .duplicateId collection id ∈ doc.lint ↔ 2 ≤ (doc.idsOf collection).count id := by
  obtain ⟨others, split, apart⟩ := doc.exists_lint_eq
  rw [split, List.mem_append, or_iff_left (apart collection id), duplicateId_mem_lintIds_iff]

end Document

end ProxyConfig
