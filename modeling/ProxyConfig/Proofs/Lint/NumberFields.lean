import ProxyConfig.Proofs.Lint.FoundByCheck

/-!
The numeric fields of a document, with what the text of each has to say to be used.  Lint looks at
the ports and at the number of retries; it passes over statuses and all other counts.  Main
statements: the findings about numbers are those of the fields that lint looks at, in order
(`Document.aboutNumber_lint`), and no finding depends on the others (`Document.lint_withUnchecked`).
-/

namespace ProxyConfig

/-- What a number is used for, which decides how its text is read. -/
inductive NumberUse where
  | port
  | count
  | status
  deriving DecidableEq

/-- The number that a text is for its use: a port from 1 on, a count of 32 bits, a status of 16. -/
def NumberUse.read? : NumberUse → NumberText → Option Nat
  | port, t => t.port?
  | count, t => t.bits? 32
  | status, t => t.bits? 16

structure NumberField where
  spot : Spot
  use : NumberUse
  text : NumberText

namespace NumberField

/-- Something was given, and it is taken for nothing. -/
def Dropped (f : NumberField) : Prop := f.text.isBlank = false ∧ f.use.read? f.text = none

instance (f : NumberField) : Decidable f.Dropped := inferInstanceAs (Decidable (_ ∧ _))

def finding (f : NumberField) : Finding :=
  match f.use with
  | .port => .invalidPort f.spot f.text.raw
  | .count | .status => .invalidField f.spot (.notACount f.text.raw)

def findings (f : NumberField) : List Finding := if f.Dropped then [f.finding] else []

def changed (change : NumberUse → NumberText → NumberText) (f : NumberField) : NumberField :=
  { f with text := change f.use f.text }

end NumberField

def General.checkedNumbers (g : General) : List NumberField :=
  [⟨⟨.general, "http_port"⟩, .port, g.httpPort⟩,
    ⟨⟨.general, "https_port"⟩, .port, g.httpsPort⟩]

def Domain.checkedNumbers (d : Domain) : List NumberField :=
  [⟨⟨.domain d.id, "fromPort"⟩, .port, d.port⟩]

def Handler.checkedNumbers (h : Handler) : List NumberField :=
  [⟨⟨.handler h.id, "toPort"⟩, .port, h.upstreamPort⟩,
    ⟨⟨.handler h.id, "health_port"⟩, .port, h.health.port⟩,
    ⟨⟨.handler h.id, "lb_retries"⟩, .count, h.balancing.retries⟩]

def RawRoute.checkedNumbers (r : RawRoute) : List NumberField :=
  [⟨⟨.rawRoute r.id, "fromPort"⟩, .port, r.fromPort⟩,
    ⟨⟨.rawRoute r.id, "toPort"⟩, .port, r.upstreamPort⟩]

def Document.checkedNumbers (doc : Document) : List NumberField :=
  doc.general.checkedNumbers ++ doc.domains.flatMap Domain.checkedNumbers ++
    doc.handlers.flatMap Handler.checkedNumbers ++ doc.rawRoutes.flatMap RawRoute.checkedNumbers

def Handler.uncheckedNumbers (h : Handler) : List NumberField :=
  [⟨⟨.handler h.id, "redir_status"⟩, .status, h.redirectStatus⟩,
    ⟨⟨.handler h.id, "passive_health_max_fails"⟩, .count, h.passiveHealth.maxFails⟩,
    ⟨⟨.handler h.id, "passive_health_unhealthy_request_count"⟩, .count,
      h.passiveHealth.unhealthyRequestCount⟩]

def AccessList.uncheckedNumbers (l : AccessList) : List NumberField :=
  [⟨⟨.accessList l.id, "http_response_code"⟩, .status, l.responseCode⟩]

def RawRoute.uncheckedNumbers (r : RawRoute) : List NumberField :=
  [⟨⟨.rawRoute r.id, "passive_health_max_fails"⟩, .count, r.maxFails⟩]

def Document.uncheckedNumbers (doc : Document) : List NumberField :=
  doc.handlers.flatMap Handler.uncheckedNumbers ++
    doc.accessLists.flatMap AccessList.uncheckedNumbers ++
    doc.rawRoutes.flatMap RawRoute.uncheckedNumbers

section Change

variable (change : NumberUse → NumberText → NumberText)

def PassiveHealth.withUnchecked (p : PassiveHealth) : PassiveHealth :=
  { p with
    maxFails := change .count p.maxFails
    unhealthyRequestCount := change .count p.unhealthyRequestCount }

def Handler.withUnchecked (h : Handler) : Handler :=
  { h with
    redirectStatus := change .status h.redirectStatus
    passiveHealth := h.passiveHealth.withUnchecked change }

def AccessList.withUnchecked (l : AccessList) : AccessList :=
  { l with responseCode := change .status l.responseCode }

def RawRoute.withUnchecked (r : RawRoute) : RawRoute :=
  { r with maxFails := change .count r.maxFails }

/-- The document with other texts in the fields that lint passes over. -/
def Document.withUnchecked (doc : Document) : Document :=
  { doc with
    handlers := doc.handlers.map (Handler.withUnchecked change)
    accessLists := doc.accessLists.map (AccessList.withUnchecked change)
    rawRoutes := doc.rawRoutes.map (RawRoute.withUnchecked change) }

theorem Document.uncheckedNumbers_withUnchecked (doc : Document) :
    (doc.withUnchecked change).uncheckedNumbers =
      doc.uncheckedNumbers.map (NumberField.changed change) := by
  simp only [uncheckedNumbers, withUnchecked, List.flatMap_map, List.map_append, List.map_flatMap]
  rfl

end Change

def Finding.isAboutNumber : Finding → Bool
  | invalidPort .. | invalidField _ (.notACount _) => true
  | _ => false

namespace Lint

open Finding

theorem aboutNumber_duplicates (collection : Collection) (ids : List String) :
    (duplicates collection ids).filter isAboutNumber = [] := by
  refine List.filter_eq_nil_iff.2 fun f hf => ?_
  obtain ⟨id, -, rfl⟩ := mem_duplicates_iff.1 hf
  exact Bool.false_ne_true

theorem aboutNumber_references (owner : Owner) (target : Target) (known ids : List String) :
    (references owner target known ids).filter isAboutNumber = [] := by
  refine List.filter_eq_nil_iff.2 fun f hf => ?_
  obtain ⟨id, -, rfl⟩ := mem_references_iff.1 hf
  exact Bool.false_ne_true

theorem aboutNumber_duration (spot : Spot) (s : String) :
    (duration spot s).filter isAboutNumber = [] := by
  refine List.filter_eq_nil_iff.2 fun f hf => ?_
  obtain ⟨-, rfl⟩ := mem_duration_iff.1 hf
  exact Bool.false_ne_true

theorem aboutNumber_host (spot : Spot) (s : String) : (host spot s).filter isAboutNumber = [] := by
  refine List.filter_eq_nil_iff.2 fun f hf => ?_
  obtain ⟨-, rfl⟩ := mem_host_iff.1 hf
  exact Bool.false_ne_true

theorem aboutNumber_addresses (spot : Spot) (texts : List String) :
    (addresses spot texts).filter isAboutNumber = [] := by
  refine List.filter_eq_nil_iff.2 fun f hf => ?_
  obtain ⟨s, -, -, rfl⟩ := mem_addresses_iff.1 hf
  exact Bool.false_ne_true

theorem aboutNumber_port (spot : Spot) (t : NumberText) :
    (port spot t).filter isAboutNumber = NumberField.findings ⟨spot, .port, t⟩ := by
  have dropped : NumberField.Dropped ⟨spot, .port, t⟩ ↔ (!t.isBlank && t.port?.isNone) = true := by
    simp [NumberField.Dropped, NumberUse.read?]
  unfold port NumberField.findings
  simp only [dropped]
  split <;> rfl

theorem aboutNumber_count (spot : Spot) (t : NumberText) :
    (if t.isMalformed 32 then [invalidField spot (.notACount t.raw)] else []).filter
        isAboutNumber = NumberField.findings ⟨spot, .count, t⟩ := by
  have dropped : NumberField.Dropped ⟨spot, .count, t⟩ ↔ t.isMalformed 32 = true := by
    simp [NumberField.Dropped, NumberUse.read?, NumberText.isMalformed]
  unfold NumberField.findings
  simp only [dropped]
  split <;> rfl

end Lint

open Lint Finding

theorem General.aboutNumber_lint (g : General) :
    g.lint.filter isAboutNumber = g.checkedNumbers.flatMap NumberField.findings := by
  simp [General.lint, checkedNumbers, aboutNumber_port, aboutNumber_duration]

theorem Domain.aboutNumber_lint (doc : Document) (d : Domain) :
    (doc.lintDomain d).filter isAboutNumber = d.checkedNumbers.flatMap NumberField.findings := by
  simp [Document.lintDomain, checkedNumbers, aboutNumber_port, aboutNumber_host,
    aboutNumber_references]

theorem Subdomain.aboutNumber_lint (doc : Document) (s : Subdomain) :
    (doc.lintSubdomain s).filter isAboutNumber = [] := by
  have fragment (spot : Spot) :
      (if Text.blank s.fragment then [invalidField spot .emptyFragment] else []).filter
        isAboutNumber = [] := by
    split <;> rfl
  simp [Document.lintSubdomain, fragment, aboutNumber_references]

theorem Handler.aboutNumber_lintBinding (doc : Document) (h : Handler) :
    (doc.lintBinding h).filter isAboutNumber = [] := by
  unfold Document.lintBinding
  split
  · exact aboutNumber_references _ _ _ _
  · split
    · exact aboutNumber_references _ _ _ _
    · rfl

theorem Handler.aboutNumber_lintTargets (h : Handler) :
    h.lintTargets.filter isAboutNumber = [] := by
  unfold Handler.lintTargets
  dsimp only
  split
  · split <;> rfl
  · split <;> rfl
  · rfl

theorem Handler.aboutNumber_lintValues (h : Handler) :
    h.lintValues.filter isAboutNumber = h.checkedNumbers.flatMap NumberField.findings := by
  simp [Handler.lintValues, checkedNumbers, aboutNumber_port, aboutNumber_count,
    aboutNumber_duration]

theorem Handler.aboutNumber_lint (doc : Document) (h : Handler) :
    (doc.lintHandler h).filter isAboutNumber = h.checkedNumbers.flatMap NumberField.findings := by
  simp [Document.lintHandler, aboutNumber_references, aboutNumber_lintBinding,
    aboutNumber_lintTargets, aboutNumber_lintValues]

theorem RawRoute.aboutNumber_lint (r : RawRoute) :
    r.lint.filter isAboutNumber = r.checkedNumbers.flatMap NumberField.findings := by
  have version (spot : Spot) (v : String) :
      (if ["", "v1", "v2"].contains v then [] else
        [invalidField spot (.unknownVersion v)]).filter isAboutNumber = [] := by
    split <;> rfl
  simp only [RawRoute.lint, checkedNumbers, List.filter_append, version, aboutNumber_port,
    aboutNumber_duration]
  simp

theorem Document.aboutNumber_lint (doc : Document) :
    doc.lint.filter isAboutNumber = doc.checkedNumbers.flatMap NumberField.findings := by
  have ids : doc.lintIds.filter isAboutNumber = [] := by
    simp [lintIds, aboutNumber_duplicates]
  have subdomains : (doc.subdomains.flatMap doc.lintSubdomain).filter isAboutNumber = [] := by
    rw [List.filter_flatMap]
    exact List.flatMap_eq_nil_iff.2 fun s _ => Subdomain.aboutNumber_lint doc s
  have addresses : (doc.accessLists.flatMap AccessList.lint).filter isAboutNumber = [] := by
    rw [List.filter_flatMap]
    exact List.flatMap_eq_nil_iff.2 fun l _ => aboutNumber_addresses _ _
  simp only [lint, List.filter_append, ids, subdomains, addresses, List.nil_append,
    List.append_nil]
  simp only [checkedNumbers, List.filter_flatMap, List.flatMap_append, List.flatMap_assoc,
    General.aboutNumber_lint, Domain.aboutNumber_lint, Handler.aboutNumber_lint,
    RawRoute.aboutNumber_lint]

theorem Document.lint_withUnchecked (change : NumberUse → NumberText → NumberText)
    (doc : Document) : (doc.withUnchecked change).lint = doc.lint := by
  -- of other entities a check reads the ids alone
  have lists : (doc.withUnchecked change).accessListIds = doc.accessListIds := by
    rw [accessListIds, withUnchecked, List.map_map]
    rfl
  have handlerIds : (doc.withUnchecked change).handlerIds = doc.handlerIds := by
    rw [Document.handlerIds, withUnchecked, List.map_map]
    rfl
  have routeIds : (doc.withUnchecked change).rawRouteIds = doc.rawRouteIds := by
    rw [rawRouteIds, withUnchecked, List.map_map]
    rfl
  have ids : (doc.withUnchecked change).lintIds = doc.lintIds := by
    rw [lintIds, handlerIds, lists, routeIds]
    rfl
  have domain (d : Domain) : (doc.withUnchecked change).lintDomain d = doc.lintDomain d := by
    rw [lintDomain, lists]
    rfl
  have subdomain (s : Subdomain) :
      (doc.withUnchecked change).lintSubdomain s = doc.lintSubdomain s := by
    rw [lintSubdomain, lists]
    rfl
  have handler (h : Handler) :
      (doc.withUnchecked change).lintHandler (h.withUnchecked change) = doc.lintHandler h := by
    rw [lintHandler, lists]
    rfl
  have handlers : (doc.withUnchecked change).handlers.flatMap
      (doc.withUnchecked change).lintHandler = doc.handlers.flatMap doc.lintHandler := by
    rw [withUnchecked, List.flatMap_map]
    exact congrArg (doc.handlers.flatMap ·) (funext handler)
  have accessLists : (doc.withUnchecked change).accessLists.flatMap AccessList.lint =
      doc.accessLists.flatMap AccessList.lint := by
    rw [withUnchecked, List.flatMap_map]
    rfl
  have rawRoutes : (doc.withUnchecked change).rawRoutes.flatMap RawRoute.lint =
      doc.rawRoutes.flatMap RawRoute.lint := by
    rw [withUnchecked, List.flatMap_map]
    rfl
  rw [lint, ids, handlers, accessLists, rawRoutes, funext domain, funext subdomain, lint]
  rfl

end ProxyConfig
