import Mathlib.Data.List.Forall2
import ProxyConfig.Proofs.Caddyfile.AccessRules
import ProxyConfig.Proofs.Lint.DanglingReferences

/-!
What references come to in the text.  Directives are told apart by their names: rules of access lists,
credentials, changes of header fields, and the clause that passes requests on.  Main statement: the ids
of each reference list that are not found to dangle are rendered one for one, in order, in the block of
the domain or handler whose list it is.
-/

namespace ProxyConfig

namespace AccessList

instance : DecidablePred HasAddress := fun list =>
  inferInstanceAs (Decidable (∃ ip ∈ list.clientIps, Text.trim ip ≠ ""))

end AccessList

namespace Handler

def HasUpstream (h : Handler) : Prop := ∃ host ∈ h.upstreams, Text.trim host ≠ ""

instance : DecidablePred HasUpstream := fun h =>
  inferInstanceAs (Decidable (∃ host ∈ h.upstreams, Text.trim host ≠ ""))

end Handler

namespace Caddyfile

open Directive

def Directive.named (kind : String → Bool) (block : Directive) : List Directive :=
  block.children.filter (kind ·.name)

def namesAccessRule (name : String) : Bool :=
  name.toList.head? = some '@' || name = "abort" || name = "respond"

def namesCredential (name : String) : Bool := name = "basicauth"

def namesHeader (name : String) : Bool :=
  name = "header" || name = "header_up" || name = "header_down"

def namesProxy (name : String) : Bool := name = "reverse_proxy"

def AllNamed (word : String) (ds : List Directive) : Prop := ∀ d ∈ ds, d.name = word

section Kind

variable {kind : String → Bool} {word : String} {ds : List Directive}

theorem AllNamed.filter_eq_nil (all : AllNamed word ds) (other : kind word = false) :
    ds.filter (kind ·.name) = [] :=
  List.filter_eq_nil_iff.2 fun d hd => by simp [all d hd, other]

theorem AllNamed.filter_eq_self (all : AllNamed word ds) (same : kind word = true) :
    ds.filter (kind ·.name) = ds :=
  List.filter_eq_self.2 fun d hd => by rw [all d hd, same]

theorem allNamed_optional (word : String) (a : Option String) :
    AllNamed word (optional word a) := by
  intro d hd
  obtain ⟨text, -, rfl⟩ := List.mem_map.1 hd
  rfl

theorem allNamed_optionalWords (word s : String) : AllNamed word (optionalWords word s) := by
  intro d hd
  obtain ⟨text, -, rfl⟩ := List.mem_map.1 hd
  rfl

theorem allNamed_bare (word : String) (wanted : Bool) : AllNamed word (bare word wanted) := by
  intro d hd
  cases wanted with
  | false => cases hd
  | true => rw [List.mem_singleton.1 hd]

theorem allNamed_tlsClause (certsDir : String) (site : Site) :
    AllNamed "tls" (tlsClause certsDir site) := fun _ => tlsClause_name

theorem allNamed_basicAuth (doc : Document) (ids : List String) :
    AllNamed "basicauth" (basicAuth doc ids) := by
  intro d hd
  obtain ⟨c, -, rfl⟩ := List.mem_map.1 hd
  rfl

theorem filter_handlerBlocks (keep : kind "handle" = false) (strip : kind "handle_path" = false)
    (certsDir : String) (doc : Document) (hs : List Handler) :
    (hs.map (handlerBlock certsDir doc)).filter (kind ·.name) = [] := by
  refine List.filter_eq_nil_iff.2 fun d hd => ?_
  obtain ⟨h, -, rfl⟩ := List.mem_map.1 hd
  have other : kind h.pathMatch.toText = false := by
    cases h.pathMatch with
    | keep => exact keep
    | strip => exact strip
  exact Bool.eq_false_iff.1 other

end Kind

theorem namesAccessRule_of_mem {names : String} (begins : NamesMatchers names) {doc : Document}
    {ids : List String} {d : Directive} (hd : d ∈ accessControl doc names ids) :
    namesAccessRule d.name = true := by
  rw [accessControl_eq] at hd
  obtain ⟨list, -, hd⟩ := List.mem_flatMap.1 hd
  rcases List.mem_cons.1 hd with rfl | hd
  · rw [namesAccessRule, matcherBlock, decide_eq_true (begins.append list.id)]
    rfl
  · rw [List.mem_singleton.1 hd, rejectionRule_name]
    rcases rejection_name list with name | name <;> rw [name] <;> decide

theorem filter_accessControl {names : String} (begins : NamesMatchers names) (doc : Document)
    (ids : List String) :
    (accessControl doc names ids).filter (namesAccessRule ·.name) =
      accessControl doc names ids :=
  List.filter_eq_self.2 fun _ => namesAccessRule_of_mem begins

theorem filter_accessControl_eq_nil {kind : String → Bool}
    (other : ∀ name, kind name = true → namesAccessRule name = false) {names : String}
    (begins : NamesMatchers names) (doc : Document) (ids : List String) :
    (accessControl doc names ids).filter (kind ·.name) = [] := by
  refine List.filter_eq_nil_iff.2 fun d hd same => ?_
  have rule := namesAccessRule_of_mem begins hd
  rw [other d.name same] at rule
  cases rule

theorem not_namesAccessRule_of_credential (name : String) (h : namesCredential name = true) :
    namesAccessRule name = false := by
  rw [of_decide_eq_true h]
  decide

theorem not_namesAccessRule_of_proxy (name : String) (h : namesProxy name = true) :
    namesAccessRule name = false := by
  rw [of_decide_eq_true h]
  decide

theorem not_namesAccessRule_of_header (name : String) (h : namesHeader name = true) :
    namesAccessRule name = false := by
  simp only [namesHeader, Bool.or_eq_true, decide_eq_true_eq] at h
  obtain (rfl | rfl) | rfl := h <;> decide

section Action

variable (certsDir : String) (h : Handler) (rules : List HeaderRule)

theorem upstreamList_ne_nil_iff :
    upstreamList h.upstreams h.upstreamPort ≠ [] ↔ h.HasUpstream := by
  rw [upstreamList, Ne, List.map_eq_nil_iff, List.filterMap_eq_nil_iff]
  simp [Handler.HasUpstream, present?]

theorem allNamed_reverseProxy : AllNamed "reverse_proxy" (reverseProxy certsDir h rules) := by
  intro d hd
  unfold reverseProxy at hd
  split at hd
  · cases hd
  · rw [List.mem_singleton.1 hd]

theorem allNamed_headers : AllNamed "header" (rules.map (headerChange "header")) := by
  intro d hd
  obtain ⟨rule, -, rfl⟩ := List.mem_map.1 hd
  exact headerChange_name "header" rule

theorem allNamed_redirect : AllNamed "redir" (redirect h) := by
  intro d hd
  obtain ⟨target, -, rfl⟩ := List.mem_map.1 hd
  rfl

theorem allNamed_transport : AllNamed "transport" (transport certsDir h) := by
  intro d hd
  unfold transport at hd
  dsimp only at hd
  split at hd
  · rw [List.mem_singleton.1 hd]
  · rw [List.mem_ite_nil_left, List.mem_singleton] at hd
    rw [hd.2]

theorem filter_actionClauses_eq_nil {kind : String → Bool} (proxy : kind "reverse_proxy" = false)
    (header : kind "header" = false) (redir : kind "redir" = false) :
    (actionClauses certsDir h rules).filter (kind ·.name) = [] := by
  unfold actionClauses
  split
  · exact (allNamed_reverseProxy certsDir h rules).filter_eq_nil proxy
  · rw [List.filter_append, (allNamed_headers rules).filter_eq_nil header,
      (allNamed_redirect h).filter_eq_nil redir, List.append_nil]
  · exact (allNamed_headers rules).filter_eq_nil header

theorem headers_actionClauses :
    (actionClauses certsDir h rules).filter (namesHeader ·.name) =
      if h.action = .proxy then [] else rules.map (headerChange "header") := by
  have changes : (rules.map (headerChange "header")).filter (namesHeader ·.name) =
      rules.map (headerChange "header") := (allNamed_headers rules).filter_eq_self (by decide)
  unfold actionClauses
  cases action : h.action with
  | proxy => exact (allNamed_reverseProxy certsDir h rules).filter_eq_nil (by decide)
  | redirect =>
    dsimp only
    rw [List.filter_append, changes, (allNamed_redirect h).filter_eq_nil (by decide),
      List.append_nil]
    rfl
  | other name => exact changes

theorem proxies_actionClauses :
    (actionClauses certsDir h rules).filter (namesProxy ·.name) =
      if h.action = .proxy then reverseProxy certsDir h rules else [] := by
  unfold actionClauses
  cases action : h.action with
  | proxy => exact (allNamed_reverseProxy certsDir h rules).filter_eq_self (by decide)
  | redirect =>
    dsimp only
    rw [List.filter_append, (allNamed_headers rules).filter_eq_nil (by decide),
      (allNamed_redirect h).filter_eq_nil (by decide)]
    rfl
  | other name => exact (allNamed_headers rules).filter_eq_nil (by decide)

theorem headers_reverseProxy :
    (reverseProxy certsDir h rules).map (named namesHeader) =
      if h.HasUpstream then [rules.map fun rule => headerChange rule.direction.toText rule]
      else [] := by
  have changes : (rules.map fun rule => headerChange rule.direction.toText rule).filter
      (namesHeader ·.name) = rules.map fun rule => headerChange rule.direction.toText rule := by
    refine List.filter_eq_self.2 fun d hd => ?_
    obtain ⟨rule, -, rfl⟩ := List.mem_map.1 hd
    rw [headerChange_name]
    cases rule.direction <;> decide
  have upstream := upstreamList_ne_nil_iff h
  unfold reverseProxy
  split
  case h_1 none => rw [if_neg (fun some => upstream.2 some none), List.map_nil]
  case h_2 some =>
    rw [if_pos (upstream.1 some), List.map_singleton, named, children, Option.getD_some]
    simp only [List.filter_append, changes, balancing, healthChecks, passiveHealth]
    rw [(allNamed_transport certsDir h).filter_eq_nil (by decide)]
    simp (disch := decide) only [(allNamed_optional _ _).filter_eq_nil,
      (allNamed_optionalWords _ _).filter_eq_nil, List.append_nil]

end Action

def Leads {α : Type} (find : String → Option α) (ids : List String) (found : List α) : Prop :=
  List.Forall₂ (fun id a => find id = some a) ids found

theorem leads_filterMap {α : Type} (find : String → Option α) (ids : List String) :
    Leads find (ids.filter fun id => (find id).isSome) (ids.filterMap find) := by
  induction ids with
  | nil => exact .nil
  | cons id ids ih =>
    cases lookup : find id with
    | none => simpa [lookup] using ih
    | some a =>
      rw [List.filter_cons_of_pos (by rw [lookup]; rfl), List.filterMap_cons_some lookup]
      exact .cons lookup ih

def ruleOf (names : String) (list : AccessList) : List Directive :=
  if list.HasAddress then [matcherBlock names list, rejectionRule names list] else []

theorem accessRule_eq_ruleOf (names : String) : accessRule names = ruleOf names := by
  funext list
  rw [accessRule_eq, ruleOf]
  by_cases address : list.HasAddress
  · rw [if_pos address, if_neg (by simpa using hasAddress_iff.1 address)]
  · rw [if_neg address, if_pos (by simpa using mt hasAddress_iff.2 address)]

/-- A block has the access rules and the credentials that the ids lead to, as far as they lead
anywhere, and no others. -/
structure RendersGuards (doc : Document) (names : String) (accessLists credentials : List String)
    (block : Directive) : Prop where
  accessRules : ∃ lists,
    Leads doc.accessList? (accessLists.filter (doc.resolves .accessList)) lists ∧
      block.named namesAccessRule = lists.flatMap (ruleOf names)
  credentials : ∃ accounts,
    Leads doc.credential? (credentials.filter (doc.resolves .credential)) accounts ∧
      block.named namesCredential = accounts.map credentialBlock

/-- A handler's block has the changes of header fields that the handler's ids lead to: in its one
clause that passes requests on if it has an upstream to pass them to, or else directly, unless it is
meant to pass requests on. -/
def RendersHeaders (doc : Document) (h : Handler) (block : Directive) : Prop :=
  ∃ rules, Leads doc.header? (h.headers.filter (doc.resolves .header)) rules ∧
    block.named namesHeader =
      (if h.action = .proxy then [] else rules.map (headerChange "header")) ∧
    (block.named namesProxy).map (named namesHeader) =
      if h.action = .proxy ∧ h.HasUpstream then
        [rules.map fun rule => headerChange rule.direction.toText rule]
      else []

section Blocks

variable (certsDir : String) (doc : Document)

theorem rendersGuards_siteBlock (site : Site) :
    RendersGuards doc siteMatchers site.domain.accessLists site.domain.credentials
      (siteBlock certsDir doc site) where
  accessRules := by
    refine ⟨_, leads_filterMap doc.accessList? site.domain.accessLists, ?_⟩
    simp only [named, children, siteBlock, Option.getD_some, List.filter_append]
    rw [(allNamed_tlsClause certsDir site).filter_eq_nil (by decide),
      (allNamed_bare "log" _).filter_eq_nil (by decide),
      filter_accessControl namesMatchers_site,
      (allNamed_basicAuth doc _).filter_eq_nil (by decide),
      filter_handlerBlocks (by decide) (by decide)]
    simp only [accessControl, accessRule_eq_ruleOf, List.nil_append, List.append_nil]
  credentials := by
    refine ⟨_, leads_filterMap doc.credential? site.domain.credentials, ?_⟩
    simp only [named, children, siteBlock, Option.getD_some, List.filter_append]
    rw [(allNamed_tlsClause certsDir site).filter_eq_nil (by decide),
      (allNamed_bare "log" _).filter_eq_nil (by decide),
      filter_accessControl_eq_nil not_namesAccessRule_of_credential namesMatchers_site,
      (allNamed_basicAuth doc _).filter_eq_self (by decide),
      filter_handlerBlocks (by decide) (by decide)]
    simp only [basicAuth, List.nil_append, List.append_nil]

theorem rendersGuards_handlerBlock (h : Handler) :
    RendersGuards doc handlerMatchers h.accessLists h.credentials
      (handlerBlock certsDir doc h) where
  accessRules := by
    refine ⟨_, leads_filterMap doc.accessList? h.accessLists, ?_⟩
    simp only [named, children, handlerBlock, Option.getD_some, List.filter_append]
    rw [filter_accessControl namesMatchers_handler,
      (allNamed_basicAuth doc _).filter_eq_nil (by decide),
      filter_actionClauses_eq_nil _ _ _ (by decide) (by decide) (by decide)]
    simp only [accessControl, accessRule_eq_ruleOf, List.append_nil]
  credentials := by
    refine ⟨_, leads_filterMap doc.credential? h.credentials, ?_⟩
    simp only [named, children, handlerBlock, Option.getD_some, List.filter_append]
    rw [filter_accessControl_eq_nil not_namesAccessRule_of_credential namesMatchers_handler,
      (allNamed_basicAuth doc _).filter_eq_self (by decide),
      filter_actionClauses_eq_nil _ _ _ (by decide) (by decide) (by decide)]
    simp only [basicAuth, List.nil_append, List.append_nil]

theorem rendersHeaders_handlerBlock (h : Handler) :
    RendersHeaders doc h (handlerBlock certsDir doc h) := by
  refine ⟨_, leads_filterMap doc.header? h.headers, ?_, ?_⟩
  · simp only [named, children, handlerBlock, Option.getD_some, List.filter_append]
    rw [filter_accessControl_eq_nil not_namesAccessRule_of_header namesMatchers_handler,
      (allNamed_basicAuth doc _).filter_eq_nil (by decide), headers_actionClauses]
    rfl
  · simp only [named, children, handlerBlock, Option.getD_some, List.filter_append]
    rw [filter_accessControl_eq_nil not_namesAccessRule_of_proxy namesMatchers_handler,
      (allNamed_basicAuth doc _).filter_eq_nil (by decide), proxies_actionClauses]
    by_cases proxy : h.action = .proxy
    · simp only [proxy, ↓reduceIte, true_and, List.nil_append]
      exact headers_reverseProxy certsDir h _
    · simp only [proxy, ↓reduceIte, false_and]
      rfl

/-- The ids that are found to dangle are those of each list that lead nowhere, in order; the other ids
of domains and handlers are rendered one for one wherever the domain or the handler is. -/
theorem references_reported_or_rendered :
    doc.lint.filter Finding.isDangling =
        doc.referenceLists.flatMap (fun l => (l.ids.filter fun id => !doc.resolves l.target id).map
          (.danglingReference l.owner l.target)) ∧
      (blocks certsDir doc).tail =
        (renderedSites certsDir doc).map (siteBlock certsDir doc) ∧
      (∀ site, (siteBlock certsDir doc site).handlers =
          (doc.handlers.filter (attaches · site)).map (handlerBlock certsDir doc) ∧
        RendersGuards doc siteMatchers site.domain.accessLists site.domain.credentials
          (siteBlock certsDir doc site)) ∧
      ∀ h, RendersGuards doc handlerMatchers h.accessLists h.credentials
          (handlerBlock certsDir doc h) ∧
        RendersHeaders doc h (handlerBlock certsDir doc h) :=
  ⟨doc.isDangling_lint, rfl,
    fun site => ⟨handlers_siteBlock certsDir doc site, rendersGuards_siteBlock certsDir doc site⟩,
    fun h => ⟨rendersGuards_handlerBlock certsDir doc h,
      rendersHeaders_handlerBlock certsDir doc h⟩⟩

end Blocks

end Caddyfile

end ProxyConfig
