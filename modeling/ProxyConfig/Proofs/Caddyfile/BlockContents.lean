import ProxyConfig.Caddyfile.Compile

/-!
What stands at the top of a site's block and of a handler's block, told apart by name: blocks of
handlers, definitions of matchers, and clauses, whose names are fixed words.  A document's text
never names a clause, so no text can make a clause pass for a handler or for a matcher.
-/

namespace ProxyConfig.Caddyfile

namespace Directive

def children (d : Directive) : List Directive := d.block.getD []

/-- The two names of a handler's block. -/
def isHandler (d : Directive) : Bool := d.name = "handle" || d.name = "handle_path"

def isMatcher (d : Directive) : Bool := d.name.toList.head? = some '@'

def handlers (d : Directive) : List Directive := d.children.filter isHandler

def matcherNames (d : Directive) : List String := (d.children.filter isMatcher).map name

/-- A clause: neither the block of a handler nor the definition of a matcher. -/
def IsClause (d : Directive) : Prop := d.isHandler = false ∧ d.isMatcher = false

instance (d : Directive) : Decidable d.IsClause := inferInstanceAs (Decidable (_ ∧ _))

theorem isClause_of_name {d : Directive} (name : String) (h : d.name = name)
    (plain : IsClause { name }) : d.IsClause := by
  obtain ⟨hh, hm⟩ := plain
  exact ⟨by rw [isHandler, h]; exact hh, by rw [isMatcher, h]; exact hm⟩

theorem filter_isHandler_of_isClause {ds : List Directive} (h : ∀ d ∈ ds, d.IsClause) :
    ds.filter isHandler = [] :=
  List.filter_eq_nil_iff.2 fun d hd => by simp [(h d hd).1]

theorem filter_isMatcher_of_isClause {ds : List Directive} (h : ∀ d ∈ ds, d.IsClause) :
    ds.filter isMatcher = [] :=
  List.filter_eq_nil_iff.2 fun d hd => by simp [(h d hd).2]

end Directive

open Directive

theorem isClause_of_mem_bare {name : String} {wanted : Bool} {d : Directive}
    (h : d ∈ bare name wanted) (plain : IsClause { name }) : d.IsClause := by
  cases wanted with
  | false => simp [bare] at h
  | true =>
    have : d = { name } := by simpa [bare] using h
    exact isClause_of_name name (by rw [this]) plain

theorem tlsClause_name {certsDir : String} {site : Site} {d : Directive}
    (hd : d ∈ tlsClause certsDir site) : d.name = "tls" := by
  rw [tlsClause] at hd
  split at hd
  · cases hd
  · rw [List.mem_singleton.1 hd]
  · rw [List.mem_singleton.1 hd]

theorem isClause_of_mem_tlsClause {certsDir : String} {site : Site} {d : Directive}
    (h : d ∈ tlsClause certsDir site) : d.IsClause :=
  isClause_of_name "tls" (tlsClause_name h) (by decide)

theorem isClause_of_mem_basicAuth {doc : Document} {ids : List String} {d : Directive}
    (h : d ∈ basicAuth doc ids) : d.IsClause := by
  obtain ⟨c, -, rfl⟩ := List.mem_map.1 h
  exact isClause_of_name "basicauth" rfl (by decide)

theorem headerChange_name (name : String) (rule : HeaderRule) :
    (headerChange name rule).name = name := by
  unfold headerChange
  dsimp only
  split <;> rfl

theorem isClause_of_mem_reverseProxy {certsDir : String} {h : Handler} {headers : List HeaderRule}
    {d : Directive} (hd : d ∈ reverseProxy certsDir h headers) : d.IsClause := by
  have name : d.name = "reverse_proxy" := by
    rw [reverseProxy] at hd
    split at hd
    · simp at hd
    · rw [List.mem_singleton.1 hd]
  exact isClause_of_name "reverse_proxy" name (by decide)

theorem isClause_of_mem_redirect {h : Handler} {d : Directive} (hd : d ∈ redirect h) :
    d.IsClause := by
  obtain ⟨target, -, rfl⟩ := List.mem_map.1 hd
  exact isClause_of_name "redir" rfl (by decide)

theorem isClause_of_mem_actionClauses {certsDir : String} {h : Handler}
    {headers : List HeaderRule} {d : Directive} (hd : d ∈ actionClauses certsDir h headers) :
    d.IsClause := by
  have change : d ∈ headers.map (headerChange "header") → d.IsClause := by
    intro hd
    obtain ⟨rule, -, rfl⟩ := List.mem_map.1 hd
    exact isClause_of_name "header" (headerChange_name "header" rule) (by decide)
  unfold actionClauses at hd
  split at hd
  · exact isClause_of_mem_reverseProxy hd
  · exact (List.mem_append.1 hd).elim change isClause_of_mem_redirect
  · exact change hd

@[simp] theorem isHandler_handlerBlock (certsDir : String) (doc : Document) (h : Handler) :
    (handlerBlock certsDir doc h).isHandler = true := by
  cases hp : h.pathMatch <;> simp [isHandler, handlerBlock, PathMatch.toText, hp]

theorem isMatcher_handlerBlock (certsDir : String) (doc : Document) (h : Handler) :
    (handlerBlock certsDir doc h).isMatcher = false := by
  cases hp : h.pathMatch <;> simp [isMatcher, handlerBlock, PathMatch.toText, hp]

/-- The lists of the given ids that are enforced: those that are there and have an address. -/
def enforced (doc : Document) (ids : List String) : List AccessList :=
  (ids.filterMap doc.accessList?).filter fun list => !(addresses list).isEmpty

def matcherBlock (names : String) (list : AccessList) : Directive where
  name := names ++ list.id
  block := some [{ name := list.matcher.toText, args := addresses list }]

def rejectionRule (names : String) (list : AccessList) : Directive :=
  if list.invert then (rejection list).arg (names ++ list.id)
  else ((rejection list).arg "not").arg (names ++ list.id)

theorem accessRule_eq (names : String) (list : AccessList) :
    accessRule names list =
      if (addresses list).isEmpty then []
      else [matcherBlock names list, rejectionRule names list] := by
  unfold accessRule
  split
  · simp [*]
  · rename_i h
    cases ha : addresses list with
    | nil => exact absurd ha h
    | cons ip ips => simp [matcherBlock, rejectionRule, ha]

theorem accessControl_eq (doc : Document) (names : String) (ids : List String) :
    accessControl doc names ids =
      (enforced doc ids).flatMap fun list =>
        [matcherBlock names list, rejectionRule names list] := by
  unfold accessControl enforced
  generalize ids.filterMap doc.accessList? = lists
  induction lists with
  | nil => rfl
  | cons list lists ih =>
    rw [List.flatMap_cons, accessRule_eq, ih]
    cases h : (addresses list).isEmpty <;> simp [h]

theorem rejection_name (list : AccessList) :
    (rejection list).name = "abort" ∨ (rejection list).name = "respond" := by
  unfold rejection
  split
  · exact .inl rfl
  · exact .inr rfl

theorem rejectionRule_name (names : String) (list : AccessList) :
    (rejectionRule names list).name = (rejection list).name := by
  unfold rejectionRule
  split <;> rfl

theorem isClause_rejectionRule (names : String) (list : AccessList) :
    (rejectionRule names list).IsClause := by
  have name := rejectionRule_name names list
  rcases rejection_name list with h | h
  · exact isClause_of_name "abort" (name.trans h) (by decide)
  · exact isClause_of_name "respond" (name.trans h) (by decide)

def NamesMatchers (names : String) : Prop := names.toList.head? = some '@'

theorem namesMatchers_site : NamesMatchers siteMatchers := rfl

theorem namesMatchers_handler : NamesMatchers handlerMatchers := rfl

theorem NamesMatchers.append {names : String} (h : NamesMatchers names) (id : String) :
    (names ++ id).toList.head? = some '@' := by
  unfold NamesMatchers at h
  cases hn : names.toList with
  | nil => simp [hn] at h
  | cons c cs => simpa [hn] using h

theorem isMatcher_matcherBlock {names : String} (h : NamesMatchers names) (list : AccessList) :
    (matcherBlock names list).isMatcher = true := by
  simpa [isMatcher, matcherBlock] using h.append list.id

theorem isHandler_matcherBlock {names : String} (h : NamesMatchers names) (list : AccessList) :
    (matcherBlock names list).isHandler = false := by
  have ne (word : String) (hw : word.toList.head? ≠ some '@') : names ++ list.id ≠ word :=
    fun e => hw (e ▸ h.append list.id)
  simp [isHandler, matcherBlock, ne "handle" (by decide), ne "handle_path" (by decide)]

theorem filter_isHandler_accessControl {names : String} (h : NamesMatchers names)
    (doc : Document) (ids : List String) :
    (accessControl doc names ids).filter isHandler = [] := by
  rw [accessControl_eq]
  refine List.filter_eq_nil_iff.2 fun d hd => ?_
  obtain ⟨list, -, hd⟩ := List.mem_flatMap.1 hd
  rcases List.mem_cons.1 hd with rfl | hd
  · simp [isHandler_matcherBlock h]
  · rw [List.mem_singleton.1 hd]
    simp [(isClause_rejectionRule names list).1]

theorem filter_isMatcher_accessControl {names : String} (h : NamesMatchers names)
    (doc : Document) (ids : List String) :
    (accessControl doc names ids).filter isMatcher =
      (enforced doc ids).map (matcherBlock names) := by
  have one : ∀ list, [matcherBlock names list, rejectionRule names list].filter isMatcher =
      [matcherBlock names list] := by
    intro list
    simp [isMatcher_matcherBlock h, (isClause_rejectionRule names list).2]
  rw [accessControl_eq, List.filter_flatMap, List.map_eq_flatMap]
  simp only [one]

theorem name_ne_of_mem_accessControl {names : String} (begins : NamesMatchers names)
    {doc : Document} {ids : List String} {d : Directive} (hd : d ∈ accessControl doc names ids)
    {word : String} (plain : word.toList.head? ≠ some '@') (abort : word ≠ "abort")
    (respond : word ≠ "respond") : d.name ≠ word := by
  rw [accessControl_eq] at hd
  obtain ⟨list, -, hd⟩ := List.mem_flatMap.1 hd
  rcases List.mem_cons.1 hd with rfl | hd
  · exact fun same => plain (same ▸ begins.append list.id)
  · rw [List.mem_singleton.1 hd, rejectionRule_name]
    rcases rejection_name list with name | name <;> rw [name]
    · exact abort.symm
    · exact respond.symm

theorem handlers_siteBlock (certsDir : String) (doc : Document) (site : Site) :
    (siteBlock certsDir doc site).handlers =
      (doc.handlers.filter (attaches · site)).map (handlerBlock certsDir doc) := by
  have all : ∀ d ∈ (doc.handlers.filter (attaches · site)).map (handlerBlock certsDir doc),
      d.isHandler = true := by
    intro d hd
    obtain ⟨h, -, rfl⟩ := List.mem_map.1 hd
    exact isHandler_handlerBlock certsDir doc h
  simp only [handlers, children, siteBlock, Option.getD_some, List.filter_append]
  rw [filter_isHandler_of_isClause fun _ => isClause_of_mem_tlsClause,
    filter_isHandler_of_isClause fun _ hd => isClause_of_mem_bare hd (by decide),
    filter_isHandler_accessControl namesMatchers_site,
    filter_isHandler_of_isClause fun _ => isClause_of_mem_basicAuth,
    List.filter_eq_self.2 all]
  rfl

theorem matchers_siteBlock (certsDir : String) (doc : Document) (site : Site) :
    (siteBlock certsDir doc site).children.filter isMatcher =
      (enforced doc site.domain.accessLists).map (matcherBlock siteMatchers) := by
  have none : ∀ d ∈ (doc.handlers.filter (attaches · site)).map (handlerBlock certsDir doc),
      ¬ d.isMatcher = true := by
    intro d hd
    obtain ⟨h, -, rfl⟩ := List.mem_map.1 hd
    simp [isMatcher_handlerBlock]
  simp only [children, siteBlock, Option.getD_some, List.filter_append]
  rw [filter_isMatcher_of_isClause fun _ => isClause_of_mem_tlsClause,
    filter_isMatcher_of_isClause fun _ hd => isClause_of_mem_bare hd (by decide),
    filter_isMatcher_accessControl namesMatchers_site,
    filter_isMatcher_of_isClause fun _ => isClause_of_mem_basicAuth,
    List.filter_eq_nil_iff.2 none]
  simp

theorem matchers_handlerBlock (certsDir : String) (doc : Document) (h : Handler) :
    (handlerBlock certsDir doc h).children.filter isMatcher =
      (enforced doc h.accessLists).map (matcherBlock handlerMatchers) := by
  simp only [children, handlerBlock, Option.getD_some, List.filter_append]
  rw [filter_isMatcher_accessControl namesMatchers_handler,
    filter_isMatcher_of_isClause fun _ => isClause_of_mem_basicAuth,
    filter_isMatcher_of_isClause fun _ => isClause_of_mem_actionClauses]
  simp

theorem matcherNames_siteBlock (certsDir : String) (doc : Document) (site : Site) :
    (siteBlock certsDir doc site).matcherNames =
      (enforced doc site.domain.accessLists).map fun list => siteMatchers ++ list.id := by
  rw [matcherNames, matchers_siteBlock, List.map_map]
  rfl

theorem matcherNames_handlerBlock (certsDir : String) (doc : Document) (h : Handler) :
    (handlerBlock certsDir doc h).matcherNames =
      (enforced doc h.accessLists).map fun list => handlerMatchers ++ list.id := by
  rw [matcherNames, matchers_handlerBlock, List.map_map]
  rfl

end ProxyConfig.Caddyfile
