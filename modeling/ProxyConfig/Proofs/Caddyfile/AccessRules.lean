import ProxyConfig.Proofs.Caddyfile.BlockContents

/-!
What the directives of access control do to a request.  They are read as a program: names with an at
sign define matchers over the two addresses of a request, and a rule rejects what its last argument
matches, or with `not` in front of it what that does not match.  Nothing is assumed of what it means
for an address to lie in what a text describes.  Main statement: the program of some references
rejects exactly what one of the lists it refers to turns away.
-/

namespace ProxyConfig

structure Request (Address : Type) where
  remote : Address
  client : Address

variable {Address : Type} (lies : Address → String → Bool) (req : Request Address)

def Request.address (req : Request Address) : IpMatcher → Address
  | .remoteIp => req.remote
  | .clientIp => req.client

namespace AccessList

def HasAddress (list : AccessList) : Prop := ∃ ip ∈ list.clientIps, Text.trim ip ≠ ""

def Covers (list : AccessList) : Prop :=
  ∃ ip ∈ list.clientIps, Text.trim ip ≠ "" ∧ lies (req.address list.matcher) (Text.trim ip) = true

/-- An inverted list turns away what it covers, any other one what it does not cover. -/
def TurnsAway (list : AccessList) : Prop :=
  list.HasAddress ∧ (list.Covers lies req ↔ list.invert = true)

end AccessList

/-- The last list with an id is the one that the id refers to. -/
def Document.Refers (doc : Document) (id : String) (list : AccessList) : Prop :=
  ∃ before after, doc.accessLists = before ++ list :: after ∧ list.id = id ∧
    ∀ other ∈ after, other.id ≠ id

namespace Caddyfile

open Directive

def clauseHolds? (clause : Directive) : Option Bool :=
  if clause.name = "remote_ip" then some (clause.args.any (lies req.remote))
  else if clause.name = "client_ip" then some (clause.args.any (lies req.client))
  else none

def definitionHolds? (definition : Directive) : Option Bool :=
  (definition.children.mapM (clauseHolds? lies req)).map (·.all id)

def matcherHolds? (program : List Directive) (name : String) : Option Bool :=
  ((program.filter isMatcher).find? (·.name = name)).bind (definitionHolds? lies req)

/-- Whether a rule rejects; without a reading where it is no rule or its matcher is not defined. -/
def ruleRejects? (program : List Directive) (rule : Directive) : Option Bool :=
  if rule.name = "abort" || rule.name = "respond" then
    match rule.args.reverse with
    | name :: "not" :: _ => (matcherHolds? lies req program name).map (!·)
    | name :: _ => matcherHolds? lies req program name
    | [] => none
  else none

/-- Whether some rule of a program rejects, if all of it can be read. -/
def verdict? (program : List Directive) : Option Bool :=
  ((program.filter (!·.isMatcher)).mapM (ruleRejects? lies req program)).map (·.any id)

theorem mem_addresses_iff {list : AccessList} {ip : String} :
    ip ∈ addresses list ↔ ∃ raw ∈ list.clientIps, Text.trim raw ≠ "" ∧ Text.trim raw = ip := by
  unfold addresses
  rw [List.mem_filterMap]
  exact exists_congr fun raw => and_congr_right fun _ => present?_eq_some_iff

theorem hasAddress_iff {list : AccessList} : list.HasAddress ↔ addresses list ≠ [] := by
  constructor
  · rintro ⟨raw, hraw, h⟩
    exact List.ne_nil_of_mem (mem_addresses_iff.2 ⟨raw, hraw, h, rfl⟩)
  · intro nonempty
    obtain ⟨ip, hip⟩ := List.exists_mem_of_ne_nil _ nonempty
    obtain ⟨raw, hraw, h, -⟩ := mem_addresses_iff.1 hip
    exact ⟨raw, hraw, h⟩

/-- What the one clause of a list's matcher says of a request. -/
def covers (list : AccessList) : Bool := (addresses list).any (lies (req.address list.matcher))

theorem covers_iff {list : AccessList} : covers lies req list = true ↔ list.Covers lies req := by
  unfold covers AccessList.Covers
  rw [List.any_eq_true]
  constructor
  · rintro ⟨ip, hip, h⟩
    obtain ⟨raw, hraw, nonblank, rfl⟩ := mem_addresses_iff.1 hip
    exact ⟨raw, hraw, nonblank, h⟩
  · rintro ⟨raw, hraw, nonblank, h⟩
    exact ⟨_, mem_addresses_iff.2 ⟨raw, hraw, nonblank, rfl⟩, h⟩

theorem accessList?_eq_some_iff {doc : Document} {id : String} {list : AccessList} :
    doc.accessList? id = some list ↔ doc.Refers id list := by
  rw [Document.accessList?_eq]
  exact lastWith_eq_some_iff

theorem mem_enforced_iff {doc : Document} {ids : List String} {list : AccessList} :
    list ∈ enforced doc ids ↔ ∃ id ∈ ids, doc.Refers id list ∧ list.HasAddress := by
  unfold enforced
  rw [List.mem_filter, List.mem_filterMap, hasAddress_iff]
  simp only [accessList?_eq_some_iff, Bool.not_eq_true', List.isEmpty_eq_false_iff]
  constructor
  · rintro ⟨⟨id, hid, h⟩, nonempty⟩
    exact ⟨id, hid, h, nonempty⟩
  · rintro ⟨id, hid, h, nonempty⟩
    exact ⟨⟨id, hid, h⟩, nonempty⟩

theorem eq_of_mem_enforced {doc : Document} {ids : List String} {a b : AccessList}
    (ha : a ∈ enforced doc ids) (hb : b ∈ enforced doc ids) (same : a.id = b.id) : a = b := by
  obtain ⟨i, -, refers, -⟩ := mem_enforced_iff.1 ha
  obtain ⟨j, -, refers', -⟩ := mem_enforced_iff.1 hb
  have hi := accessList?_eq_some_iff.2 refers
  have hj := accessList?_eq_some_iff.2 refers'
  have ids : i = j := by
    rw [← (TextMap.mem_of_find?_byId hi).1, ← (TextMap.mem_of_find?_byId hj).1, same]
  rw [ids, hj] at hi
  exact (Option.some.inj hi).symm

section Program

variable {names : String} (begins : NamesMatchers names) (doc : Document) (ids : List String)
include begins

theorem filter_not_isMatcher_accessControl :
    (accessControl doc names ids).filter (!·.isMatcher) =
      (enforced doc ids).map (rejectionRule names) := by
  have one : ∀ list, [matcherBlock names list, rejectionRule names list].filter (!·.isMatcher) =
      [rejectionRule names list] := by
    intro list
    simp [isMatcher_matcherBlock begins, (isClause_rejectionRule names list).2]
  rw [accessControl_eq, List.filter_flatMap, List.map_eq_flatMap]
  simp only [one]

theorem find?_matcher {list : AccessList} (h : list ∈ enforced doc ids) :
    ((accessControl doc names ids).filter isMatcher).find? (·.name = names ++ list.id) =
      some (matcherBlock names list) := by
  rw [filter_isMatcher_accessControl begins, List.find?_map]
  have found : (enforced doc ids).find?
      ((fun d => decide (d.name = names ++ list.id)) ∘ matcherBlock names) = some list := by
    cases hf : (enforced doc ids).find?
        ((fun d => decide (d.name = names ++ list.id)) ∘ matcherBlock names) with
    | none =>
      have missing := List.find?_eq_none.1 hf list h
      simp [matcherBlock] at missing
    | some other =>
      have name : names ++ other.id = names ++ list.id := by
        simpa [matcherBlock] using List.find?_some hf
      have same : other = list := eq_of_mem_enforced (List.mem_of_find?_eq_some hf) h
        ((String.append_right_inj names).1 name)
      rw [same]
  rw [found, Option.map_some]

omit begins in
theorem definitionHolds?_matcherBlock (list : AccessList) :
    definitionHolds? lies req (matcherBlock names list) = some (covers lies req list) := by
  have clause : clauseHolds? lies req { name := list.matcher.toText, args := addresses list } =
      some (covers lies req list) := by
    unfold clauseHolds? covers
    cases list.matcher <;> simp [IpMatcher.toText, Request.address]
  simp [definitionHolds?, children, matcherBlock, clause]

theorem matcherHolds?_accessControl {list : AccessList} (h : list ∈ enforced doc ids) :
    matcherHolds? lies req (accessControl doc names ids) (names ++ list.id) =
      some (covers lies req list) := by
  rw [matcherHolds?, find?_matcher begins doc ids h, Option.bind_some,
    definitionHolds?_matcherBlock]

omit begins in
theorem head?_reverse_rejection_args (list : AccessList) :
    (rejection list).args.reverse.head? ≠ some "not" := by
  unfold rejection
  split
  · simp
  · rename_i code _
    have last : code.repr ≠ "not" := by
      intro same
      have digits : code.repr.toList = Nat.toDigits 10 code := Nat.toList_repr
      rw [same] at digits
      have digit : 'n' ∈ Nat.toDigits 10 code := by
        rw [← digits]
        decide
      exact absurd (Nat.isDigit_of_mem_toDigits (by decide) (by decide) digit) (by decide)
    simpa using last

theorem ruleRejects?_rejectionRule {list : AccessList} (h : list ∈ enforced doc ids) :
    ruleRejects? lies req (accessControl doc names ids) (rejectionRule names list) =
      some (covers lies req list == list.invert) := by
  have name : ((rejectionRule names list).name = "abort" ||
      (rejectionRule names list).name = "respond") = true := by
    rw [rejectionRule_name]
    rcases rejection_name list with h | h <;> simp [h]
  rw [ruleRejects?, if_pos name]
  have holds := matcherHolds?_accessControl lies req begins doc ids h
  cases hi : list.invert with
  | false =>
    have args : (rejectionRule names list).args.reverse =
        (names ++ list.id) :: "not" :: (rejection list).args.reverse := by
      simp [rejectionRule, hi, arg]
    rw [args]
    simp [holds]
  | true =>
    have args : (rejectionRule names list).args.reverse =
        (names ++ list.id) :: (rejection list).args.reverse := by
      simp [rejectionRule, hi, arg]
    -- whatever stands in front of the matcher must not read as the `not` of the other case
    have front := head?_reverse_rejection_args list
    rw [args]
    split
    · rename_i heq
      obtain ⟨-, rest⟩ := List.cons.inj heq
      simp [rest] at front
    · rename_i heq
      rw [← (List.cons.inj heq).1, holds]
      simp
    · rename_i heq
      simp at heq

end Program

theorem mapM_eq_some_map {α β : Type} {f : α → Option β} {g : α → β} {xs : List α}
    (h : ∀ x ∈ xs, f x = some (g x)) : xs.mapM f = some (xs.map g) := by
  induction xs with
  | nil => rfl
  | cons x xs ih =>
    have rest := ih fun y hy => h y (List.mem_cons_of_mem x hy)
    simp [List.mapM_cons, h x List.mem_cons_self, rest]

theorem verdict?_accessControl {names : String} (begins : NamesMatchers names) (doc : Document)
    (ids : List String) :
    verdict? lies req (accessControl doc names ids) =
      some ((enforced doc ids).any fun list => covers lies req list == list.invert) := by
  have rules : (enforced doc ids).mapM
      (ruleRejects? lies req (accessControl doc names ids) ∘ rejectionRule names) =
        some ((enforced doc ids).map fun list => covers lies req list == list.invert) :=
    mapM_eq_some_map fun list h => ruleRejects?_rejectionRule lies req begins doc ids h
  rw [verdict?, filter_not_isMatcher_accessControl begins, List.mapM_map, rules, Option.map_some,
    List.any_map]
  rfl

theorem any_enforced_iff {doc : Document} {ids : List String} :
    ((enforced doc ids).any fun list => covers lies req list == list.invert) = true ↔
      ∃ id ∈ ids, ∃ list, doc.Refers id list ∧ list.TurnsAway lies req := by
  have turnsAway (list : AccessList) : (covers lies req list == list.invert) = true ↔
      (list.Covers lies req ↔ list.invert = true) := by
    rw [beq_iff_eq, Bool.eq_iff_iff, covers_iff]
  simp only [List.any_eq_true, mem_enforced_iff, turnsAway, AccessList.TurnsAway]
  constructor
  · rintro ⟨list, ⟨id, hid, refers, hasAddress⟩, agrees⟩
    exact ⟨id, hid, list, refers, hasAddress, agrees⟩
  · rintro ⟨id, hid, list, refers, hasAddress, agrees⟩
    exact ⟨list, ⟨id, hid, refers, hasAddress⟩, agrees⟩

theorem exists_list_of_isMatcher {names : String} (begins : NamesMatchers names) {doc : Document}
    {ids : List String} {d : Directive} (h : d ∈ accessControl doc names ids)
    (matcher : d.isMatcher = true) : ∃ list ∈ enforced doc ids, d = matcherBlock names list := by
  have hd : d ∈ (enforced doc ids).map (matcherBlock names) := by
    rw [← filter_isMatcher_accessControl begins]
    exact List.mem_filter.2 ⟨h, matcher⟩
  obtain ⟨list, hlist, rfl⟩ := List.mem_map.1 hd
  exact ⟨list, hlist, rfl⟩

theorem eq_of_matcher_name_eq {names : String} (begins : NamesMatchers names) {doc : Document}
    {ids : List String} {d e : Directive} (hd : d ∈ accessControl doc names ids)
    (he : e ∈ accessControl doc names ids) (md : d.isMatcher = true) (me : e.isMatcher = true)
    (same : d.name = e.name) : d = e := by
  obtain ⟨a, ha, rfl⟩ := exists_list_of_isMatcher begins hd md
  obtain ⟨b, hb, rfl⟩ := exists_list_of_isMatcher begins he me
  rw [eq_of_mem_enforced ha hb ((String.append_right_inj names).1 same)]

theorem getLast?_rejectionRule_args (names : String) (list : AccessList) :
    (rejectionRule names list).args.getLast? = some (names ++ list.id) := by
  unfold rejectionRule
  split <;> simp [arg]

theorem exists_matcher_of_rule {names : String} (begins : NamesMatchers names) {doc : Document}
    {ids : List String} {rule : Directive} (h : rule ∈ accessControl doc names ids)
    (notMatcher : rule.isMatcher = false) :
    ∃ d ∈ accessControl doc names ids, d.isMatcher = true ∧ rule.args.getLast? = some d.name := by
  have hrule : rule ∈ (enforced doc ids).map (rejectionRule names) := by
    rw [← filter_not_isMatcher_accessControl begins]
    exact List.mem_filter.2 ⟨h, by simp [notMatcher]⟩
  obtain ⟨list, hlist, rfl⟩ := List.mem_map.1 hrule
  refine ⟨matcherBlock names list, ?_, isMatcher_matcherBlock begins list,
    getLast?_rejectionRule_args names list⟩
  rw [accessControl_eq]
  exact List.mem_flatMap.2 ⟨list, hlist, List.mem_cons_self⟩

/-- At either level, the program of some references has a verdict on every request: it rejects
exactly if one of the references leads to a list that turns the request away.  Each rule uses a
matcher of the program, no name has two definitions, and the verdict depends on nothing but which
references there are. -/
theorem accessControl_rejects_iff {Address : Type} (lies : Address → String → Bool)
    (doc : Document) (names : String) (level : names = siteMatchers ∨ names = handlerMatchers)
    (ids : List String) :
    (∀ req : Request Address, ∃ rejected,
        verdict? lies req (accessControl doc names ids) = some rejected ∧
          (rejected = true ↔
            ∃ id ∈ ids, ∃ list, doc.Refers id list ∧ list.TurnsAway lies req)) ∧
      (∀ rule ∈ accessControl doc names ids, rule.isMatcher = false →
        ∃ d ∈ accessControl doc names ids, d.isMatcher = true ∧ rule.args.getLast? = some d.name) ∧
      (∀ d ∈ accessControl doc names ids, ∀ e ∈ accessControl doc names ids,
        d.isMatcher = true → e.isMatcher = true → d.name = e.name → d = e) ∧
      ∀ others : List String, (∀ id, id ∈ others ↔ id ∈ ids) → ∀ req : Request Address,
        verdict? lies req (accessControl doc names others) =
          verdict? lies req (accessControl doc names ids) := by
  have begins : NamesMatchers names := by
    rcases level with rfl | rfl
    · exact namesMatchers_site
    · exact namesMatchers_handler
  refine ⟨fun req => ⟨_, verdict?_accessControl lies req begins doc ids, any_enforced_iff lies req⟩,
    fun rule => exists_matcher_of_rule begins,
    fun d hd e he => eq_of_matcher_name_eq begins hd he, fun others same req => ?_⟩
  rw [verdict?_accessControl lies req begins, verdict?_accessControl lies req begins]
  congr 1
  rw [Bool.eq_iff_iff, any_enforced_iff, any_enforced_iff]
  exact exists_congr fun id => and_congr_left fun _ => same id

def twoLists : Document where
  accessLists := [
    { id := "office", clientIps := ["10.0.0.1"], invert := true },
    { id := "office", clientIps := [" 10.0.0.2 ", " "] },
    { id := "abuse", clientIps := ["10.0.0.3"], invert := true, matcher := .clientIp,
      responseCode := .ofNat 403, responseMessage := "not" }]

theorem accessControl_rejects_twoLists :
    (siteMatchers = siteMatchers ∨ siteMatchers = handlerMatchers) ∧
      ∃ rejected, verdict? (fun a text => decide (a = text)) ⟨"10.0.0.2", "10.0.0.3"⟩
          (accessControl twoLists siteMatchers ["office", "missing", "abuse", "office"]) =
        some rejected ∧ rejected = true := by
  obtain ⟨rejected, verdict, rejects⟩ := (accessControl_rejects_iff
    (fun a text : String => decide (a = text)) twoLists siteMatchers (.inl rfl)
    ["office", "missing", "abuse", "office"]).1 ⟨"10.0.0.2", "10.0.0.3"⟩
  refine ⟨.inl rfl, rejected, verdict, rejects.2 ⟨"abuse", by simp, twoLists.accessLists[2], ?_, ?_⟩⟩
  · exact ⟨twoLists.accessLists.take 2, [], rfl, rfl, by simp⟩
  · refine ⟨⟨"10.0.0.3", by simp [twoLists], by decide⟩, ?_⟩
    simp only [AccessList.Covers, twoLists]
    decide

end Caddyfile

end ProxyConfig
