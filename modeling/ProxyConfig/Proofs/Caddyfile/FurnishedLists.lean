import ProxyConfig.Proofs.Caddyfile.BlockContents
import ProxyConfig.Proofs.Caddyfile.CredentialLines
import ProxyConfig.Proofs.Caddyfile.HandlerPlacement
import ProxyConfig.Proofs.Text.NumberReadings

/-!
Directives that are lists have something in them.  Upstreams, addresses and the words of a text are
written as the arguments of a directive that has a name of its own; such a directive is left out when
there is nothing to list, and so are the blocks of options.  Only users and what raw routes match are
named by a text of the document, so these may look like anything.  Main statement: all other
directives that are lists have an argument, and each argument says something and has no blanks around
it; words have none inside either, and the blocks of options are not empty
(`lists_furnished`).
-/

namespace ProxyConfig

open Caddyfile

namespace Caddyfile

namespace Directive

def textLists : List String := ["reverse_proxy", "proxy", "remote_ip", "client_ip"]

def wordLists : List String := ["versions", "protocols", "lb_policy", "unhealthy_status"]

/-- The directives whose block gathers options; a `transport` does so if it is the usual one. -/
def frames : List String := ["servers", "timeouts", "transport"]

/-- The directives in whose block a text of the document names what stands there. -/
def entryBlocks : List String := ["basicauth", "match"]

def kinds : List String := textLists ++ wordLists ++ frames ++ entryBlocks

/-- A block of options. -/
def IsFrame (d : Directive) : Prop :=
  d.name = "servers" ∨ d.name = "timeouts" ∨ d.name = "transport" ∧ d.args = ["http"]

instance (d : Directive) : Decidable d.IsFrame := inferInstanceAs (Decidable (_ ∨ _))

theorem IsFrame.name_mem {d : Directive} (frame : d.IsFrame) : d.name ∈ frames := by
  obtain name | name | ⟨name, -⟩ := frame <;> rw [name] <;> decide

/-- A directive with a list has an argument, none that is empty or has blanks around it, and none with
blanks at all if it lists words.  A block of options has something in it. -/
structure Furnished (d : Directive) : Prop where
  args_ne_nil : d.name ∈ textLists ++ wordLists → d.args ≠ []
  trimmed : d.name ∈ textLists ++ wordLists → ∀ a ∈ d.args, a ≠ "" ∧ Text.Trimmed a.toList
  filled : d.name ∈ wordLists → ∀ a ∈ d.args, ∀ c ∈ a.toList, Text.isBlank c = false
  children_ne_nil : d.IsFrame → d.children ≠ []

mutual

/-- A directive and all that stands in its block and in the blocks there, in order, but for what is
named by a text of the document. -/
def fixed : Directive → List Directive
  | ⟨name, args, none⟩ => [⟨name, args, none⟩]
  | ⟨name, args, some children⟩ =>
    ⟨name, args, some children⟩ :: if name ∈ entryBlocks then [] else blockFixed children

def blockFixed : List Directive → List Directive
  | [] => []
  | d :: rest => fixed d ++ blockFixed rest

end

end Directive

end Caddyfile

def RawRoute.MatchedBy (r : RawRoute) (d : Directive) : Prop :=
  ∃ matcher, present? r.matcher = some matcher ∧
    d = { name := matcher, args := r.matchDomains.filterMap present? }

/-- The directives that texts of a document name: users, and what raw routes match. -/
def Document.Names (doc : Document) (d : Directive) : Prop :=
  (∃ c ∈ doc.credentials, d = c.directive) ∨ ∃ r ∈ doc.rawRoutes, r.MatchedBy d

namespace Caddyfile

open Directive

namespace Directive

theorem blockFixed_eq_flatMap (ds : List Directive) : blockFixed ds = ds.flatMap fixed := by
  induction ds with
  | nil => rfl
  | cons d ds ih => rw [blockFixed, ih, List.flatMap_cons]

mutual

theorem mem_within_cases {d : Directive} : (e : Directive) → d ∈ e.within →
    d ∈ e.fixed ∨ ∃ f ∈ e.fixed, f.name ∈ entryBlocks ∧ d ∈ blockWithin f.children
  | ⟨name, args, none⟩, there => .inl there
  | ⟨name, args, some children⟩, there => by
    rw [fixed]
    rcases List.mem_cons.1 there with rfl | inside
    · exact .inl List.mem_cons_self
    · by_cases entries : name ∈ entryBlocks
      · exact .inr ⟨_, List.mem_cons_self, entries, inside⟩
      · rw [if_neg entries]
        rcases mem_blockWithin_cases children inside with own | ⟨f, there, rest⟩
        · exact .inl (List.mem_cons_of_mem _ own)
        · exact .inr ⟨f, List.mem_cons_of_mem _ there, rest⟩

/-- What is inside blocks is fixed there, or stands in one of the blocks of entries. -/
theorem mem_blockWithin_cases {d : Directive} : (ds : List Directive) → d ∈ blockWithin ds →
    d ∈ blockFixed ds ∨ ∃ f ∈ blockFixed ds, f.name ∈ entryBlocks ∧ d ∈ blockWithin f.children
  | [], there => absurd there List.not_mem_nil
  | e :: rest, there => by
    rw [blockFixed]
    rcases List.mem_append.1 there with first | later
    · rcases mem_within_cases e first with own | ⟨f, there, rest⟩
      · exact .inl (List.mem_append_left _ own)
      · exact .inr ⟨f, List.mem_append_left _ there, rest⟩
    · rcases mem_blockWithin_cases rest later with own | ⟨f, there, rest⟩
      · exact .inl (List.mem_append_right _ own)
      · exact .inr ⟨f, List.mem_append_right _ there, rest⟩

end

end Directive

/-- A furnished directive in whose block a text of the document names what is not fixed there. -/
structure Proper (doc : Document) (d : Directive) : Prop extends Furnished d where
  named : d.name ∈ entryBlocks → ∀ e ∈ blockWithin d.children, doc.Names e

/-- All that is fixed in blocks is furnished. -/
def AllProper (doc : Document) (ds : List Directive) : Prop := ∀ d ∈ blockFixed ds, Proper doc d

section Own

variable {doc : Document} {d : Directive}

theorem Directive.Furnished.of_unlisted (other : d.name ∉ textLists ++ wordLists)
    (some : d.IsFrame → d.children ≠ []) : d.Furnished where
  args_ne_nil listed := absurd listed other
  trimmed listed := absurd listed other
  filled listed := absurd (List.mem_append_right textLists listed) other
  children_ne_nil := some

theorem Proper.of_other (other : d.name ∉ kinds) : Proper doc d := by
  unfold kinds at other
  obtain ⟨own, entries⟩ := not_or.1 (mt List.mem_append.2 other)
  obtain ⟨lists, frame⟩ := not_or.1 (mt List.mem_append.2 own)
  exact {
    toFurnished := .of_unlisted lists fun own => absurd own.name_mem frame
    named := fun own => absurd own entries }

theorem Proper.of_texts (listed : d.name ∈ textLists) (some : d.args ≠ [])
    (texts : ∀ a ∈ d.args, a ≠ "" ∧ Text.Trimmed a.toList) : Proper doc d := by
  have apart : ∀ name ∈ textLists, name ∉ wordLists ∧ name ∉ frames ∧ name ∉ entryBlocks := by decide
  obtain ⟨words, frame, entries⟩ := apart _ listed
  exact {
    args_ne_nil := fun _ => some
    trimmed := fun _ => texts
    filled := fun own => absurd own words
    children_ne_nil := fun own => absurd own.name_mem frame
    named := fun own => absurd own entries }

theorem Proper.of_words (listed : d.name ∈ wordLists) (some : d.args ≠ [])
    (words : ∀ a ∈ d.args, a ≠ "" ∧ ∀ c ∈ a.toList, Text.isBlank c = false) : Proper doc d := by
  have apart : ∀ name ∈ wordLists, name ∉ frames ∧ name ∉ entryBlocks := by decide
  obtain ⟨frame, entries⟩ := apart _ listed
  exact {
    args_ne_nil := fun _ => some
    trimmed := fun _ a there => (words a there).imp_right Text.trimmed_of_filled
    filled := fun _ a there => (words a there).2
    children_ne_nil := fun own => absurd own.name_mem frame
    named := fun own => absurd own entries }

theorem Proper.of_frame (frame : d.name ∈ frames) (some : d.IsFrame → d.children ≠ []) :
    Proper doc d := by
  have apart : ∀ name ∈ frames, name ∉ textLists ++ wordLists ∧ name ∉ entryBlocks := by decide
  obtain ⟨lists, entries⟩ := apart _ frame
  exact {
    toFurnished := .of_unlisted lists some
    named := fun own => absurd own entries }

theorem Proper.of_entries (entries : d.name ∈ entryBlocks)
    (named : ∀ e ∈ blockWithin d.children, doc.Names e) : Proper doc d := by
  have apart : ∀ name ∈ entryBlocks, name ∉ textLists ++ wordLists ∧ name ∉ frames := by decide
  obtain ⟨lists, frame⟩ := apart _ entries
  exact {
    toFurnished := .of_unlisted lists fun own => absurd own.name_mem frame
    named := fun _ => named }

theorem not_mem_kinds {name : String} {c : Char} (there : c ∈ name.toList)
    (mark : c = ':' ∨ c = '@') : name ∉ kinds := by
  have plain : ∀ kind ∈ kinds, ':' ∉ kind.toList ∧ '@' ∉ kind.toList := by decide
  intro listed
  rcases mark with rfl | rfl
  · exact (plain name listed).1 there
  · exact (plain name listed).2 there

end Own

section Blocks

variable {doc : Document} {ds es : List Directive}

theorem allProper_nil : AllProper doc [] := fun _ there => absurd there List.not_mem_nil

theorem AllProper.append (first : AllProper doc ds) (second : AllProper doc es) :
    AllProper doc (ds ++ es) := by
  intro d there
  rw [blockFixed_eq_flatMap, List.flatMap_append, List.mem_append, ← blockFixed_eq_flatMap,
    ← blockFixed_eq_flatMap] at there
  exact there.elim (first d) (second d)

theorem AllProper.cons {d : Directive} (first : AllProper doc [d]) (rest : AllProper doc ds) :
    AllProper doc (d :: ds) := first.append rest

theorem allProper_flatMap {α : Type} {xs : List α} {f : α → List Directive}
    (each : ∀ x ∈ xs, AllProper doc (f x)) : AllProper doc (xs.flatMap f) := by
  induction xs with
  | nil => exact allProper_nil
  | cons x xs ih =>
    obtain ⟨first, rest⟩ := List.forall_mem_cons.1 each
    rw [List.flatMap_cons]
    exact first.append (ih rest)

theorem allProper_map {α : Type} {xs : List α} {f : α → Directive}
    (each : ∀ x ∈ xs, AllProper doc [f x]) : AllProper doc (xs.map f) := by
  rw [List.map_eq_flatMap]
  exact allProper_flatMap each

theorem allProper_leaf {name : String} {args : List String} (own : Proper doc { name, args }) :
    AllProper doc [{ name, args }] := by
  intro d there
  rw [blockFixed, fixed, blockFixed, List.append_nil, List.mem_singleton] at there
  exact there ▸ own

theorem allProper_block {name : String} {args : List String} {children : List Directive}
    (own : Proper doc { name, args, block := some children })
    (inside : name ∉ entryBlocks → AllProper doc children) :
    AllProper doc [{ name, args, block := some children }] := by
  intro d there
  rw [blockFixed, fixed, blockFixed, List.append_nil] at there
  rcases List.mem_cons.1 there with rfl | there
  · exact own
  · by_cases entries : name ∈ entryBlocks
    · rw [if_pos entries] at there
      cases there
    · rw [if_neg entries] at there
      exact inside entries d there

end Blocks

section Arguments

variable {s t : String}

theorem trimmed_of_present? (given : present? s = some t) : t ≠ "" ∧ Text.Trimmed t.toList := by
  obtain ⟨said, rfl⟩ := present?_eq_some_iff.1 given
  exact ⟨said, Text.trimmed_toList_trim s⟩

theorem trimmed_upstreamAddress (port : NumberText) (said : t ≠ "" ∧ Text.Trimmed t.toList) :
    upstreamAddress t port ≠ "" ∧ Text.Trimmed (upstreamAddress t port).toList := by
  obtain ⟨some, ends⟩ := said
  unfold upstreamAddress
  cases port.port? with
  | none => exact ⟨some, ends⟩
  | some p =>
    have behind : ∀ c ∈ ':' :: (toString p).toList, Text.isBlank c = false := by
      rw [Nat.toString_eq_repr, Nat.toList_repr]
      exact List.forall_mem_cons.2 ⟨rfl, (Numeral.decimal_toDigits p).not_isBlank⟩
    have text : (t ++ ":" ++ toString p).toList = t.toList ++ ':' :: (toString p).toList := by simp
    refine ⟨by simp [some], ?_⟩
    rw [text]
    exact ends.append (Text.trimmed_of_filled behind)

theorem trimmed_of_mem_filterMap {ss : List String} (listed : t ∈ ss.filterMap present?) :
    t ≠ "" ∧ Text.Trimmed t.toList := by
  obtain ⟨s, -, given⟩ := List.mem_filterMap.1 listed
  exact trimmed_of_present? given

theorem trimmed_of_mem_upstreamList {hosts : List String} {port : NumberText}
    (listed : t ∈ upstreamList hosts port) : t ≠ "" ∧ Text.Trimmed t.toList := by
  obtain ⟨host, there, rfl⟩ := List.mem_map.1 listed
  exact trimmed_upstreamAddress port (trimmed_of_mem_filterMap there)

end Arguments

section Kinds

variable {doc : Document} {name : String}

theorem allProper_other (other : name ∉ kinds) (args : List String) :
    AllProper doc [{ name, args }] := allProper_leaf (.of_other other)

theorem allProper_otherBlock (other : name ∉ kinds) (args : List String) {children : List Directive}
    (inside : AllProper doc children) : AllProper doc [{ name, args, block := some children }] :=
  allProper_block (.of_other other) fun _ => inside

theorem allProper_optional (other : name ∉ kinds) (a : Option String) :
    AllProper doc (optional name a) :=
  allProper_map fun a _ => allProper_other other [a]

theorem allProper_bare (other : name ∉ kinds) (wanted : Bool) : AllProper doc (bare name wanted) := by
  cases wanted with
  | false => exact allProper_nil
  | true => exact allProper_other other []

theorem allProper_optionalWords (listed : name ∈ wordLists) (s : String) :
    AllProper doc (optionalWords name s) := by
  refine allProper_map fun t there => allProper_leaf (.of_words listed ?_ ?_)
  · obtain ⟨some, ends⟩ := trimmed_of_present? (Option.mem_toList.1 there)
    exact Text.words_ne_nil some ends
  · exact fun word there => ⟨Text.ne_empty_of_mem_words there, Text.not_isBlank_of_mem_words there⟩

theorem allProper_frame (frame : name ∈ frames) (args : List String) {ds : List Directive}
    (inside : AllProper doc ds) :
    AllProper doc (if ds.isEmpty then [] else [{ name, args, block := some ds }]) := by
  cases ds with
  | nil => exact allProper_nil
  | cons d ds => exact allProper_block (.of_frame frame fun _ => List.cons_ne_nil d ds) fun _ => inside

theorem allProper_proxied (listed : name ∈ textLists) (hosts : List String) (port : NumberText)
    {inside : List Directive} (proper : AllProper doc inside) :
    AllProper doc (match upstreamList hosts port with
      | [] => []
      | upstreams => [{ name, args := upstreams, block := some inside }]) := by
  have texts : ∀ a ∈ upstreamList hosts port, a ≠ "" ∧ Text.Trimmed a.toList :=
    fun _ => trimmed_of_mem_upstreamList
  cases found : upstreamList hosts port with
  | nil => exact allProper_nil
  | cons upstream rest =>
    rw [found] at texts
    exact allProper_block (.of_texts listed (List.cons_ne_nil upstream rest) texts) fun _ => proper

end Kinds

section Global

variable {doc : Document}

theorem allProper_serversBlock (g : General) : AllProper doc (serversBlock g) := by
  have timeouts : AllProper doc (optional "read_body" (duration? g.readBodyTimeout) ++
      optional "read_header" (duration? g.readHeaderTimeout) ++
      optional "write" (duration? g.writeTimeout) ++ optional "idle" (duration? g.idleTimeout)) :=
    (((allProper_optional (by decide) _).append (allProper_optional (by decide) _)).append
      (allProper_optional (by decide) _)).append (allProper_optional (by decide) _)
  unfold serversBlock
  dsimp only
  refine allProper_frame (by decide) [] ?_
  exact ((allProper_optionalWords (by decide) _).append (allProper_bare (by decide) _)).append
    (allProper_frame (by decide) [] timeouts)

theorem allProper_rawMatch {r : RawRoute} (known : r ∈ doc.rawRoutes) :
    AllProper doc (rawMatch r) := by
  have entries : "match" ∈ entryBlocks := by decide
  refine allProper_map fun matcher there => allProper_block (.of_entries entries ?_)
    (fun outside => absurd entries outside)
  have given : present? r.matcher = some matcher :=
    (Option.filter_eq_some_iff.1 (Option.mem_toList.1 there)).1
  intro e inside
  obtain rfl : e = { name := matcher, args := r.matchDomains.filterMap present? } := by
    simpa [children, blockWithin, within] using inside
  exact .inr ⟨r, known, matcher, given, rfl⟩

theorem allProper_rawProxy (r : RawRoute) : AllProper doc (rawProxy r) := by
  have version : AllProper doc
      (if Text.trim r.proxyProtocol = "v1" || Text.trim r.proxyProtocol = "v2" then
        [{ name := "proxy_protocol", args := [Text.trim r.proxyProtocol] }] else []) := by
    split
    · exact allProper_other (by decide) _
    · exact allProper_nil
  refine allProper_proxied (by decide) r.upstreams r.upstreamPort ?_
  exact ((version.append (allProper_optionalWords (by decide) _)).append
    (allProper_optional (by decide) _)).append (allProper_optional (by decide) _)

theorem allProper_rawTls (r : RawRoute) : AllProper doc (rawTls r) := by
  refine (allProper_bare (by decide) _).append ?_
  cases r.upstreamTls with
  | off => exact allProper_nil
  | verify => exact allProper_other (by decide) []
  | skipVerify => exact allProper_otherBlock (by decide) [] (allProper_other (by decide) [])

theorem allProper_rawRouteBlock {r : RawRoute} (known : r ∈ doc.rawRoutes) :
    AllProper doc [rawRouteBlock r] := by
  have other : ":" ++ (r.fromPort.port?.map toString).getD "443" ∉ kinds :=
    not_mem_kinds (c := ':') (by simp) (.inl rfl)
  exact allProper_otherBlock other []
    (((allProper_rawMatch known).append (allProper_rawProxy r)).append (allProper_rawTls r))

theorem allProper_rawRoutesBlock (g : General) : AllProper doc (rawRoutesBlock g doc.rawRoutes) := by
  unfold rawRoutesBlock
  split
  · refine allProper_otherBlock (by decide) [] (allProper_map fun r there => ?_)
    exact allProper_rawRouteBlock (List.mem_filter.1 there).1
  · exact allProper_nil

theorem allProper_globalOptions (g : General) :
    AllProper doc [globalOptions g doc.rawRoutes] := by
  have level : AllProper doc ((present? g.logLevel).toList.map fun level =>
      { name := "log", block := some [{ name := "level", args := [level] }] }) :=
    allProper_map fun level _ =>
      allProper_otherBlock (by decide) [] (allProper_other (by decide) [level])
  refine allProper_otherBlock (by decide) [] ?_
  exact ((((((allProper_optional (by decide) _).append (allProper_optional (by decide) _)).append
    level).append (allProper_optional (by decide) _)).append (allProper_optional (by decide) _)).append
    (allProper_serversBlock g)).append (allProper_rawRoutesBlock g)

end Global

section Handlers

variable {doc : Document}

theorem allProper_rejectionRule (names : String) (list : AccessList) :
    AllProper doc [rejectionRule names list] := by
  have other : (rejectionRule names list).name ∉ kinds := by
    rw [rejectionRule_name]
    rcases rejection_name list with name | name <;> rw [name] <;> decide
  have plain : (rejectionRule names list).block = none := by
    unfold rejectionRule rejection
    split <;> split <;> rfl
  cases made : rejectionRule names list with
  | mk name args block =>
    rw [made] at other plain
    subst plain
    exact allProper_other other args

theorem allProper_matcherBlock {names : String} (begins : NamesMatchers names) {list : AccessList}
    (listed : addresses list ≠ []) : AllProper doc [matcherBlock names list] := by
  have other : names ++ list.id ∉ kinds :=
    not_mem_kinds (List.mem_of_mem_head? (begins.append list.id)) (.inr rfl)
  have texts : list.matcher.toText ∈ textLists := by cases list.matcher <;> decide
  exact allProper_otherBlock other []
    (allProper_leaf (.of_texts texts listed fun _ => trimmed_of_mem_filterMap))

theorem allProper_accessControl {names : String} (begins : NamesMatchers names)
    (ids : List String) : AllProper doc (accessControl doc names ids) := by
  rw [accessControl_eq]
  refine allProper_flatMap fun list there => ?_
  have listed : addresses list ≠ [] := by
    simpa using (List.mem_filter.1 there).2
  exact AllProper.cons (allProper_matcherBlock begins listed)
    (allProper_rejectionRule names list)

theorem allProper_basicAuth (ids : List String) : AllProper doc (basicAuth doc ids) := by
  have entries : "basicauth" ∈ entryBlocks := by decide
  refine allProper_map fun c there => allProper_block (.of_entries entries ?_)
    (fun outside => absurd entries outside)
  obtain ⟨id, -, found⟩ := List.mem_filterMap.1 there
  intro e inside
  obtain rfl : e = c.directive := by
    simpa [children, blockWithin, within, Credential.directive] using inside
  exact .inl ⟨c, (TextMap.mem_of_find?_byId found).2, rfl⟩

theorem allProper_headers {name : HeaderRule → String} (other : ∀ rule, name rule ∉ kinds)
    (headers : List HeaderRule) :
    AllProper doc (headers.map fun rule => headerChange (name rule) rule) := by
  refine allProper_map fun rule _ => ?_
  unfold headerChange
  dsimp only
  split <;> exact allProper_other (other rule) _

theorem allProper_transport (certsDir : String) (h : Handler) :
    AllProper doc (transport certsDir h) := by
  have verification : AllProper doc (bare "tls" h.tls ++
      bare "tls_insecure_skip_verify" (h.tls && h.tlsInsecure)) :=
    (allProper_bare (by decide) _).append (allProper_bare (by decide) _)
  unfold transport
  dsimp only
  split
  · have frame : "transport" ∈ frames := by decide
    refine allProper_block (.of_frame frame fun usual => ?_) fun _ => verification
    rcases usual with name | name | ⟨-, args⟩
    · exact absurd name (by simp)
    · exact absurd name (by simp)
    · exact absurd args (by simp)
  · refine allProper_frame (by decide) ["http"] (((verification.append ?_).append
      (allProper_optionalWords (by decide) _)).append (allProper_optional (by decide) _))
    split
    · exact (allProper_optional (by decide) _).append (allProper_optional (by decide) _)
    · exact allProper_nil

theorem allProper_balancing (b : LoadBalancing) : AllProper doc (balancing b) :=
  (((allProper_optionalWords (by decide) _).append (allProper_optional (by decide) _)).append
    (allProper_optional (by decide) _)).append (allProper_optional (by decide) _)

theorem allProper_healthChecks (c : HealthCheck) : AllProper doc (healthChecks c) :=
  (((allProper_optional (by decide) _).append (allProper_optional (by decide) _)).append
    (allProper_optional (by decide) _)).append (allProper_optional (by decide) _)

theorem allProper_passiveHealth (p : PassiveHealth) : AllProper doc (passiveHealth p) :=
  ((((allProper_optional (by decide) _).append (allProper_optional (by decide) _)).append
    (allProper_optionalWords (by decide) _)).append (allProper_optional (by decide) _)).append
    (allProper_optional (by decide) _)

theorem allProper_reverseProxy (certsDir : String) (h : Handler) (headers : List HeaderRule) :
    AllProper doc (reverseProxy certsDir h headers) := by
  have other (rule : HeaderRule) : rule.direction.toText ∉ kinds := by
    cases rule.direction <;> decide
  refine allProper_proxied (by decide) h.upstreams h.upstreamPort ?_
  exact ((((allProper_headers other headers).append (allProper_transport certsDir h)).append
    (allProper_balancing h.balancing)).append (allProper_healthChecks h.health)).append
    (allProper_passiveHealth h.passiveHealth)

theorem allProper_actionClauses (certsDir : String) (h : Handler) (headers : List HeaderRule) :
    AllProper doc (actionClauses certsDir h headers) := by
  have changes : AllProper doc (headers.map (headerChange "header")) :=
    allProper_headers (fun _ => by decide) headers
  unfold actionClauses
  cases h.action with
  | proxy => exact allProper_reverseProxy certsDir h headers
  | redirect => exact changes.append (allProper_map fun _ _ => allProper_other (by decide) _)
  | other name => exact changes

theorem allProper_handlerBlock (certsDir : String) (h : Handler) :
    AllProper doc [handlerBlock certsDir doc h] := by
  have other : h.pathMatch.toText ∉ kinds := by cases h.pathMatch <;> decide
  exact allProper_otherBlock other _
    (((allProper_accessControl namesMatchers_handler _).append (allProper_basicAuth _)).append
      (allProper_actionClauses certsDir h _))

end Handlers

section Sites

variable {doc : Document}

theorem allProper_tls (certsDir : String) (d : Domain) (args : List String) :
    AllProper doc [{ name := "tls", args, block := clientAuth certsDir d }] := by
  unfold clientAuth
  cases present? d.clientAuthMode with
  | none => exact allProper_other (by decide) args
  | some mode =>
    refine allProper_otherBlock (by decide) args (allProper_otherBlock (by decide) [] ?_)
    exact AllProper.cons (allProper_other (by decide) [mode])
      (allProper_optional (by decide) _)

theorem allProper_tlsClause (certsDir : String) (site : Site) :
    AllProper doc (tlsClause certsDir site) := by
  unfold tlsClause
  cases site.tls with
  | off => exact allProper_nil
  | internal => exact allProper_tls certsDir site.domain ["internal"]
  | custom cert key => exact allProper_tls certsDir site.domain [cert, key]

theorem colon_mem_key (certsDir : String) (d : Domain) :
    ':' ∈ (siteOf certsDir doc d).key.toList := by
  change ':' ∈ (Text.join ", " (d.address :: (doc.subdomainsOf d.id).map d.addressOf)).toList
  have own : ':' ∈ d.address.toList := by simp [Domain.address]
  cases (doc.subdomainsOf d.id).map d.addressOf with
  | nil => exact own
  | cons address rest => simp [Text.join, own]

theorem allProper_siteBlock (certsDir : String) (d : Domain) :
    AllProper doc [siteBlock certsDir doc (siteOf certsDir doc d)] := by
  have other : (siteOf certsDir doc d).key ∉ kinds :=
    not_mem_kinds (colon_mem_key certsDir d) (.inl rfl)
  exact allProper_otherBlock other []
    (((((allProper_tlsClause certsDir _).append (allProper_bare (by decide) _)).append
      (allProper_accessControl namesMatchers_site _)).append (allProper_basicAuth _)).append
      (allProper_map fun h _ => allProper_handlerBlock certsDir h))

theorem allProper_blocks (certsDir : String) : AllProper doc (blocks certsDir doc) := by
  refine AllProper.cons (allProper_globalOptions doc.general)
    (allProper_map fun site rendered => ?_)
  obtain ⟨-, d, -, rfl⟩ := mem_renderedSites_iff.1 rendered
  exact allProper_siteBlock certsDir d

end Sites

/-- In the blocks that are written as the compiled text, every directive with a list has an argument,
and none that is empty or has blanks around it, or at all where words are listed; every block of
options has something in it.  This goes for all directives but those that a text of the document
names: the users in `basicauth` blocks and what stands in the `match` blocks of raw routes. -/
theorem lists_furnished (certsDir : String) (doc : Document) :
    (compile certsDir doc).text = format (blocks certsDir doc) ∧
      (∀ d ∈ blockFixed (blocks certsDir doc), d.Furnished) ∧
      ∀ d ∈ blockWithin (blocks certsDir doc),
        d ∈ blockFixed (blocks certsDir doc) ∨ doc.Names d := by
  have proper : AllProper doc (blocks certsDir doc) := allProper_blocks certsDir
  refine ⟨rfl, fun d there => (proper d there).toFurnished, fun d inside => ?_⟩
  rcases mem_blockWithin_cases _ inside with fixed | ⟨e, there, entries, behind⟩
  · exact .inl fixed
  · exact .inr ((proper e there).named entries d behind)

def everyList : Document where
  general := { enabled := true, rawEnabled := true, httpVersions := "h1 h2", idleTimeout := "2m" }
  domains := [{ Domain.serving "d" "d.example" with
    accessLists := ["office", "partners"], credentials := ["odd"] }]
  handlers := [{ Handler.proxying "h" "d" [" ", "\u3000one "] ⟨"80"⟩ with
    httpVersions := " 1.1\t2 "
    balancing := { policy := "random choose 2" }
    passiveHealth := { unhealthyStatus := "500 502" } }]
  accessLists := [{ id := "office", clientIps := ["10.0.0.1 ", ""] },
    { id := "partners", clientIps := ["10.0.0.2"], matcher := .clientIp }]
  credentials := [{ id := "odd", username := "reverse_proxy" }]
  rawRoutes := [.forwarding "r" ⟨"22"⟩ ["two"] ⟨""⟩]

theorem lists_furnished_everyList :
    (∀ name ∈ textLists ++ wordLists, ∃ d ∈ blockFixed (blocks "./certs" everyList),
      d.name = name ∧ d.args ≠ [] ∧ ∀ a ∈ d.args, a ≠ "" ∧ Text.Trimmed a.toList) ∧
    (∀ name ∈ frames, ∃ d ∈ blockFixed (blocks "./certs" everyList),
      d.name = name ∧ d.children ≠ []) ∧
    ∃ d ∈ blockWithin (blocks "./certs" everyList),
      d.name = "reverse_proxy" ∧ d.args = [""] ∧ everyList.Names d := by
  have lists : ∀ name ∈ textLists ++ wordLists,
      ∃ d ∈ blockFixed (blocks "./certs" everyList), d.name = name := by decide +kernel
  have options : ∀ name ∈ frames,
      ∃ d ∈ blockFixed (blocks "./certs" everyList), d.name = name ∧ d.IsFrame := by decide +kernel
  have user : ∃ d ∈ blockWithin (blocks "./certs" everyList),
      d.name = "reverse_proxy" ∧ d.args = [""] := by decide +kernel
  obtain ⟨-, furnished, named⟩ := lists_furnished "./certs" everyList
  refine ⟨fun name listed => ?_, fun name listed => ?_, ?_⟩
  · obtain ⟨d, there, rfl⟩ := lists name listed
    exact ⟨d, there, rfl, (furnished d there).args_ne_nil listed, (furnished d there).trimmed listed⟩
  · obtain ⟨d, there, rfl, frame⟩ := options name listed
    exact ⟨d, there, rfl, (furnished d there).children_ne_nil frame⟩
  · obtain ⟨d, inside, name, args⟩ := user
    refine ⟨d, inside, name, args, (named d inside).resolve_left fun there => ?_⟩
    -- a directive that is fixed would have an argument that says something
    have said := (furnished d there).trimmed (by rw [name]; decide) "" (by rw [args]; decide)
    exact said.1 rfl

end Caddyfile

end ProxyConfig
