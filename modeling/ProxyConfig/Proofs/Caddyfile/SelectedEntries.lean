import ProxyConfig.Proofs.Caddyfile.SiteIndependence

/-!
Documents with some of their domains, subdomains, handlers and raw routes.  What is left out takes its
own text away, and nothing else grows in its place, so that lengths tell whether a text has lost anything.
Main statement: the text stays exactly if everything that was rendered is selected
(`text_selected_eq_iff`).
-/

namespace ProxyConfig

/-- The first text is not longer than the second one.  Where the condition holds they are the same, and
where it does not, the first one is shorter. -/
structure Shortened (kept : Prop) (s t : String) : Prop where
  length_le : s.length ≤ t.length
  kept_of_length_eq : s.length = t.length → kept
  eq_of_kept : kept → s = t

namespace Shortened

variable {p q : Prop} {s t u v : String}

theorem eq_iff (h : Shortened p s t) : s = t ↔ p :=
  ⟨fun same => h.kept_of_length_eq (congrArg String.length same), h.eq_of_kept⟩

theorem same (s : String) : Shortened True s s :=
  ⟨Nat.le_refl _, fun _ => trivial, fun _ => rfl⟩

theorem of_iff (h : Shortened p s t) (same : p ↔ q) : Shortened q s t :=
  propext same ▸ h

theorem append (h : Shortened p s t) (k : Shortened q u v) :
    Shortened (p ∧ q) (s ++ u) (t ++ v) where
  length_le := by
    rw [String.length_append, String.length_append]
    exact Nat.add_le_add h.length_le k.length_le
  kept_of_length_eq := by
    have front := h.length_le
    have back := k.length_le
    rw [String.length_append, String.length_append]
    exact fun equal => ⟨h.kept_of_length_eq (by omega), k.kept_of_length_eq (by omega)⟩
  eq_of_kept := fun kept => by rw [h.eq_of_kept kept.1, k.eq_of_kept kept.2]

theorem prepend (h : Shortened p s t) (u : String) : Shortened p (u ++ s) (u ++ t) :=
  ((same u).append h).of_iff (iff_of_eq (true_and p))

theorem followed (h : Shortened p s t) (u : String) : Shortened p (s ++ u) (t ++ u) :=
  (h.append (same u)).of_iff (iff_of_eq (and_true p))

theorem join {α : Type} {kept : α → Prop} {f g : α → String} {xs ys : List α}
    (fewer : ys.Sublist xs) (each : ∀ x ∈ xs, Shortened (kept x) (f x) (g x))
    (filled : ∀ x ∈ xs, 0 < (g x).length) :
    Shortened (ys = xs ∧ ∀ x ∈ xs, kept x) (String.join (ys.map f)) (String.join (xs.map g)) := by
  induction fewer with
  | slnil => exact (same "").of_iff (by simp)
  | @cons ys xs x fewer ih =>
    obtain ⟨-, each⟩ := List.forall_mem_cons.1 each
    obtain ⟨first, filled⟩ := List.forall_mem_cons.1 filled
    have rest := (ih each filled).length_le
    -- what is left out had a text of its own, so the whole got shorter
    have shorter : (String.join (ys.map f)).length < (String.join ((x :: xs).map g)).length := by
      rw [List.map_cons, String.join_cons, String.length_append]
      omega
    have dropped : ys ≠ x :: xs := fun whole => by
      have fewer := fewer.length_le
      rw [whole, List.length_cons] at fewer
      omega
    exact ⟨Nat.le_of_lt shorter, fun equal => absurd equal (Nat.ne_of_lt shorter),
      fun whole => absurd whole.1 dropped⟩
  | @cons_cons ys xs x fewer ih =>
    obtain ⟨first, each⟩ := List.forall_mem_cons.1 each
    obtain ⟨-, filled⟩ := List.forall_mem_cons.1 filled
    rw [List.map_cons, List.map_cons, String.join_cons, String.join_cons]
    refine (first.append (ih each filled)).of_iff ?_
    rw [List.forall_mem_cons, List.cons.injEq, and_left_comm]
    exact (and_congr_left' (and_iff_right rfl)).symm

theorem join_same {α : Type} {f : α → String} {xs ys : List α} (fewer : ys.Sublist xs)
    (filled : ∀ x ∈ xs, 0 < (f x).length) :
    Shortened (ys = xs) (String.join (ys.map f)) (String.join (xs.map f)) :=
  (join fewer (fun x _ => same (f x)) filled).of_iff
    (and_iff_left fun _ _ => trivial)

end Shortened

def Document.placedHandlers (doc : Document) (d : Domain) : List Handler :=
  doc.handlers.filter (·.PlacedIn doc d)

namespace Caddyfile

open Directive

namespace Directive

theorem blockLines_eq_join (depth : Nat) (ds : List Directive) :
    blockLines depth ds = String.join (ds.map (lines depth)) := by
  induction ds with
  | nil => rfl
  | cons d ds ih => rw [blockLines, ih, List.map_cons, String.join_cons]

theorem blockLines_append (depth : Nat) (ds es : List Directive) :
    blockLines depth (ds ++ es) = blockLines depth ds ++ blockLines depth es := by
  simp [blockLines_eq_join]

theorem length_lines_pos (depth : Nat) (d : Directive) : 0 < (lines depth d).length := by
  obtain ⟨name, args, block⟩ := d
  cases block with
  | none =>
    have newline : 0 < "\n".length := by decide
    simp only [lines, String.length_append]
    omega
  | some children =>
    have brace : 0 < "\x7d\n".length := by decide
    simp only [lines, String.length_append]
    omega

theorem indent_zero : indent 0 = "" := rfl

theorem lines_block (depth : Nat) {name : String} (named : name ≠ "") (children : List Directive) :
    lines depth { name, block := some children } =
      indent depth ++ name ++ " \x7b\n" ++ blockLines (depth + 1) children ++ indent depth ++
        "\x7d\n" := by
  have line : head ⟨name, [], none⟩ = name := rfl
  have filled : name.isEmpty = false := by simpa using named
  simp only [lines, line, filled]
  rfl

end Directive

theorem join_cons_eq (between s : String) (rest : List String) :
    Text.join between (s :: rest) = s ++ String.join (rest.map (between ++ ·)) := by
  induction rest generalizing s with
  | nil => simp [Text.join]
  | cons t rest ih => simp [Text.join, ih, String.append_assoc]

theorem address_ne_empty (d : Domain) : d.address ≠ "" := by
  simp [Domain.address]

def siteOptions (certsDir : String) (doc : Document) (d : Domain) : List Directive :=
  tlsClause certsDir (siteOf certsDir doc d) ++ bare "log" d.accessLog ++
    accessControl doc siteMatchers d.accessLists ++ basicAuth doc d.credentials

theorem siteText_eq (certsDir : String) (doc : Document) (d : Domain) :
    siteText certsDir doc d = d.address ++
      String.join ((doc.subdomainsOf d.id).map fun s => ", " ++ d.addressOf s) ++ " \x7b\n" ++
      blockLines 1 (siteOptions certsDir doc d) ++
      String.join ((doc.placedHandlers d).map fun h =>
        lines 1 (handlerBlock certsDir doc h)) ++ "\x7d\n\n" := by
  have key : (siteOf certsDir doc d).key = d.address ++
      String.join ((doc.subdomainsOf d.id).map fun s => ", " ++ d.addressOf s) := by
    rw [Site.key, siteOf, Site.of, join_cons_eq, List.map_map]
    rfl
  have named : (siteOf certsDir doc d).key ≠ "" := by
    simp [key, address_ne_empty]
  have handlers : blockLines 1 ((doc.placedHandlers d).map (handlerBlock certsDir doc)) =
      String.join ((doc.placedHandlers d).map fun h =>
        lines 1 (handlerBlock certsDir doc h)) := by
    rw [blockLines_eq_join, List.map_map]
    rfl
  have block : siteBlock certsDir doc (siteOf certsDir doc d) =
      { name := (siteOf certsDir doc d).key
        block := some (siteOptions certsDir doc d ++
          (doc.placedHandlers d).map (handlerBlock certsDir doc)) } := by
    rw [Document.placedHandlers, ← filter_attaches_siteOf certsDir]
    rfl
  rw [siteText, block, format, format, lines_block 0 named, blockLines_append, handlers, key]
  simp only [indent_zero, String.empty_append, String.append_empty, String.append_assoc]
  rfl

theorem length_siteText_pos (certsDir : String) (doc : Document) (d : Domain) :
    0 < (siteText certsDir doc d).length := by
  have brace : 0 < "\x7d\n\n".length := by decide
  rw [siteText_eq, String.length_append]
  omega

def serverOptions (g : General) : List Directive :=
  optional "http_port" (g.httpPort.port?.map toString) ++
  optional "https_port" (g.httpsPort.port?.map toString) ++
  (present? g.logLevel).toList.map (fun level =>
    { name := "log", block := some [{ name := "level", args := [level] }] }) ++
  optional "auto_https" (present? g.autoHttps) ++
  optional "email" (present? g.email) ++ serversBlock g

def rawRoutesText (g : General) (routes : List RawRoute) : String :=
  blockLines 1 (rawRoutesBlock g routes)

theorem globalText_eq (doc : Document) :
    globalText doc = "\x7b\n" ++ blockLines 1 (serverOptions doc.general) ++
      rawRoutesText doc.general doc.rawRoutes ++ "\x7d\n\n" := by
  have block : globalOptions doc.general doc.rawRoutes =
      .anonymous (serverOptions doc.general ++ rawRoutesBlock doc.general doc.rawRoutes) := rfl
  have line : head ⟨"", [], none⟩ = "" := rfl
  rw [globalText, block, format, format, anonymous, lines, blockLines_append, line]
  simp only [rawRoutesText, indent_zero, String.empty_append, String.append_empty,
    String.append_assoc]
  rfl

theorem rawRoutesText_eq {g : General} {routes : List RawRoute} (on : g.rawEnabled = true)
    (some : routes ≠ []) :
    rawRoutesText g routes = indent 1 ++ "layer4" ++ " \x7b\n" ++
      String.join ((routes.filter (·.enabled)).map fun r => lines 2 (rawRouteBlock r)) ++
      indent 1 ++ "\x7d\n" := by
  have block : rawRoutesBlock g routes =
      [{ name := "layer4", block := Option.some ((routes.filter (·.enabled)).map rawRouteBlock) }] :=
    if_pos (by simp [on, some])
  rw [rawRoutesText, block, blockLines, blockLines, lines_block 1 (by decide),
    blockLines_eq_join, List.map_map]
  exact String.append_empty

theorem rawRoutesText_of_not_enabled {g : General} (off : g.rawEnabled = false)
    (routes : List RawRoute) : rawRoutesText g routes = "" := by
  rw [rawRoutesText, rawRoutesBlock, off]
  rfl

end Caddyfile

namespace Document

/-- Some of the entries of a document, in their order.  A document with raw routes keeps one of them,
since the block of the raw routes is there for routes that are switched off, too. -/
structure Selection (doc : Document) where
  domains : List Domain
  subdomains : List Subdomain
  handlers : List Handler
  rawRoutes : List RawRoute
  domains_sublist : domains.Sublist doc.domains
  subdomains_sublist : subdomains.Sublist doc.subdomains
  handlers_sublist : handlers.Sublist doc.handlers
  rawRoutes_sublist : rawRoutes.Sublist doc.rawRoutes
  rawRoutes_ne_nil : doc.rawRoutes ≠ [] → rawRoutes ≠ []

variable {doc : Document}

def Selection.document (selection : doc.Selection) : Document :=
  { doc with
    domains := selection.domains
    subdomains := selection.subdomains
    handlers := selection.handlers
    rawRoutes := selection.rawRoutes }

structure Selection.KeepsRendered (selection : doc.Selection) : Prop where
  rawRoutes : doc.general.rawEnabled = true →
    selection.rawRoutes.filter (·.enabled) = doc.rawRoutes.filter (·.enabled)
  domains : doc.general.enabled = true →
    selection.document.enabledDomains = doc.enabledDomains
  subdomains : doc.general.enabled = true → ∀ d ∈ doc.enabledDomains,
    selection.document.subdomainsOf d.id = doc.subdomainsOf d.id
  handlers : doc.general.enabled = true → ∀ d ∈ doc.enabledDomains,
    selection.document.placedHandlers d = doc.placedHandlers d

end Document

namespace Caddyfile

open Directive

variable {certsDir : String} {doc : Document} (selection : doc.Selection)

theorem shortened_rawRoutesText :
    Shortened (doc.general.rawEnabled = true →
        selection.rawRoutes.filter (·.enabled) = doc.rawRoutes.filter (·.enabled))
      (rawRoutesText doc.general selection.rawRoutes)
      (rawRoutesText doc.general doc.rawRoutes) := by
  cases raw : doc.general.rawEnabled with
  | false =>
    rw [rawRoutesText_of_not_enabled raw, rawRoutesText_of_not_enabled raw]
    exact (Shortened.same "").of_iff (by simp)
  | true =>
    by_cases none : doc.rawRoutes = []
    · have noneToo : selection.rawRoutes = [] := by
        simpa [none] using selection.rawRoutes_sublist
      rw [none, noneToo]
      exact (Shortened.same _).of_iff (by simp)
    · rw [rawRoutesText_eq raw none, rawRoutesText_eq raw (selection.rawRoutes_ne_nil none)]
      have routes := Shortened.join_same (selection.rawRoutes_sublist.filter (·.enabled))
        fun r _ => length_lines_pos 2 (rawRouteBlock r)
      exact (((routes.prepend _).followed _).followed _).of_iff
        ⟨fun kept _ => kept, fun kept => kept rfl⟩

theorem shortened_globalText :
    Shortened (doc.general.rawEnabled = true →
        selection.rawRoutes.filter (·.enabled) = doc.rawRoutes.filter (·.enabled))
      (globalText selection.document) (globalText doc) := by
  rw [globalText_eq, globalText_eq]
  exact ((shortened_rawRoutesText selection).prepend _).followed _

theorem placedHandlers_sublist (d : Domain) :
    (selection.document.placedHandlers d).Sublist (doc.placedHandlers d) := by
  have placed (h : Handler) (there : h.PlacedIn selection.document d) : h.PlacedIn doc d :=
    ⟨there.1, there.2.imp_left fun ⟨named, s, hs, serves⟩ =>
      ⟨named, s, selection.subdomains_sublist.subset hs, serves⟩⟩
  exact (List.monotone_filter_right _ fun h => by simpa using placed h).trans
    (selection.handlers_sublist.filter _)

theorem subdomainsOf_sublist (domainId : String) :
    (selection.document.subdomainsOf domainId).Sublist (doc.subdomainsOf domainId) := by
  rw [Document.subdomainsOf_eq, Document.subdomainsOf_eq]
  exact selection.subdomains_sublist.filter _

theorem shortened_siteText (certsDir : String) (d : Domain) :
    Shortened (selection.document.subdomainsOf d.id = doc.subdomainsOf d.id ∧
        selection.document.placedHandlers d = doc.placedHandlers d)
      (siteText certsDir selection.document d) (siteText certsDir doc d) := by
  have addresses := Shortened.join_same (f := fun s => ", " ++ d.addressOf s)
    (subdomainsOf_sublist selection d.id) fun s _ => by
      have separator : 0 < ", ".length := by decide
      rw [String.length_append]
      omega
  have handlers := Shortened.join_same (placedHandlers_sublist selection d)
    fun h _ => length_lines_pos 1 (handlerBlock certsDir doc h)
  rw [siteText_eq, siteText_eq]
  exact ((((addresses.prepend _).followed _).followed _).append handlers).followed _

theorem shortened_siteTexts (certsDir : String) :
    Shortened (doc.general.enabled = true →
        selection.document.enabledDomains = doc.enabledDomains ∧
        ∀ d ∈ doc.enabledDomains,
          selection.document.subdomainsOf d.id = doc.subdomainsOf d.id ∧
          selection.document.placedHandlers d = doc.placedHandlers d)
      (String.join (siteTexts certsDir selection.document))
      (String.join (siteTexts certsDir doc)) := by
  cases on : doc.general.enabled with
  | false =>
    have offToo : selection.document.general.enabled = false := on
    rw [siteTexts_of_not_enabled on, siteTexts_of_not_enabled offToo]
    exact (Shortened.same _).of_iff (by simp)
  | true =>
    have onToo : selection.document.general.enabled = true := on
    rw [siteTexts_of_enabled on, siteTexts_of_enabled onToo]
    have sites := Shortened.join (selection.domains_sublist.filter (·.enabled))
      (fun d _ => shortened_siteText selection certsDir d) fun d _ => length_siteText_pos certsDir doc d
    exact sites.of_iff ⟨fun kept _ => kept, fun kept => kept rfl⟩

theorem text_selected_eq_iff (certsDir : String) :
    (compile certsDir selection.document).text = (compile certsDir doc).text ↔
      selection.KeepsRendered := by
  rw [text_compile, text_compile,
    ((shortened_globalText selection).append (shortened_siteTexts selection certsDir)).eq_iff]
  constructor
  · rintro ⟨routes, sites⟩
    exact ⟨routes, fun on => (sites on).1, fun on d hd => ((sites on).2 d hd).1,
      fun on d hd => ((sites on).2 d hd).2⟩
  · exact fun kept => ⟨kept.rawRoutes, fun on => ⟨kept.domains on, fun d hd =>
      ⟨kept.subdomains on d hd, kept.handlers on d hd⟩⟩⟩

end Caddyfile

end ProxyConfig
