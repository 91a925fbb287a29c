import ProxyConfig.Proofs.Caddyfile.TextRows
import ProxyConfig.Proofs.Lint.Formats
import ProxyConfig.Proofs.Text.AcceptedTexts
import ProxyConfig.Proofs.Text.Words

/-!
The lines that times are rendered as.  A time is the one argument of its directive and is written as
it was typed, so its line has the words of the time behind the directive's name.  Main statement: in a
document without findings the line has two words exactly if the time has no blank in it, and the only
accepted times with one are spans that are neither digits nor units side by side
(`words_of_time_lines`).
-/

namespace ProxyConfig

open Caddyfile

def Handler.proxies (h : Handler) : Bool :=
  h.action = .proxy && !(upstreamList h.upstreams h.upstreamPort).isEmpty

def RawRoute.proxies (r : RawRoute) : Bool :=
  r.enabled && !(upstreamList r.upstreams r.upstreamPort).isEmpty

/-- The times that the compiled text has lines for, with the names of their directives. -/
def Document.renderedTimes (certsDir : String) (doc : Document) : List (String × String) :=
  doc.general.times ++
  (if doc.general.rawEnabled then (doc.rawRoutes.filter RawRoute.proxies).flatMap RawRoute.times
    else []) ++
  (renderedSites certsDir doc).flatMap fun site =>
    (doc.handlers.filter fun h => attaches h site && h.proxies).flatMap Handler.times

namespace Caddyfile

open Directive

theorem words_row {name : String} (word : Text.words name = [name]) (depth : Nat) (a : String) :
    Text.words (indent depth ++ head { name, args := [a] }) = name :: Text.words a := by
  have some : name ≠ "" := by
    rintro rfl
    cases word
  rw [words_indent_append, words_head some, word]
  simp

section Argument

variable {s a : String} (given : duration? s = some a)
include given

theorem duration?_cases :
    (Text.trimmed s.toList).all isAsciiDigit = true ∧ a = Text.trim s ++ "s" ∨
      (Text.trimmed s.toList).all isAsciiDigit = false ∧ a = Text.trim s := by
  obtain ⟨t, present, argument⟩ := Option.map_eq_some_iff.1 given
  obtain rfl : Text.trim s = t := (present?_eq_some_iff.1 present).2
  rw [Text.toList_trim] at argument
  split at argument
  case isTrue digits => exact .inl ⟨digits, argument.symm⟩
  case isFalse mixed => exact .inr ⟨Bool.eq_false_iff.2 mixed, argument.symm⟩

theorem length_words_time_eq_one_iff :
    (Text.words a).length = 1 ↔ ∀ c ∈ a.toList, Text.isBlank c = false := by
  obtain ⟨digits, rfl⟩ | ⟨mixed, rfl⟩ := duration?_cases given
  · have filled : ∀ c ∈ (Text.trim s ++ "s").toList, Text.isBlank c = false := by
      rw [String.toList_append, Text.toList_trim, List.forall_mem_append]
      exact ⟨Duration.not_isBlank_of_digits digits, List.forall_mem_singleton.2 rfl⟩
    have some : Text.trim s ++ "s" ≠ "" := by simp [← String.toList_inj]
    rw [Text.words_eq_singleton some filled]
    exact iff_of_true rfl filled
  · have some : Text.trim s ≠ "" := by
      rw [Ne, ← String.toList_inj, Text.toList_trim]
      intro empty
      rw [empty] at mixed
      cases mixed
    exact Text.length_words_eq_one_iff some (Text.trimmed_toList_trim s)

theorem isSome_ofText?_of_blank (accepted : Duration.valid s = true)
    (blank : ∃ c ∈ a.toList, Text.isBlank c = true) :
    a = Text.trim s ∧ a.toList.all isAsciiDigit = false ∧
      Duration.unitSpan.accepts a.toList = false ∧ (Duration.ofText? a.toList).isSome = true := by
  obtain ⟨c, there, blank⟩ := blank
  obtain ⟨digits, rfl⟩ | ⟨mixed, rfl⟩ := duration?_cases given
  · rw [String.toList_append, Text.toList_trim, List.mem_append] at there
    rcases there with there | there
    · rw [Duration.not_isBlank_of_digits digits c there] at blank
      cases blank
    · rw [List.mem_singleton.1 there] at blank
      cases blank
  · rw [Text.toList_trim] at there ⊢
    have apart : Duration.unitSpan.accepts (Text.trimmed s.toList) = false := by
      refine Bool.eq_false_iff.2 fun span => ?_
      rw [Duration.not_isBlank_of_unitSpan span c there] at blank
      cases blank
    rw [Duration.valid, mixed, apart, Bool.false_or, Bool.false_or] at accepted
    exact ⟨rfl, mixed, apart, accepted⟩

end Argument

theorem mem_blockWithin_wrapped {d : Directive} {ds : List Directive} (inside : d ∈ blockWithin ds)
    (name : String) (args : List String) :
    d ∈ blockWithin (if ds.isEmpty then [] else [{ name, args, block := some ds }]) := by
  cases ds with
  | nil => cases inside
  | cons e ds => exact mem_blockWithin_of_block (List.mem_singleton_self _) inside

section Places

variable {name s a : String} (given : duration? s = some a)
include given

theorem mem_optional : { name, args := [a] } ∈ optional name (duration? s) := by
  rw [optional, given]
  exact List.mem_singleton_self _

theorem mem_serversBlock {g : General} (listed : (name, s) ∈ g.times) :
    { name, args := [a] } ∈ blockWithin (serversBlock g) := by
  unfold serversBlock
  refine mem_blockWithin_wrapped ?_ "servers" []
  rw [blockWithin_append]
  refine List.mem_append_right _ (mem_blockWithin_wrapped (mem_blockWithin_of_mem ?_) "timeouts" [])
  simp only [General.times, List.mem_cons, Prod.mk.injEq, List.not_mem_nil, or_false] at listed
  simp only [List.mem_append]
  rcases listed with ⟨rfl, rfl⟩ | ⟨rfl, rfl⟩ | ⟨rfl, rfl⟩ | ⟨rfl, rfl⟩ <;> simp [mem_optional given]

theorem mem_rawProxy {r : RawRoute} (listed : (name, s) ∈ r.times)
    (proxied : upstreamList r.upstreams r.upstreamPort ≠ []) :
    { name, args := [a] } ∈ blockWithin (rawProxy r) := by
  obtain ⟨upstream, rest, found⟩ := List.exists_cons_of_ne_nil proxied
  unfold rawProxy
  rw [found]
  refine mem_blockWithin_of_block (List.mem_singleton_self _) (mem_blockWithin_of_mem ?_)
  obtain ⟨rfl, rfl⟩ := Prod.mk.inj (List.mem_singleton.1 listed)
  exact List.mem_append_left _ (List.mem_append_right _ (mem_optional given))

theorem mem_reverseProxy {h : Handler} (listed : (name, s) ∈ h.times)
    (proxied : upstreamList h.upstreams h.upstreamPort ≠ []) (certsDir : String)
    (headers : List HeaderRule) :
    { name, args := [a] } ∈ blockWithin (reverseProxy certsDir h headers) := by
  obtain ⟨upstream, rest, found⟩ := List.exists_cons_of_ne_nil proxied
  unfold reverseProxy
  rw [found]
  refine mem_blockWithin_of_block (List.mem_singleton_self _) (mem_blockWithin_of_mem ?_)
  simp only [Handler.times, List.mem_cons, Prod.mk.injEq, List.not_mem_nil, or_false] at listed
  simp only [balancing, healthChecks, passiveHealth, List.mem_append]
  rcases listed with ⟨rfl, rfl⟩ | ⟨rfl, rfl⟩ | ⟨rfl, rfl⟩ | ⟨rfl, rfl⟩ | ⟨rfl, rfl⟩ | ⟨rfl, rfl⟩ <;>
    simp [mem_optional given]

theorem mem_globalOptions {doc : Document} (listed : (name, s) ∈ doc.general.times ++
      (if doc.general.rawEnabled then (doc.rawRoutes.filter RawRoute.proxies).flatMap RawRoute.times
      else [])) :
    { name, args := [a] } ∈ (globalOptions doc.general doc.rawRoutes).within := by
  refine mem_within_of_block ?_
  rw [blockWithin_append, blockWithin_append]
  rcases List.mem_append.1 listed with general | raw
  · exact List.mem_append_left _ (List.mem_append_right _ (mem_serversBlock given general))
  · refine List.mem_append_right _ ?_
    split at raw
    case isFalse => cases raw
    case isTrue on =>
      obtain ⟨r, there, listed⟩ := List.mem_flatMap.1 raw
      obtain ⟨known, proxies⟩ := List.mem_filter.1 there
      obtain ⟨enabled, proxied⟩ := Bool.and_eq_true_iff.1 proxies
      have some : doc.rawRoutes.isEmpty = false := List.isEmpty_eq_false_iff.2 (List.ne_nil_of_mem known)
      rw [rawRoutesBlock, on, some]
      have block : rawRouteBlock r ∈ (doc.rawRoutes.filter (·.enabled)).map rawRouteBlock :=
        List.mem_map_of_mem (List.mem_filter.2 ⟨known, enabled⟩)
      refine mem_blockWithin_of_block (List.mem_singleton_self _)
        (mem_blockWithin_of_block block ?_)
      rw [blockWithin_append, blockWithin_append]
      refine List.mem_append_left _ (List.mem_append_right _ (mem_rawProxy given listed ?_))
      simpa using proxied

theorem mem_siteBlock {doc : Document} {site : Site} {h : Handler} (known : h ∈ doc.handlers)
    (attached : attaches h site = true) (proxies : h.proxies = true) (listed : (name, s) ∈ h.times)
    (certsDir : String) : { name, args := [a] } ∈ (siteBlock certsDir doc site).within := by
  have block : handlerBlock certsDir doc h ∈
      (doc.handlers.filter (attaches · site)).map (handlerBlock certsDir doc) :=
    List.mem_map_of_mem (List.mem_filter.2 ⟨known, attached⟩)
  simp only [Handler.proxies, Bool.and_eq_true, decide_eq_true_eq] at proxies
  obtain ⟨proxy, proxied⟩ := proxies
  refine mem_within_of_block (mem_blockWithin_of_block (List.mem_append_right _ block) ?_)
  rw [blockWithin_append, actionClauses, proxy]
  refine List.mem_append_right _ (mem_reverseProxy given listed ?_ certsDir _)
  simpa using proxied

theorem mem_blocks {certsDir : String} {doc : Document}
    (listed : (name, s) ∈ doc.renderedTimes certsDir) :
    { name, args := [a] } ∈ blockWithin (blocks certsDir doc) := by
  rw [blocks, blockWithin]
  rcases List.mem_append.1 listed with options | sites
  · exact List.mem_append_left _ (mem_globalOptions given options)
  · obtain ⟨site, rendered, inside⟩ := List.mem_flatMap.1 sites
    obtain ⟨h, there, listed⟩ := List.mem_flatMap.1 inside
    obtain ⟨known, kept⟩ := List.mem_filter.1 there
    obtain ⟨attached, proxies⟩ := Bool.and_eq_true_iff.1 kept
    refine List.mem_append_right _ ?_
    rw [blockWithin_eq_flatMap]
    exact List.mem_flatMap.2 ⟨_, List.mem_map_of_mem rendered,
      mem_siteBlock given known attached proxies listed certsDir⟩

end Places

section Rendered

variable {certsDir : String} {doc : Document}

theorem forall_mem_renderedTimes {P : String × String → Prop}
    (general : ∀ time ∈ doc.general.times, P time)
    (raw : ∀ r ∈ doc.rawRoutes, ∀ time ∈ r.times, P time)
    (handler : ∀ h ∈ doc.handlers, ∀ time ∈ h.times, P time) :
    ∀ time ∈ doc.renderedTimes certsDir, P time := by
  intro time listed
  rcases List.mem_append.1 listed with options | sites
  · rcases List.mem_append.1 options with options | routes
    · exact general time options
    · split at routes
      case isTrue =>
        obtain ⟨r, there, listed⟩ := List.mem_flatMap.1 routes
        exact raw r (List.mem_filter.1 there).1 time listed
      case isFalse => cases routes
  · obtain ⟨site, -, inside⟩ := List.mem_flatMap.1 sites
    obtain ⟨h, there, listed⟩ := List.mem_flatMap.1 inside
    exact handler h (List.mem_filter.1 there).1 time listed

theorem words_name_of_time :
    ∀ time ∈ doc.renderedTimes certsDir, Text.words time.1 = [time.1] := by
  apply forall_mem_renderedTimes
  · simp only [General.times, List.forall_mem_cons]
    decide
  · intro r _
    simp only [RawRoute.times, List.forall_mem_cons]
    decide
  · intro h _
    simp only [Handler.times, List.forall_mem_cons]
    decide

theorem valid_of_time (formed : doc.Formed) :
    ∀ time ∈ doc.renderedTimes certsDir, Duration.valid time.2 = true :=
  forall_mem_renderedTimes formed.generalTimes formed.rawRouteTimes formed.handlerTimes

end Rendered

/-- In a document without findings, each time that is rendered is the one argument of its directive,
which has a line with the name and the words of the time.  So the line has two words exactly if the
time has no blank in it.  A time that has one is a span, and neither digits nor units side by side. -/
theorem words_of_time_lines (certsDir : String) {doc : Document} (clean : doc.lint = [])
    {name s a : String} (listed : (name, s) ∈ doc.renderedTimes certsDir)
    (given : duration? s = some a) :
    { name, args := [a] } ∈ blockWithin (blocks certsDir doc) ∧
      (compile certsDir doc).text =
        String.join ((topRows (blocks certsDir doc)).map (· ++ "\n")) ∧
      ∃ depth, indent depth ++ head { name, args := [a] } ∈ topRows (blocks certsDir doc) ∧
        Text.words (indent depth ++ head { name, args := [a] }) = name :: Text.words a ∧
        ((Text.words (indent depth ++ head { name, args := [a] })).length = 2 ↔
          ∀ c ∈ a.toList, Text.isBlank c = false) ∧
        ((∃ c ∈ a.toList, Text.isBlank c = true) →
          a = Text.trim s ∧ a.toList.all isAsciiDigit = false ∧
            Duration.unitSpan.accepts a.toList = false ∧
            (Duration.ofText? a.toList).isSome = true) := by
  have formed := Document.formed_of_lint_eq_nil clean
  have directive := mem_blocks given listed
  obtain ⟨depth, row⟩ := exists_topRow rfl directive
  have split := words_row (words_name_of_time (name, s) listed) depth a
  refine ⟨directive, format_eq_join_rows _, depth, row, split, ?_,
    isSome_ofText?_of_blank given (valid_of_time formed (name, s) listed)⟩
  rw [split, List.length_cons, Nat.succ_inj, length_words_time_eq_one_iff given]

def idlingHalf : Document where
  general := { enabled := true, idleTimeout := "1.5m" }

theorem words_of_time_lines_idlingHalf :
    idlingHalf.lint = [] ∧ ∃ depth,
      indent depth ++ head { name := "idle", args := ["1.5m"] } ∈
          topRows (blocks "./certs" idlingHalf) ∧
        (Text.words (indent depth ++ head { name := "idle", args := ["1.5m"] })).length = 2 := by
  have clean : idlingHalf.lint = [] := by decide +kernel
  have listed : ("idle", "1.5m") ∈ idlingHalf.renderedTimes "./certs" := by decide +kernel
  have given : duration? "1.5m" = some "1.5m" := by decide +kernel
  have filled : "1.5m".toList.any Text.isBlank = false := by decide +kernel
  obtain ⟨-, -, depth, row, -, two, -⟩ := words_of_time_lines "./certs" clean listed given
  exact ⟨clean, depth, row, two.2 fun c there => Bool.eq_false_iff.2 (List.any_eq_false.1 filled c there)⟩

def idlingLong : Document where
  general := { enabled := true, idleTimeout := "2m 30s" }

/-- Nothing is found about the time, and its line has three words. -/
theorem idlingLong_line :
    idlingLong.lint = [] ∧ ("idle", "2m 30s") ∈ idlingLong.renderedTimes "./certs" ∧
      "\t\t\tidle 2m 30s" ∈ topRows (blocks "./certs" idlingLong) ∧
      Text.words "\t\t\tidle 2m 30s" = ["idle", "2m", "30s"] := by
  decide +kernel

end Caddyfile

end ProxyConfig
