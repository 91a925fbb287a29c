import ProxyConfig.Proofs.Caddyfile.HandlerPlacement
import ProxyConfig.Proofs.Lint.NumberFields

/-!
What becomes of numbers that cannot be read.  Where lint looks at them there is a finding; where it
passes over them there is none, and they are compiled as if nothing had been given.  Main statement:
both, for all numeric fields of a document.
-/

namespace ProxyConfig

/-- Whether the changed texts are read as the texts before. -/
def ReadsAlike (change : NumberUse → NumberText → NumberText) : Prop :=
  ∀ (use : NumberUse) (t : NumberText), use.read? (change use t) = use.read? t

def NumberUse.blankUnread (use : NumberUse) (t : NumberText) : NumberText :=
  if (use.read? t).isSome then t else .empty

theorem readsAlike_blankUnread : ReadsAlike NumberUse.blankUnread := by
  intro use t
  unfold NumberUse.blankUnread
  cases read : use.read? t with
  | some n => simp [read]
  | none => cases use <;> rfl

namespace Caddyfile

section Alike

variable {change : NumberUse → NumberText → NumberText} (alike : ReadsAlike change)
include alike

theorem positive?_of_readsAlike (t : NumberText) : (change .count t).positive? = t.positive? := by
  have count : (change .count t).bits? 32 = t.bits? 32 := alike .count t
  rw [NumberText.positive?, NumberText.positive?, count]

theorem accessRule_withUnchecked (names : String) (l : AccessList) :
    accessRule names (l.withUnchecked change) = accessRule names l := by
  have code : (change .status l.responseCode).bits? 16 = l.responseCode.bits? 16 :=
    alike .status l.responseCode
  have reject : rejection (l.withUnchecked change) = rejection l := by
    simp only [rejection, AccessList.withUnchecked, code]
  unfold accessRule
  rw [reject]
  rfl

theorem accessControl_withUnchecked (doc : Document) (names : String) (ids : List String) :
    accessControl (doc.withUnchecked change) names ids = accessControl doc names ids := by
  have found : (doc.withUnchecked change).accessList? =
      fun id => (doc.accessList? id).map (AccessList.withUnchecked change) :=
    funext fun id => by
      rw [Document.accessList?_eq, Document.accessList?_eq]
      exact lastWith_map (f := AccessList.withUnchecked change) (fun _ => rfl) id _
  rw [accessControl, found, ← List.map_filterMap, List.flatMap_map]
  simp only [accessRule_withUnchecked alike]
  rfl

theorem passiveHealth_withUnchecked (p : PassiveHealth) :
    passiveHealth (p.withUnchecked change) = passiveHealth p := by
  simp only [passiveHealth, PassiveHealth.withUnchecked, positive?_of_readsAlike alike]

theorem actionClauses_withUnchecked (certsDir : String) (h : Handler) (headers : List HeaderRule) :
    actionClauses certsDir (h.withUnchecked change) headers = actionClauses certsDir h headers := by
  have status : (change .status h.redirectStatus).bits? 16 = h.redirectStatus.bits? 16 :=
    alike .status h.redirectStatus
  have redirects : redirect (h.withUnchecked change) = redirect h := by
    simp only [redirect, Handler.withUnchecked, status]
  have proxies : reverseProxy certsDir (h.withUnchecked change) headers =
      reverseProxy certsDir h headers := by
    simp only [reverseProxy, Handler.withUnchecked, passiveHealth_withUnchecked alike]
    rfl
  rw [actionClauses, redirects, proxies]
  rfl

theorem handlerBlock_withUnchecked (certsDir : String) (doc : Document) (h : Handler) :
    handlerBlock certsDir (doc.withUnchecked change) (h.withUnchecked change) =
      handlerBlock certsDir doc h := by
  rw [handlerBlock, accessControl_withUnchecked alike, actionClauses_withUnchecked alike]
  rfl

theorem siteBlock_withUnchecked (certsDir : String) (doc : Document) (site : Site) :
    siteBlock certsDir (doc.withUnchecked change) site = siteBlock certsDir doc site := by
  have handlers : ((doc.withUnchecked change).handlers.filter (attaches · site)).map
        (handlerBlock certsDir (doc.withUnchecked change)) =
      (doc.handlers.filter (attaches · site)).map (handlerBlock certsDir doc) := by
    rw [Document.withUnchecked, List.filter_map, List.map_map]
    exact List.map_congr_left fun h _ => handlerBlock_withUnchecked alike certsDir doc h
  rw [siteBlock, accessControl_withUnchecked alike, handlers]
  rfl

theorem rawRouteBlock_withUnchecked (r : RawRoute) :
    rawRouteBlock (r.withUnchecked change) = rawRouteBlock r := by
  have proxies : rawProxy (r.withUnchecked change) = rawProxy r := by
    simp only [rawProxy, RawRoute.withUnchecked, positive?_of_readsAlike alike]
    rfl
  rw [rawRouteBlock, proxies]
  rfl

theorem rawRoutesBlock_withUnchecked (g : General) (routes : List RawRoute) :
    rawRoutesBlock g (routes.map (RawRoute.withUnchecked change)) = rawRoutesBlock g routes := by
  have blocks : ((routes.map (RawRoute.withUnchecked change)).filter (·.enabled)).map
      rawRouteBlock = (routes.filter (·.enabled)).map rawRouteBlock := by
    rw [List.filter_map, List.map_map]
    exact List.map_congr_left fun r _ => rawRouteBlock_withUnchecked alike r
  rw [rawRoutesBlock, blocks, List.isEmpty_map]
  rfl

theorem compile_withUnchecked (certsDir : String) (doc : Document) :
    compile certsDir (doc.withUnchecked change) = compile certsDir doc := by
  have options : globalOptions (doc.withUnchecked change).general
      (doc.withUnchecked change).rawRoutes = globalOptions doc.general doc.rawRoutes := by
    rw [globalOptions, Document.withUnchecked, rawRoutesBlock_withUnchecked alike]
    rfl
  exact compile_eq_of_siteBlock_eq options rfl fun site _ =>
    siteBlock_withUnchecked alike certsDir doc site

end Alike

/-- The findings about numbers are those of the unreadable ports and numbers of retries, in order, so
that where nothing is found each of them is blank or readable.  The other numeric fields, statuses and
counts, may have any texts: the findings stay, and an unreadable text is compiled as if it were not
there. -/
theorem unread_numbers_found_or_left_out (certsDir : String) (doc : Document) :
    doc.lint.filter Finding.isAboutNumber = doc.checkedNumbers.flatMap NumberField.findings ∧
      (doc.lint = [] → ∀ f ∈ doc.checkedNumbers, ¬ f.Dropped) ∧
      (∀ change, (doc.withUnchecked change).lint = doc.lint ∧
        (doc.withUnchecked change).uncheckedNumbers =
          doc.uncheckedNumbers.map (NumberField.changed change)) ∧
      compile certsDir (doc.withUnchecked NumberUse.blankUnread) = compile certsDir doc := by
  refine ⟨doc.aboutNumber_lint, fun clean f hf dropped => ?_,
    fun change => ⟨doc.lint_withUnchecked change, doc.uncheckedNumbers_withUnchecked change⟩,
    compile_withUnchecked readsAlike_blankUnread certsDir doc⟩
  have found := doc.aboutNumber_lint
  rw [clean, List.filter_nil, eq_comm, List.flatMap_eq_nil_iff] at found
  simpa [NumberField.findings, dropped] using found f hf

def unread : Document where
  general := { enabled := true, rawEnabled := true }
  domains := [{ Domain.serving "d" "d.example" with accessLists := ["office"] }]
  handlers := [
    { Handler.proxying "app" "d" ["one"] (.ofNat 80) with
      passiveHealth := { maxFails := ⟨"three"⟩, unhealthyRequestCount := ⟨"-1"⟩ } },
    { Handler.redirecting "moved" "d" "e.example" with redirectStatus := ⟨"301!"⟩ }]
  accessLists := [{ id := "office", clientIps := ["10.0.0.0/8"], responseCode := ⟨"70000"⟩ }]
  rawRoutes := [{ RawRoute.forwarding "mail" (.ofNat 25) ["mail"] (.ofNat 25) with
    maxFails := ⟨"1.5"⟩ }]

theorem unread_passed_over :
    unread.lint = [] ∧
      (unread.uncheckedNumbers.filter (·.Dropped)).map (fun f => (f.spot.text, f.text.raw)) =
        [("handler 'app' passive_health_max_fails", "three"),
          ("handler 'app' passive_health_unhealthy_request_count", "-1"),
          ("handler 'moved' redir_status", "301!"),
          ("access list 'office' http_response_code", "70000"),
          ("layer4 route 'mail' passive_health_max_fails", "1.5")] ∧
      ¬ (∀ f ∈ unread.checkedNumbers ++ unread.uncheckedNumbers, ¬ f.Dropped) := by
  decide +kernel

theorem unread_numbers_found_or_left_out_unread :
    unread.lint = [] ∧ (∀ f ∈ unread.checkedNumbers, ¬ f.Dropped) ∧
      unread.withUnchecked NumberUse.blankUnread ≠ unread ∧
      compile "./certs" (unread.withUnchecked NumberUse.blankUnread) = compile "./certs" unread := by
  have clean : unread.lint = [] := by decide +kernel
  obtain ⟨-, read, -, same⟩ := unread_numbers_found_or_left_out "./certs" unread
  exact ⟨clean, read clean, by decide +kernel, same⟩

end Caddyfile

end ProxyConfig
