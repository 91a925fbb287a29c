import ProxyConfig.Proofs.Caddyfile.LastEntries
import ProxyConfig.Proofs.Caddyfile.SelectedEntries
import ProxyConfig.Proofs.Lint.FoundByCheck

/-!
Repeated ids among the domains, subdomains, handlers and raw routes.  A finding says that the last entry
wins, but these collections are gone over entry by entry, and an earlier entry counts as much as the last
one.  Main statement: leaving out the earlier entries keeps the text exactly if none of them is rendered.
-/

namespace ProxyConfig

section Superseded

variable {α : Type} {idOf : α → String} {xs : List α}

/-- The element stands in the list with another one of its id behind it. -/
def Superseded (idOf : α → String) (xs : List α) (a : α) : Prop :=
  ∃ before after, xs = before ++ a :: after ∧ idOf a ∈ after.map idOf

theorem not_superseded_nil (a : α) : ¬ Superseded idOf [] a := by
  rintro ⟨before, after, split, -⟩
  simp at split

theorem superseded_cons {a b : α} :
    Superseded idOf (b :: xs) a ↔ (a = b ∧ idOf b ∈ xs.map idOf) ∨ Superseded idOf xs a := by
  constructor
  · rintro ⟨before, after, split, again⟩
    cases before with
    | nil =>
      obtain ⟨rfl, rfl⟩ := List.cons.inj split
      exact .inl ⟨rfl, again⟩
    | cons c before => exact .inr ⟨before, after, (List.cons.inj split).2, again⟩
  · rintro (⟨rfl, again⟩ | ⟨before, after, rfl, again⟩)
    · exact ⟨[], xs, rfl, again⟩
    · exact ⟨b :: before, after, rfl, again⟩

theorem exists_superseded_iff {id : String} :
    (∃ a, Superseded idOf xs a ∧ idOf a = id) ↔ 2 ≤ (xs.map idOf).count id := by
  induction xs with
  | nil => simp [not_superseded_nil]
  | cons b xs ih =>
    simp only [superseded_cons, or_and_right, exists_or, and_assoc, exists_eq_left, ih]
    rw [List.map_cons, List.count_cons]
    by_cases same : idOf b = id
    · subst same
      rw [← List.one_le_count_iff, and_iff_left rfl, beq_self_eq_true, if_pos rfl]
      omega
    · simp [same]

theorem mem_map_lastEntries {id : String} :
    id ∈ (lastEntries idOf xs).map idOf ↔ id ∈ xs.map idOf := by
  rw [← isSome_lastWith_iff, lastWith_lastEntries, isSome_lastWith_iff]

theorem lastEntries_cons (a : α) (xs : List α) :
    lastEntries idOf (a :: xs) =
      if idOf a ∈ xs.map idOf then lastEntries idOf xs else a :: lastEntries idOf xs := by
  have last : (∀ b ∈ lastEntries idOf xs, idOf a ≠ idOf b) ↔ idOf a ∉ xs.map idOf := by
    rw [← mem_map_lastEntries]
    simp [eq_comm]
  split
  case isTrue again => exact List.pwFilter_cons_of_neg fun only => last.1 only again
  case isFalse only => exact List.pwFilter_cons_of_pos (last.2 only)

theorem lastEntries_sublist (idOf : α → String) (xs : List α) :
    (lastEntries idOf xs).Sublist xs :=
  List.pwFilter_sublist xs

theorem lastEntries_ne_nil (some : xs ≠ []) : lastEntries idOf xs ≠ [] := by
  intro none
  obtain ⟨a, there⟩ := List.exists_mem_of_ne_nil xs some
  have left := mem_map_lastEntries.2 (List.mem_map_of_mem (f := idOf) there)
  simp [none] at left

theorem filter_lastEntries_eq_iff {p : α → Bool} :
    (lastEntries idOf xs).filter p = xs.filter p ↔ ∀ a, Superseded idOf xs a → p a = false := by
  induction xs with
  | nil => exact iff_of_true rfl fun a there => absurd there (not_superseded_nil a)
  | cons a xs ih =>
    simp only [superseded_cons, or_imp, forall_and, and_imp, forall_eq, lastEntries_cons]
    by_cases again : idOf a ∈ xs.map idOf
    · rw [if_pos again, ← ih]
      cases kept : p a with
      | false => simp [kept, again]
      | true =>
        have fewer := ((lastEntries_sublist idOf xs).filter p).length_le
        have longer : (lastEntries idOf xs).filter p ≠ (a :: xs).filter p := fun same => by
          rw [same, List.filter_cons_of_pos kept, List.length_cons] at fewer
          omega
        simp [longer, again]
    · rw [if_neg again, ← ih]
      cases kept : p a <;> simp [kept, again]

end Superseded

namespace Document

def lastOfEach (doc : Document) : doc.Selection where
  domains := lastEntries Domain.id doc.domains
  subdomains := lastEntries Subdomain.id doc.subdomains
  handlers := lastEntries Handler.id doc.handlers
  rawRoutes := lastEntries RawRoute.id doc.rawRoutes
  domains_sublist := lastEntries_sublist _ _
  subdomains_sublist := lastEntries_sublist _ _
  handlers_sublist := lastEntries_sublist _ _
  rawRoutes_sublist := lastEntries_sublist _ _
  rawRoutes_ne_nil := lastEntries_ne_nil

structure SupersededUnrendered (doc : Document) : Prop where
  domains : ∀ d, Superseded Domain.id doc.domains d →
    ¬ (doc.general.enabled = true ∧ d.enabled = true)
  subdomains : ∀ s, Superseded Subdomain.id doc.subdomains s →
    ¬ (doc.general.enabled = true ∧ s.enabled = true ∧ ∃ d ∈ doc.enabledDomains, s.domainId = d.id)
  handlers : ∀ h, Superseded Handler.id doc.handlers h → ¬ h.IsRendered doc
  rawRoutes : ∀ r, Superseded RawRoute.id doc.rawRoutes r →
    ¬ (doc.general.rawEnabled = true ∧ r.enabled = true)

variable {doc : Document}

theorem placedIn_congr {doc' : Document} {d : Domain} {h : Handler}
    (same : doc'.subdomainsOf d.id = doc.subdomainsOf d.id) :
    h.PlacedIn doc' d ↔ h.PlacedIn doc d := by
  have site : Caddyfile.siteOf "" doc' d = Caddyfile.siteOf "" doc d := by
    rw [Caddyfile.siteOf, same, Caddyfile.siteOf]
  rw [← Caddyfile.attaches_siteOf_iff, site, Caddyfile.attaches_siteOf_iff]

theorem placedHandlers_lastOfEach {d : Domain}
    (same : doc.lastOfEach.document.subdomainsOf d.id = doc.subdomainsOf d.id) :
    doc.lastOfEach.document.placedHandlers d =
      (lastEntries Handler.id doc.handlers).filter (·.PlacedIn doc d) := by
  refine List.filter_congr fun h _ => ?_
  rw [decide_eq_decide]
  exact placedIn_congr same

theorem subdomainsOf_lastOfEach_eq_iff {domainId : String} :
    doc.lastOfEach.document.subdomainsOf domainId = doc.subdomainsOf domainId ↔
      ∀ s, Superseded Subdomain.id doc.subdomains s →
        (s.enabled && s.domainId = domainId) = false := by
  rw [subdomainsOf_eq, subdomainsOf_eq]
  exact filter_lastEntries_eq_iff

theorem keepsRendered_lastOfEach_iff :
    doc.lastOfEach.KeepsRendered ↔ doc.SupersededUnrendered := by
  constructor
  · intro kept
    exact
      { domains := fun d hd ⟨on, enabled⟩ => by
          have out := filter_lastEntries_eq_iff.1 (kept.domains on) d hd
          exact absurd enabled (by simp [out])
        subdomains := fun s hs ⟨on, enabled, d, hd, bound⟩ => by
          have out := subdomainsOf_lastOfEach_eq_iff.1 (kept.subdomains on d hd) s hs
          simp [enabled, bound] at out
        handlers := fun h hh ⟨on, d, hd, placed⟩ => by
          have same := kept.handlers on d hd
          -- where a handler is placed depends on the subdomains, so theirs has to come first
          rw [placedHandlers_lastOfEach (kept.subdomains on d hd)] at same
          have out := filter_lastEntries_eq_iff.1 same h hh
          exact absurd placed (of_decide_eq_false out)
        rawRoutes := fun r hr ⟨on, enabled⟩ => by
          have out := filter_lastEntries_eq_iff.1 (kept.rawRoutes on) r hr
          exact absurd enabled (by simp [out]) }
  · intro idle
    have subdomains (on : doc.general.enabled = true) (d : Domain) (hd : d ∈ doc.enabledDomains) :
        doc.lastOfEach.document.subdomainsOf d.id = doc.subdomainsOf d.id :=
      subdomainsOf_lastOfEach_eq_iff.2 fun s hs => by
        have out := idle.subdomains s hs
        simp only [on, true_and, not_and, not_exists] at out
        simpa using fun enabled => out enabled d hd
    exact
      { domains := fun on => filter_lastEntries_eq_iff.2 fun d hd => by
          simpa [on] using idle.domains d hd
        subdomains
        handlers := fun on d hd => by
          rw [placedHandlers_lastOfEach (subdomains on d hd)]
          exact filter_lastEntries_eq_iff.2 fun h hh =>
            decide_eq_false fun placed => idle.handlers h hh ⟨on, d, hd, placed⟩
        rawRoutes := fun on => filter_lastEntries_eq_iff.2 fun r hr => by
          simpa [on] using idle.rawRoutes r hr }

end Document

namespace Caddyfile

/-- An id of a domain, subdomain, handler or raw route is found to be repeated exactly if an entry with it
is followed by another one.  But without the entries that are followed so, a document compiles to the
same text exactly if none of them is rendered. -/
theorem superseded_left_out_iff (certsDir : String) (doc : Document) :
    (∀ id,
        (.duplicateId .domains id ∈ doc.lint ↔
          ∃ d, Superseded Domain.id doc.domains d ∧ d.id = id) ∧
        (.duplicateId .subdomains id ∈ doc.lint ↔
          ∃ s, Superseded Subdomain.id doc.subdomains s ∧ s.id = id) ∧
        (.duplicateId .handlers id ∈ doc.lint ↔
          ∃ h, Superseded Handler.id doc.handlers h ∧ h.id = id) ∧
        (.duplicateId .rawRoutes id ∈ doc.lint ↔
          ∃ r, Superseded RawRoute.id doc.rawRoutes r ∧ r.id = id)) ∧
      ((compile certsDir doc.lastOfEach.document).text = (compile certsDir doc).text ↔
        doc.SupersededUnrendered) := by
  refine ⟨fun id => ⟨?_, ?_, ?_, ?_⟩,
    (text_selected_eq_iff doc.lastOfEach certsDir).trans Document.keepsRendered_lastOfEach_iff⟩ <;>
  · rw [Document.duplicateId_mem_lint_iff, exists_superseded_iff]
    rfl

def moved : Document where
  general := { enabled := true }
  domains := [.serving "d" "old.example", .serving "d" "new.example"]

theorem moved_serves_both :
    moved.lint.map (·.message) = ["Duplicate id 'd' in domains; the last entry wins"] ∧
      moved.lastOfEach.document.domains = [.serving "d" "new.example"] ∧
      (compile "./certs" moved.lastOfEach.document).text =
        "\x7b\n\x7d\n\nhttps://new.example:443 \x7b\n\ttls internal\n\x7d\n\n" ∧
      (compile "./certs" moved).text =
        "\x7b\n\x7d\n\nhttps://old.example:443 \x7b\n\ttls internal\n\x7d\n\n" ++
          "https://new.example:443 \x7b\n\ttls internal\n\x7d\n\n" ∧
      (compile "./certs" moved.lastOfEach.document).text ≠ (compile "./certs" moved).text := by
  decide +kernel

end Caddyfile

end ProxyConfig
