import ProxyConfig.Caddyfile.Compile
import ProxyConfig.Document.Format
import ProxyConfig.Lint.Checks
import ProxyConfig.Proofs.Document.Layouts
import ProxyConfig.Proofs.Document.ReadInvariant

/-!
A document survives being saved and read again.  The only value with two spellings is an action
that keeps an unknown word: it reads back if the word is canonical (`Action.Canonical`), and every
action that is read is.  So a document reads back exactly if its actions are canonical, which holds
of all documents that come from a text.
-/

namespace ProxyConfig

open Record Codec

namespace Action

/-- An unknown word is kept without blanks around it, and it is none of the known ones. -/
def Canonical (a : Action) : Prop :=
  ∀ name, a = other name → Text.trim name = name ∧ name ∉ ["", "reverse_proxy", "redir", "redirect"]

theorem canonical_ofText (s : String) : (ofText s).Canonical := by
  intro name h
  unfold ofText at h
  dsimp only at h
  split at h
  case isTrue => cases h
  case isFalse hproxy =>
    split at h
    case isTrue => cases h
    case isFalse hredirect =>
      obtain rfl : Text.trim s = name := by simpa using h
      refine ⟨Text.trim_trim s, ?_⟩
      simp_all

/-- An action is what its word reads as, unless it keeps a word that would be read otherwise. -/
theorem ofText_toText_iff (a : Action) : ofText a.toText = a ↔ a.Canonical := by
  constructor
  · intro h
    rw [← h]
    exact canonical_ofText a.toText
  · intro h
    cases a with
    | proxy => rfl
    | redirect => rfl
    | other name =>
      obtain ⟨htrim, hknown⟩ := h name rfl
      simp_all [ofText, toText]

end Action

theorem Handler.canonical_of_read {reach : Reach} {d : Draft} {x : Handler}
    (h : layout.read reach d = .ok x) : x.action.Canonical := by
  have haction : (field "handleDirective" (choice Action.ofText Action.toText) Handler.action
      fun v x => { x with action := v }).Keeps fun x => x.action.Canonical := by
    refine Field.keeps_field Action.Canonical (fun reach d v hv => ?_) fun v x hv _ => hv
    obtain ⟨s, -, rfl⟩ := Decoded.map_eq_ok hv
    exact Action.canonical_ofText s
  refine read_keeps (P := fun x => x.action.Canonical) (fun name hname => nomatch hname) ?_ h
  -- the action's own field apart, no field touches the action
  simp only [layout, List.forall_mem_append, List.forall_mem_map, List.forall_mem_cons]
  refine ⟨⟨⟨⟨?_, fun f _ => ?_⟩, fun f _ => ?_⟩, fun f _ => ?_⟩, ?_⟩
  · and_intros
    all_goals first
      | exact Field.keeps_unrelated fun _ _ => rfl
      | exact haction
      | simp
  · exact Field.keeps_lift fun _ _ => rfl
  · exact Field.keeps_lift fun _ _ => rfl
  · exact Field.keeps_lift fun _ _ => rfl
  · exact ⟨Field.keeps_unrelated fun _ _ => rfl, by simp⟩

theorem Document.canonical_of_read {reach : Reach} {d : Draft} {doc : Document}
    (h : layout.read reach d = .ok doc) : ∀ x ∈ doc.handlers, x.action.Canonical := by
  have hhandlers : (field "handlers" Handler.layout.listCodec Document.handlers
      fun v doc => { doc with handlers := v }).Keeps
        fun doc => ∀ x ∈ doc.handlers, x.action.Canonical := by
    refine Field.keeps_field (fun xs => ∀ x ∈ xs, x.action.Canonical) ?_ fun v doc hv _ => hv
    intro reach d v hv x hx
    obtain ⟨dx, hdx⟩ := mem_of_list_read hv x hx
    exact Handler.canonical_of_read hdx
  refine read_keeps (P := fun doc => ∀ x ∈ doc.handlers, x.action.Canonical) ?_ ?_ h
  · intro x hx
    cases hx
  · simp only [layout, List.forall_mem_cons]
    and_intros
    all_goals first
      | exact Field.keeps_unrelated fun _ _ => rfl
      | exact hhandlers
      | simp

namespace Document

theorem ofJson_written (d : Document) : ofJson (Text.piecesOf d.pretty) = .ok d.reread := by
  have hreading := Json.Reading.ofPieces_pretty d.toJson_numberless
  have hread : layout.read Json.reach d.toJson.draft = .ok d.reread := d.read_written (by decide)
  rw [ofJson, Json.decode, pretty, hreading]
  simp only [hread]
  rfl

theorem reread_eq_of_canonical {d : Document} (hd : ∀ x ∈ d.handlers, x.action.Canonical) :
    d.reread = d :=
  reread_eq fun x hx => (Action.ofText_toText_iff x.action).mpr (hd x hx)

theorem ofJson_pretty {d : Document} (hd : ∀ x ∈ d.handlers, x.action.Canonical) :
    ofJson (Text.piecesOf d.pretty) = .ok d := by
  rw [ofJson_written, reread_eq_of_canonical hd]

theorem canonical_of_ofJson {input : List Text.Piece} {d : Document} (h : ofJson input = .ok d) :
    ∀ x ∈ d.handlers, x.action.Canonical := by
  obtain ⟨e, he, h⟩ := Decoded.bind_eq_ok h
  have hde : e = d := by
    split at h <;> cases h
    rfl
  exact hde ▸ canonical_of_read he

theorem canonical_of_ofText {format : DocumentFormat} {text : String} {d : Document}
    (h : ofText format text = .ok d) : ∀ x ∈ d.handlers, x.action.Canonical := by
  cases format with
  | json => exact canonical_of_ofJson h
  | yaml =>
    rw [ofText, ofYaml, Yaml.decode] at h
    split at h
    next root _ =>
      split at h
      · cases h
      · exact canonical_of_read h
    next => cases h

theorem ofText_pretty_iff (d : Document) :
    ofText .json d.pretty = .ok d ↔ ∀ x ∈ d.handlers, x.action.Canonical :=
  ⟨canonical_of_ofText, ofJson_pretty⟩

/-- The document was read from text of either format, or from the draft of any text at all. -/
def IsRead (d : Document) : Prop :=
  (∃ format text, ofText format text = .ok d) ∨ ∃ reach draft, layout.read reach draft = .ok d

theorem IsRead.canonical {d : Document} (read : d.IsRead) : ∀ x ∈ d.handlers, x.action.Canonical := by
  rcases read with ⟨format, text, h⟩ | ⟨reach, draft, h⟩
  · exact canonical_of_ofText h
  · exact canonical_of_read h

theorem IsRead.ofText_pretty {d : Document} (read : d.IsRead) : ofText .json d.pretty = .ok d :=
  (ofText_pretty_iff d).mpr read.canonical

def normalized (format : DocumentFormat) (text : String) : Decoded String :=
  (ofText format text).map pretty

theorem normalized_again {x : Decoded Document} (read : ∀ d, x = .ok d → d.IsRead) :
    (x.map pretty).bind (normalized .json) = x.map pretty := by
  cases h : x with
  | error e => rfl
  | ok d => simp [normalized, Except.map, Except.bind, (read d h).ofText_pretty]

/-- A document that was read is saved to a text that reads as the same document, so that saving it
again, compiling it and looking for findings give the same as before; and a document of any origin
reads back exactly if its actions keep no word that would be read otherwise. -/
theorem saved_document_reads_back (certsDir : String) :
    (∀ d : Document, d.IsRead → ofText .json d.pretty = .ok d) ∧
    (∀ format text, (normalized format text).bind (normalized .json) = normalized format text) ∧
    (∀ reach draft, ((layout.read reach draft).map pretty).bind (normalized .json) =
      (layout.read reach draft).map pretty) ∧
    (∀ d : Document, d.IsRead →
      (ofText .json d.pretty).map (Caddyfile.compile certsDir) =
          .ok (Caddyfile.compile certsDir d) ∧
      (ofText .json d.pretty).map lint = .ok d.lint) ∧
    ∀ d, ofText .json d.pretty = .ok d ↔ ∀ x ∈ d.handlers, ∀ name, x.action = .other name →
      Text.trim name = name ∧ name ∉ ["", "reverse_proxy", "redir", "redirect"] := by
  refine ⟨fun d read => read.ofText_pretty, fun format text => ?_, fun reach draft => ?_,
    fun d read => ?_, ofText_pretty_iff⟩
  · exact normalized_again fun d h => .inl ⟨format, text, h⟩
  · exact normalized_again fun d h => .inr ⟨reach, draft, h⟩
  · rw [read.ofText_pretty]
    exact ⟨rfl, rfl⟩

def taggedText : String :=
  "%TAG !x! tag:x.example,2000:\n---\nhandlers: !x!all\n- &first\n  handleDirective: !!str ' respond'\n" ++
    "  toPort: 80\n- *first\n"

def respondTwice : Document :=
  let respond : Handler := { action := .other "respond", upstreamPort := ⟨"80"⟩ }
  { handlers := [respond, respond] }

theorem saved_document_reads_back_tagged :
    ofText .yaml taggedText = .ok respondTwice ∧
      ofText .json respondTwice.pretty = .ok respondTwice := by
  have hread : ofText .yaml taggedText = .ok respondTwice := by decide +kernel
  exact ⟨hread, (saved_document_reads_back "certs").1 respondTwice (.inl ⟨.yaml, taggedText, hread⟩)⟩

end Document

end ProxyConfig
