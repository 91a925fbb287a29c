import ProxyConfig.Lint.Checks
import ProxyConfig.Proofs.Caddyfile.TextRows
import ProxyConfig.Proofs.Caddyfile.Tokens

/-!
The lines that user names and passwords are rendered as.  A line has the two texts as they are
stored, with a space between.  Main statement: the tokens of the line are the two texts exactly if
each of them is a word that does not begin with a quote, and such lines tell different pairs apart
(`credential_line_reads_iff`).
-/

namespace ProxyConfig

open Caddyfile

/-- The credentials that the compiled text has blocks for: those of each site and of the handlers
rendered in it. -/
def Document.renderedCredentials (certsDir : String) (doc : Document) : List Credential :=
  (renderedSites certsDir doc).flatMap fun site =>
    site.domain.credentials.filterMap doc.credential? ++
      (doc.handlers.filter (attaches · site)).flatMap fun h => h.credentials.filterMap doc.credential?

def Credential.directive (c : Credential) : Directive := { name := c.username, args := [c.password] }

/-- A user name and a password that are one token each as they are stored. -/
def Credential.Plain (c : Credential) : Prop := Word c.username.toList ∧ Word c.password.toList

instance (c : Credential) : Decidable c.Plain := inferInstanceAs (Decidable (_ ∧ _))

namespace Caddyfile

open Directive

section Blocks

variable {certsDir : String} {doc : Document} {c : Credential} {d : Directive}
  (inside : d ∈ (credentialBlock c).within)
include inside

theorem mem_basicAuth {ids : List String} (found : c ∈ ids.filterMap doc.credential?) :
    d ∈ blockWithin (basicAuth doc ids) := by
  rw [blockWithin_eq_flatMap]
  exact List.mem_flatMap.2 ⟨_, List.mem_map_of_mem found, inside⟩

theorem mem_handlerBlock {h : Handler} (found : c ∈ h.credentials.filterMap doc.credential?) :
    d ∈ (handlerBlock certsDir doc h).within := by
  refine mem_within_of_block ?_
  rw [blockWithin_append, blockWithin_append]
  exact List.mem_append_left _ (List.mem_append_right _ (mem_basicAuth inside found))

theorem mem_blocks_of_credential (rendered : c ∈ doc.renderedCredentials certsDir) :
    d ∈ blockWithin (blocks certsDir doc) := by
  obtain ⟨site, listed, there⟩ := List.mem_flatMap.1 rendered
  have block : d ∈ (siteBlock certsDir doc site).within := by
    refine mem_within_of_block ?_
    rw [blockWithin_append, blockWithin_append]
    rcases List.mem_append.1 there with own | attached
    · exact List.mem_append_left _ (List.mem_append_right _ (mem_basicAuth inside own))
    · obtain ⟨h, placed, found⟩ := List.mem_flatMap.1 attached
      refine List.mem_append_right _ ?_
      rw [blockWithin_eq_flatMap]
      exact List.mem_flatMap.2 ⟨_, List.mem_map_of_mem placed, mem_handlerBlock inside found⟩
  rw [blocks, blockWithin]
  refine List.mem_append_right _ ?_
  rw [blockWithin_eq_flatMap]
  exact List.mem_flatMap.2 ⟨_, List.mem_map_of_mem listed, block⟩

end Blocks

theorem toList_head_directive (c : Credential) :
    c.directive.head.toList =
      if c.username = "" then c.password.toList
      else c.username.toList ++ ' ' :: c.password.toList := by
  by_cases empty : c.username = "" <;> simp [Credential.directive, head, empty]

theorem tokens?_indent_append (depth : Nat) (s : String) :
    tokens? (indent depth ++ s) = tokens? s := by
  have blank : ∀ c ∈ List.replicate depth '\t', Text.isBlank c = true := by
    intro c there
    rw [List.eq_of_mem_replicate there]
    rfl
  rw [tokens?, String.toList_append, toList_indent, tokensFrom_blanks blank, tokens?]

theorem spentOn_tokens {s : String} {tokens : List String} (read : tokens? s = some tokens) :
    spentOn (tokens.map String.toList) ≤ s.toList.length := by
  obtain ⟨parts, found, rfl⟩ := Option.map_eq_some_iff.1 read
  have paid : spentOn parts ≤ Spot.between.spent + s.toList.length := spentOn_le trivial found
  have same : (parts.map String.ofList).map String.toList = parts := by simp
  rw [same]
  rwa [Spot.spent, Nat.zero_add] at paid

theorem tokens?_directive_iff (c : Credential) :
    tokens? c.directive.head = some [c.username, c.password] ↔ c.Plain := by
  constructor
  · intro read
    -- the line has no more characters than the two texts and a space, so quotes do not fit in
    have paid := spentOn_tokens read
    have room : c.directive.head.toList.length ≤
        c.username.toList.length + c.password.toList.length + 1 := by
      rw [toList_head_directive]
      split
      case isTrue => omega
      case isFalse =>
        rw [List.length_append, List.length_cons]
        omega
    have user := le_spent c.username.toList
    have password := le_spent c.password.toList
    simp only [List.map_cons, List.map_nil, spentOn] at paid
    refine ⟨Decidable.byContradiction fun other => ?_, Decidable.byContradiction fun other => ?_⟩
    · rw [spent_of_not_word other] at paid
      omega
    · rw [spent_of_not_word other] at paid
      omega
  · rintro ⟨user, password⟩
    have some : c.username ≠ "" := by simpa using user.ne_nil
    have space : Text.isBlank ' ' = true := rfl
    have last : tokensFrom .between c.password.toList = Option.some [c.password.toList] := by
      simpa [tokensFrom] using tokensFrom_word password ended_nil
    rw [tokens?, toList_head_directive, if_neg some, tokensFrom_word user (ended_cons space),
      tokensFrom, if_pos space, last]
    simp

/-- A rendered credential has a line with its user name and its password as they are stored.  The line
reads as these two tokens exactly if they are plain, and then no plain credential with another user
name or password has the same line. -/
theorem credential_line_reads_iff (certsDir : String) {doc : Document} {c : Credential}
    (rendered : c ∈ doc.renderedCredentials certsDir) :
    credentialBlock c = { name := "basicauth", block := some [c.directive] } ∧
      credentialBlock c ∈ blockWithin (blocks certsDir doc) ∧
      (compile certsDir doc).text =
        String.join ((topRows (blocks certsDir doc)).map (· ++ "\n")) ∧
      ∃ depth, indent depth ++ c.directive.head ∈ topRows (blocks certsDir doc) ∧
        (tokens? (indent depth ++ c.directive.head) = some [c.username, c.password] ↔ c.Plain) ∧
        (c.Plain → ∀ other : Credential, other.Plain →
          (c.username ≠ other.username ∨ c.password ≠ other.password) →
          ∀ elsewhere, indent depth ++ c.directive.head ≠
            indent elsewhere ++ other.directive.head) := by
  have block := mem_blocks_of_credential (mem_within_self (credentialBlock c)) rendered
  have inner : c.directive ∈ (credentialBlock c).within :=
    mem_within_of_block (mem_blockWithin_of_mem (List.mem_singleton_self _))
  have inside := mem_blocks_of_credential inner rendered
  obtain ⟨depth, row⟩ := exists_topRow rfl inside
  refine ⟨rfl, block, format_eq_join_rows _, depth, row, ?_, ?_⟩
  · rw [tokens?_indent_append, tokens?_directive_iff]
  · intro plain other plainToo differ elsewhere same
    have tokens := congrArg tokens? same
    rw [tokens?_indent_append, tokens?_indent_append, (tokens?_directive_iff c).2 plain,
      (tokens?_directive_iff other).2 plainToo] at tokens
    obtain ⟨user, password⟩ : c.username = other.username ∧ c.password = other.password := by
      simpa using tokens
    exact differ.elim (· user) (· password)

def oddCredential : Credential :=
  { id := "odd", username := "o\\d\"d", password := "a\"b\\" }

def guardedHandler : Document where
  general := { enabled := true }
  domains := [.serving "d" "d.example"]
  handlers := [{ Handler.proxying "h" "d" ["one"] ⟨"80"⟩ with credentials := ["odd"] }]
  credentials := [oddCredential]

theorem credential_line_reads_iff_guardedHandler :
    oddCredential ∈ guardedHandler.renderedCredentials "./certs" ∧ oddCredential.Plain ∧
      ∃ depth, indent depth ++ "o\\d\"d a\"b\\" ∈ topRows (blocks "./certs" guardedHandler) ∧
        tokens? (indent depth ++ "o\\d\"d a\"b\\") = some ["o\\d\"d", "a\"b\\"] := by
  have rendered : oddCredential ∈ guardedHandler.renderedCredentials "./certs" := by decide +kernel
  have plain : oddCredential.Plain := by decide +kernel
  obtain ⟨-, -, -, depth, row, reads, -⟩ := credential_line_reads_iff "./certs" rendered
  exact ⟨rendered, plain, depth, row, reads.2 plain⟩

def spacedApart : Document where
  general := { enabled := true }
  domains := [{ Domain.serving "d" "d.example" with credentials := ["a", "b"] }]
  credentials := [{ id := "a", username := "ops team", password := "secret" },
    { id := "b", username := "ops", password := "team secret" }]

/-- Nothing is found about them, and both have the same line, of three tokens. -/
theorem spacedApart_lines :
    spacedApart.lint = [] ∧
      spacedApart.renderedCredentials "./certs" = spacedApart.credentials ∧
      (topRows (blocks "./certs" spacedApart)).count "\t\tops team secret" = 2 ∧
      spacedApart.credentials.map (fun c => indent 2 ++ c.directive.head) =
        ["\t\tops team secret", "\t\tops team secret"] ∧
      tokens? "\t\tops team secret" = some ["ops", "team", "secret"] := by
  decide +kernel

end Caddyfile

end ProxyConfig
