import ProxyConfig.Proofs.Caddyfile.TextRows

/-!
Trees of directives that can be read off their text.  A tree is clean if names and arguments are words
and no braces, where a block may go without a name.  Each row then has words of its own, and the words
tell directives with a block, directives without one and the ends of blocks apart.  Main statement:
clean trees with the same text are the same, and the lines of the text are the rows of the trees, each
behind as many tabs as it is deep, with an empty line behind each tree at the top
(`format_eq_iff_of_clean`).
-/

namespace ProxyConfig

def Text.linesOf (s : String) : List String :=
  (Text.splitAll (· == '\n') s.toList).map String.ofList

theorem Text.linesOf_join {rows : List String} (unbroken : ∀ row ∈ rows, '\n' ∉ row.toList) :
    Text.linesOf (String.join (rows.map (· ++ "\n"))) = rows ++ [""] := by
  induction rows with
  | nil => rfl
  | cons row rows ih =>
    obtain ⟨first, rest⟩ := List.forall_mem_cons.1 unbroken
    have whole : ∀ c ∈ row.toList, (c == '\n') = false := by
      intro c there
      rw [beq_eq_false_iff_ne]
      rintro rfl
      exact first there
    have text : (row ++ "\n" ++ String.join (rows.map (· ++ "\n"))).toList =
        row.toList ++ '\n' :: (String.join (rows.map (· ++ "\n"))).toList := by simp
    rw [List.map_cons, String.join_cons, Text.linesOf, text, Text.splitAll_append rfl,
      Text.splitAll_eq_singleton whole, List.map_append, List.map_singleton, String.ofList_toList,
      ← Text.linesOf, ih rest]
    rfl

namespace Caddyfile

/-- A text that is one word and no brace. -/
structure Clean (s : String) : Prop where
  ne_empty : s ≠ ""
  filled : ∀ c ∈ s.toList, Text.isBlank c = false
  not_opening : s ≠ "\x7b"
  not_closing : s ≠ "\x7d"

instance (s : String) : Decidable (Clean s) :=
  let _ : Decidable (∀ c ∈ s.toList, Text.isBlank c = false) := List.decidableBAll _ s.toList
  decidable_of_iff
    (s ≠ "" ∧ (∀ c ∈ s.toList, Text.isBlank c = false) ∧ s ≠ "\x7b" ∧ s ≠ "\x7d")
    ⟨fun ⟨filling, filled, opening, closing⟩ => ⟨filling, filled, opening, closing⟩,
      fun clean => ⟨clean.ne_empty, clean.filled, clean.not_opening, clean.not_closing⟩⟩

theorem Clean.words {s : String} (clean : Clean s) : Text.words s = [s] :=
  Text.words_eq_singleton clean.ne_empty clean.filled

namespace Directive

/-- The name and the arguments are clean, or there are none of them and a block. -/
def CleanHead (d : Directive) : Prop :=
  (∀ s ∈ d.parts, Clean s) ∨ d.name = "" ∧ d.args = [] ∧ d.block.isSome = true

instance : DecidablePred CleanHead := fun _ => inferInstanceAs (Decidable (_ ∨ _))

def ownWords (d : Directive) : List String := d.parts.filter (· ≠ "")

def label (d : Directive) : List String :=
  d.ownWords ++ if d.block.isSome then ["\x7b"] else []

section Head

variable {d e : Directive}

theorem ownWords_of_parts (clean : ∀ s ∈ d.parts, Clean s) : d.ownWords = d.parts :=
  List.filter_eq_self.2 fun s there => by simpa using (clean s there).ne_empty

theorem CleanHead.ownWords_clean (clean : d.CleanHead) : ∀ s ∈ d.ownWords, Clean s := by
  rcases clean with parts | ⟨name, args, -⟩
  · rwa [ownWords_of_parts parts]
  · simp [ownWords, parts, name, args]

theorem CleanHead.brace_mem_label_iff (clean : d.CleanHead) :
    "\x7b" ∈ d.label ↔ d.block.isSome = true := by
  have absent : "\x7b" ∉ d.ownWords := fun there => (clean.ownWords_clean _ there).not_opening rfl
  rw [label, List.mem_append, or_iff_right absent]
  split
  case isTrue block => simp [block]
  case isFalse bare => simp [bare]

theorem CleanHead.eq_of_label (clean : d.CleanHead) (cleanToo : e.CleanHead)
    (same : d.label = e.label) :
    d.name = e.name ∧ d.args = e.args ∧ d.block.isSome = e.block.isSome := by
  have block : d.block.isSome = e.block.isSome := by
    rw [Bool.eq_iff_iff, ← clean.brace_mem_label_iff, ← cleanToo.brace_mem_label_iff, same]
  have words : d.ownWords = e.ownWords := by
    rw [label, label, block] at same
    exact List.append_cancel_right same
  rcases clean with parts | ⟨name, args, -⟩ <;> rcases cleanToo with partsToo | ⟨nameToo, argsToo, -⟩
  · rw [ownWords_of_parts parts, ownWords_of_parts partsToo] at words
    obtain ⟨name, args⟩ := List.cons.inj words
    exact ⟨name, args, block⟩
  · rw [ownWords_of_parts parts] at words
    simp [Directive.ownWords, Directive.parts, nameToo, argsToo] at words
  · rw [ownWords_of_parts partsToo] at words
    simp [Directive.ownWords, Directive.parts, name, args] at words
  · exact ⟨name.trans nameToo.symm, args.trans argsToo.symm, block⟩

end Head

/-- What has a row of its own: a directive up to its block, or the end of a block. -/
inductive Mark where
  | directive (d : Directive)
  | blockEnd

namespace Mark

def directive? : Mark → Option Directive
  | directive d => some d
  | blockEnd => none

def text : Mark → String
  | directive d => d.head ++ if d.block.isSome then opening d.head else ""
  | blockEnd => "\x7d"

def words : Mark → List String
  | directive d => d.label
  | blockEnd => ["\x7d"]

end Mark

def rowAt (place : Nat × Mark) : String := indent place.1 ++ place.2.text

mutual

/-- The directives of a tree and the ends of its blocks from top to bottom, each with its depth: what
is in a block is one level deeper than the directive and the end of the block. -/
def placed (depth : Nat) : Directive → List (Nat × Mark)
  | ⟨name, args, none⟩ => [(depth, .directive ⟨name, args, none⟩)]
  | ⟨name, args, some children⟩ =>
    (depth, .directive ⟨name, args, some children⟩) ::
      (blockPlaced (depth + 1) children ++ [(depth, .blockEnd)])

def blockPlaced (depth : Nat) : List Directive → List (Nat × Mark)
  | [] => []
  | d :: rest => placed depth d ++ blockPlaced depth rest

end

section Rows

variable (depth : Nat) (name : String) (args : List String)

theorem rows_leaf : rows depth ⟨name, args, none⟩ = [rowAt (depth, .directive ⟨name, args, none⟩)] := by
  simp [rows, rowAt, Mark.text, head]

theorem rows_block (children : List Directive) :
    rows depth ⟨name, args, some children⟩ =
      rowAt (depth, .directive ⟨name, args, some children⟩) ::
        (blockRows (depth + 1) children ++ [rowAt (depth, .blockEnd)]) := by
  simp [rows, rowAt, Mark.text, head, String.append_assoc]

end Rows

mutual

theorem rows_eq_map_placed (depth : Nat) : (d : Directive) → rows depth d = (placed depth d).map rowAt
  | ⟨name, args, none⟩ => rows_leaf depth name args
  | ⟨name, args, some children⟩ => by
    have below := blockRows_eq_map_blockPlaced (depth + 1) children
    rw [rows_block, placed, below, List.map_cons, List.map_append, List.map_singleton]

theorem blockRows_eq_map_blockPlaced (depth : Nat) :
    (ds : List Directive) → blockRows depth ds = (blockPlaced depth ds).map rowAt
  | [] => rfl
  | d :: rest => by
    rw [blockRows, blockPlaced, List.map_append, rows_eq_map_placed depth d,
      blockRows_eq_map_blockPlaced depth rest]

end

theorem topRows_eq_flatMap (ds : List Directive) :
    topRows ds = ds.flatMap fun d => (placed 0 d).map rowAt ++ [""] := by
  induction ds with
  | nil => rfl
  | cons d ds ih =>
    rw [topRows, ih, rows_eq_map_placed, List.flatMap_cons, List.append_assoc, List.singleton_append]

mutual

theorem directives_placed (depth : Nat) :
    (d : Directive) → (placed depth d).filterMap (·.2.directive?) = d.within
  | ⟨name, args, none⟩ => rfl
  | ⟨name, args, some children⟩ => by
    have below := directives_blockPlaced (depth + 1) children
    rw [placed, within, List.filterMap_cons, List.filterMap_append, below]
    exact congrArg _ (List.append_nil _)

theorem directives_blockPlaced (depth : Nat) :
    (ds : List Directive) → (blockPlaced depth ds).filterMap (·.2.directive?) = blockWithin ds
  | [] => rfl
  | d :: rest => by
    rw [blockPlaced, blockWithin, List.filterMap_append, directives_placed depth d,
      directives_blockPlaced depth rest]

end

theorem exists_foldl_addPart_eq {line : String} (begun : line ≠ "") (args : List String) :
    ∃ more, args.foldl addPart line = line ++ more := by
  induction args generalizing line with
  | nil => exact ⟨"", by simp⟩
  | cons a args ih =>
    have longer : line ++ " " ++ a ≠ "" := by simp [begun]
    obtain ⟨more, behind⟩ := ih longer
    refine ⟨" " ++ a ++ more, ?_⟩
    rw [List.foldl_cons, addPart_of_begun begun, behind]
    simp only [String.append_assoc]

theorem flatMap_words_of_clean {args : List String} (clean : ∀ a ∈ args, Clean a) :
    args.flatMap Text.words = args := by
  induction args with
  | nil => rfl
  | cons a args ih =>
    obtain ⟨first, rest⟩ := List.forall_mem_cons.1 clean
    rw [List.flatMap_cons, first.words, ih rest, List.singleton_append]

/-- A row begins with something, and its words are those of the name, the arguments and the brace. -/
structure ReadsAs (text : String) (words : List String) : Prop where
  begins : ∃ c rest, text.toList = c :: rest ∧ Text.isBlank c = false
  words : Text.words text = words

theorem Clean.begins {s : String} (clean : Clean s) :
    ∃ c rest, s.toList = c :: rest ∧ Text.isBlank c = false := by
  have filling : s.toList ≠ [] := by simpa using clean.ne_empty
  obtain ⟨c, rest, text⟩ := List.exists_cons_of_ne_nil filling
  exact ⟨c, rest, text, clean.filled c (by simp [text])⟩

theorem readsAs_text_of_parts {d : Directive} (clean : ∀ s ∈ d.parts, Clean s) :
    ReadsAs (Mark.directive d).text d.label := by
  obtain ⟨name, args⟩ := List.forall_mem_cons.1 clean
  obtain ⟨more, behind⟩ := exists_foldl_addPart_eq name.ne_empty d.args
  rw [← head_eq_foldl] at behind
  have begun : d.head.isEmpty = false := by simp [behind, name.ne_empty]
  have words : Text.words d.head = d.parts := by
    rw [words_head name.ne_empty, name.words, flatMap_words_of_clean args]
    rfl
  constructor
  · obtain ⟨c, rest, text, filled⟩ := Clean.begins name
    refine ⟨c, rest ++ (more ++ if d.block.isSome then opening d.head else "").toList, ?_, filled⟩
    simp [Mark.text, behind, text]
  · rw [label, ownWords_of_parts clean, Mark.text]
    split
    case isTrue =>
      have line : d.head ++ " \x7b" = d.head ++ String.ofList [' '] ++ "\x7b" := by
        rw [String.append_assoc]
        rfl
      rw [opening, begun, if_neg Bool.false_ne_true, line, Text.words_append_blank rfl, words]
      rfl
    case isFalse => rw [String.append_empty, List.append_nil, words]

theorem CleanHead.readsAs {d : Directive} (clean : d.CleanHead) :
    ReadsAs (Mark.directive d).text d.label := by
  rcases clean with parts | ⟨name, args, block⟩
  · exact readsAs_text_of_parts parts
  · have text : (Mark.directive d).text = "\x7b" := by
      simp [Mark.text, head, opening, name, args, block]
    have label : d.label = ["\x7b"] := by simp [label, ownWords, parts, name, args, block]
    rw [text, label]
    exact ⟨⟨'\x7b', [], rfl, rfl⟩, rfl⟩

theorem readsAs_blockEnd : ReadsAs Mark.blockEnd.text Mark.blockEnd.words :=
  ⟨⟨'\x7d', [], rfl, rfl⟩, rfl⟩

theorem rowAt_inj {depth : Nat} {d e : Directive} (clean : d.CleanHead) (cleanToo : e.CleanHead)
    (same : rowAt (depth, .directive d) = rowAt (depth, .directive e)) :
    d.name = e.name ∧ d.args = e.args ∧ d.block.isSome = e.block.isSome := by
  refine clean.eq_of_label cleanToo ?_
  have words := congrArg Text.words same
  rw [rowAt, rowAt, words_indent_append, words_indent_append] at words
  rw [← clean.readsAs.words, words, cleanToo.readsAs.words]

theorem rowAt_ne_blockEnd {depth depth' : Nat} {d : Directive} (clean : d.CleanHead) :
    rowAt (depth, .directive d) ≠ rowAt (depth', .blockEnd) := by
  intro same
  have words := congrArg Text.words same
  rw [rowAt, rowAt, words_indent_append, words_indent_append, clean.readsAs.words,
    readsAs_blockEnd.words] at words
  have there : "\x7d" ∈ d.label := by
    rw [words]
    exact List.mem_singleton_self _
  rw [label, List.mem_append] at there
  rcases there with inside | brace
  · exact (clean.ownWords_clean _ inside).not_closing rfl
  · split at brace
    · simp at brace
    · cases brace

theorem exists_rows_cons (depth : Nat) (d : Directive) :
    ∃ more, rows depth d = rowAt (depth, .directive d) :: more := by
  obtain ⟨name, args, _ | children⟩ := d
  · exact ⟨_, rows_leaf depth name args⟩
  · exact ⟨_, rows_block depth name args children⟩

theorem ne_blockRows_cons {depth depth' : Nat} {d : Directive} (clean : ∀ f ∈ d.within, f.CleanHead)
    (ds : List Directive) (behind behindToo : List String) :
    blockRows depth (d :: ds) ++ behind ≠ rowAt (depth', .blockEnd) :: behindToo := by
  obtain ⟨more, start⟩ := exists_rows_cons depth d
  rw [blockRows, start, List.append_assoc, List.cons_append]
  exact fun same => rowAt_ne_blockEnd (clean d (mem_within_self d)) (List.cons.inj same).1

mutual

/-- The rows of a clean tree say which tree it is, and where its rows end. -/
theorem rows_append_inj (depth : Nat) {behind behindToo : List String} :
    (d e : Directive) → (∀ f ∈ d.within, f.CleanHead) → (∀ f ∈ e.within, f.CleanHead) →
      rows depth d ++ behind = rows depth e ++ behindToo → d = e ∧ behind = behindToo
  | ⟨name, args, none⟩, ⟨name', args', none⟩, clean, cleanToo, same => by
    rw [rows_leaf, rows_leaf] at same
    obtain ⟨row, rest⟩ := List.cons.inj same
    obtain ⟨rfl, rfl, -⟩ := rowAt_inj (clean _ (mem_within_self _)) (cleanToo _ (mem_within_self _)) row
    exact ⟨rfl, rest⟩
  | ⟨name, args, none⟩, ⟨name', args', some children'⟩, clean, cleanToo, same => by
    rw [rows_leaf, rows_block] at same
    obtain ⟨-, -, block⟩ := rowAt_inj (clean _ (mem_within_self _)) (cleanToo _ (mem_within_self _))
      (List.cons.inj same).1
    cases block
  | ⟨name, args, some children⟩, ⟨name', args', none⟩, clean, cleanToo, same => by
    rw [rows_leaf, rows_block] at same
    obtain ⟨-, -, block⟩ := rowAt_inj (clean _ (mem_within_self _)) (cleanToo _ (mem_within_self _))
      (List.cons.inj same).1
    cases block
  | ⟨name, args, some children⟩, ⟨name', args', some children'⟩, clean, cleanToo, same => by
    simp only [rows_block, List.cons_append, List.append_assoc, List.nil_append] at same
    obtain ⟨row, rest⟩ := List.cons.inj same
    obtain ⟨rfl, rfl, -⟩ := rowAt_inj (clean _ (mem_within_self _)) (cleanToo _ (mem_within_self _)) row
    -- the rows of the blocks end at the same row, by the induction over what is in them
    obtain ⟨rfl, after⟩ := blockRows_append_inj (depth + 1) depth children children'
      (fun f there => clean f (mem_within_of_block there))
      (fun f there => cleanToo f (mem_within_of_block there)) rest
    exact ⟨rfl, after⟩

theorem blockRows_append_inj (depth depth' : Nat) {behind behindToo : List String} :
    (ds es : List Directive) → (∀ f ∈ blockWithin ds, f.CleanHead) →
      (∀ f ∈ blockWithin es, f.CleanHead) →
      blockRows depth ds ++ rowAt (depth', .blockEnd) :: behind =
        blockRows depth es ++ rowAt (depth', .blockEnd) :: behindToo →
      ds = es ∧ behind = behindToo
  | [], [], _, _, same => ⟨rfl, (List.cons.inj same).2⟩
  | [], e :: es, _, cleanToo, same => by
    have first : ∀ f ∈ e.within, f.CleanHead := fun f there => cleanToo f (List.mem_append_left _ there)
    exact absurd same.symm (ne_blockRows_cons first es _ _)
  | d :: ds, [], clean, _, same => by
    have first : ∀ f ∈ d.within, f.CleanHead := fun f there => clean f (List.mem_append_left _ there)
    exact absurd same (ne_blockRows_cons first ds _ _)
  | d :: ds, e :: es, clean, cleanToo, same => by
    rw [blockWithin, List.forall_mem_append] at clean cleanToo
    rw [blockRows, blockRows, List.append_assoc, List.append_assoc] at same
    obtain ⟨rfl, rest⟩ := rows_append_inj depth d e clean.1 cleanToo.1 same
    obtain ⟨rfl, after⟩ := blockRows_append_inj depth depth' ds es clean.2 cleanToo.2 rest
    exact ⟨rfl, after⟩

end

theorem topRows_inj : {ds es : List Directive} → (∀ f ∈ blockWithin ds, f.CleanHead) →
    (∀ f ∈ blockWithin es, f.CleanHead) → topRows ds = topRows es → ds = es
  | [], [], _, _, _ => rfl
  | [], e :: es, _, _, same => by
    obtain ⟨more, start⟩ := exists_rows_cons 0 e
    rw [topRows, topRows, start] at same
    cases same
  | d :: ds, [], _, _, same => by
    obtain ⟨more, start⟩ := exists_rows_cons 0 d
    rw [topRows, topRows, start] at same
    cases same
  | d :: ds, e :: es, clean, cleanToo, same => by
    rw [blockWithin, List.forall_mem_append] at clean cleanToo
    obtain ⟨rfl, rest⟩ := rows_append_inj 0 d e clean.1 cleanToo.1 same
    rw [topRows_inj clean.2 cleanToo.2 (List.cons.inj rest).2]

theorem lineFeed_not_mem_topRows {ds : List Directive} (clean : ∀ d ∈ blockWithin ds, d.CleanHead) :
    ∀ row ∈ topRows ds, '\n' ∉ row.toList := by
  have parts : feedsIn (partsIn ds) = 0 := by
    rw [feedsIn_eq_zero_iff]
    intro s there feed
    obtain ⟨d, inside, part⟩ := List.mem_flatMap.1 there
    rcases clean d inside with clean | ⟨name, args, -⟩
    · exact absurd ((clean s part).filled '\n' feed) (by decide)
    · rw [Directive.parts, name, args] at part
      rw [List.mem_singleton.1 part] at feed
      cases feed
  have counted := feeds_format ds
  rw [format_eq_join_rows, feeds_join_rows, parts] at counted
  exact feedsIn_eq_zero_iff.1 (by omega)

theorem linesOf_format {ds : List Directive} (clean : ∀ d ∈ blockWithin ds, d.CleanHead) :
    Text.linesOf (format ds) = topRows ds ++ [""] := by
  rw [format_eq_join_rows, Text.linesOf_join (lineFeed_not_mem_topRows clean)]

theorem readsAs_of_mem_placed {depth : Nat} {d : Directive} (clean : ∀ f ∈ d.within, f.CleanHead)
    {place : Nat × Mark} (there : place ∈ placed depth d) :
    ReadsAs place.2.text place.2.words := by
  obtain ⟨depth', e | _⟩ := place
  · have inside : e ∈ d.within := by
      rw [← directives_placed depth d]
      exact List.mem_filterMap.2 ⟨_, there, rfl⟩
    exact (clean e inside).readsAs
  · exact readsAs_blockEnd

/-- Clean trees have the same text only if they are the same.  The lines of the text are a line for
each directive and each end of a block, and an empty one behind each tree at the top.  A line has as
many tabs as it is deep, something that is no blank behind them, and the words of what it is for. -/
theorem format_eq_iff_of_clean {ds es : List Directive} (clean : ∀ d ∈ blockWithin ds, d.CleanHead)
    (cleanToo : ∀ e ∈ blockWithin es, e.CleanHead) :
    (format ds = format es ↔ ds = es) ∧
      Text.linesOf (format ds) = (ds.flatMap fun d => (placed 0 d).map rowAt ++ [""]) ++ [""] ∧
      ∀ d ∈ ds, (placed 0 d).filterMap (·.2.directive?) = d.within ∧
        ∀ place ∈ placed 0 d,
          (∃ c rest, (rowAt place).toList = List.replicate place.1 '\t' ++ c :: rest ∧
            Text.isBlank c = false) ∧
          Text.words (rowAt place) = place.2.words := by
  refine ⟨⟨fun same => ?_, congrArg format⟩, ?_, fun d there => ⟨directives_placed 0 d, ?_⟩⟩
  · have lines := congrArg Text.linesOf same
    rw [linesOf_format clean, linesOf_format cleanToo] at lines
    exact topRows_inj clean cleanToo (List.append_cancel_right lines)
  · rw [linesOf_format clean, topRows_eq_flatMap]
  · intro place inside
    have within : ∀ f ∈ d.within, f.CleanHead := by
      intro f deeper
      refine clean f ?_
      rw [blockWithin_eq_flatMap]
      exact List.mem_flatMap.2 ⟨d, there, deeper⟩
    obtain ⟨⟨c, rest, text, filled⟩, words⟩ := readsAs_of_mem_placed within inside
    refine ⟨⟨c, rest, ?_, filled⟩, ?_⟩
    · rw [rowAt, String.toList_append, toList_indent, text]
    · rw [rowAt, words_indent_append, words]

theorem format_eq_iff_of_clean_empty_block :
    (∀ d ∈ blockWithin [⟨"", [], some [⟨"tls", ["internal"], none⟩]⟩], d.CleanHead) ∧
      (∀ e ∈ blockWithin [⟨"", [], some [⟨"tls", ["internal"], some []⟩]⟩], e.CleanHead) ∧
      format [⟨"", [], some [⟨"tls", ["internal"], none⟩]⟩] ≠
        format [⟨"", [], some [⟨"tls", ["internal"], some []⟩]⟩] := by
  have clean : ∀ d ∈ blockWithin [⟨"", [], some [⟨"tls", ["internal"], none⟩]⟩], d.CleanHead := by
    decide
  have cleanToo :
      ∀ e ∈ blockWithin [⟨"", [], some [⟨"tls", ["internal"], some []⟩]⟩], e.CleanHead := by
    decide
  refine ⟨clean, cleanToo, fun same => ?_⟩
  have trees := (format_eq_iff_of_clean clean cleanToo).1.1 same
  simp at trees

end Directive

end Caddyfile

end ProxyConfig
