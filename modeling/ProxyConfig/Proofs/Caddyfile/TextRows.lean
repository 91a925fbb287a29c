import Mathlib.Algebra.GroupWithZero.Nat
import ProxyConfig.Caddyfile.Compile
import ProxyConfig.Proofs.Text.Words

/-!
The text of directives row by row.  A row is what one directive has up to its block, or the brace that
closes a block, or the empty one behind a block at the top; names and arguments stand in rows as they
are.  Main statements: a text is its rows with a line feed behind each (`format_eq_join_rows`), there
is one row for each directive, block and block at the top (`length_topRows`), and what line feeds a text
holds besides are those of its names and arguments (`feeds_format`).
-/

namespace ProxyConfig.Caddyfile

def feeds (s : String) : Nat := s.toList.count '\n'

def feedsIn (ss : List String) : Nat := (ss.map feeds).sum

@[simp] theorem feeds_append (s t : String) : feeds (s ++ t) = feeds s + feeds t := by
  simp [feeds]

@[simp] theorem feedsIn_nil : feedsIn [] = 0 := rfl

@[simp] theorem feedsIn_cons (s : String) (ss : List String) :
    feedsIn (s :: ss) = feeds s + feedsIn ss := by
  simp [feedsIn]

@[simp] theorem feedsIn_append (ss ts : List String) :
    feedsIn (ss ++ ts) = feedsIn ss + feedsIn ts := by
  simp [feedsIn]

theorem feeds_eq_zero_iff {s : String} : feeds s = 0 ↔ '\n' ∉ s.toList := List.count_eq_zero

theorem feedsIn_eq_zero_iff {ss : List String} :
    feedsIn ss = 0 ↔ ∀ s ∈ ss, '\n' ∉ s.toList := by
  induction ss with
  | nil => simp
  | cons s ss ih => simp [ih, feeds_eq_zero_iff]

theorem feeds_join_rows (rows : List String) :
    feeds (String.join (rows.map (· ++ "\n"))) = rows.length + feedsIn rows := by
  induction rows with
  | nil => rfl
  | cons row rows ih =>
    have one : feeds "\n" = 1 := rfl
    rw [List.map_cons, String.join_cons, feeds_append, feeds_append, ih, one, feedsIn_cons,
      List.length_cons]
    omega

namespace Directive

def opening (line : String) : String := if line.isEmpty then "\x7b" else " \x7b"

mutual

def rows (depth : Nat) : Directive → List String
  | ⟨name, args, none⟩ => [indent depth ++ head ⟨name, args, none⟩]
  | ⟨name, args, some children⟩ =>
    (indent depth ++ head ⟨name, args, none⟩ ++ opening (head ⟨name, args, none⟩)) ::
      (blockRows (depth + 1) children ++ [indent depth ++ "\x7d"])

def blockRows (depth : Nat) : List Directive → List String
  | [] => []
  | d :: rest => rows depth d ++ blockRows depth rest

end

def topRows : List Directive → List String
  | [] => []
  | d :: rest => rows 0 d ++ "" :: topRows rest

mutual

theorem lines_eq_join_rows (depth : Nat) :
    (d : Directive) → lines depth d = String.join ((rows depth d).map (· ++ "\n"))
  | ⟨name, args, none⟩ => by simp [lines, rows, String.join_cons]
  | ⟨name, args, some children⟩ => by
    have below := blockLines_eq_join_rows (depth + 1) children
    simp only [lines, rows, opening, below, List.map_cons, List.map_append, List.map_nil,
      String.join_cons, String.join_append, String.join_nil, String.append_empty]
    split <;> simp [String.append_assoc]

theorem blockLines_eq_join_rows (depth : Nat) :
    (ds : List Directive) → blockLines depth ds = String.join ((blockRows depth ds).map (· ++ "\n"))
  | [] => rfl
  | d :: rest => by
    rw [blockLines, blockRows, List.map_append, String.join_append, lines_eq_join_rows depth d,
      blockLines_eq_join_rows depth rest]

end

theorem format_eq_join_rows (ds : List Directive) :
    format ds = String.join ((topRows ds).map (· ++ "\n")) := by
  induction ds with
  | nil => rfl
  | cons d ds ih =>
    rw [format, topRows, List.map_append, List.map_cons, String.join_append, String.join_cons,
      lines_eq_join_rows, ih, String.empty_append, String.append_assoc]

mutual

/-- A directive and all that stands in its block and in the blocks there, in order. -/
def within : Directive → List Directive
  | ⟨name, args, none⟩ => [⟨name, args, none⟩]
  | ⟨name, args, some children⟩ => ⟨name, args, some children⟩ :: blockWithin children

def blockWithin : List Directive → List Directive
  | [] => []
  | d :: rest => within d ++ blockWithin rest

end

theorem blockWithin_eq_flatMap (ds : List Directive) : blockWithin ds = ds.flatMap within := by
  induction ds with
  | nil => rfl
  | cons d ds ih => rw [blockWithin, ih, List.flatMap_cons]

theorem blockWithin_append (ds es : List Directive) :
    blockWithin (ds ++ es) = blockWithin ds ++ blockWithin es := by
  simp only [blockWithin_eq_flatMap, List.flatMap_append]

theorem mem_within_self (d : Directive) : d ∈ d.within := by
  obtain ⟨name, args, _ | children⟩ := d <;> simp [within]

theorem mem_blockWithin_of_mem {d : Directive} {ds : List Directive} (there : d ∈ ds) :
    d ∈ blockWithin ds := by
  rw [blockWithin_eq_flatMap]
  exact List.mem_flatMap.2 ⟨d, there, mem_within_self d⟩

theorem mem_within_of_block {d : Directive} {children : List Directive} {name : String}
    {args : List String} (inner : d ∈ blockWithin children) :
    d ∈ within { name, args, block := some children } :=
  List.mem_cons_of_mem _ inner

theorem mem_blockWithin_of_block {d : Directive} {ds children : List Directive} {name : String}
    {args : List String} (outer : { name, args, block := some children } ∈ ds)
    (inner : d ∈ blockWithin children) : d ∈ blockWithin ds := by
  rw [blockWithin_eq_flatMap]
  exact List.mem_flatMap.2 ⟨_, outer, mem_within_of_block inner⟩

def parts (d : Directive) : List String := d.name :: d.args

def partsIn (ds : List Directive) : List String := (blockWithin ds).flatMap parts

def blocksIn (ds : List Directive) : Nat := ds.countP fun d => d.block.isSome

theorem blocksIn_append (ds es : List Directive) : blocksIn (ds ++ es) = blocksIn ds + blocksIn es :=
  List.countP_append

mutual

theorem length_rows (depth : Nat) :
    (d : Directive) → (rows depth d).length = d.within.length + blocksIn d.within
  | ⟨name, args, none⟩ => rfl
  | ⟨name, args, some children⟩ => by
    have below := length_blockRows (depth + 1) children
    have closed : blocksIn (⟨name, args, some children⟩ :: blockWithin children) =
        blocksIn (blockWithin children) + 1 := by simp [blocksIn]
    simp only [rows, within, closed, List.length_cons, List.length_append, below, List.length_nil]
    omega

theorem length_blockRows (depth : Nat) :
    (ds : List Directive) →
      (blockRows depth ds).length = (blockWithin ds).length + blocksIn (blockWithin ds)
  | [] => rfl
  | d :: rest => by
    have first := length_rows depth d
    have others := length_blockRows depth rest
    rw [blockRows, blockWithin, List.length_append, List.length_append, blocksIn_append, first,
      others]
    omega

end

theorem length_topRows (ds : List Directive) :
    (topRows ds).length = (blockWithin ds).length + blocksIn (blockWithin ds) + ds.length := by
  induction ds with
  | nil => rfl
  | cons d ds ih =>
    rw [topRows, blockWithin, List.length_append, List.length_cons, ih, length_rows,
      List.length_append, blocksIn_append, List.length_cons]
    omega

mutual

theorem exists_row (depth : Nat) {leaf : Directive} (plain : leaf.block = none) :
    (d : Directive) → leaf ∈ d.within → ∃ depth', indent depth' ++ leaf.head ∈ rows depth d
  | ⟨name, args, none⟩, there => by
    rw [within, List.mem_singleton] at there
    subst there
    exact ⟨depth, List.mem_singleton_self _⟩
  | ⟨name, args, some children⟩, there => by
    rw [within, List.mem_cons] at there
    rcases there with rfl | there
    · cases plain
    · obtain ⟨depth', row⟩ := exists_blockRow (depth + 1) plain children there
      exact ⟨depth', List.mem_cons_of_mem _ (List.mem_append_left _ row)⟩

theorem exists_blockRow (depth : Nat) {leaf : Directive} (plain : leaf.block = none) :
    (ds : List Directive) → leaf ∈ blockWithin ds →
      ∃ depth', indent depth' ++ leaf.head ∈ blockRows depth ds
  | [], there => by cases there
  | d :: rest, there => by
    rw [blockWithin, List.mem_append] at there
    rcases there with first | later
    · obtain ⟨depth', row⟩ := exists_row depth plain d first
      exact ⟨depth', List.mem_append_left _ row⟩
    · obtain ⟨depth', row⟩ := exists_blockRow depth plain rest later
      exact ⟨depth', List.mem_append_right _ row⟩

end

theorem exists_topRow {leaf : Directive} (plain : leaf.block = none) {ds : List Directive}
    (there : leaf ∈ blockWithin ds) : ∃ depth, indent depth ++ leaf.head ∈ topRows ds := by
  induction ds with
  | nil => cases there
  | cons d ds ih =>
    rw [blockWithin, List.mem_append] at there
    rcases there with first | later
    · obtain ⟨depth, row⟩ := exists_row 0 plain d first
      exact ⟨depth, List.mem_append_left _ row⟩
    · obtain ⟨depth, row⟩ := ih later
      exact ⟨depth, List.mem_append_right _ (List.mem_cons_of_mem _ row)⟩

theorem toList_indent (depth : Nat) : (indent depth).toList = List.replicate depth '\t' := by
  induction depth with
  | zero => rfl
  | succ depth ih =>
    rw [List.replicate_succ', ← ih]
    change ((indent depth).push '\t').toList = _
    simp

def addPart (line part : String) : String :=
  if line.isEmpty then line ++ part else line ++ " " ++ part

theorem head_eq_foldl (d : Directive) : d.head = d.args.foldl addPart d.name := rfl

theorem addPart_of_begun {line : String} (begun : line ≠ "") (part : String) :
    addPart line part = line ++ " " ++ part :=
  if_neg (by simpa [String.isEmpty_iff] using begun)

theorem words_head {d : Directive} (named : d.name ≠ "") :
    Text.words d.head = Text.words d.name ++ d.args.flatMap Text.words := by
  have each (args : List String) (line : String) (begun : line ≠ "") :
      Text.words (args.foldl addPart line) = Text.words line ++ args.flatMap Text.words := by
    induction args generalizing line with
    | nil => simp
    | cons a args ih =>
      have longer : line ++ " " ++ a ≠ "" := by simp [begun]
      have words : Text.words (line ++ " " ++ a) = Text.words line ++ Text.words a :=
        Text.words_append_blank (c := ' ') rfl line a
      rw [List.foldl_cons, addPart_of_begun begun, ih _ longer, words, List.flatMap_cons,
        List.append_assoc]
  exact each d.args d.name named

theorem words_indent_append (depth : Nat) (s : String) :
    Text.words (indent depth ++ s) = Text.words s := by
  have skipped : Text.runs (List.replicate depth '\t' ++ s.toList) = Text.runs s.toList := by
    induction depth with
    | zero => rfl
    | succ depth ih => rw [List.replicate_succ, List.cons_append, Text.runs_of_blank rfl, ih]
  rw [Text.words, String.toList_append, toList_indent, skipped, Text.words]

theorem feeds_indent (depth : Nat) : feeds (indent depth) = 0 := by
  rw [feeds_eq_zero_iff, toList_indent]
  simp

theorem feeds_opening (line : String) : feeds (opening line) = 0 := by
  rw [opening]
  split <;> rfl

theorem feeds_head (d : Directive) : feeds d.head = feedsIn d.parts := by
  have each (args : List String) (line : String) :
      feeds (args.foldl addPart line) = feeds line + feedsIn args := by
    induction args generalizing line with
    | nil => rfl
    | cons a args ih =>
      have space : feeds " " = 0 := rfl
      rw [List.foldl_cons, ih, feedsIn_cons, addPart]
      split <;> simp only [feeds_append, space] <;> omega
  rw [head_eq_foldl, parts, each, feedsIn_cons]

mutual

theorem feedsIn_rows (depth : Nat) :
    (d : Directive) → feedsIn (rows depth d) = feedsIn (d.within.flatMap parts)
  | ⟨name, args, none⟩ => by
    have line := feeds_head ⟨name, args, none⟩
    simp [rows, within, feeds_indent, line]
  | ⟨name, args, some children⟩ => by
    have line : feeds (head ⟨name, args, none⟩) = feedsIn (parts ⟨name, args, some children⟩) :=
      feeds_head ⟨name, args, none⟩
    have below : feedsIn (blockRows (depth + 1) children) =
        feedsIn ((blockWithin children).flatMap parts) := feedsIn_blockRows (depth + 1) children
    have brace : feeds "\x7d" = 0 := rfl
    simp only [rows, within, feedsIn_cons, feedsIn_append, feeds_append, feeds_indent,
      feeds_opening, feedsIn_nil, List.flatMap_cons, below, line, brace]
    omega

theorem feedsIn_blockRows (depth : Nat) :
    (ds : List Directive) → feedsIn (blockRows depth ds) = feedsIn (partsIn ds)
  | [] => rfl
  | d :: rest => by
    have first := feedsIn_rows depth d
    have others := feedsIn_blockRows depth rest
    rw [blockRows, partsIn, blockWithin, List.flatMap_append, feedsIn_append, feedsIn_append, first,
      others, partsIn]

end

/-- A text holds the line feeds at the ends of its rows, and those of its names and arguments. -/
theorem feeds_format (ds : List Directive) :
    feeds (format ds) = (topRows ds).length + feedsIn (partsIn ds) := by
  have inside : feedsIn (topRows ds) = feedsIn (partsIn ds) := by
    induction ds with
    | nil => rfl
    | cons d ds ih =>
      have empty : feeds "" = 0 := rfl
      rw [topRows, partsIn, blockWithin, List.flatMap_append, feedsIn_append, feedsIn_append,
        feedsIn_rows, feedsIn_cons, ih, empty, Nat.zero_add, partsIn]
  rw [format_eq_join_rows, feeds_join_rows, inside]

end Directive

end ProxyConfig.Caddyfile
