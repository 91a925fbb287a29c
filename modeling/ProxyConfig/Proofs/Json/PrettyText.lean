import ProxyConfig.Proofs.Json.QuotedText

/-!
The text that a value is written as reads back as the value's draft, and nothing of it is left.  The
induction is on the fuel: each of the three readers hands one step less to the others, and each step
consumes a character at least.  Numbers are left out (`Value.Numberless`), since what a number reads
as depends on its size.  Without blanks a mapping of texts reads back, too (`Reading.ofPieces_compact`).
-/

namespace ProxyConfig.Json

open Text

namespace Value

/-- No number stands anywhere in the value. -/
inductive Numberless : Value → Prop
  | null : Numberless null
  | bool (b : Bool) : Numberless (bool b)
  | text (s : String) : Numberless (text s)
  | list (items : List Value) (h : ∀ v ∈ items, Numberless v) : Numberless (list items)
  | mapping (members : List (String × Value)) (h : ∀ m ∈ members, Numberless m.2) :
    Numberless (mapping members)

section

variable (level : Nat)

@[simp] theorem pieces_null :
    piecesOf (prettyAt level null) = [.char 'n', .char 'u', .char 'l', .char 'l'] := by
  simp [prettyAt, piecesOf]

@[simp] theorem pieces_bool (b : Bool) :
    piecesOf (prettyAt level (bool b)) =
      if b then [.char 't', .char 'r', .char 'u', .char 'e']
      else [.char 'f', .char 'a', .char 'l', .char 's', .char 'e'] := by
  cases b <;> simp [prettyAt, piecesOf]

@[simp] theorem pieces_text (s : String) : piecesOf (prettyAt level (text s)) =
    .char '"' :: ((escaped s.toList).map .char ++ [.char '"']) := by
  rw [prettyAt, piecesOf_quoted]

theorem pieces_list_nil : piecesOf (prettyAt level (list [])) = [.char '[', .char ']'] := by
  simp [prettyAt, piecesOf]

theorem pieces_list_cons (v : Value) (vs : List Value) :
    piecesOf (prettyAt level (list (v :: vs))) =
      .char '[' :: (piecesOf (newLine (level + 1)) ++ (piecesOf (prettyAt (level + 1) v) ++
        (piecesOf (prettyItems (level + 1) vs) ++ (piecesOf (newLine level) ++ [.char ']'])))) := by
  simp [prettyAt, piecesOf]

theorem pieces_mapping_nil :
    piecesOf (prettyAt level (mapping [])) = [.char '\x7b', .char '\x7d'] := by
  simp [prettyAt, piecesOf]

theorem pieces_mapping_cons (k : String) (v : Value) (ms : List (String × Value)) :
    piecesOf (prettyAt level (mapping ((k, v) :: ms))) =
      .char '\x7b' :: (piecesOf (newLine (level + 1)) ++ (piecesOf (quoted k) ++
        (.char ':' :: .char ' ' :: (piecesOf (prettyAt (level + 1) v) ++
          (piecesOf (prettyMembers (level + 1) ms) ++
            (piecesOf (newLine level) ++ [.char '\x7d'])))))) := by
  simp [prettyAt, piecesOf]

theorem pieces_newLine :
    piecesOf (newLine level) = .char '\n' :: List.replicate (2 * level) (.char ' ') := by
  have hspaces : ∀ n, ("".pushn ' ' n).toList = List.replicate n ' ' := by
    intro n
    rw [String.pushn_eq_repeat_push]
    induction n with
    | zero => rfl
    | succ n ih => rw [Nat.repeat, String.toList_push, ih, List.replicate_succ']
  simp [newLine, piecesOf, hspaces]

theorem pieces_items_cons (v : Value) (vs : List Value) :
    piecesOf (prettyItems level (v :: vs)) =
      .char ',' :: (piecesOf (newLine level) ++
        (piecesOf (prettyAt level v) ++ piecesOf (prettyItems level vs))) := by
  simp [prettyItems, piecesOf]

theorem pieces_members_cons (k : String) (v : Value) (ms : List (String × Value)) :
    piecesOf (prettyMembers level ((k, v) :: ms)) =
      .char ',' :: (piecesOf (newLine level) ++ (piecesOf (quoted k) ++
        (.char ':' :: .char ' ' :: (piecesOf (prettyAt level v) ++
          piecesOf (prettyMembers level ms))))) := by
  simp [prettyMembers, piecesOf]

end

def openings : List Char := ['n', 't', 'f', '"', '[', '\x7b']

theorem pieces_opening {v : Value} (hv : v.Numberless) (level : Nat) :
    ∃ c ∈ openings, ∃ rest, piecesOf (v.prettyAt level) = .char c :: rest := by
  cases hv with
  | null => exact ⟨'n', by decide, _, pieces_null level⟩
  | bool b =>
    cases b with
    | true => exact ⟨'t', by decide, _, pieces_bool level true⟩
    | false => exact ⟨'f', by decide, _, pieces_bool level false⟩
  | text s => exact ⟨'"', by decide, _, pieces_text level s⟩
  | list items _ =>
    cases items with
    | nil => exact ⟨'[', by decide, _, pieces_list_nil level⟩
    | cons v vs => exact ⟨'[', by decide, _, pieces_list_cons level v vs⟩
  | mapping members _ =>
    cases members with
    | nil => exact ⟨'\x7b', by decide, _, pieces_mapping_nil level⟩
    | cons m ms => exact ⟨'\x7b', by decide, _, pieces_mapping_cons level m.1 m.2 ms⟩

end Value

theorem skipBlanks_spaces (n : Nat) (input : List Piece) :
    skipBlanks (List.replicate n (.char ' ') ++ input) = skipBlanks input := by
  induction n with
  | zero => rfl
  | succ n ih => rw [List.replicate_succ, List.cons_append, skipBlanks, ih]

theorem skipBlanks_newLine (level : Nat) (input : List Piece) :
    skipBlanks (piecesOf (Value.newLine level) ++ input) = skipBlanks input := by
  rw [Value.pieces_newLine, List.cons_append, skipBlanks, skipBlanks_spaces]

theorem skipBlanks_mark {c : Char} (hc : c ∉ [' ', '\n', '\t', '\r']) (rest : List Piece) :
    skipBlanks (.char c :: rest) = .char c :: rest := by
  simp only [List.mem_cons, List.not_mem_nil, or_false, not_or] at hc
  simp [skipBlanks, hc]

theorem opening_marks : ∀ c ∈ Value.openings, c ∉ [' ', '\n', '\t', '\r'] ∧ c ≠ ']' := by
  simp [Value.openings]

theorem readValue_space (fuel : Nat) (input : List Piece) :
    readValue fuel (.char ' ' :: input) = readValue fuel input := by
  cases fuel with
  | zero => rfl
  | succ fuel => rw [readValue, readValue, skipBlanks]

theorem readMembers_newLine (fuel level : Nat) (input : List Piece) :
    readMembers fuel (piecesOf (Value.newLine level) ++ input) = readMembers fuel input := by
  cases fuel with
  | zero => rfl
  | succ fuel => rw [readMembers, readMembers, skipBlanks_newLine]

section

variable {fuel : Nat} {input rest : List Piece} {c : Char}

theorem readValue_items {items : List Draft} {finish : Finish} {tail : Option (List Piece)}
    (h : skipBlanks input = .char c :: rest) (hc : c ≠ ']')
    (hr : readItems fuel (.char c :: rest) = ((items, finish), tail)) :
    readValue (fuel + 1) (.char '[' :: input) = (.list items finish, tail) := by
  simp [readValue, skipBlanks, h, hc, hr]

theorem readValue_members {members : List (Option String × Draft)} {finish : Finish}
    {tail : Option (List Piece)} (h : skipBlanks input = .char '"' :: rest)
    (hr : readMembers fuel (.char '"' :: rest) = ((members, finish), tail)) :
    readValue (fuel + 1) (.char '\x7b' :: input) = (.mapping members finish, tail) := by
  simp [readValue, skipBlanks, h, hr]

theorem readItems_last {d : Draft} {after : List Piece}
    (hd : readValue fuel input = (d, some after)) (hend : skipBlanks after = .char ']' :: rest) :
    readItems (fuel + 1) input = (([d], .closed), some rest) := by
  simp [readItems, hd, hend]

theorem readItems_next {d : Draft} {after : List Piece} {items : List Draft} {finish : Finish}
    {tail : Option (List Piece)} (hd : readValue fuel input = (d, some (.char ',' :: after)))
    (hnext : skipBlanks after = .char c :: rest) (hc : c ≠ ']')
    (hr : readItems fuel (.char c :: rest) = ((items, finish), tail)) :
    readItems (fuel + 1) input = ((d :: items, finish), tail) := by
  simp [readItems, hd, skipBlanks, hnext, hc, hr]

theorem readMembers_last {k : String} {d : Draft} {after : List Piece}
    (hfuel : k.toList.length < fuel) (hd : readValue fuel input = (d, some after))
    (hend : skipBlanks after = .char '\x7d' :: rest) :
    readMembers (fuel + 1) (piecesOf (quoted k) ++ (.char ':' :: input)) =
      (([(some k, d)], .closed), some rest) := by
  simp [readMembers, piecesOf_quoted, skipBlanks, readQuoted_quoted k _ hfuel, hd, hend]

theorem readMembers_next {k : String} {d : Draft} {after : List Piece}
    {members : List (Option String × Draft)} {finish : Finish} {tail : Option (List Piece)}
    (hfuel : k.toList.length < fuel) (hd : readValue fuel input = (d, some (.char ',' :: after)))
    (hr : readMembers fuel after = ((members, finish), tail)) :
    readMembers (fuel + 1) (piecesOf (quoted k) ++ (.char ':' :: input)) =
      (((some k, d) :: members, finish), tail) := by
  simp [readMembers, piecesOf_quoted, skipBlanks, readQuoted_quoted k _ hfuel, hd, hr]

end

open Value

def ReadsValues (fuel : Nat) : Prop :=
  ∀ (v : Value) (level : Nat) (rest : List Piece), v.Numberless →
    (piecesOf (v.prettyAt level)).length ≤ fuel →
    readValue fuel (piecesOf (v.prettyAt level) ++ rest) = (v.draft, some rest)

def ReadsItems (fuel : Nat) : Prop :=
  ∀ (v : Value) (vs : List Value) (level : Nat) (tail rest : List Piece),
    (∀ w ∈ v :: vs, w.Numberless) → skipBlanks tail = .char ']' :: rest →
    (piecesOf (v.prettyAt level)).length + (piecesOf (prettyItems level vs)).length < fuel →
    readItems fuel
        (piecesOf (v.prettyAt level) ++ (piecesOf (prettyItems level vs) ++ tail)) =
      ((drafts (v :: vs), .closed), some rest)

def ReadsMembers (fuel : Nat) : Prop :=
  ∀ (k : String) (v : Value) (ms : List (String × Value)) (level : Nat) (tail rest : List Piece),
    (∀ m ∈ (k, v) :: ms, m.2.Numberless) → skipBlanks tail = .char '\x7d' :: rest →
    (piecesOf (quoted k)).length + (piecesOf (v.prettyAt level)).length +
      (piecesOf (prettyMembers level ms)).length < fuel →
    readMembers fuel
        (piecesOf (quoted k) ++ (.char ':' :: .char ' ' :: (piecesOf (v.prettyAt level) ++
          (piecesOf (prettyMembers level ms) ++ tail)))) =
      ((memberDrafts ((k, v) :: ms), .closed), some rest)

theorem readsItems_succ {fuel : Nat} (hvalues : ReadsValues fuel) (hitems : ReadsItems fuel) :
    ReadsItems (fuel + 1) := by
  intro v vs level tail rest hvs htail hfuel
  have hd := hvalues v level (piecesOf (prettyItems level vs) ++ tail) (hvs v List.mem_cons_self)
    (by omega)
  cases vs with
  | nil =>
    refine readItems_last hd ?_
    simpa [prettyItems, piecesOf] using htail
  | cons w ws =>
    have hw : ∀ u ∈ w :: ws, u.Numberless := fun u hu => hvs u (List.mem_cons_of_mem v hu)
    obtain ⟨c, hc, more, hmore⟩ := pieces_opening (hw w List.mem_cons_self) level
    rw [pieces_items_cons] at hd hfuel ⊢
    simp only [List.length_cons, List.length_append] at hfuel
    have hr := hitems w ws level tail rest hw htail (by omega)
    simp only [hmore, List.cons_append, List.append_assoc] at hd hr ⊢
    refine readItems_next hd ?_ (opening_marks c hc).2 hr
    rw [skipBlanks_newLine, skipBlanks_mark (opening_marks c hc).1]

theorem readsMembers_succ {fuel : Nat} (hvalues : ReadsValues fuel)
    (hmembers : ReadsMembers fuel) : ReadsMembers (fuel + 1) := by
  intro k v ms level tail rest hms htail hfuel
  have hk := length_lt_quoted k
  have hd := hvalues v level (piecesOf (prettyMembers level ms) ++ tail)
    (hms (k, v) List.mem_cons_self) (by omega)
  rw [← readValue_space] at hd
  cases ms with
  | nil =>
    refine readMembers_last (by omega) hd ?_
    simpa [prettyMembers, piecesOf] using htail
  | cons m ms =>
    obtain ⟨k', w⟩ := m
    have hw : ∀ m ∈ (k', w) :: ms, m.2.Numberless := fun m hm =>
      hms m (List.mem_cons_of_mem (k, v) hm)
    rw [pieces_members_cons] at hd hfuel ⊢
    simp only [List.length_cons, List.length_append] at hfuel
    have hr := hmembers k' w ms level tail rest hw htail (by omega)
    -- behind a comma the reader of members starts on the blanks, that of items behind them
    rw [← readMembers_newLine fuel level] at hr
    simp only [List.cons_append, List.append_assoc] at hd hr ⊢
    exact readMembers_next (by omega) hd hr

theorem readsValues_succ {fuel : Nat} (hitems : ReadsItems fuel) (hmembers : ReadsMembers fuel) :
    ReadsValues (fuel + 1) := by
  -- the value itself spends one unit of fuel, and its items or members may spend the others
  intro v level rest hv hfuel
  cases hv with
  | null => simp [readValue, skipBlanks, literal, readLiteral, draft]
  | bool b => cases b <;> simp [readValue, skipBlanks, literal, readLiteral, draft]
  | text s =>
    have hs : s.toList.length < fuel := by
      have h := length_lt_quoted s
      rw [prettyAt] at hfuel
      omega
    simp [readValue, skipBlanks, readQuoted_quoted s rest hs, draft]
  | list items h =>
    cases items with
    | nil =>
      rw [pieces_list_nil]
      simp [readValue, skipBlanks, draft, drafts]
    | cons v vs =>
      -- no value opens like a closing bracket, so the first item is not taken for one
      obtain ⟨c, hc, more, hmore⟩ := pieces_opening (h v List.mem_cons_self) (level + 1)
      rw [pieces_list_cons] at hfuel ⊢
      simp only [List.length_cons, List.length_append] at hfuel
      have hend : skipBlanks (piecesOf (newLine level) ++ .char ']' :: rest) =
          .char ']' :: rest := by
        rw [skipBlanks_newLine, skipBlanks_mark (by decide)]
      have hr := hitems v vs (level + 1) _ rest h hend (by omega)
      simp only [hmore, List.cons_append, List.append_assoc, List.nil_append] at hr ⊢
      refine readValue_items ?_ (opening_marks c hc).2 hr
      rw [skipBlanks_newLine, skipBlanks_mark (opening_marks c hc).1]
  | mapping members h =>
    cases members with
    | nil =>
      rw [pieces_mapping_nil]
      simp [readValue, skipBlanks, draft, memberDrafts]
    | cons m ms =>
      obtain ⟨k, v⟩ := m
      rw [pieces_mapping_cons] at hfuel ⊢
      simp only [List.length_cons, List.length_append] at hfuel
      have hend : skipBlanks (piecesOf (newLine level) ++ .char '\x7d' :: rest) =
          .char '\x7d' :: rest := by
        rw [skipBlanks_newLine, skipBlanks_mark (by decide)]
      have hr := hmembers k v ms (level + 1) _ rest h hend (by omega)
      simp only [piecesOf_quoted, List.cons_append, List.append_assoc, List.nil_append] at hr ⊢
      refine readValue_members ?_ hr
      rw [skipBlanks_newLine, skipBlanks_mark (by decide)]

/-- However a value without numbers is indented, reading gives its draft and what stands behind. -/
theorem reads_pretty (fuel : Nat) : ReadsValues fuel ∧ ReadsItems fuel ∧ ReadsMembers fuel := by
  induction fuel with
  | zero =>
    refine ⟨?_, ?_, ?_⟩
    · intro v level rest hv hfuel
      obtain ⟨c, -, more, hmore⟩ := pieces_opening hv level
      simp [hmore] at hfuel
    · intro v vs level tail rest _ _ hfuel
      omega
    · intro k v ms level tail rest _ _ hfuel
      omega
  | succ fuel ih =>
    obtain ⟨hvalues, hitems, hmembers⟩ := ih
    exact ⟨readsValues_succ hitems hmembers, readsItems_succ hvalues hitems,
      readsMembers_succ hvalues hmembers⟩

theorem Reading.ofPieces_pretty {v : Value} (hv : v.Numberless) :
    Reading.ofPieces (piecesOf v.pretty) = ⟨v.draft, true⟩ := by
  have h := (reads_pretty ((piecesOf v.pretty).length + 1)).1 v 0 [] hv (Nat.le_succ _)
  rw [List.append_nil, ← Value.pretty] at h
  rw [Reading.ofPieces, h]
  rfl

def Value.textMembers (fields : List (String × String)) : List (String × Value) :=
  fields.map fun f => (f.1, text f.2)

theorem readValue_quoted {fuel : Nat} (s : String) (rest : List Piece)
    (hfuel : s.toList.length < fuel) :
    readValue (fuel + 1) (piecesOf (quoted s) ++ rest) = (.text s, some rest) := by
  simp [piecesOf_quoted, readValue, skipBlanks, readQuoted_quoted s rest hfuel]

theorem readMembers_compact (fields : List (String × String)) (k s : String) {fuel : Nat}
    (hfuel : (piecesOf (quoted k)).length + (piecesOf (quoted s)).length +
      (piecesOf (compactMembers (textMembers fields))).length < fuel) :
    readMembers fuel (piecesOf (quoted k) ++ (.char ':' :: (piecesOf (quoted s) ++
        (piecesOf (compactMembers (textMembers fields)) ++ [.char '\x7d'])))) =
      ((memberDrafts (textMembers ((k, s) :: fields)), .closed), some []) := by
  induction fields generalizing k s fuel with
  | nil =>
    have hk := length_lt_quoted k
    have hs := length_lt_quoted s
    obtain ⟨fuel, rfl⟩ := Nat.exists_eq_add_of_le' (show 2 ≤ fuel by omega)
    exact readMembers_last (by omega) (readValue_quoted s _ (by omega)) rfl
  | cons f fields ih =>
    have hk := length_lt_quoted k
    have hs := length_lt_quoted s
    obtain ⟨k', s'⟩ := f
    have step : piecesOf (compactMembers (textMembers ((k', s') :: fields))) =
        .char ',' :: (piecesOf (quoted k') ++ (.char ':' :: (piecesOf (quoted s') ++
          piecesOf (compactMembers (textMembers fields))))) := by
      simp [textMembers, compactMembers, compact, piecesOf]
    rw [step] at hfuel ⊢
    simp only [List.length_cons, List.length_append] at hfuel
    obtain ⟨fuel, rfl⟩ := Nat.exists_eq_add_of_le' (show 2 ≤ fuel by omega)
    have left : (piecesOf (quoted k')).length + (piecesOf (quoted s')).length +
        (piecesOf (compactMembers (textMembers fields))).length < fuel + 1 := by omega
    simp only [List.cons_append, List.append_assoc]
    exact readMembers_next (by omega) (readValue_quoted s _ (by omega)) (ih k' s' left)

theorem Reading.ofPieces_compact (fields : List (String × String)) :
    Reading.ofPieces (piecesOf (mapping (textMembers fields)).compact) =
      ⟨(mapping (textMembers fields)).draft, true⟩ := by
  cases fields with
  | nil => rfl
  | cons f fields =>
    obtain ⟨k, s⟩ := f
    have pieces : piecesOf (mapping (textMembers ((k, s) :: fields))).compact =
        .char '\x7b' :: (piecesOf (quoted k) ++ (.char ':' :: (piecesOf (quoted s) ++
          (piecesOf (compactMembers (textMembers fields)) ++ [.char '\x7d'])))) := by
      simp [textMembers, compact, piecesOf]
    have enough : (piecesOf (quoted k)).length + (piecesOf (quoted s)).length +
          (piecesOf (compactMembers (textMembers fields))).length <
        (piecesOf (mapping (textMembers ((k, s) :: fields))).compact).length := by
      simp only [pieces, List.length_cons, List.length_append]
      omega
    have hr := readMembers_compact fields k s enough
    rw [Reading.ofPieces]
    generalize (piecesOf (mapping (textMembers ((k, s) :: fields))).compact).length = fuel at hr ⊢
    rw [pieces]
    rw [piecesOf_quoted k, List.cons_append] at hr ⊢
    rw [readValue_members rfl hr]
    rfl

end ProxyConfig.Json
