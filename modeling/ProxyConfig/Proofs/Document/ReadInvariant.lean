import ProxyConfig.Proofs.Document.ReadBack

/-!
What every record that is read has in common.  A property that the empty record has, and that each
field keeps whatever it reads, holds of all that a table reads, from a mapping or from a list, with
members missing, unknown or out of order (`Record.read_keeps`).
-/

namespace ProxyConfig

theorem Decoded.within_eq_ok {place : Place} {x : Decoded α} {a : α} :
    Decoded.within place x = .ok a ↔ x = .ok a := by
  cases x <;> simp [within, Except.mapError]

theorem Decoded.map_eq_ok {x : Decoded α} {f : α → β} {b : β} (h : x.map f = .ok b) :
    ∃ a, x = .ok a ∧ f a = b := by
  cases x with
  | error e => cases h
  | ok a => exact ⟨a, rfl, Except.ok.inj h⟩

theorem Draft.refuse_ne_ok (expected : String) (d : Draft) (a : α) :
    d.refuse expected ≠ .ok a := by
  intro h
  cases d with
  | scalar value plain => cases value <;> cases h
  | _ => cases h

/-- Whatever is read into the field, the record keeps the property. -/
def Field.Keeps (P : α → Prop) (f : Field α) : Prop :=
  ∀ reach d a b, P a → f.read reach d a = .ok b → P b

namespace Field

variable {P : α → Prop} {get : α → β} {set : β → α → α}

theorem keeps_field {name : String} {codec : Codec β} (Q : β → Prop)
    (hread : ∀ reach d v, codec.read reach d = .ok v → Q v)
    (hset : ∀ v a, Q v → P a → P (set v a)) : (field name codec get set).Keeps P := by
  intro reach d a b ha h
  obtain ⟨v, hv, rfl⟩ := Decoded.map_eq_ok h
  exact hset v a (hread reach d v hv) ha

theorem keeps_unrelated {name : String} {codec : Codec β} (hset : ∀ v a, P (set v a) = P a) :
    (field name codec get set).Keeps P := by
  refine keeps_field (fun _ => True) (fun _ _ _ _ => trivial) fun v a _ ha => ?_
  rw [hset v a]
  exact ha

theorem keeps_lift {f : Field β} (hset : ∀ v a, P (set v a) = P a) :
    (f.lift get set).Keeps P := by
  intro reach d a b ha h
  obtain ⟨v, -, rfl⟩ := Decoded.map_eq_ok h
  rw [hset v a]
  exact ha

end Field

namespace Record

variable {r : Record α} {P : α → Prop} {reach : Reach}

theorem readMembers_keeps (hfields : ∀ f ∈ r.fields, f.Keeps P)
    {members : List (Option String × Draft)} {p q : Progress α} (hp : P p.value)
    (h : r.readMembers reach members p = .ok q) : P q.value := by
  induction members generalizing p with
  | nil =>
    cases h
    exact hp
  | cons m members ih =>
    obtain ⟨name, d⟩ := m
    cases name with
    | none => cases h
    | some name =>
      rw [readMembers] at h
      split at h
      next f hf =>
        split at h
        case isTrue => cases h
        case isFalse =>
          obtain ⟨v, hv, h⟩ := Decoded.bind_eq_ok h
          have hkeeps := hfields f (List.mem_of_find?_eq_some hf)
          exact ih (p := p.put name v) (hkeeps _ _ _ _ hp (Decoded.within_eq_ok.mp hv)) h
      next =>
        split at h
        · obtain ⟨-, -, h⟩ := Decoded.bind_eq_ok h
          exact ih hp h
        · obtain ⟨-, -, h⟩ := Decoded.bind_eq_ok h
          refine ih ?_ h
          exact hp

theorem readGroup_keeps (hfields : ∀ f ∈ r.fields, f.Keeps P) {group : Nat}
    {kept : List (String × Draft)} {p q : Progress α} (hp : P p.value)
    (h : r.readGroup reach group kept p = .ok q) : P q.value := by
  induction kept generalizing p with
  | nil =>
    cases h
    exact hp
  | cons m kept ih =>
    obtain ⟨name, d⟩ := m
    rw [readGroup] at h
    split at h
    next f hf =>
      split at h
      case isTrue => cases h
      case isFalse =>
        obtain ⟨v, hv, h⟩ := Decoded.bind_eq_ok h
        have hkeeps := hfields f (List.mem_of_find?_eq_some hf)
        exact ih (p := p.put name v) (hkeeps _ _ _ _ hp hv) h
    next => exact ih hp h

theorem readGroups_keeps (hfields : ∀ f ∈ r.fields, f.Keeps P) {group left : Nat}
    {p q : Progress α} (hp : P p.value) (h : r.readGroups reach group left p = .ok q) :
    P q.value := by
  induction left generalizing group p with
  | zero =>
    cases h
    exact hp
  | succ left ih =>
    obtain ⟨v, hv, h⟩ := Decoded.bind_eq_ok h
    exact ih (readGroup_keeps hfields hp hv) h

theorem readInOrder_keeps {fields : List (Field α)} (hfields : ∀ f ∈ fields, f.Keeps P)
    {finish : Finish} {index : Nat} {items : List Draft} {a b : α} (ha : P a)
    (h : readInOrder reach finish index fields items a = .ok b) : P b := by
  induction fields generalizing index items a with
  | nil =>
    cases items with
    | nil =>
      cases finish <;> cases h
      exact ha
    | cons d items => cases h
  | cons f fields ih =>
    cases items with
    | nil =>
      obtain ⟨-, -, h⟩ := Decoded.bind_eq_ok h
      cases h
      exact ha
    | cons d items =>
      obtain ⟨v, hv, h⟩ := Decoded.bind_eq_ok h
      have hkeeps := hfields f List.mem_cons_self
      exact ih (fun g hg => hfields g (List.mem_cons_of_mem f hg))
        (hkeeps _ _ _ _ ha (Decoded.within_eq_ok.mp hv)) h

theorem read_keeps (hempty : P r.empty) (hfields : ∀ f ∈ r.fields, f.Keeps P) {d : Draft} {a : α}
    (h : r.read reach d = .ok a) : P a := by
  unfold read at h
  split at h
  next members finish =>
    split at h
    · cases h
    · obtain ⟨p, hp, h⟩ := Decoded.bind_eq_ok h
      obtain ⟨-, -, h⟩ := Decoded.bind_eq_ok h
      obtain ⟨q, hq, h⟩ := Decoded.bind_eq_ok h
      cases h
      have hvalue : P p.value := by
        refine readMembers_keeps hfields ?_ hp
        exact hempty
      exact readGroups_keeps hfields hvalue hq
  next =>
    cases h
    exact hempty
  next items finish =>
    split at h
    · split at h
      · cases h
      · exact readInOrder_keeps hfields hempty h
    · exact absurd h (Draft.refuse_ne_ok _ _ a)
  next => exact absurd h (Draft.refuse_ne_ok _ _ a)

end Record

theorem Codec.mem_of_readItems {item : Draft → Decoded α} {index : Nat} {ds : List Draft}
    {as : List α} (h : readItems item index ds = .ok as) : ∀ a ∈ as, ∃ d, item d = .ok a := by
  induction ds generalizing index as with
  | nil =>
    cases h
    simp
  | cons d ds ih =>
    obtain ⟨a, ha, h⟩ := Decoded.bind_eq_ok h
    obtain ⟨as, has, h⟩ := Decoded.bind_eq_ok h
    cases h
    intro b hb
    rcases List.mem_cons.mp hb with rfl | hb
    · exact ⟨d, Decoded.within_eq_ok.mp ha⟩
    · exact ih has b hb

theorem Codec.mem_of_list_read {item : Reach → Draft → Decoded α} {write : α → Json.Value}
    {reach : Reach} {d : Draft} {as : List α} (h : (list item write).read reach d = .ok as) :
    ∀ a ∈ as, ∃ d, item reach.deeper d = .ok a := by
  simp only [list] at h
  split at h
  next =>
    cases h
    simp
  next items finish =>
    split at h
    · cases h
    · obtain ⟨bs, hbs, h⟩ := Decoded.bind_eq_ok h
      obtain ⟨-, -, h⟩ := Decoded.bind_eq_ok h
      cases h
      exact mem_of_readItems hbs
  next => exact absurd h (Draft.refuse_ne_ok _ _ as)

end ProxyConfig
