import Mathlib.Logic.Relation
import ProxyConfig.Json.Decode
import ProxyConfig.Proofs.Document.Leniency

/-!
Edits of the objects in a document's draft.  An object stands for the document, for its general settings
or for an item of one of its collections.  Members may change places, and idle ones come and go: those
that are null, and those of no known name.  Main statements: a document is read after such edits as it
was before, and it can still be read after any scalar has been put in the place of a loose member.
-/

namespace ProxyConfig

open Draft

namespace Draft

inductive Rearranges (known : List String) : Draft → Draft → Prop
  | permute (order : ms.Perm ns) : Rearranges known (object ms) (object ns)
  | remove (idle : m.2 = .null none ∨ m.1 ∉ known) :
      Rearranges known (object (before ++ m :: after)) (object (before ++ after))
  | add (idle : m.2 = .null none ∨ m.1 ∉ known) :
      Rearranges known (object (before ++ after)) (object (before ++ m :: after))

/-- A scalar is put in the place of a member with one of the names. -/
inductive Loosens (loose : List String) : Draft → Draft → Prop
  | mk (listed : name ∈ loose) (scalar : IsScalar s) :
      Loosens loose (object (before ++ (name, d) :: after)) (object (before ++ (name, s) :: after))

end Draft

inductive EntityKind where
  | document
  | general
  | domain
  | subdomain
  | handler
  | accessList
  | credential
  | header
  | rawRoute

namespace EntityKind

def Entity : EntityKind → Type
  | document => Document
  | general => General
  | domain => Domain
  | subdomain => Subdomain
  | handler => Handler
  | accessList => AccessList
  | credential => Credential
  | header => HeaderRule
  | rawRoute => RawRoute

def layout : (kind : EntityKind) → Record kind.Entity
  | document => Document.layout
  | general => General.layout
  | domain => Domain.layout
  | subdomain => Subdomain.layout
  | handler => Handler.layout
  | accessList => AccessList.layout
  | credential => Credential.layout
  | header => HeaderRule.layout
  | rawRoute => RawRoute.layout

def known (kind : EntityKind) : List String := kind.layout.fields.map Field.name

def loose : EntityKind → List String
  | document => []
  | general => General.loose
  | domain => Domain.loose
  | subdomain => Subdomain.loose
  | handler => Handler.loose
  | accessList => AccessList.loose
  | credential => Credential.loose
  | header => HeaderRule.loose
  | rawRoute => RawRoute.loose

def collections : List (String × EntityKind) :=
  [("domains", domain), ("subdomains", subdomain), ("handlers", handler), ("accessLists", accessList),
    ("basicAuths", credential), ("headers", header), ("layer4", rawRoute)]

theorem lenient : ∀ kind : EntityKind, kind.layout.Lenient kind.loose
  | document => Document.lenient
  | general => General.lenient
  | domain => Domain.lenient
  | subdomain => Subdomain.lenient
  | handler => Handler.lenient
  | accessList => AccessList.lenient
  | credential => Credential.lenient
  | header => HeaderRule.lenient
  | rawRoute => RawRoute.lenient

end EntityKind

open EntityKind

inductive InPart (edit : EntityKind → Draft → Draft → Prop) : String → Draft → Draft → Prop
  | general (edited : edit .general d e) : InPart edit "general" d e
  | item (listed : (name, kind) ∈ collections) (edited : edit kind d e) :
      InPart edit name (array (before ++ d :: after)) (array (before ++ e :: after))

/-- An edit of one object in a document, which is an object itself or a list of its members' values. -/
inductive InDocument (edit : EntityKind → Draft → Draft → Prop) : Draft → Draft → Prop
  | whole (edited : edit .document d e) : InDocument edit d e
  | member (part : InPart edit name d e) :
      InDocument edit (object (before ++ (name, d) :: after)) (object (before ++ (name, e) :: after))
  | position (part : InPart edit name d e) (place : document.known[before.length]? = some name) :
      InDocument edit (array (before ++ d :: after)) (array (before ++ e :: after))

/-- One edit in a document, which leaves a value that is nested no deeper than allowed. -/
def EditsTo (edit : EntityKind → Draft → Draft → Prop) (depth : Nat) (x y : Draft) : Prop :=
  InDocument edit x y ∧ y.IsValue depth

theorem isSome_bind_of_steady {o p : Option α} {k : α → Option β}
    (first : o.isSome = true → p.isSome = true)
    (next : ∀ a b, (k a).isSome = true → (k b).isSome = true) :
    (o.bind k).isSome = true → (p.bind k).isSome = true := by
  intro there
  obtain ⟨c, there⟩ := Option.isSome_iff_exists.1 there
  obtain ⟨a, left, given⟩ := Option.bind_eq_some_iff.1 there
  obtain ⟨b, right⟩ := Option.isSome_iff_exists.1 (first (Option.isSome_of_mem left))
  rw [right]
  exact next a b (Option.isSome_of_mem given)

/-- What is there on the left is there on the right, and it is the same if that is asked for. -/
def Keeps (same : Bool) (o p : Option α) : Prop := ∀ a ∈ o, ∃ b ∈ p, same = true → b = a

namespace Keeps

variable {same : Bool} {o p : Option α}

theorem of_eq (h : o = p) : Keeps same o p := fun a there => ⟨a, h ▸ there, fun _ => rfl⟩

theorem of_isSome (h : p.isSome = true) : Keeps false o p := by
  obtain ⟨b, there⟩ := Option.isSome_iff_exists.1 h
  exact fun a _ => ⟨b, there, nofun⟩

theorem trans {q : Option α} (h : Keeps same o p) (h' : Keeps same p q) : Keeps same o q := by
  intro a there
  obtain ⟨b, there, equal⟩ := h a there
  obtain ⟨c, there, equal'⟩ := h' b there
  exact ⟨c, there, fun asked => (equal' asked).trans (equal asked)⟩

theorem map (h : Keeps same o p) (f : α → β) : Keeps same (o.map f) (p.map f) := by
  intro b there
  obtain ⟨a, origin, rfl⟩ := Option.map_eq_some_iff.1 there
  obtain ⟨c, found, equal⟩ := h a origin
  exact ⟨f c, Option.map_eq_some_iff.2 ⟨c, found, rfl⟩, fun asked => congrArg f (equal asked)⟩

theorem bind (h : Keeps same o p) {f : α → Option β}
    (steady : ∀ a b, (f a).isSome = true → (f b).isSome = true) :
    Keeps same (o.bind f) (p.bind f) := by
  intro c there
  obtain ⟨a, there, found⟩ := Option.bind_eq_some_iff.1 there
  obtain ⟨b, here, equal⟩ := h a there
  obtain ⟨e, given⟩ := Option.isSome_iff_exists.1 (steady a b (Option.isSome_of_mem found))
  refine ⟨e, Option.bind_eq_some_iff.2 ⟨b, here, given⟩, fun asked => ?_⟩
  obtain rfl := equal asked
  exact Option.some.inj (given.symm.trans found)

theorem bind_right {f g : α → Option β} (h : ∀ a, Keeps same (f a) (g a)) :
    Keeps same (o.bind f) (o.bind g) := by
  cases o with
  | none => exact of_eq rfl
  | some a => exact h a

end Keeps

namespace Record

variable {α : Type} {r : Record α} {listed : List String} {reach : Reach}

theorem Lenient.foldl_steady (lenient : r.Lenient listed) (ms : List (String × Draft)) (a b : α) :
    (ms.foldl (r.take reach) (some a)).isSome = true →
      (ms.foldl (r.take reach) (some b)).isSome = true := by
  induction ms generalizing a b with
  | nil => exact fun _ => rfl
  | cons m ms ih =>
    rw [List.foldl_cons, List.foldl_cons, take, take]
    cases found : r.fields.find? (·.name = m.1) with
    | none => exact ih a b
    | some f =>
      have steady := (lenient.each f (List.mem_of_find?_eq_some found)).steady reach m.2 a b
      simp only [Option.bind_some]
      rw [foldl_take ms (f.given reach m.2 a), foldl_take ms (f.given reach m.2 b)]
      exact isSome_bind_of_steady steady ih

variable {same : Bool} {name : String} {d e : Draft} {before after : List (String × Draft)}

theorem Lenient.keeps_foldl (lenient : r.Lenient listed)
    (alike : ∀ f ∈ r.fields, f.name = name → ∀ a,
      Keeps same (f.given reach d a) (f.given reach e a)) (a : Option α) :
    Keeps same ((before ++ (name, d) :: after).foldl (r.take reach) a)
      ((before ++ (name, e) :: after).foldl (r.take reach) a) := by
  rw [List.foldl_append, List.foldl_append, List.foldl_cons, List.foldl_cons]
  cases before.foldl (r.take reach) a with
  | none => rw [take_none, take_none]; exact .of_eq rfl
  | some b =>
    have taken : Keeps same (r.take reach (some b) (name, d)) (r.take reach (some b) (name, e)) := by
      unfold take
      cases found : r.fields.find? (·.name = name) with
      | none => exact .of_eq rfl
      | some f =>
        have called : f.name = name := by simpa using List.find?_some found
        exact alike f (List.mem_of_find?_eq_some found) called b
    rw [foldl_take after (r.take reach (some b) (name, d)),
      foldl_take after (r.take reach (some b) (name, e))]
    exact taken.bind (lenient.foldl_steady after)

theorem Lenient.keeps_member (lenient : r.Lenient listed)
    (alike : ∀ f ∈ r.fields, f.name = name → ∀ a,
      Keeps same (f.given reach.deeper d a) (f.given reach.deeper e a))
    (value : (object (before ++ (name, d) :: after)).IsValue reach.depth)
    (valueToo : (object (before ++ (name, e) :: after)).IsValue reach.depth) :
    Keeps same (r.read reach (object (before ++ (name, d) :: after))).toOption
      (r.read reach (object (before ++ (name, e) :: after))).toOption := by
  rw [lenient.read_object value, lenient.read_object valueToo]
  exact lenient.keeps_foldl alike (some r.empty)

theorem Lenient.take_idle (lenient : r.Lenient listed) {m : String × Draft}
    (idle : m.2 = .null none ∨ m.1 ∉ r.fields.map Field.name) :
    r.take reach (some r.empty) m = some r.empty := by
  unfold take
  cases found : r.fields.find? (·.name = m.1) with
  | none => rfl
  | some f =>
    have there := List.mem_of_find?_eq_some found
    rcases idle with null | unknown
    · rw [null]
      exact (lenient.each f there).idle reach
    · have called : f.name = m.1 := by simpa using List.find?_some found
      exact absurd (called ▸ List.mem_map_of_mem there) unknown

theorem Lenient.read_remove (lenient : r.Lenient listed) {m : String × Draft}
    (idle : m.2 = .null none ∨ m.1 ∉ r.fields.map Field.name)
    (value : (object (before ++ m :: after)).IsValue reach.depth)
    (valueToo : (object (before ++ after)).IsValue reach.depth) :
    (r.read reach (object (before ++ m :: after))).toOption =
      (r.read reach (object (before ++ after))).toOption := by
  obtain ⟨-, distinct, -⟩ := IsValue.object_iff.1 value
  rw [lenient.read_object value, lenient.read_object valueToo,
    lenient.foldl_perm List.perm_middle distinct, List.foldl_cons, lenient.take_idle idle]

theorem Lenient.read_rearranges (lenient : r.Lenient listed)
    (edited : Rearranges (r.fields.map Field.name) d e) (value : d.IsValue reach.depth)
    (valueToo : e.IsValue reach.depth) : (r.read reach d).toOption = (r.read reach e).toOption := by
  cases edited with
  | permute order =>
    obtain ⟨-, distinct, -⟩ := IsValue.object_iff.1 value
    rw [lenient.read_object value, lenient.read_object valueToo, lenient.foldl_perm order distinct]
  | remove idle => exact lenient.read_remove idle value valueToo
  | add idle => exact (lenient.read_remove idle valueToo value).symm

theorem Lenient.keeps_loosens (lenient : r.Lenient listed) (edited : Loosens listed d e)
    (value : d.IsValue reach.depth) (valueToo : e.IsValue reach.depth) :
    Keeps false (r.read reach d).toOption (r.read reach e).toOption := by
  obtain ⟨there, scalar⟩ := edited
  refine lenient.keeps_member (fun f known called a => .of_isSome ?_) value valueToo
  exact (lenient.each f known).scalars (called ▸ there) reach.deeper _ a scalar

theorem readInOrder_cons (f : Field α) (fields : List (Field α)) (index : Nat) (d : Draft)
    (rest : List Draft) (a : α) :
    (readInOrder reach .closed index (f :: fields) (d :: rest) a).toOption =
      (f.given reach d a).bind fun b =>
        (readInOrder reach .closed (index + 1) fields rest b).toOption := by
  rw [readInOrder, Decoded.toOption_bind, Decoded.toOption_within]
  rfl

theorem readInOrder_steady {fields : List (Field α)} (steady : ∀ f ∈ fields, f.Steady) (index : Nat)
    (ds : List Draft) (a b : α) :
    (readInOrder reach .closed index fields ds a).toOption.isSome = true →
      (readInOrder reach .closed index fields ds b).toOption.isSome = true := by
  induction fields generalizing index ds a b with
  | nil => cases ds <;> exact id
  | cons f fields ih =>
    cases ds with
    | nil => exact id
    | cons d ds =>
      obtain ⟨steadyHere, steady⟩ := List.forall_mem_cons.1 steady
      rw [readInOrder_cons, readInOrder_cons]
      exact isSome_bind_of_steady (steadyHere reach d a b) (ih steady (index + 1) ds)

theorem keeps_readInOrder {fields : List (Field α)} (steady : ∀ f ∈ fields, f.Steady) {f : Field α}
    {before after : List Draft} (place : fields[before.length]? = some f)
    (alike : ∀ a, Keeps same (f.given reach d a) (f.given reach e a)) (index : Nat) (a : α) :
    Keeps same (readInOrder reach .closed index fields (before ++ d :: after) a).toOption
      (readInOrder reach .closed index fields (before ++ e :: after) a).toOption := by
  induction before generalizing index fields a with
  | nil =>
    cases fields with
    | nil => cases place
    | cons g fields =>
      obtain rfl : g = f := Option.some.inj place
      obtain ⟨-, steady⟩ := List.forall_mem_cons.1 steady
      rw [List.nil_append, List.nil_append, readInOrder_cons, readInOrder_cons]
      exact (alike a).bind (readInOrder_steady steady (index + 1) after)
  | cons x before ih =>
    cases fields with
    | nil => cases place
    | cons g fields =>
      obtain ⟨-, steady⟩ := List.forall_mem_cons.1 steady
      rw [List.cons_append, List.cons_append, readInOrder_cons, readInOrder_cons]
      exact .bind_right fun b => ih steady place (index + 1) b

theorem read_array (ungrouped : r.groups = 0) (room : reach.depth ≠ 0) (ds : List Draft) :
    (r.read reach (array ds)).toOption =
      if reach.positional then (readInOrder reach.deeper .closed 0 r.fields ds r.empty).toOption
      else none := by
  rw [array, read_list]
  cases reach.positional with
  | false => rfl
  | true =>
    simp only [ungrouped]
    rw [if_neg room]
    rfl

end Record

theorem Codec.readItems_cons (item : Draft → Decoded α) (index : Nat) (d : Draft)
    (rest : List Draft) :
    (readItems item index (d :: rest)).toOption =
      (item d).toOption.bind fun a => (readItems item (index + 1) rest).toOption.map (a :: ·) := by
  rw [readItems, Decoded.toOption_bind, Decoded.toOption_within]
  cases (item d).toOption with
  | none => rfl
  | some a =>
    simp only [Option.bind_some, Decoded.toOption_bind]
    cases (readItems item (index + 1) rest).toOption <;> rfl

theorem Codec.keeps_readItems {same : Bool} {item : Draft → Decoded α} {d e : Draft}
    (alike : Keeps same (item d).toOption (item e).toOption) (before after : List Draft)
    (index : Nat) :
    Keeps same (readItems item index (before ++ d :: after)).toOption
      (readItems item index (before ++ e :: after)).toOption := by
  induction before generalizing index with
  | nil =>
    rw [List.nil_append, List.nil_append, readItems_cons, readItems_cons]
    exact alike.bind fun a b => by simp
  | cons x before ih =>
    rw [List.cons_append, List.cons_append, readItems_cons, readItems_cons]
    exact .bind_right fun a => (ih (index + 1)).map _

theorem Codec.list_read_array {item : Reach → Draft → Decoded α} {write : α → Json.Value}
    {reach : Reach} (room : reach.depth ≠ 0) (ds : List Draft) :
    ((list item write).read reach (array ds)).toOption = (readItems (item reach.deeper) 0 ds).toOption := by
  rw [array, list_read_list, if_neg room, Decoded.toOption_bind]
  cases (readItems (item reach.deeper) 0 ds).toOption <;> rfl

/-- The edit changes one object into another one of which a record can be read if it could be read of
the first one, and the same record if that is asked for. -/
structure Harmless (same : Bool) (edit : EntityKind → Draft → Draft → Prop) : Prop where
  objects : ∀ kind d e, edit kind d e → (∃ ms, d = object ms) ∧ ∃ ns, e = object ns
  keeps : ∀ kind d e, edit kind d e → ∀ reach : Reach, d.IsValue reach.depth → e.IsValue reach.depth →
    Keeps same (kind.layout.read reach d).toOption (kind.layout.read reach e).toOption

theorem harmless_rearranges : Harmless true fun kind => Rearranges kind.known where
  objects kind d e edited := by cases edited <;> exact ⟨⟨_, rfl⟩, _, rfl⟩
  keeps kind d e edited reach value valueToo :=
    .of_eq (kind.lenient.read_rearranges edited value valueToo)

theorem harmless_rearranges_or_loosens :
    Harmless false fun kind d e => Rearranges kind.known d e ∨ Loosens kind.loose d e where
  objects kind d e edited := by
    rcases edited with edited | edited <;> cases edited <;> exact ⟨⟨_, rfl⟩, _, rfl⟩
  keeps kind d e edited reach value valueToo := by
    rcases edited with edited | edited
    · exact .of_eq (kind.lenient.read_rearranges edited value valueToo)
    · exact kind.lenient.keeps_loosens edited value valueToo

namespace Document

theorem field_of_collection {name : String} {kind : EntityKind} (listed : (name, kind) ∈ collections) :
    ∃ get set, field name kind.layout.listCodec get set ∈ layout.fields := by
  simp only [collections, List.mem_cons, Prod.mk.injEq, List.not_mem_nil, or_false] at listed
  rcases listed with ⟨rfl, rfl⟩ | ⟨rfl, rfl⟩ | ⟨rfl, rfl⟩ | ⟨rfl, rfl⟩ | ⟨rfl, rfl⟩ | ⟨rfl, rfl⟩ | ⟨rfl, rfl⟩
  all_goals exact ⟨_, _, by repeat (first | exact .head _ | apply List.Mem.tail)⟩

variable {same : Bool} {edit : EntityKind → Draft → Draft → Prop} {name : String} {d e : Draft}
  {reach : Reach}

theorem keeps_part (harmless : Harmless same edit) (part : InPart edit name d e)
    (value : d.IsValue reach.depth) (valueToo : e.IsValue reach.depth) (f : Field Document)
    (there : f ∈ layout.fields) (called : f.name = name) (a : Document) :
    Keeps same (f.given reach d a) (f.given reach e a) := by
  cases part with
  | general edited =>
    obtain ⟨⟨ms, rfl⟩, ns, rfl⟩ := harmless.objects _ _ _ edited
    obtain rfl := List.inj_on_of_nodup_map lenient.names there List.mem_cons_self called
    simp only [Field.given_field]
    exact (harmless.keeps _ _ _ edited reach value valueToo).map _
  | @item name kind d e before after listed edited =>
    obtain ⟨get, set, known⟩ := field_of_collection listed
    obtain rfl := List.inj_on_of_nodup_map lenient.names there known called
    obtain ⟨room, items⟩ := IsValue.array_iff.1 value
    obtain ⟨-, itemsToo⟩ := IsValue.array_iff.1 valueToo
    have alike := harmless.keeps kind d e edited reach.deeper (items d (by simp)) (itemsToo e (by simp))
    simp only [Field.given_field, Record.listCodec, Codec.list_read_array room]
    exact (Codec.keeps_readItems alike before after 0).map _

theorem keeps_read (harmless : Harmless same edit) (edited : InDocument edit d e)
    (value : d.IsValue reach.depth) (valueToo : e.IsValue reach.depth) :
    Keeps same (layout.read reach d).toOption (layout.read reach e).toOption := by
  cases edited with
  | whole edited => exact harmless.keeps .document _ _ edited reach value valueToo
  | @member name d e before after part =>
    obtain ⟨-, -, members⟩ := IsValue.object_iff.1 value
    obtain ⟨-, -, membersToo⟩ := IsValue.object_iff.1 valueToo
    exact lenient.keeps_member (keeps_part harmless part (members (name, d) (by simp))
      (membersToo (name, e) (by simp))) value valueToo
  | @position name d e before after part place =>
    obtain ⟨room, items⟩ := IsValue.array_iff.1 value
    obtain ⟨-, itemsToo⟩ := IsValue.array_iff.1 valueToo
    obtain ⟨f, place, called⟩ : ∃ f, layout.fields[before.length]? = some f ∧ f.name = name := by
      rwa [known, List.getElem?_map, Option.map_eq_some_iff] at place
    rw [Record.read_array (by decide) room, Record.read_array (by decide) room]
    split
    · exact Record.keeps_readInOrder (fun f there => (lenient.each f there).steady) place
        (keeps_part harmless part (items d (by simp)) (itemsToo e (by simp)) f
          (List.mem_of_getElem? place) called) 0 layout.empty
    · exact .of_eq rfl

theorem keeps_run (harmless : Harmless same edit) {x y : Draft} (value : x.IsValue reach.depth)
    (edits : Relation.ReflTransGen (EditsTo edit reach.depth) x y) :
    Keeps same (layout.read reach x).toOption (layout.read reach y).toOption ∧
      y.IsValue reach.depth := by
  induction edits with
  | refl => exact ⟨.of_eq rfl, value⟩
  | tail _ step ih =>
    obtain ⟨kept, value⟩ := ih
    obtain ⟨edited, valueToo⟩ := step
    exact ⟨kept.trans (keeps_read harmless edited value valueToo), valueToo⟩

/-- A document that can be read is read as the same one after any sequence of edits that change the order
of members or let idle ones come and go; and some document is read if, besides, any scalars have been put
in the place of loose members. -/
theorem read_after_edits (reach : Reach) (x y : Draft) (doc : Document)
    (read : layout.read reach x = .ok doc) (value : x.IsValue reach.depth) :
    (Relation.ReflTransGen (EditsTo (fun kind => Rearranges kind.known) reach.depth) x y →
      layout.read reach y = .ok doc) ∧
    (Relation.ReflTransGen
        (EditsTo (fun kind d e => Rearranges kind.known d e ∨ Loosens kind.loose d e) reach.depth) x y →
      ∃ other, layout.read reach y = .ok other) := by
  have there : doc ∈ (layout.read reach x).toOption := by
    rw [read]
    rfl
  have ok {other : Document} (found : other ∈ (layout.read reach y).toOption) :
      layout.read reach y = .ok other := by
    cases readToo : layout.read reach y with
    | error fault => simp [readToo, Except.toOption] at found
    | ok a => simpa [readToo, Except.toOption] using found
  constructor
  · intro edits
    obtain ⟨other, found, equal⟩ := (keeps_run harmless_rearranges value edits).1 doc there
    exact equal rfl ▸ ok found
  · intro edits
    obtain ⟨other, found, -⟩ := (keeps_run harmless_rearranges_or_loosens value edits).1 doc there
    exact ⟨other, ok found⟩

def sketch (domain handler : List (String × Draft)) : List (String × Draft) :=
  [("general", .null none), ("domains", array [object domain]), ("handlers", array [object handler])]

def retries (s : Scalar) : String × Draft := ("lb_retries", .scalar (some s) none)

def typed : Draft :=
  object (sketch [("id", .text "d"), ("color", array []), ("fromPort", .text "8080")]
    [retries (.int 2), ("id", .text "h")]).reverse

def retyped : Draft :=
  object (sketch [("id", .text "d"), ("fromPort", .text "8080")]
    [retries (.int 2), ("health_uri", .null none), ("id", .text "h")])

def loosened : Draft :=
  object (sketch [("id", .text "d"), ("fromPort", .text "8080")]
    [retries (.bool true), ("health_uri", .null none), ("id", .text "h")])

theorem retyped_of_typed :
    Relation.ReflTransGen (EditsTo (fun kind => Rearranges kind.known) 127) typed retyped := by
  have turned : EditsTo (fun kind => Rearranges kind.known) 127 typed
      (object (sketch [("id", .text "d"), ("color", array []), ("fromPort", .text "8080")]
        [retries (.int 2), ("id", .text "h")])) :=
    ⟨.whole (.permute (List.reverse_perm _)),
      by simp [sketch, retries]⟩
  have removed : EditsTo (fun kind => Rearranges kind.known) 127
      (object (sketch [("id", .text "d"), ("color", array []), ("fromPort", .text "8080")]
        [retries (.int 2), ("id", .text "h")]))
      (object (sketch [("id", .text "d"), ("fromPort", .text "8080")]
        [retries (.int 2), ("id", .text "h")])) := by
    refine ⟨@InDocument.member _ _ _ _ [_] _ (@InPart.item _ _ .domain _ _ [] _
      (by simp [collections]) (@Rearranges.remove _ _ [_] _ (.inr (by decide)))), ?_⟩
    simp [sketch, retries]
  have added : EditsTo (fun kind => Rearranges kind.known) 127
      (object (sketch [("id", .text "d"), ("fromPort", .text "8080")]
        [retries (.int 2), ("id", .text "h")])) retyped := by
    refine ⟨@InDocument.member _ _ _ _ [_, _] _ (@InPart.item _ _ .handler _ _ [] _
      (by simp [collections]) (@Rearranges.add _ _ [_] _ (.inl rfl))), ?_⟩
    simp [retyped, sketch, retries]
  exact ((Relation.ReflTransGen.single turned).tail removed).tail added

theorem loosened_of_retyped :
    EditsTo (fun kind d e => Rearranges kind.known d e ∨ Loosens kind.loose d e) 127 retyped
      loosened := by
  refine ⟨@InDocument.member _ _ _ _ [_, _] _ (@InPart.item _ _ .handler _ _ [] _
    (by simp [collections]) (.inr (@Loosens.mk _ _ _ [] _ _ (by decide) (.scalar (.bool true))))), ?_⟩
  simp [loosened, sketch, retries]

theorem read_after_edits_typed :
    ∃ doc, layout.read Json.reach typed = .ok doc ∧ layout.read Json.reach retyped = .ok doc ∧
      ∃ other, layout.read Json.reach loosened = .ok other := by
  have read : layout.read Json.reach typed = .ok
      { domains := [{ id := "d", port := ⟨"8080"⟩ }]
        handlers := [{ id := "h", balancing := { retries := ⟨"2"⟩ } }] } := by
    decide +kernel
  have value : typed.IsValue 127 := by
    simp [typed, sketch, retries]
  have again := (read_after_edits Json.reach typed retyped _ read value).1 retyped_of_typed
  have valueToo : retyped.IsValue 127 := by
    simp [retyped, sketch, retries]
  exact ⟨_, read, again, (read_after_edits Json.reach retyped loosened _ again valueToo).2
    (.single loosened_of_retyped)⟩

end Document

end ProxyConfig
