import Mathlib.Data.List.Pairwise
import ProxyConfig.Proofs.Document.ReadInvariant
import ProxyConfig.Proofs.Document.Thinned

/-!
What is read from the members of an object, faults apart.  Reading a record from values comes down to
taking its members one after the other, whatever groups the fields are in, if no field meddles with
another one (`Record.read_object`); so the order of the members makes no difference.
-/

namespace ProxyConfig

namespace Draft

def object (members : List (String × Draft)) : Draft :=
  .mapping (members.map fun m => (some m.1, m.2)) .closed

def array (items : List Draft) : Draft := .list items .closed

/-- A draft without a fault that is a JSON value: nothing has another spelling, no name stands twice in
an object, and arrays and objects are nested at most so deep. -/
inductive IsValue : Nat → Draft → Prop
  | null : IsValue n (.null none)
  | scalar (s : Scalar) : IsValue n (.scalar (some s) none)
  | text (s : String) : IsValue n (.text s)
  | array (items : ∀ d ∈ ds, IsValue n d) : IsValue (n + 1) (array ds)
  | object (distinct : (ms.map Prod.fst).Nodup) (members : ∀ m ∈ ms, IsValue n m.2) :
      IsValue (n + 1) (object ms)

attribute [simp] IsValue.null IsValue.scalar IsValue.text

theorem passItems_of_pass {ds : List Draft} (h : ∀ d ∈ ds, d.pass = .ok ()) :
    passItems ds = .ok () := by
  induction ds with
  | nil => rfl
  | cons d ds ih =>
    rw [passItems, h d List.mem_cons_self, ih fun e he => h e (List.mem_cons_of_mem d he)]
    rfl

theorem passMembers_of_pass {ms : List (String × Draft)} (h : ∀ m ∈ ms, m.2.pass = .ok ()) :
    passMembers (ms.map fun m => (some m.1, m.2)) = .ok () := by
  induction ms with
  | nil => rfl
  | cons m ms ih =>
    rw [List.map_cons, passMembers, h m List.mem_cons_self,
      ih fun e he => h e (List.mem_cons_of_mem m he)]
    rfl

theorem holdItems_of_hold {n : Nat} {ds : List Draft} (h : ∀ d ∈ ds, d.hold n = .ok ()) :
    holdItems n ds = .ok () := by
  induction ds with
  | nil => rfl
  | cons d ds ih =>
    rw [holdItems, h d List.mem_cons_self, ih fun e he => h e (List.mem_cons_of_mem d he)]
    rfl

theorem holdMembers_of_hold {n : Nat} {ms : List (String × Draft)}
    (h : ∀ m ∈ ms, m.2.hold n = .ok ()) :
    holdMembers n (ms.map fun m => (some m.1, m.2)) = .ok () := by
  induction ms with
  | nil => rfl
  | cons m ms ih =>
    rw [List.map_cons, holdMembers, h m List.mem_cons_self,
      ih fun e he => h e (List.mem_cons_of_mem m he)]
    rfl

namespace IsValue

variable {n : Nat} {d : Draft}

theorem pass_eq_ok (value : d.IsValue n) : d.pass = .ok () := by
  induction value with
  | null | scalar | text => rfl
  | array _ ih =>
    rw [Draft.array, Draft.pass, passItems_of_pass ih]
    rfl
  | object _ _ ih =>
    rw [Draft.object, Draft.pass, passMembers_of_pass ih]
    rfl

theorem hold_eq_ok (value : d.IsValue n) : d.hold n = .ok () := by
  induction value with
  | @null n | @scalar n | @text n => cases n <;> rfl
  | array _ ih =>
    rw [Draft.array, Draft.hold, holdItems_of_hold ih]
    rfl
  | object _ _ ih =>
    rw [Draft.object, Draft.hold, holdMembers_of_hold ih]
    rfl

theorem held_eq (value : d.IsValue n) : d.held = d := by
  cases value <;> rfl

@[simp] theorem array_iff {ds : List Draft} :
    (Draft.array ds).IsValue n ↔ n ≠ 0 ∧ ∀ d ∈ ds, d.IsValue (n - 1) := by
  constructor
  · intro value
    generalize same : Draft.array ds = d at value
    cases value with
    | null | scalar | text | object => cases same
    | array items =>
      cases same
      exact ⟨Nat.succ_ne_zero _, items⟩
  · rintro ⟨room, items⟩
    obtain ⟨n, rfl⟩ := Nat.exists_eq_succ_of_ne_zero room
    exact .array items

@[simp] theorem object_iff {ms : List (String × Draft)} :
    (Draft.object ms).IsValue n ↔
      n ≠ 0 ∧ (ms.map Prod.fst).Nodup ∧ ∀ m ∈ ms, m.2.IsValue (n - 1) := by
  constructor
  · intro value
    generalize same : Draft.object ms = d at value
    cases value with
    | null | scalar | text | array => cases same
    | object distinct members =>
      have members_eq := List.map_injective_iff.2 (fun a b h => by
        obtain ⟨name, value⟩ := Prod.mk.inj h
        exact Prod.ext (Option.some.inj name) value) (Draft.mapping.inj same).1
      subst members_eq
      exact ⟨Nat.succ_ne_zero _, distinct, members⟩
  · rintro ⟨room, distinct, members⟩
    obtain ⟨n, rfl⟩ := Nat.exists_eq_succ_of_ne_zero room
    exact .object distinct members

end IsValue

end Draft

open Draft

theorem Decoded.toOption_bind (x : Decoded α) (f : α → Decoded β) :
    (x >>= f).toOption = x.toOption.bind fun a => (f a).toOption := by
  cases x <;> rfl

theorem Decoded.toOption_map (x : Decoded α) (f : α → β) :
    (x.map f).toOption = x.toOption.map f := by
  cases x <;> rfl

theorem Decoded.toOption_within (place : Place) (x : Decoded α) :
    (within place x).toOption = x.toOption := by
  cases x <;> rfl

namespace Field

def given (f : Field α) (reach : Reach) (d : Draft) (a : α) : Option α := (f.read reach d a).toOption

def Apart (f g : Field α) : Prop :=
  ∀ reach d e a, (f.given reach d a).bind (g.given reach e) = (g.given reach e a).bind (f.given reach d)

instance : Std.Symm (Apart (α := α)) := ⟨fun _ _ apart reach d e a => (apart reach e d a).symm⟩

end Field

namespace Record

variable {α : Type} (r : Record α)

/-- Takes one member into a record; a member that no field has the name of says nothing. -/
def take (reach : Reach) (a : Option α) (m : String × Draft) : Option α :=
  match r.fields.find? (·.name = m.1) with
  | some f => a.bind (f.given reach m.2)
  | none => a

def isIn (group : Nat) (m : String × Draft) : Bool :=
  (r.fields.find? (·.name = m.1)).any (·.group = group)

variable {r} {reach : Reach}

theorem take_none (m : String × Draft) : r.take reach none m = none := by
  unfold take
  split <;> rfl

theorem foldl_take (ms : List (String × Draft)) (a : Option α) :
    ms.foldl (r.take reach) a = a.bind fun a => ms.foldl (r.take reach) (some a) := by
  cases a with
  | none => exact List.foldl_fixed' take_none ms
  | some a => rfl

theorem find?_group (names : (r.fields.map Field.name).Nodup) (name : String) (group : Nat) :
    r.fields.find? (fun f => f.name = name && f.group = group) =
      (r.fields.find? (·.name = name)).filter (·.group = group) := by
  cases found : r.fields.find? (·.name = name) with
  | none =>
    have others : ∀ f ∈ r.fields, f.name ≠ name := by simpa using found
    simpa using fun f hf same => absurd same (others f hf)
  | some f =>
    obtain rfl : f.name = name := by simpa using List.find?_some found
    rw [find?_field names (List.mem_of_find?_eq_some found)]
    by_cases here : f.group = group <;> simp [Option.filter, here]

theorem isIn_eq (names : (r.fields.map Field.name).Nodup) (group : Nat) (m : String × Draft) :
    r.isIn group m = (r.fields.find? fun f => f.name = m.1 && f.group = group).isSome := by
  rw [find?_group names, Option.isSome_filter, isIn]

theorem take_of_find? {m : String × Draft} {f : Field α} {group : Nat}
    (names : (r.fields.map Field.name).Nodup)
    (found : r.fields.find? (fun f => f.name = m.1 && f.group = group) = some f) (a : α) :
    r.take reach (some a) m = f.given reach m.2 a := by
  rw [find?_group names, Option.filter_eq_some_iff] at found
  rw [take, found.1]
  rfl

variable {ms : List (String × Draft)} {p : Progress α}

theorem readMembers_toOption (names : (r.fields.map Field.name).Nodup)
    (values : ∀ m ∈ ms, m.2.IsValue reach.depth) (distinct : (ms.map Prod.fst).Nodup)
    (unseen : ∀ m ∈ ms, m.1 ∉ p.seen) :
    (r.readMembers reach (ms.map fun m => (some m.1, m.2)) p).toOption =
      ((ms.filter (r.isIn 0)).foldl (r.take reach) (some p.value)).map fun v =>
        { value := v, seen := ((ms.filter (r.isIn 0)).map Prod.fst).reverse ++ p.seen,
          kept := p.kept ++ if r.groups = 0 then [] else ms.filter fun m => !r.isIn 0 m } := by
  induction ms generalizing p with
  | nil => simp [readMembers, Except.toOption]
  | cons m ms ih =>
    obtain ⟨fresh, distinct⟩ := List.nodup_cons.1 (List.map_cons ▸ distinct)
    obtain ⟨value, values⟩ := List.forall_mem_cons.1 values
    obtain ⟨unseenHere, unseen⟩ := List.forall_mem_cons.1 unseen
    have here := isIn_eq names 0 m
    rw [List.map_cons, readMembers]
    cases found : r.fields.find? (fun f => f.name = m.1 && f.group = 0) with
    | some f =>
      rw [found, Option.isSome_some] at here
      have later (v : α) : ∀ n ∈ ms, n.1 ∉ (p.put m.1 v).seen := by
        intro n there seen
        rcases List.mem_cons.1 seen with same | seen
        · exact fresh (same ▸ List.mem_map_of_mem there)
        · exact unseen n there seen
      simp only [List.contains_eq_mem, unseenHere, decide_false, Bool.false_eq_true, if_false]
      rw [Decoded.toOption_bind, Decoded.toOption_within, List.filter_cons_of_pos here,
        List.foldl_cons, take_of_find? names found, foldl_take, Field.given]
      cases (f.read reach m.2 p.value).toOption with
      | none => rfl
      | some v =>
        simp only [Option.bind_some]
        rw [ih values distinct (later v)]
        simp [Progress.put, here]
    | none =>
      rw [found, Option.isSome_none] at here
      -- where nothing is kept for the end the member is passed over, else it is kept as it is
      by_cases ungrouped : r.groups = 0
      · simp only [if_pos ungrouped, value.pass_eq_ok, Decoded.ofBreak_ok]
        rw [Decoded.toOption_bind]
        refine (ih values distinct unseen).trans ?_
        simp [here, ungrouped]
      · simp only [if_neg ungrouped, value.hold_eq_ok, Decoded.ofBreak_ok]
        rw [Decoded.toOption_bind]
        refine (ih (p := { p with kept := p.kept ++ [(m.1, m.2.held)] }) values distinct unseen).trans ?_
        simp [here, ungrouped, value.held_eq]

theorem readGroup_toOption (names : (r.fields.map Field.name).Nodup) {group : Nat}
    (distinct : (ms.map Prod.fst).Nodup) (unseen : ∀ m ∈ ms, r.isIn group m = true → m.1 ∉ p.seen) :
    (r.readGroup reach group ms p).toOption =
      ((ms.filter (r.isIn group)).foldl (r.take reach) (some p.value)).map fun v =>
        { p with
          value := v, seen := ((ms.filter (r.isIn group)).map Prod.fst).reverse ++ p.seen } := by
  induction ms generalizing p with
  | nil => simp [readGroup, Except.toOption]
  | cons m ms ih =>
    obtain ⟨fresh, distinct⟩ := List.nodup_cons.1 (List.map_cons ▸ distinct)
    obtain ⟨unseenHere, unseen⟩ := List.forall_mem_cons.1 unseen
    have here := isIn_eq names group m
    rw [readGroup]
    cases found : r.fields.find? (fun f => f.name = m.1 && f.group = group) with
    | some f =>
      rw [found, Option.isSome_some] at here
      -- no name stands twice, so the one met here is none of those behind it
      have later (v : α) : ∀ n ∈ ms, r.isIn group n = true → n.1 ∉ (p.put m.1 v).seen := by
        intro n there inGroup seen
        rcases List.mem_cons.1 seen with same | seen
        · exact fresh (same ▸ List.mem_map_of_mem there)
        · exact unseen n there inGroup seen
      simp only [List.contains_eq_mem, unseenHere here, decide_false, Bool.false_eq_true, if_false]
      rw [Decoded.toOption_bind, List.filter_cons_of_pos here, List.foldl_cons,
        take_of_find? names found, foldl_take, Field.given]
      cases (f.read reach m.2 p.value).toOption with
      | none => rfl
      | some v =>
        simp only [Option.bind_some]
        rw [ih distinct (later v)]
        simp [Progress.put]
    | none =>
      rw [found, Option.isSome_none] at here
      refine (ih distinct unseen).trans ?_
      simp [here]

theorem isIn_unique {m : String × Draft} {group other : Nat} (here : r.isIn group m = true)
    (there : r.isIn other m = true) : group = other := by
  unfold isIn at here there
  cases found : r.fields.find? (·.name = m.1) with
  | none => simp [found] at here
  | some f =>
    simp only [found, Option.any_some, decide_eq_true_eq] at here there
    exact here.symm.trans there

theorem readGroups_toOption (names : (r.fields.map Field.name).Nodup) {group left : Nat}
    (distinct : (p.kept.map Prod.fst).Nodup)
    (unseen : ∀ m ∈ p.kept, ∀ g, group ≤ g → r.isIn g m = true → m.1 ∉ p.seen) :
    (r.readGroups reach group left p).toOption.map Progress.value =
      ((List.range' group left).flatMap fun g => p.kept.filter (r.isIn g)).foldl (r.take reach)
        (some p.value) := by
  induction left generalizing group p with
  | zero => rfl
  | succ left ih =>
    rw [readGroups, Decoded.toOption_bind, readGroup_toOption names distinct
      fun m there => unseen m there group (Nat.le_refl group), List.range'_succ,
      List.flatMap_cons, List.foldl_append]
    cases (p.kept.filter (r.isIn group)).foldl (r.take reach) (some p.value) with
    | none => exact (foldl_take _ none).symm
    | some v =>
      simp only [Option.map_some, Option.bind_some]
      refine ih (p := { p with
        value := v, seen := ((p.kept.filter (r.isIn group)).map Prod.fst).reverse ++ p.seen })
        distinct fun m there g after inGroup seen => ?_
      -- a member is in one group only, so what this group met is not asked for later
      rcases List.mem_append.1 seen with seen | seen
      · obtain ⟨n, found, same⟩ := List.mem_map.1 (List.mem_reverse.1 seen)
        obtain ⟨found, inOther⟩ := List.mem_filter.1 found
        obtain rfl : n = m := List.inj_on_of_nodup_map distinct found there same
        exact absurd (isIn_unique inGroup inOther) (Nat.ne_of_gt after)
      · exact unseen m there g (Nat.le_of_succ_le after) inGroup seen

theorem filter_isIn_later {group : Nat} (later : 1 ≤ group) (ms : List (String × Draft)) :
    (ms.filter fun m => !r.isIn 0 m).filter (r.isIn group) = ms.filter (r.isIn group) := by
  rw [List.filter_filter]
  refine List.filter_congr fun m _ => ?_
  cases here : r.isIn group m with
  | false => rfl
  | true =>
    cases first : r.isIn 0 m with
    | false => rfl
    | true => exact absurd (isIn_unique first here) (by omega)

theorem readGroups_behind (names : (r.fields.map Field.name).Nodup)
    (distinct : (ms.map Prod.fst).Nodup) (v : α) :
    (r.readGroups reach 1 r.groups
      { value := v, seen := ((ms.filter (r.isIn 0)).map Prod.fst).reverse
        kept := if r.groups = 0 then [] else ms.filter fun m => !r.isIn 0 m }).toOption.map
          Progress.value =
      ((List.range' 1 r.groups).flatMap fun g => ms.filter (r.isIn g)).foldl (r.take reach)
        (some v) := by
  by_cases ungrouped : r.groups = 0
  · rw [ungrouped]
    rfl
  · simp only [if_neg ungrouped]
    rw [readGroups_toOption names (distinct.sublist (List.filter_sublist.map Prod.fst))]
    · refine congrArg (List.foldl _ _) (List.flatMap_congr fun g there => ?_)
      exact filter_isIn_later (List.mem_range'_1.1 there).1 ms
    · intro m there g _ _ seen
      obtain ⟨there, notFirst⟩ := List.mem_filter.1 there
      obtain ⟨n, first, same⟩ := List.mem_map.1 (List.mem_reverse.1 seen)
      obtain ⟨found, first⟩ := List.mem_filter.1 first
      obtain rfl := List.inj_on_of_nodup_map distinct found there same
      simp [first] at notFirst

variable (r) in
/-- Each field has its own name, and it is the same which of two fields is read first. -/
structure Orderly : Prop where
  names : (r.fields.map Field.name).Nodup
  apart : r.fields.Pairwise Field.Apart

theorem Orderly.take_comm (orderly : r.Orderly) (distinct : (ms.map Prod.fst).Nodup) :
    ∀ m ∈ ms, ∀ n ∈ ms, ∀ a,
      r.take reach (r.take reach a m) n = r.take reach (r.take reach a n) m := by
  intro m first n second a
  by_cases same : m.1 = n.1
  · rw [List.inj_on_of_nodup_map distinct first second same]
  · unfold take
    cases foundFirst : r.fields.find? (·.name = m.1) with
    | none => rfl
    | some f =>
      cases foundSecond : r.fields.find? (·.name = n.1) with
      | none => rfl
      | some g =>
        have differ : f ≠ g := by
          rintro rfl
          have nameFirst : f.name = m.1 := by simpa using List.find?_some foundFirst
          have nameSecond : f.name = n.1 := by simpa using List.find?_some foundSecond
          exact same (nameFirst.symm.trans nameSecond)
        have apart := orderly.apart.forall (List.mem_of_find?_eq_some foundFirst)
          (List.mem_of_find?_eq_some foundSecond) differ
        cases a with
        | none => rfl
        | some a => exact apart reach m.2 n.2 a

theorem Orderly.foldl_perm (orderly : r.Orderly) {ns : List (String × Draft)} (order : ms.Perm ns)
    (distinct : (ms.map Prod.fst).Nodup) (a : Option α) :
    ms.foldl (r.take reach) a = ns.foldl (r.take reach) a :=
  order.foldl_eq' (orderly.take_comm distinct) a

theorem Orderly.foldl_groups (orderly : r.Orderly) (distinct : (ms.map Prod.fst).Nodup)
    (a : Option α) :
    ((List.range' 0 (r.groups + 1)).flatMap fun g => ms.filter (r.isIn g)).foldl (r.take reach) a =
      ms.foldl (r.take reach) a := by
  have groups : (List.range' 0 (r.groups + 1)).Nodup := List.nodup_range'
  have shared := flatMap_filter_perm r.isIn ms (groups.imp fun {g h} differ m _ both =>
    differ (isIn_unique both.1 both.2))
  have once := (distinct.sublist (List.filter_sublist.map Prod.fst)).perm (shared.map Prod.fst).symm
  rw [orderly.foldl_perm shared once, List.foldl_filter]
  refine List.foldl_ext _ _ a fun b m _ => ?_
  split
  · rfl
  · next unnamed =>
    unfold take
    cases found : r.fields.find? (·.name = m.1) with
    | none => rfl
    | some f =>
      have below := group_le_groups r (List.mem_of_find?_eq_some found)
      refine absurd (List.any_eq_true.2 ⟨f.group, List.mem_range'_1.2 ⟨by omega, by omega⟩, ?_⟩) unnamed
      simp [isIn, found]

/-- A record is read from an object by taking the members one after the other. -/
theorem Orderly.read_object (orderly : r.Orderly) (value : (object ms).IsValue reach.depth) :
    (r.read reach (object ms)).toOption = ms.foldl (r.take reach.deeper) (some r.empty) := by
  obtain ⟨room, distinct, members⟩ := IsValue.object_iff.1 value
  have parts : (r.read reach (object ms)).toOption =
      (r.readMembers reach.deeper (ms.map fun m => (some m.1, m.2)) ⟨r.empty, [], []⟩).toOption.bind
        fun p => (r.readGroups reach.deeper 1 r.groups p).toOption.map Progress.value := by
    rw [object, read_mapping, if_neg room, Decoded.toOption_bind]
    refine congrArg _ (funext fun p => ?_)
    show (r.readGroups reach.deeper 1 r.groups p >>= fun q => pure q.value).toOption = _
    rw [Decoded.toOption_bind]
    cases (r.readGroups reach.deeper 1 r.groups p).toOption <;> rfl
  rw [parts, readMembers_toOption orderly.names members distinct (by simp),
    ← orderly.foldl_groups distinct, List.range'_succ, List.flatMap_cons, List.foldl_append]
  cases (ms.filter (r.isIn 0)).foldl (r.take reach.deeper) (some r.empty) with
  | none => exact (foldl_take _ none).symm
  | some v =>
    simp only [Option.map_some, Option.bind_some, List.append_nil, List.nil_append]
    exact readGroups_behind orderly.names distinct v

end Record

end ProxyConfig
