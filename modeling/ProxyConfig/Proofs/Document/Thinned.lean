import Mathlib.Data.List.Basic
import ProxyConfig.Lookup

/-!
Lists from which elements are left out, while those that stay may change.  Main statements: what is
computed element by element is the same of both lists if the elements left out give nothing and the
changed ones give what they gave (`flatMap_eq`), and so is what is looked up by an id
(`map_lastWith_eq`).  A list that is filtered in several ways is shared out if the ways exclude one
another (`flatMap_filter_perm`).
-/

namespace ProxyConfig

/-- The second list is the first one without some elements of `out`, and with the others as `kept`
allows. -/
inductive Thinned (out : α → Prop) (kept : α → α → Prop) : List α → List α → Prop
  | nil : Thinned out kept [] []
  | drop (h : out a) (rest : Thinned out kept as bs) : Thinned out kept (a :: as) bs
  | keep (h : kept a b) (rest : Thinned out kept as bs) : Thinned out kept (a :: as) (b :: bs)

namespace Thinned

variable {α β : Type} {out : α → Prop} {kept : α → α → Prop} {as bs : List α}

theorem flatMap_eq {f g : α → List β} (h : Thinned out kept as bs)
    (dropped : ∀ a ∈ as, out a → f a = []) (same : ∀ a ∈ as, ∀ b, kept a b → g b = f a) :
    bs.flatMap g = as.flatMap f := by
  induction h with
  | nil => rfl
  | @drop a as bs ha _ ih =>
    rw [List.flatMap_cons, dropped a List.mem_cons_self ha, List.nil_append]
    exact ih (fun x hx => dropped x (List.mem_cons_of_mem a hx))
      fun x hx => same x (List.mem_cons_of_mem a hx)
  | @keep a b as bs hab _ ih =>
    have rest := ih (fun x hx => dropped x (List.mem_cons_of_mem a hx))
      fun x hx => same x (List.mem_cons_of_mem a hx)
    rw [List.flatMap_cons, List.flatMap_cons, same a List.mem_cons_self b hab, rest]

theorem filterMap_eq {f g : α → Option β} (h : Thinned out kept as bs)
    (dropped : ∀ a ∈ as, out a → f a = none) (same : ∀ a ∈ as, ∀ b, kept a b → g b = f a) :
    bs.filterMap g = as.filterMap f := by
  rw [List.filterMap_eq_flatMap_toList, List.filterMap_eq_flatMap_toList]
  refine h.flatMap_eq (fun a ha hout => ?_) fun a ha b hab => ?_
  · rw [dropped a ha hout, Option.toList_none]
  · rw [same a ha b hab]

theorem map_filter_eq {p q : α → Bool} {f g : α → β} (h : Thinned out kept as bs)
    (dropped : ∀ a ∈ as, out a → p a = false)
    (same : ∀ a ∈ as, ∀ b, kept a b → q b = p a ∧ (p a = true → g b = f a)) :
    (bs.filter q).map g = (as.filter p).map f := by
  have both (p : α → Bool) (f : α → β) (xs : List α) :
      (xs.filter p).map f = xs.flatMap fun x => if p x then [f x] else [] := by
    induction xs with
    | nil => rfl
    | cons x xs ih => cases hx : p x <;> simp [hx, ih]
  rw [both, both]
  refine h.flatMap_eq (fun a ha hout => by simp [dropped a ha hout]) fun a ha b hab => ?_
  obtain ⟨hq, hg⟩ := same a ha b hab
  cases hp : p a with
  | false => simp [hq, hp]
  | true => simp [hq, hp, hg hp]

theorem exists_iff {P Q : α → Prop} (h : Thinned out kept as bs)
    (dropped : ∀ a ∈ as, out a → ¬ P a) (same : ∀ a ∈ as, ∀ b, kept a b → (Q b ↔ P a)) :
    (∃ b ∈ bs, Q b) ↔ ∃ a ∈ as, P a := by
  induction h with
  | nil => simp
  | @drop a as bs ha _ ih =>
    rw [ih (fun x hx => dropped x (List.mem_cons_of_mem a hx))
      fun x hx => same x (List.mem_cons_of_mem a hx)]
    simp [dropped a List.mem_cons_self ha]
  | @keep a b as bs hab _ ih =>
    have rest := ih (fun x hx => dropped x (List.mem_cons_of_mem a hx))
      fun x hx => same x (List.mem_cons_of_mem a hx)
    simp [rest, same a List.mem_cons_self b hab]

theorem map_lastWith_eq {idOf : α → String} {id : String} {f g : α → β}
    (h : Thinned out kept as bs) (dropped : ∀ a ∈ as, out a → idOf a ≠ id)
    (same : ∀ a ∈ as, ∀ b, kept a b → idOf b = idOf a ∧ g b = f a) :
    (lastWith idOf id bs).map g = (lastWith idOf id as).map f := by
  induction h with
  | nil => rfl
  | @drop a as bs ha _ ih =>
    rw [lastWith_cons, if_neg (dropped a List.mem_cons_self ha), Option.or_none]
    exact ih (fun x hx => dropped x (List.mem_cons_of_mem a hx))
      fun x hx => same x (List.mem_cons_of_mem a hx)
  | @keep a b as bs hab _ ih =>
    have rest := ih (fun x hx => dropped x (List.mem_cons_of_mem a hx))
      fun x hx => same x (List.mem_cons_of_mem a hx)
    obtain ⟨hid, hg⟩ := same a List.mem_cons_self b hab
    rw [lastWith_cons, lastWith_cons, Option.map_or, Option.map_or, rest, hid]
    by_cases ha : idOf a = id <;> simp [ha, hg]

theorem length_eq (h : Thinned out kept as bs) (stay : ∀ a ∈ as, ¬ out a) :
    bs.length = as.length := by
  induction h with
  | nil => rfl
  | @drop a as bs ha _ _ => exact absurd ha (stay a List.mem_cons_self)
  | @keep a b as bs _ _ ih =>
    rw [List.length_cons, List.length_cons, ih fun x hx => stay x (List.mem_cons_of_mem a hx)]

theorem map_filter_self (p : α → Bool) (f : α → α) (dropped : ∀ a, p a = false → out a)
    (same : ∀ a, kept a (f a)) (as : List α) : Thinned out kept as ((as.filter p).map f) := by
  induction as with
  | nil => exact .nil
  | cons a as ih =>
    cases hp : p a with
    | false => simpa [hp] using ih.drop (dropped a hp)
    | true => simpa [hp] using ih.keep (same a)

end Thinned

theorem flatMap_filter_perm {α β : Type} (p : β → α → Bool) (as : List α) {bs : List β}
    (apart : bs.Pairwise fun b c => ∀ a ∈ as, ¬ (p b a = true ∧ p c a = true)) :
    (bs.flatMap fun b => as.filter (p b)).Perm (as.filter fun a => bs.any (p · a)) := by
  induction bs with
  | nil => simp
  | cons b bs ih =>
    obtain ⟨hb, hbs⟩ := List.pairwise_cons.1 apart
    have first : (as.filter fun a => (b :: bs).any (p · a)).filter (p b) = as.filter (p b) := by
      rw [List.filter_filter]
      refine List.filter_congr fun a _ => ?_
      cases h : p b a <;> simp [h]
    have rest : (as.filter fun a => (b :: bs).any (p · a)).filter (fun a => !p b a) =
        as.filter fun a => bs.any (p · a) := by
      rw [List.filter_filter]
      refine List.filter_congr fun a ha => ?_
      cases h : p b a with
      | false => simp [h]
      | true =>
        have : ∀ c ∈ bs, p c a = false := fun c hc => by simpa [h] using hb c hc a ha
        simpa [h] using fun c hc => this c hc
    -- the elements of the first property, and then those of the others without them
    calc (b :: bs).flatMap (fun b => as.filter (p b))
        = as.filter (p b) ++ bs.flatMap fun b => as.filter (p b) := List.flatMap_cons
      List.Perm _ (as.filter (p b) ++ as.filter fun a => bs.any (p · a)) := (ih hbs).append_left _
      List.Perm _ (as.filter fun a => (b :: bs).any (p · a)) := by
        rw [← first, ← rest]
        exact List.filter_append_perm _ _

end ProxyConfig
