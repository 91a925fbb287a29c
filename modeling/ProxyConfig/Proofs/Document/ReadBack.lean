import Mathlib.Data.List.Fold
import Mathlib.Data.List.MinMax
import Mathlib.Data.List.Nodup
import ProxyConfig.Document.Layout
import ProxyConfig.Proofs.Json.PrettyText

/-!
What a codec or a table of fields writes, it reads back.  A written record is met member by member:
the fields of group zero are read where they stand and the others are kept (`readMembers_written`),
then each group finds its own among the kept ones (`readGroups_written`).  The names of a table have
to be distinct; what the record becomes is then a matter of its fields alone (`Record.read_write`).
-/

namespace ProxyConfig

open Json (Value)

@[simp] theorem Decoded.within_ok (place : Place) (a : α) :
    Decoded.within place (.ok a) = .ok a := rfl

@[simp] theorem Decoded.ofBreak_ok (a : α) : Decoded.ofBreak (.ok a) = .ok a := rfl

theorem Decoded.bind_eq_ok {x : Decoded α} {f : α → Decoded β} {b : β} (h : x >>= f = .ok b) :
    ∃ a, x = .ok a ∧ f a = .ok b := by
  cases x with
  | error e => cases h
  | ok a => exact ⟨a, rfl, h⟩

namespace Codec

section

variable {reach : Reach}

theorem text_read_write (s : String) :
    text.read reach (text.write s).draft = .ok s := rfl

theorem looseText_read_write (s : String) :
    looseText.read reach (looseText.write s).draft = .ok s := rfl

theorem number_read_write (t : NumberText) :
    number.read reach (number.write t).draft = .ok t := rfl

theorem flag_read_write (b : Bool) :
    flag.read reach (flag.write b).draft = .ok b := rfl

theorem choice_read_written (ofText : String → α) (toText : α → String) (a : α) :
    (choice ofText toText).read reach ((choice ofText toText).write a).draft =
      .ok (ofText (toText a)) := rfl

theorem choice_read_write {ofText : String → α} {toText : α → String} {a : α}
    (h : ofText (toText a) = a) :
    (choice ofText toText).read reach ((choice ofText toText).write a).draft = .ok a :=
  congrArg Except.ok h

theorem readItems_written {item : Draft → Decoded α} {write : α → Value} {as : List α}
    (back : α → α) (h : ∀ a ∈ as, item (write a).draft = .ok (back a)) (index : Nat) :
    readItems item index ((as.map write).map Value.draft) = .ok (as.map back) := by
  induction as generalizing index with
  | nil => rfl
  | cons a as ih =>
    have ha := h a List.mem_cons_self
    have has := ih (fun b hb => h b (List.mem_cons_of_mem a hb)) (index + 1)
    rw [List.map_cons, List.map_cons, readItems, ha, Decoded.within_ok, has]
    rfl

theorem list_read_written {item : Reach → Draft → Decoded α} {write : α → Value} {as : List α}
    (back : α → α) (hdepth : 0 < reach.depth)
    (h : ∀ a ∈ as, item reach.deeper (write a).draft = .ok (back a)) :
    (list item write).read reach ((list item write).write as).draft = .ok (as.map back) := by
  have hitems := readItems_written back h 0
  have hdraft : ((list item write).write as).draft =
      .list ((as.map write).map Value.draft) .closed := by
    rw [list, Value.draft, Value.drafts_eq_map]
  rw [hdraft, list_read_list, if_neg (Nat.ne_of_gt hdepth), hitems]
  rfl

theorem list_read_write {item : Reach → Draft → Decoded α} {write : α → Value} {as : List α}
    (hdepth : 0 < reach.depth) (h : ∀ a ∈ as, item reach.deeper (write a).draft = .ok a) :
    (list item write).read reach ((list item write).write as).draft = .ok as := by
  rw [list_read_written id hdepth h, List.map_id]

theorem texts_read_write {ss : List String} (hdepth : 0 < reach.depth) :
    texts.read reach (texts.write ss).draft = .ok ss :=
  list_read_write hdepth fun _ _ => rfl

end

@[simp] theorem text_numberless (s : String) : (text.write s).Numberless := .text s

@[simp] theorem looseText_numberless (s : String) : (looseText.write s).Numberless := .text s

@[simp] theorem number_numberless (t : NumberText) : (number.write t).Numberless := .text t.raw

@[simp] theorem flag_numberless (b : Bool) : (flag.write b).Numberless := .bool b

@[simp] theorem choice_numberless (ofText : String → α) (toText : α → String) (a : α) :
    ((choice ofText toText).write a).Numberless := .text (toText a)

theorem list_numberless {item : Reach → Draft → Decoded α} {write : α → Value}
    (h : ∀ a, (write a).Numberless) (as : List α) :
    ((list item write).write as).Numberless := by
  refine .list _ fun v hv => ?_
  obtain ⟨a, -, rfl⟩ := List.mem_map.mp hv
  exact h a

@[simp] theorem texts_numberless (ss : List String) : (texts.write ss).Numberless :=
  list_numberless Value.Numberless.text ss

section

variable (depth : Nat)

@[simp] theorem text_hold (s : String) : (text.write s).draft.hold depth = .ok () := by
  cases depth <;> rfl

@[simp] theorem looseText_hold (s : String) : (looseText.write s).draft.hold depth = .ok () := by
  cases depth <;> rfl

@[simp] theorem number_hold (t : NumberText) : (number.write t).draft.hold depth = .ok () := by
  cases depth <;> rfl

@[simp] theorem flag_hold (b : Bool) : (flag.write b).draft.hold depth = .ok () := by
  cases depth <;> rfl

end

end Codec

namespace Record

variable {α : Type}

/-- What reading the members that `a` has for the fields makes of `b`. -/
def restore (reach : Reach) (a : α) (fields : List (Field α)) (b : α) : Decoded α :=
  fields.foldlM (fun b f => f.read reach (f.write a).draft b) b

def written (a : α) (fields : List (Field α)) : List (Option String × Draft) :=
  fields.map fun f => (some f.name, (f.write a).draft)

def held (a : α) (fields : List (Field α)) : List (String × Draft) :=
  fields.map fun f => (f.name, (f.write a).draft)

def inGroup (fields : List (Field α)) (group : Nat) : List (Field α) :=
  fields.filter fun f => f.group = group

theorem restore_cons_ok {reach : Reach} {a b e : α} {f : Field α} {fs : List (Field α)}
    (h : restore reach a (f :: fs) b = .ok e) :
    ∃ v, f.read reach (f.write a).draft b = .ok v ∧ restore reach a fs v = .ok e := by
  rw [restore, List.foldlM_cons] at h
  exact Decoded.bind_eq_ok h

theorem restore_append_ok {reach : Reach} {a b e : α} {fs gs : List (Field α)}
    (h : restore reach a (fs ++ gs) b = .ok e) :
    ∃ v, restore reach a fs b = .ok v ∧ restore reach a gs v = .ok e := by
  rw [restore, List.foldlM_append] at h
  exact Decoded.bind_eq_ok h

theorem find?_field {fields : List (Field α)} (hnames : (fields.map Field.name).Nodup)
    {f : Field α} (hf : f ∈ fields) (group : Nat) :
    fields.find? (fun g => g.name = f.name && g.group = group) =
      if f.group = group then some f else none := by
  induction fields with
  | nil => cases hf
  | cons g fields ih =>
    rw [List.map_cons, List.nodup_cons] at hnames
    obtain ⟨hg, hnames⟩ := hnames
    rcases List.mem_cons.mp hf with rfl | hf
    · by_cases hgroup : f.group = group
      · simp [hgroup]
      · have hnone : ∀ h ∈ fields, h.name = f.name → ¬h.group = group := fun h hh he =>
          absurd (he ▸ List.mem_map_of_mem hh) hg
        simpa [hgroup] using hnone
    · have hne : g.name ≠ f.name := fun he => hg (he ▸ List.mem_map_of_mem hf)
      simp [hne, ih hnames hf]

variable (r : Record α)

theorem group_le_groups {f : Field α} (hf : f ∈ r.fields) : f.group ≤ r.groups := by
  rw [groups, List.foldl_eq_foldr]
  exact List.le_max_of_le' 0 (List.mem_map_of_mem hf) (Nat.le_refl f.group)

def Progress.keep (p : Progress α) (name : String) (d : Draft) : Progress α :=
  { p with kept := p.kept ++ [(name, d)] }

section

variable {r} {reach : Reach} {f : Field α} {d : Draft} {v : α} {p : Progress α}

theorem readMembers_put (hnames : (r.fields.map Field.name).Nodup) (hf : f ∈ r.fields)
    (hgroup : f.group = 0) (hseen : f.name ∉ p.seen) (hv : f.read reach d p.value = .ok v)
    (rest : List (Option String × Draft)) :
    r.readMembers reach ((some f.name, d) :: rest) p =
      r.readMembers reach rest (p.put f.name v) := by
  have hfind := find?_field hnames hf 0
  rw [if_pos hgroup] at hfind
  rw [readMembers, hfind]
  simp [hseen, hv]
  rfl

theorem readMembers_keep (hnames : (r.fields.map Field.name).Nodup) (hf : f ∈ r.fields)
    (hgroup : f.group ≠ 0) (hhold : d.hold reach.depth = .ok ())
    (rest : List (Option String × Draft)) :
    r.readMembers reach ((some f.name, d) :: rest) p =
      r.readMembers reach rest (p.keep f.name d.held) := by
  have hfind := find?_field hnames hf 0
  have hgroups := group_le_groups r hf
  rw [if_neg hgroup] at hfind
  rw [readMembers, hfind]
  simp only [hhold, Decoded.ofBreak_ok]
  rw [if_neg (by omega)]
  rfl

theorem readGroup_put (hnames : (r.fields.map Field.name).Nodup) (hf : f ∈ r.fields)
    (hseen : f.name ∉ p.seen) (hv : f.read reach d p.value = .ok v)
    (rest : List (String × Draft)) :
    r.readGroup reach f.group ((f.name, d) :: rest) p =
      r.readGroup reach f.group rest (p.put f.name v) := by
  have hfind := find?_field hnames hf f.group
  rw [if_pos rfl] at hfind
  rw [readGroup, hfind]
  simp [hseen, hv]
  rfl

theorem readGroup_skip (hnames : (r.fields.map Field.name).Nodup) (hf : f ∈ r.fields)
    {group : Nat} (hgroup : f.group ≠ group) (rest : List (String × Draft)) :
    r.readGroup reach group ((f.name, d) :: rest) p = r.readGroup reach group rest p := by
  have hfind := find?_field hnames hf group
  rw [if_neg hgroup] at hfind
  rw [readGroup, hfind]

end

/-- The progress behind some more fields, which have made `e` of the record. -/
def Progress.after (p : Progress α) (fields : List (Field α)) (e : α) : Progress α :=
  { p with value := e, seen := (fields.map Field.name).reverse ++ p.seen }

theorem Progress.after_cons (p : Progress α) (f : Field α) (fields : List (Field α)) (v e : α) :
    (p.put f.name v).after fields e = p.after (f :: fields) e := by
  simp [after, put]

theorem inGroup_cons_of_eq {f : Field α} {group : Nat} (h : f.group = group)
    (fields : List (Field α)) : inGroup (f :: fields) group = f :: inGroup fields group := by
  simp [inGroup, h]

theorem inGroup_cons_of_ne {f : Field α} {group : Nat} (h : f.group ≠ group)
    (fields : List (Field α)) : inGroup (f :: fields) group = inGroup fields group := by
  simp [inGroup, h]

theorem mem_of_mem_inGroup {f : Field α} {fields : List (Field α)} {group : Nat}
    (h : f ∈ inGroup fields group) : f ∈ fields ∧ f.group = group := by
  simpa [inGroup] using h

section

variable {r} {reach : Reach} {a e : α} {fs : List (Field α)} {p : Progress α}

theorem unseen_put {f : Field α} {gs : List (Field α)} (hf : f.name ∉ fs.map Field.name)
    (hgs : gs ⊆ fs) (hseen : ∀ g ∈ gs, g.name ∉ p.seen) (v : α) :
    ∀ g ∈ gs, g.name ∉ (p.put f.name v).seen := by
  intro g hg hmem
  rcases List.mem_cons.mp hmem with he | hmem
  · exact hf (he ▸ List.mem_map_of_mem (hgs hg))
  · exact hseen g hg hmem

theorem readMembers_written (hnames : (r.fields.map Field.name).Nodup) (hfs : fs ⊆ r.fields)
    (hdistinct : (fs.map Field.name).Nodup)
    (hhold : ∀ f ∈ fs, f.group ≠ 0 → (f.write a).draft.hold reach.depth = .ok ())
    (hseen : ∀ f ∈ inGroup fs 0, f.name ∉ p.seen)
    (hrestore : restore reach a (inGroup fs 0) p.value = .ok e) :
    r.readMembers reach (written a fs) p =
      .ok { p.after (inGroup fs 0) e with
        kept := p.kept ++ held a (fs.filter fun f => f.group ≠ 0) } := by
  induction fs generalizing p with
  | nil =>
    obtain rfl : p.value = e := Except.ok.inj hrestore
    simp [written, readMembers, inGroup, held, Progress.after]
  | cons f fs ih =>
    rw [List.map_cons, List.nodup_cons] at hdistinct
    obtain ⟨hf, hdistinct⟩ := hdistinct
    have hmem := hfs List.mem_cons_self
    have hfs := List.subset_of_cons_subset hfs
    have hhold' := fun g hg => hhold g (List.mem_cons_of_mem f hg)
    -- a field of group zero moves the value on, any other one only adds to what is kept
    by_cases hgroup : f.group = 0
    · rw [inGroup_cons_of_eq hgroup] at hseen hrestore ⊢
      obtain ⟨v, hv, hrestore⟩ := restore_cons_ok hrestore
      have hnew := unseen_put hf (fun g hg => (mem_of_mem_inGroup hg).1)
        (fun g hg => hseen g (List.mem_cons_of_mem f hg)) v
      rw [written, List.map_cons,
        readMembers_put hnames hmem hgroup (hseen f List.mem_cons_self) hv, ← written,
        ih hfs hdistinct hhold' hnew hrestore, Progress.after_cons]
      simp [hgroup, Progress.put]
    · rw [inGroup_cons_of_ne hgroup] at hseen hrestore ⊢
      rw [written, List.map_cons,
        readMembers_keep hnames hmem hgroup (hhold f List.mem_cons_self hgroup), ← written,
        ih (p := p.keep f.name (f.write a).draft.held) hfs hdistinct hhold' hseen hrestore]
      simp [hgroup, held, Value.held_draft, Progress.after, Progress.keep]

theorem readGroup_written (hnames : (r.fields.map Field.name).Nodup) (hfs : fs ⊆ r.fields)
    (hdistinct : (fs.map Field.name).Nodup) {group : Nat}
    (hseen : ∀ f ∈ inGroup fs group, f.name ∉ p.seen)
    (hrestore : restore reach a (inGroup fs group) p.value = .ok e) :
    r.readGroup reach group (held a fs) p = .ok (p.after (inGroup fs group) e) := by
  induction fs generalizing p with
  | nil =>
    obtain rfl : p.value = e := Except.ok.inj hrestore
    simp [readGroup, inGroup, held, Progress.after]
  | cons f fs ih =>
    rw [List.map_cons, List.nodup_cons] at hdistinct
    obtain ⟨hf, hdistinct⟩ := hdistinct
    have hmem := hfs List.mem_cons_self
    have hfs := List.subset_of_cons_subset hfs
    rw [held, List.map_cons, ← held]
    by_cases hgroup : f.group = group
    · subst hgroup
      rw [inGroup_cons_of_eq rfl] at hseen hrestore ⊢
      obtain ⟨v, hv, hrestore⟩ := restore_cons_ok hrestore
      have hnew := unseen_put hf (fun g hg => (mem_of_mem_inGroup hg).1)
        (fun g hg => hseen g (List.mem_cons_of_mem f hg)) v
      rw [readGroup_put hnames hmem (hseen f List.mem_cons_self) hv,
        ih hfs hdistinct hnew hrestore, Progress.after_cons]
    · rw [inGroup_cons_of_ne hgroup] at hseen hrestore ⊢
      rw [readGroup_skip hnames hmem hgroup, ih hfs hdistinct hseen hrestore]

theorem readGroups_written (hnames : (r.fields.map Field.name).Nodup) (hfs : fs ⊆ r.fields)
    (hdistinct : (fs.map Field.name).Nodup) (hkept : p.kept = held a fs) {group left : Nat}
    (hseen : ∀ f ∈ fs, group ≤ f.group → f.name ∉ p.seen)
    (hrestore :
      restore reach a ((List.range' group left).flatMap (inGroup fs)) p.value = .ok e) :
    ∃ q, r.readGroups reach group left p = .ok q ∧ q.value = e := by
  induction left generalizing group p with
  | zero => exact ⟨p, rfl, Except.ok.inj hrestore⟩
  | succ left ih =>
    rw [List.range'_succ, List.flatMap_cons] at hrestore
    obtain ⟨v, hv, hrestore⟩ := restore_append_ok hrestore
    have hgroup := readGroup_written hnames hfs hdistinct (p := p)
      (fun f hf => hseen f (mem_of_mem_inGroup hf).1 (Nat.le_of_eq (mem_of_mem_inGroup hf).2.symm))
      hv
    -- the names met now belong to this group, so those of the later ones are still new
    have hnew : ∀ f ∈ fs, group + 1 ≤ f.group →
        f.name ∉ (p.after (inGroup fs group) v).seen := by
      intro f hf hle hmem
      rcases List.mem_append.mp hmem with hmem | hmem
      · obtain ⟨g, hg, hname⟩ := List.mem_map.mp (List.mem_reverse.mp hmem)
        obtain ⟨hg, hgroup⟩ := mem_of_mem_inGroup hg
        obtain rfl : g = f := List.inj_on_of_nodup_map hdistinct hg hf hname
        omega
      · exact hseen f hf (by omega) hmem
    obtain ⟨q, hq, hvalue⟩ := ih (p := p.after (inGroup fs group) v) hkept hnew hrestore
    refine ⟨q, ?_, hvalue⟩
    rw [readGroups, hkept, hgroup]
    exact hq

def inOrder (fields : List (Field α)) (groups : Nat) : List (Field α) :=
  inGroup fields 0 ++ (List.range' 1 groups).flatMap (inGroup fields)

theorem inGroup_later (fields : List (Field α)) {group : Nat} (h : 1 ≤ group) :
    inGroup (fields.filter fun f => f.group ≠ 0) group = inGroup fields group := by
  rw [inGroup, inGroup, List.filter_filter]
  refine List.filter_congr fun f _ => ?_
  by_cases hf : f.group = group <;> simp [hf]
  omega

/-- A written record reads back as what its fields, each reading its own member, make of the empty
record. -/
theorem read_write (hnames : (r.fields.map Field.name).Nodup) (hdepth : 0 < reach.depth)
    (hhold : ∀ f ∈ r.fields, f.group ≠ 0 →
      (f.write a).draft.hold reach.deeper.depth = .ok ())
    (hrestore : restore reach.deeper a (inOrder r.fields r.groups) r.empty = .ok e) :
    r.read reach (r.write a).draft = .ok e := by
  obtain ⟨v, hv, hrestore⟩ := restore_append_ok hrestore
  have hdraft : (r.write a).draft = .mapping (written a r.fields) .closed := by
    rw [write, Value.draft, Value.memberDrafts_eq_map, List.map_map]
    rfl
  -- the members of group zero are not kept, and no later group asks for them
  have hlater : (List.range' 1 r.groups).flatMap (inGroup r.fields) =
      (List.range' 1 r.groups).flatMap (inGroup (r.fields.filter fun f => f.group ≠ 0)) := by
    refine List.flatMap_congr fun group hgroup => ?_
    exact (inGroup_later r.fields (List.mem_range'_1.mp hgroup).1).symm
  rw [hlater] at hrestore
  obtain ⟨p, hp, hvalue, hkept, hseen⟩ : ∃ p, r.readMembers reach.deeper (written a r.fields)
      ⟨r.empty, [], []⟩ = .ok p ∧ p.value = v ∧
      p.kept = held a (r.fields.filter fun f => f.group ≠ 0) ∧
      p.seen = ((inGroup r.fields 0).map Field.name).reverse :=
    ⟨_, readMembers_written hnames (List.Subset.refl _) hnames hhold (by simp) hv, rfl, rfl,
      by simp [Progress.after]⟩
  -- the names are distinct, so none of a kept member was met among those of group zero
  have hunseen : ∀ f ∈ r.fields.filter (fun f => f.group ≠ 0), 1 ≤ f.group →
      f.name ∉ p.seen := by
    intro f hf hgroup hmem
    rw [hseen, List.mem_reverse] at hmem
    obtain ⟨g, hg, hname⟩ := List.mem_map.mp hmem
    obtain ⟨hg, hzero⟩ := mem_of_mem_inGroup hg
    obtain rfl : g = f := List.inj_on_of_nodup_map hnames hg (List.mem_of_mem_filter hf) hname
    omega
  obtain ⟨q, hq, rfl⟩ := readGroups_written hnames List.filter_sublist.subset
    (hnames.sublist (List.filter_sublist.map _)) hkept hunseen (hvalue ▸ hrestore)
  rw [hdraft, read_mapping, if_neg (Nat.ne_of_gt hdepth), hp]
  show (r.readGroups reach.deeper 1 r.groups p).bind _ = _
  rw [hq]
  rfl

theorem read_write_ungrouped (hgroups : ∀ f ∈ r.fields, f.group = 0)
    (hnames : (r.fields.map Field.name).Nodup) (hdepth : 0 < reach.depth)
    (hrestore : restore reach.deeper a r.fields r.empty = .ok e) :
    r.read reach (r.write a).draft = .ok e := by
  have hzero : inGroup r.fields 0 = r.fields :=
    List.filter_eq_self.mpr fun f hf => by simp [hgroups f hf]
  have hlater : (List.range' 1 r.groups).flatMap (inGroup r.fields) = [] := by
    refine List.flatMap_eq_nil_iff.mpr fun group hgroup => ?_
    refine List.filter_eq_nil_iff.mpr fun f hf => ?_
    have hpos := (List.mem_range'_1.mp hgroup).1
    simp only [hgroups f hf, decide_eq_true_eq]
    omega
  refine read_write hnames hdepth (fun f hf hgroup => absurd (hgroups f hf) hgroup) ?_
  rw [inOrder, hzero, hlater, List.append_nil]
  exact hrestore

end

theorem write_numberless (h : ∀ f ∈ r.fields, ∀ a, (f.write a).Numberless) (a : α) :
    (r.write a).Numberless := by
  refine .mapping _ fun m hm => ?_
  obtain ⟨f, hf, rfl⟩ := List.mem_map.mp hm
  exact h f hf a

theorem codec_read_write (reach : Reach) (a : α) :
    r.codec.read reach (r.codec.write a).draft = r.read reach (r.write a).draft := rfl

theorem listCodec_read_written {r : Record α} {reach : Reach} {as : List α} (back : α → α)
    (hdepth : 0 < reach.depth)
    (h : ∀ a ∈ as, r.read reach.deeper (r.write a).draft = .ok (back a)) :
    r.listCodec.read reach (r.listCodec.write as).draft = .ok (as.map back) :=
  Codec.list_read_written back hdepth h

theorem listCodec_read_write {r : Record α} {reach : Reach} {as : List α}
    (hdepth : 0 < reach.depth) (h : ∀ a ∈ as, r.read reach.deeper (r.write a).draft = .ok a) :
    r.listCodec.read reach (r.listCodec.write as).draft = .ok as :=
  Codec.list_read_write hdepth h

theorem listCodec_numberless {r : Record α} (h : ∀ a, (r.write a).Numberless)
    (as : List α) : (r.listCodec.write as).Numberless :=
  Codec.list_numberless h as

end Record

end ProxyConfig
