import ProxyConfig.Proofs.Document.ReadBack

/-!
Each table of fields reads back what it writes, given room for its lists, but for the action of a
handler, which is read from the word it was written as.  The groups of a handler's table are read
after its other fields; the order makes no difference to what comes out.
-/

namespace ProxyConfig

open Record Codec

theorem General.read_write (g : General) {reach : Reach} (h : 1 ≤ reach.depth) :
    layout.read reach (layout.write g).draft = .ok g := by
  refine read_write_ungrouped (by decide) (by decide) h ?_
  simp only [restore, layout, field, List.foldlM_cons, List.foldlM_nil, text_read_write,
    looseText_read_write, number_read_write, flag_read_write]
  rfl

theorem Domain.read_write (d : Domain) {reach : Reach} (h : 2 ≤ reach.depth) :
    layout.read reach (layout.write d).draft = .ok d := by
  have hlists : 0 < reach.deeper.depth := Nat.sub_pos_of_lt h
  refine read_write_ungrouped (by decide) (by decide) (by omega) ?_
  simp only [restore, layout, field, List.foldlM_cons, List.foldlM_nil, text_read_write,
    number_read_write, flag_read_write, texts_read_write hlists]
  rfl

theorem Subdomain.read_write (s : Subdomain) {reach : Reach} (h : 2 ≤ reach.depth) :
    layout.read reach (layout.write s).draft = .ok s := by
  have hlists : 0 < reach.deeper.depth := Nat.sub_pos_of_lt h
  refine read_write_ungrouped (by decide) (by decide) (by omega) ?_
  simp only [restore, layout, field, List.foldlM_cons, List.foldlM_nil, text_read_write,
    flag_read_write, texts_read_write hlists]
  rfl

theorem AccessList.read_write (l : AccessList) {reach : Reach} (h : 2 ≤ reach.depth) :
    layout.read reach (layout.write l).draft = .ok l := by
  have hlists : 0 < reach.deeper.depth := Nat.sub_pos_of_lt h
  refine read_write_ungrouped (by decide) (by decide) (by omega) ?_
  simp only [restore, layout, field, List.foldlM_cons, List.foldlM_nil, text_read_write,
    number_read_write, flag_read_write, texts_read_write hlists,
    choice_read_write (IpMatcher.ofText_toText l.matcher)]
  rfl

theorem Credential.read_write (c : Credential) {reach : Reach} (h : 1 ≤ reach.depth) :
    layout.read reach (layout.write c).draft = .ok c := by
  refine read_write_ungrouped (by decide) (by decide) h ?_
  simp only [restore, layout, field, List.foldlM_cons, List.foldlM_nil, text_read_write]
  rfl

theorem HeaderRule.read_write (x : HeaderRule) {reach : Reach} (h : 1 ≤ reach.depth) :
    layout.read reach (layout.write x).draft = .ok x := by
  refine read_write_ungrouped (by decide) (by decide) h ?_
  simp only [restore, layout, field, List.foldlM_cons, List.foldlM_nil, text_read_write,
    flag_read_write, choice_read_write (HeaderDirection.ofText_toText x.direction)]
  rfl

theorem RawRoute.read_write (x : RawRoute) {reach : Reach} (h : 2 ≤ reach.depth) :
    layout.read reach (layout.write x).draft = .ok x := by
  have hlists : 0 < reach.deeper.depth := Nat.sub_pos_of_lt h
  refine read_write_ungrouped (by decide) (by decide) (by omega) ?_
  simp only [restore, layout, field, List.foldlM_cons, List.foldlM_nil, text_read_write,
    looseText_read_write, number_read_write, flag_read_write, texts_read_write hlists,
    choice_read_write (Protocol.ofText_toText x.protocol),
    choice_read_write (UpstreamTls.ofText_toText x.upstreamTls)]
  rfl

/-- The handler with the action that the word of its own one reads as. -/
def Handler.reread (x : Handler) : Handler := { x with action := .ofText x.action.toText }

def Document.reread (d : Document) : Document :=
  { d with handlers := d.handlers.map Handler.reread }

theorem Handler.read_written (x : Handler) {reach : Reach} (h : 2 ≤ reach.depth) :
    layout.read reach (layout.write x).draft = .ok x.reread := by
  have hlists : 0 < reach.deeper.depth := Nat.sub_pos_of_lt h
  refine Record.read_write (by decide) (by omega) ?_ ?_
  · simp [layout, field, LoadBalancing.fields, HealthCheck.fields, PassiveHealth.fields,
      Field.lift, Field.inGroup]
  · simp only [inOrder, inGroup, groups, restore, layout, LoadBalancing.fields, HealthCheck.fields,
      PassiveHealth.fields, field, Field.lift, Field.inGroup, List.map_cons, List.map_nil,
      List.cons_append, List.nil_append, List.foldl_cons, List.foldl_nil, max_self, Nat.zero_le,
      sup_of_le_right, Nat.reduceLeDiff, sup_of_le_left, decide_true, decide_false,
      Nat.succ_ne_self, reduceCtorEq, Bool.false_eq_true, not_false_eq_true,
      List.filter_cons_of_pos, List.filter_cons_of_neg, List.filter_nil, List.foldlM_cons,
      text_read_write, looseText_read_write, number_read_write, flag_read_write,
      texts_read_write hlists, choice_read_written Action.ofText,
      choice_read_write (PathMatch.ofText_toText x.pathMatch), Handler.reread]
    generalize Action.ofText x.action.toText = action
    rfl

theorem Document.read_written (d : Document) {reach : Reach} (h : 4 ≤ reach.depth) :
    layout.read reach (layout.write d).draft = .ok d.reread := by
  have hlists : 0 < reach.deeper.depth := Nat.sub_pos_of_lt (Nat.lt_of_lt_of_le (by decide) h)
  have hitems : 2 ≤ reach.deeper.deeper.depth := by simp [Reach.deeper]; omega
  have hgeneral : General.layout.read reach.deeper (General.layout.write d.general).draft =
      .ok d.general := d.general.read_write hlists
  have hdomains := listCodec_read_write hlists fun x (_ : x ∈ d.domains) => x.read_write hitems
  have hsubdomains :=
    listCodec_read_write hlists fun x (_ : x ∈ d.subdomains) => x.read_write hitems
  have hhandlers := listCodec_read_written Handler.reread hlists fun x (_ : x ∈ d.handlers) =>
    x.read_written hitems
  have haccess := listCodec_read_write hlists fun x (_ : x ∈ d.accessLists) => x.read_write hitems
  have hcredentials := listCodec_read_write hlists fun x (_ : x ∈ d.credentials) =>
    x.read_write (Nat.le_of_succ_le hitems)
  have hheaders := listCodec_read_write hlists fun x (_ : x ∈ d.headers) =>
    x.read_write (Nat.le_of_succ_le hitems)
  have hroutes := listCodec_read_write hlists fun x (_ : x ∈ d.rawRoutes) => x.read_write hitems
  refine read_write_ungrouped (by decide) (by decide) (by omega) ?_
  simp only [restore, layout, field, List.foldlM_cons, List.foldlM_nil, codec_read_write, hgeneral,
    hdomains, hsubdomains, hhandlers, haccess, hcredentials, hheaders, hroutes]
  rfl

theorem Document.reread_eq {d : Document}
    (hd : ∀ x ∈ d.handlers, Action.ofText x.action.toText = x.action) : d.reread = d := by
  have hhandlers : d.handlers.map Handler.reread = d.handlers := by
    refine (List.map_congr_left fun x hx => ?_).trans (List.map_id d.handlers)
    rw [Handler.reread, hd x hx]
    rfl
  rw [reread, hhandlers]

theorem General.write_numberless (g : General) : (layout.write g).Numberless := by
  refine Record.write_numberless layout ?_ g
  simp [layout, field]

theorem Domain.write_numberless (d : Domain) : (layout.write d).Numberless := by
  refine Record.write_numberless layout ?_ d
  simp [layout, field]

theorem Subdomain.write_numberless (s : Subdomain) : (layout.write s).Numberless := by
  refine Record.write_numberless layout ?_ s
  simp [layout, field]

theorem Handler.write_numberless (x : Handler) : (layout.write x).Numberless := by
  refine Record.write_numberless layout ?_ x
  simp [layout, field, LoadBalancing.fields, HealthCheck.fields, PassiveHealth.fields,
    Field.lift, Field.inGroup]

theorem AccessList.write_numberless (l : AccessList) : (layout.write l).Numberless := by
  refine Record.write_numberless layout ?_ l
  simp [layout, field]

theorem Credential.write_numberless (c : Credential) : (layout.write c).Numberless := by
  refine Record.write_numberless layout ?_ c
  simp [layout, field]

theorem HeaderRule.write_numberless (x : HeaderRule) : (layout.write x).Numberless := by
  refine Record.write_numberless layout ?_ x
  simp [layout, field]

theorem RawRoute.write_numberless (x : RawRoute) : (layout.write x).Numberless := by
  refine Record.write_numberless layout ?_ x
  simp [layout, field]

theorem Document.toJson_numberless (d : Document) : d.toJson.Numberless := by
  refine Record.write_numberless layout ?_ d
  simp only [layout, List.forall_mem_cons]
  refine ⟨fun d => General.write_numberless d.general,
    fun d => listCodec_numberless Domain.write_numberless d.domains,
    fun d => listCodec_numberless Subdomain.write_numberless d.subdomains,
    fun d => listCodec_numberless Handler.write_numberless d.handlers,
    fun d => listCodec_numberless AccessList.write_numberless d.accessLists,
    fun d => listCodec_numberless Credential.write_numberless d.credentials,
    fun d => listCodec_numberless HeaderRule.write_numberless d.headers,
    fun d => listCodec_numberless RawRoute.write_numberless d.rawRoutes, by simp⟩

end ProxyConfig
