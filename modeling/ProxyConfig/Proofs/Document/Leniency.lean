import ProxyConfig.Proofs.Document.Members

/-!
What the tables of fields have in common.  No field meddles with another one, null leaves an empty record
as it is, whether a draft can be read does not depend on the record, and flags, numbers and other loose
members take any scalar (`Record.Lenient`).
-/

namespace ProxyConfig

namespace Draft

inductive IsScalar : Draft → Prop
  | null : IsScalar (.null none)
  | scalar (s : Scalar) : IsScalar (.scalar (some s) none)
  | text (s : String) : IsScalar (.text s)

end Draft

open Draft

namespace Codec

/-- Any scalar can be read. -/
def TakesScalars (codec : Codec α) : Prop :=
  ∀ reach s, IsScalar s → (codec.read reach s).toOption.isSome = true

/-- Null reads as the value. -/
def NullIs (codec : Codec α) (v : α) : Prop := ∀ reach, codec.read reach (.null none) = .ok v

theorem takesScalars_looseText : looseText.TakesScalars := by
  intro reach s scalar
  cases scalar <;> rfl

theorem takesScalars_number : number.TakesScalars := by
  intro reach s scalar
  cases scalar <;> rfl

theorem takesScalars_flag : flag.TakesScalars := by
  intro reach s scalar
  cases scalar <;> rfl

end Codec

namespace Field

/-- Whether the field can be read does not depend on the record that it is read into. -/
def Steady (f : Field α) : Prop :=
  ∀ reach d a b, (f.given reach d a).isSome = true → (f.given reach d b).isSome = true

variable {get : α → β} {set : β → α → α} {get' : α → γ} {set' : γ → α → α}

theorem given_field (name : String) (codec : Codec β) (reach : Reach) (d : Draft) (a : α) :
    (field name codec get set).given reach d a = (codec.read reach d).toOption.map (set · a) :=
  Decoded.toOption_map _ _

theorem given_lift (f : Field β) (reach : Reach) (d : Draft) (a : α) :
    (f.lift get set).given reach d a = (f.given reach d (get a)).map (set · a) :=
  Decoded.toOption_map _ _

@[simp] theorem apart_field {name name' : String} {codec : Codec β} {codec' : Codec γ}
    (comm : ∀ v w a, set' w (set v a) = set v (set' w a)) :
    (field name codec get set).Apart (field name' codec' get' set') := by
  intro reach d e a
  simp only [given_field]
  cases (codec.read reach d).toOption <;> cases (codec'.read reach e).toOption <;> simp [comm]

@[simp] theorem apart_field_lift {name : String} {codec : Codec β} {f : Field γ}
    (kept : ∀ v a, get' (set v a) = get' a) (comm : ∀ v w a, set' w (set v a) = set v (set' w a)) :
    (field name codec get set).Apart (f.lift get' set') := by
  intro reach d e a
  simp only [given_field, given_lift]
  cases (codec.read reach d).toOption with
  | none => cases f.given reach e (get' a) <;> rfl
  | some v =>
    simp only [Option.map_some, Option.bind_some, kept]
    cases f.given reach e (get' a) <;> simp [comm]

@[simp] theorem apart_lift_lift {f : Field β} {g : Field γ} (kept : ∀ v a, get' (set v a) = get' a)
    (kept' : ∀ w a, get (set' w a) = get a) (comm : ∀ v w a, set' w (set v a) = set v (set' w a)) :
    (f.lift get set).Apart (g.lift get' set') := by
  intro reach d e a
  simp only [given_lift]
  cases made : f.given reach d (get a) <;> cases made' : g.given reach e (get' a) <;>
    simp [kept, kept', comm, made, made']

@[simp] theorem apart_lift_field {name : String} {codec : Codec β} {f : Field γ}
    (kept : ∀ v a, get' (set v a) = get' a) (comm : ∀ v w a, set' w (set v a) = set v (set' w a)) :
    (f.lift get' set').Apart (field name codec get set) :=
  Std.Symm.symm _ _ (apart_field_lift kept comm)

@[simp] theorem apart_inGroup_left {f g : Field α} {n : Nat} : (f.inGroup n).Apart g ↔ f.Apart g :=
  Iff.rfl

@[simp] theorem apart_inGroup_right {f g : Field α} {n : Nat} : f.Apart (g.inGroup n) ↔ f.Apart g :=
  Iff.rfl

theorem given_lift_bind {f g : Field β} (put : ∀ v a, get (set v a) = v)
    (again : ∀ v w a, set w (set v a) = set w a) (reach : Reach) (d e : Draft) (a : α) :
    ((f.lift get set).given reach d a).bind ((g.lift get set).given reach e) =
      ((f.given reach d (get a)).bind (g.given reach e)).map (set · a) := by
  rw [given_lift]
  cases f.given reach d (get a) with
  | none => rfl
  | some v => simp [given_lift, put, again]

theorem Apart.lift {f g : Field β} (apart : f.Apart g) (get : α → β) (set : β → α → α)
    (put : ∀ v a, get (set v a) = v) (again : ∀ v w a, set w (set v a) = set w a) :
    (f.lift get set).Apart (g.lift get set) := by
  intro reach d e a
  rw [given_lift_bind put again, given_lift_bind put again, apart]

theorem steady_field {name : String} {codec : Codec β} : (field name codec get set).Steady := by
  intro reach d a b
  simp [given_field]

theorem Steady.lift {f : Field β} (steady : f.Steady) : (f.lift get set).Steady := by
  intro reach d a b
  simpa [given_lift] using steady reach d (get a) (get b)

/-- The field takes null for what the empty record has, is steady, and takes any scalar if it is loose. -/
structure Lenient (empty : α) (loose : List String) (f : Field α) : Prop where
  idle : ∀ reach, f.given reach (.null none) empty = some empty
  steady : f.Steady
  scalars : f.name ∈ loose → ∀ reach s a, IsScalar s → (f.given reach s a).isSome = true

variable {empty : α} {loose : List String}

theorem lenient_inGroup {f : Field α} {n : Nat} :
    (f.inGroup n).Lenient empty loose ↔ f.Lenient empty loose :=
  ⟨fun h => ⟨h.idle, h.steady, h.scalars⟩, fun h => ⟨h.idle, h.steady, h.scalars⟩⟩

theorem lenient_field_iff {name : String} {codec : Codec β} {v : β}
    (takes : name ∈ loose → codec.TakesScalars) (null : codec.NullIs v) :
    (field name codec get set).Lenient empty loose ↔ set v empty = empty := by
  have nothing (reach : Reach) : (field name codec get set).given reach (.null none) empty =
      some (set v empty) := by
    rw [given_field, null]
    rfl
  constructor
  · intro lenient
    exact Option.some.inj ((nothing ⟨0, false⟩).symm.trans (lenient.idle ⟨0, false⟩))
  · intro self
    refine ⟨fun reach => (nothing reach).trans (congrArg some self), steady_field, ?_⟩
    intro listed reach s a scalar
    simpa [given_field] using takes listed reach s scalar

@[simp] theorem lenient_flag_iff {name : String} {get : α → Bool} {set : Bool → α → α} :
    (field name Codec.flag get set).Lenient empty loose ↔ set false empty = empty :=
  lenient_field_iff (fun _ => Codec.takesScalars_flag) fun _ => rfl

@[simp] theorem lenient_number_iff {name : String} {get : α → NumberText} {set : NumberText → α → α} :
    (field name Codec.number get set).Lenient empty loose ↔ set .empty empty = empty :=
  lenient_field_iff (fun _ => Codec.takesScalars_number) fun _ => rfl

@[simp] theorem lenient_looseText_iff {name : String} {get : α → String} {set : String → α → α} :
    (field name Codec.looseText get set).Lenient empty loose ↔ set "" empty = empty :=
  lenient_field_iff (fun _ => Codec.takesScalars_looseText) fun _ => rfl

@[simp] theorem lenient_text_iff {name : String} {get : α → String} {set : String → α → α}
    (strict : name ∉ loose) :
    (field name Codec.text get set).Lenient empty loose ↔ set "" empty = empty :=
  lenient_field_iff (absurd · strict) fun _ => rfl

@[simp] theorem lenient_texts_iff {name : String} {get : α → List String}
    {set : List String → α → α} (strict : name ∉ loose) :
    (field name Codec.texts get set).Lenient empty loose ↔ set [] empty = empty :=
  lenient_field_iff (absurd · strict) fun _ => rfl

@[simp] theorem lenient_choice_iff {name : String} {ofText : String → β} {toText : β → String}
    (strict : name ∉ loose) :
    (field name (Codec.choice ofText toText) get set).Lenient empty loose ↔
      set (ofText "") empty = empty :=
  lenient_field_iff (absurd · strict) fun _ => rfl

theorem Lenient.lift {f : Field β} {part : β} (lenient : f.Lenient part loose)
    (has : get empty = part) (self : set part empty = empty) :
    (f.lift get set).Lenient empty loose := by
  refine ⟨fun reach => ?_, lenient.steady.lift, fun listed reach s a scalar => ?_⟩
  · rw [given_lift, has, lenient.idle, Option.map_some, self]
  · simpa [given_lift] using lenient.scalars listed reach s (get a) scalar

end Field

/-- A table of lenient fields that do not meddle with each other. -/
structure Record.Lenient (r : Record α) (loose : List String) : Prop extends r.Orderly where
  each : ∀ f ∈ r.fields, f.Lenient r.empty loose

open ProxyConfig.Field

@[simp] theorem IpMatcher.ofText_empty : ofText "" = remoteIp := by decide

@[simp] theorem Protocol.ofText_empty : ofText "" = tcp := by decide

@[simp] theorem UpstreamTls.ofText_empty : ofText "" = off := by decide

@[simp] theorem HeaderDirection.ofText_empty : ofText "" = up := by decide

@[simp] theorem PathMatch.ofText_empty : ofText "" = keep := by decide

@[simp] theorem Action.ofText_empty : ofText "" = proxy := by decide

namespace General

def loose : List String :=
  ["enabled", "enable_layer4", "http_port", "https_port", "timeout_read_body", "timeout_read_header",
    "timeout_write", "timeout_idle", "log_credentials"]

theorem lenient : layout.Lenient loose where
  names := by decide
  apart := by simp [layout]
  each := by simp [layout, loose]

end General

namespace Domain

def loose : List String :=
  ["enabled", "fromPort", "disableTls", "accessLog"]

theorem lenient : layout.Lenient loose where
  names := by decide
  apart := by simp [layout]
  each := by simp [layout, loose]

end Domain

namespace Subdomain

def loose : List String :=
  ["enabled"]

theorem lenient : layout.Lenient loose where
  names := by decide
  apart := by simp [layout]
  each := by simp [layout, loose]

end Subdomain

namespace AccessList

def loose : List String :=
  ["invert", "http_response_code"]

theorem lenient : layout.Lenient loose where
  names := by decide
  apart := by simp [layout]
  each := by simp [layout, loose]

end AccessList

namespace Credential

def loose : List String :=
  []

theorem lenient : layout.Lenient loose where
  names := by decide
  apart := by simp [layout]
  each := by simp [layout, loose]

end Credential

namespace HeaderRule

def loose : List String :=
  ["headerReplace"]

theorem lenient : layout.Lenient loose where
  names := by decide
  apart := by simp [layout]
  each := by simp [layout, loose]

end HeaderRule

namespace RawRoute

def loose : List String :=
  ["enabled", "fromPort", "toPort", "terminateTls", "passive_health_fail_duration",
    "passive_health_max_fails"]

theorem lenient : layout.Lenient loose where
  names := by decide
  apart := by simp [layout]
  each := by simp [layout, loose]

end RawRoute

theorem LoadBalancing.apart : fields.Pairwise Apart := by simp [fields]

theorem HealthCheck.apart : fields.Pairwise Apart := by simp [fields]

theorem PassiveHealth.apart : fields.Pairwise Apart := by simp [fields]

namespace Handler

def loose : List String :=
  ["enabled", "toPort", "httpTls", "http_tls_insecure_skip_verify", "http_version", "http_keepalive",
    "ntlm", "redir_status", "lb_retries", "lb_try_duration", "lb_try_interval", "health_port",
    "health_interval", "health_timeout", "health_passes", "health_fails", "health_status",
    "health_body", "health_follow_redirects", "passive_health_fail_duration",
    "passive_health_max_fails", "passive_health_unhealthy_status",
    "passive_health_unhealthy_latency", "passive_health_unhealthy_request_count"]

theorem lenient : layout.Lenient loose where
  names := by decide
  apart := by
    -- within a part as the part has it, and else each field against whole parts
    have balancing := LoadBalancing.apart.imp fun {f g} apart =>
      apart.lift Handler.balancing (fun v h => { h with balancing := v }) (fun _ _ => rfl) fun _ _ _ => rfl
    have health := HealthCheck.apart.imp fun {f g} apart =>
      apart.lift Handler.health (fun v h => { h with health := v }) (fun _ _ => rfl) fun _ _ _ => rfl
    have passiveHealth := PassiveHealth.apart.imp fun {f g} apart =>
      apart.lift Handler.passiveHealth (fun v h => { h with passiveHealth := v }) (fun _ _ => rfl) fun _ _ _ => rfl
    simp only [layout, List.pairwise_append, List.pairwise_map, List.pairwise_cons,
      List.forall_mem_append, List.forall_mem_map, List.forall_mem_cons, List.Pairwise.nil]
    and_intros
    all_goals first
      | exact balancing
      | exact health
      | exact passiveHealth
      | exact apart_field fun _ _ _ => rfl
      | simp
  each := by
    have balancing : ∀ f ∈ LoadBalancing.fields, f.Lenient {} loose := by
      simp [LoadBalancing.fields, loose]
    have health : ∀ f ∈ HealthCheck.fields, f.Lenient {} loose := by
      simp [HealthCheck.fields, loose]
    have passiveHealth : ∀ f ∈ PassiveHealth.fields, f.Lenient {} loose := by
      simp [PassiveHealth.fields, loose]
    simp only [layout, List.forall_mem_append, List.forall_mem_map, lenient_inGroup]
    refine ⟨⟨⟨⟨by simp [loose], fun f there => (balancing f there).lift rfl rfl⟩,
      fun f there => (health f there).lift rfl rfl⟩, fun f there => (passiveHealth f there).lift rfl rfl⟩,
      by simp [loose]⟩

end Handler

namespace Document

theorem lenient : layout.Lenient [] where
  names := by decide
  apart := by simp [layout]
  each := by
    have general : General.layout.codec.NullIs {} := fun _ => rfl
    have entities {α : Type} (r : Record α) : r.listCodec.NullIs [] := fun _ => rfl
    simp [layout, lenient_field_iff (absurd · List.not_mem_nil) general,
      lenient_field_iff (absurd · List.not_mem_nil) (entities _)]

end Document

end ProxyConfig
