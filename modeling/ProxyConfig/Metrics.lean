import ProxyConfig.Proxy.Command

/-!
Counts of what happened since the start: compilations with the sites of the last one, saves, and
commands to the proxy.  `lines` shows what has been counted at least once; measured times are not
kept.
-/

namespace ProxyConfig

structure Tally where
  successes : Nat := 0
  failures : Nat := 0
  deriving DecidableEq, Inhabited

namespace Tally

def add (succeeded : Bool) (t : Tally) : Tally :=
  if succeeded then { t with successes := t.successes + 1 }
  else { t with failures := t.failures + 1 }

def lines (name labels : String) (t : Tally) : List String :=
  let line (outcome : String) (n : Nat) : List String :=
    if n = 0 then []
    else [name ++ "\x7b" ++ labels ++ "outcome=\"" ++ outcome ++ "\"\x7d " ++ toString n]
  line "failure" t.failures ++ line "success" t.successes

theorem add_total (succeeded : Bool) (t : Tally) :
    (t.add succeeded).successes + (t.add succeeded).failures = t.successes + t.failures + 1 := by
  cases succeeded <;> simp [add] <;> omega

end Tally

structure Metrics where
  compilations : Nat := 0
  /-- The sites of the last compilation. -/
  sites : Nat := 0
  saves : Tally := {}
  commands : Proxy.Command → Tally := fun _ => {}

namespace Metrics

def recordCompilation (sites : Nat) (m : Metrics) : Metrics :=
  { m with compilations := m.compilations + 1, sites }

def recordSave (succeeded : Bool) (m : Metrics) : Metrics :=
  { m with saves := m.saves.add succeeded }

def recordCommand (c : Proxy.Command) (succeeded : Bool) (m : Metrics) : Metrics :=
  { m with commands := fun d => if d = c then (m.commands d).add succeeded else m.commands d }

def block (name kind : String) : List String → List String
  | [] => []
  | ls => ("# TYPE " ++ name ++ " " ++ kind) :: ls

def lines (m : Metrics) : List String :=
  let count := toString m.compilations
  let compiled := m.compilations != 0
  let commandLines (c : Proxy.Command) : List String :=
    (m.commands c).lines "caddygen_proxy_commands_total" ("command=\"" ++ c.toText ++ "\",")
  block "caddygen_compilations_total" "counter"
    ((Tally.mk m.compilations 0).lines "caddygen_compilations_total" "") ++
  block "caddygen_config_saves_total" "counter" (m.saves.lines "caddygen_config_saves_total" "") ++
  block "caddygen_proxy_commands_total" "counter"
    ([.reload, .start, .stop, .validate].flatMap commandLines) ++
  block "caddygen_compiled_sites" "gauge"
    (if compiled then ["caddygen_compiled_sites " ++ toString m.sites] else []) ++
  block "caddygen_compile_duration_seconds" "summary"
    (if compiled then ["caddygen_compile_duration_seconds_count " ++ count] else [])

def text (m : Metrics) : String := String.join (m.lines.map (· ++ "\n"))

end Metrics

end ProxyConfig
