import ProxyConfig.Draft
import ProxyConfig.Text.Shown

/-!
Why a draft is no document, and where in it.  `Problem` is the cause, `DocumentFault` adds the way
that leads to it; `message` and `located` word them.
-/

namespace ProxyConfig

inductive Found where
  | null
  | scalar (s : Scalar)
  | text (s : String)
  | list
  | mapping
  deriving DecidableEq

namespace Found

def message : Found → String
  | null => "null"
  | scalar (.bool b) => "boolean `" ++ (if b then "true" else "false") ++ "`"
  | scalar (.int i) => "integer `" ++ toString i ++ "`"
  | scalar (.float f) => "floating point `" ++ f.scientificText ++ "`"
  | text s => "string " ++ Text.shown s
  | list => "sequence"
  | mapping => "map"

end Found

inductive Problem where
  | broken (reason : Break)
  | wrongType (found : Found) (expected : String)
  | wrongLength (length : Nat) (expected : String)
  | noScalar
  | duplicateField (name : String)
  | missingField (name : String)
  deriving DecidableEq

namespace Problem

def message : Problem → String
  | broken .malformed => "malformed text"
  | broken .endOfText => "unexpected end of text"
  | wrongType found expected => "invalid type: " ++ found.message ++ ", expected " ++ expected
  | wrongLength n expected => "invalid length " ++ toString n ++ ", expected " ++ expected
  | noScalar => "data did not match any variant of untagged enum LooseScalar"
  | duplicateField name => "duplicate field `" ++ name ++ "`"
  | missingField name => "missing field `" ++ name ++ "`"

end Problem

inductive Place where
  | field (name : String)
  | item (index : Nat)
  deriving DecidableEq

structure DocumentFault where
  path : List Place
  problem : Problem
  deriving DecidableEq

namespace DocumentFault

def here (p : Problem) : DocumentFault := ⟨[], p⟩

def within (place : Place) (f : DocumentFault) : DocumentFault := ⟨place :: f.path, f.problem⟩

def message (f : DocumentFault) : String := f.problem.message

def pathText : (first : Bool) → List Place → String
  | _, [] => ""
  | first, .field name :: rest =>
    (if first then name else "." ++ name) ++ pathText false rest
  | _, .item i :: rest => "[" ++ toString i ++ "]" ++ pathText false rest

def located (f : DocumentFault) : String :=
  if f.path.isEmpty then f.message else pathText true f.path ++ ": " ++ f.message

end DocumentFault

end ProxyConfig
