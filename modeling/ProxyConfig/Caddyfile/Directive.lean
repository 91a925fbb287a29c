/-!
The tree of directives and its text.  A directive is a name with arguments and, if it has one, a
block of further directives in braces; each level is indented by one tab, and a blank line follows
each block at the top.  The text of a name or an argument is written as it is.
-/

namespace ProxyConfig.Caddyfile

structure Directive where
  name : String
  args : List String := []
  /-- A block is written with its braces even when it is empty. -/
  block : Option (List Directive) := none
  deriving Inhabited

namespace Directive

/-- A block without a name, as the global options are. -/
def anonymous (children : List Directive) : Directive := { name := "", block := some children }

def arg (d : Directive) (a : String) : Directive := { d with args := d.args ++ [a] }

/-- The same directive with one more directive in its block, which is opened if need be. -/
def child (d : Directive) (c : Directive) : Directive :=
  { d with block := some (d.block.getD [] ++ [c]) }

/-- The line of a directive up to its block: name and arguments with a space between, where no space
stands in front of the first part that is not empty. -/
def head (d : Directive) : String :=
  d.args.foldl (fun line a => if line.isEmpty then line ++ a else line ++ " " ++ a) d.name

def indent (depth : Nat) : String := "".pushn '\t' depth

mutual

def lines (depth : Nat) : Directive → String
  | ⟨name, args, none⟩ => indent depth ++ head ⟨name, args, none⟩ ++ "\n"
  | ⟨name, args, some children⟩ =>
    let line := head ⟨name, args, none⟩
    indent depth ++ line ++ (if line.isEmpty then "\x7b\n" else " \x7b\n") ++
      blockLines (depth + 1) children ++ indent depth ++ "\x7d\n"

def blockLines (depth : Nat) : List Directive → String
  | [] => ""
  | d :: rest => lines depth d ++ blockLines depth rest

end

def format : List Directive → String
  | [] => ""
  | d :: rest => lines 0 d ++ "\n" ++ format rest

theorem format_append (ds es : List Directive) : format (ds ++ es) = format ds ++ format es := by
  induction ds with
  | nil => simp [format]
  | cons d ds ih => simp [format, ih, String.append_assoc]

end Directive

end ProxyConfig.Caddyfile
