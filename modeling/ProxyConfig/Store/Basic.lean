import ProxyConfig.Certificate
import ProxyConfig.Document.Format
import ProxyConfig.FileTree
import ProxyConfig.Store.Paths

/-!
Documents, compiled text and certificates in a data directory.  A file is replaced by writing a new
one beside it and moving that into its place, so that a reader never finds half of it.  What changes
the tree gives the tree back in every case, since a failure may leave things behind.
-/

namespace ProxyConfig.Store

inductive StoreError where
  | io (e : FileError)
  | notText
  | badDocument (f : DocumentFault)
  | invalidName (name : String)
  | noSuchFile (name : String)
  deriving DecidableEq

abbrev Outcome (α : Type) := Except StoreError α × FileTree

def readText (t : FileTree) (path : String) : Except StoreError String :=
  match t.readPath path with
  | .error e => .error (.io e)
  | .ok content =>
    match Text.strict content with
    | some s => .ok s
    | none => .error .notText

def readDocument (t : FileTree) (path : String) : Except StoreError Document := do
  (Document.ofText (.ofPath path) (← readText t path)).mapError .badDocument

/-- The stored document, or the initial one if none is stored. -/
def loadDocument (p : Paths) (t : FileTree) : Except StoreError Document :=
  match readText t p.document with
  | .error (.io .notFound) => .ok .initial
  | .error e => .error e
  | .ok s => (Document.ofJson (Text.piecesOf s)).mapError .badDocument

def readCaddyfile (p : Paths) (t : FileTree) : Except StoreError String :=
  match readText t p.caddyfile with
  | .error (.io .notFound) => .ok ""
  | r => r

def listCertificates (p : Paths) (t : FileTree) : Except StoreError (List String) :=
  match t.listPath p.certsDir with
  | .error .notFound => .ok []
  | .error e => .error (.io e)
  | .ok entries =>
    let names := entries.filterMap fun
      | (name, .file _) => some name
      | (_, .directory _) => none
    .ok (names.mergeSort fun a b => a ≤ b)

/-- A change of the tree, which leaves it alone when it fails. -/
def attempt (t : FileTree) (changed : Except FileError FileTree) : Outcome Unit :=
  match changed with
  | .ok t => (.ok (), t)
  | .error e => (.error (.io e), t)

def andThen (r : Outcome Unit) (next : FileTree → Outcome α) : Outcome α :=
  match r with
  | (.ok (), t) => next t
  | (.error e, t) => (.error e, t)

def makeDirectories (path : String) (t : FileTree) : Outcome Unit :=
  match t.makePath path with
  | (none, t) => (.ok (), t)
  | (some e, t) => (.error (.io e), t)

/-- The path of the file that is written first when a file is replaced. -/
def temporary (path : String) : String := path ++ ".tmp"

def replaceFile (path : String) (content : ByteArray) (t : FileTree) : Outcome Unit :=
  andThen (makeDirectories (Path.parent path) t) fun t =>
  andThen (attempt t (t.writePath content (temporary path))) fun t =>
  attempt t (t.renamePath (temporary path) path)

def writeDocument (path : String) (doc : Document) (t : FileTree) : Outcome Unit :=
  attempt t (t.writePath doc.pretty.toUTF8 path)

def saveDocument (p : Paths) (doc : Document) (t : FileTree) : Outcome Unit :=
  replaceFile p.document doc.pretty.toUTF8 t

def writeCaddyfile (p : Paths) (text : String) (t : FileTree) : Outcome Unit :=
  replaceFile p.caddyfile text.toUTF8 t

def saveCertificate (p : Paths) (name : String) (content : ByteArray) (t : FileTree) :
    Outcome Unit :=
  if Certificate.validName name then
    andThen (makeDirectories p.certsDir t) fun t =>
    replaceFile (Path.join p.certsDir name) content t
  else (.error (.invalidName name), t)

def deleteCertificate (p : Paths) (name : String) (t : FileTree) : Outcome Unit :=
  if Certificate.validName name then
    match attempt t (t.unlinkPath (Path.join p.certsDir name)) with
    | (.error (.io .notFound), t) => (.error (.noSuchFile name), t)
    | r => r
  else (.error (.invalidName name), t)

end ProxyConfig.Store
