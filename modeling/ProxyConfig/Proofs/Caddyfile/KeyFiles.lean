import ProxyConfig.Proofs.Caddyfile.SchemeAndTls

/-!
The key file beside a certificate file.  Meant is a file of the same directory, with the ending of the
name replaced; but the ending is looked for in the whole text, directories included.  Main statement: the
key is named beside its certificate exactly if the last point of the text stands inside the name, or there
is no point but one that the text begins with.
-/

namespace ProxyConfig

namespace Certificate

/-- Nothing, or a text up to a slash. -/
def DirectoryPart (s : String) : Prop := s = "" ∨ ∃ front, s = front ++ "/"

/-- The directories in a file's text, up to the last slash, and the name behind them. -/
structure Splits (file directory name : String) : Prop where
  text : file = directory ++ name
  directory : DirectoryPart directory
  name : '/' ∉ name.toList

/-- The name of the key beside a file: the last ending is replaced, and where there is none, or only a
point in front, the ending is added. -/
inductive KeyName : String → String → Prop
  | replaced {stem ending : String} (some : stem ≠ "") (last : '.' ∉ ending.toList) :
    KeyName (stem ++ "." ++ ending) (stem ++ ".key")
  | added {name : String} (whole : '.' ∉ name.toList.tail) : KeyName name (name ++ ".key")

/-- The point at which a text is cut, if there is one, stands inside the name. -/
def CutInName (directory name : String) : Prop :=
  '.' ∈ name.toList.tail ∨ '.' ∉ (directory ++ name).toList.tail

instance (directory name : String) : Decidable (CutInName directory name) :=
  inferInstanceAs (Decidable (_ ∨ _))

theorem exists_splits (file : String) : ∃ directory name, Splits file directory name := by
  cases cut : Text.cutLast '/' file.toList with
  | none => exact ⟨"", file, by simp, .inl rfl, Text.cutLast_eq_none_iff.1 cut⟩
  | some parts =>
    obtain ⟨front, name⟩ := parts
    obtain ⟨text, last⟩ := Text.cutLast_eq_some cut
    refine ⟨String.ofList front ++ "/", String.ofList name, ?_, .inr ⟨_, rfl⟩, by simpa using last⟩
    rw [← String.toList_inj, text]
    simp

theorem keyName_keyFile (file : String) : KeyName file (keyFile file) := by
  unfold keyFile
  split
  case h_1 first rest ending cut =>
    obtain ⟨text, last⟩ := Text.cutLast_eq_some cut
    have joined : file = String.ofList (first :: rest) ++ "." ++ String.ofList ending := by
      rw [← String.toList_inj, text]
      simp
    conv => arg 1; rw [joined]
    exact .replaced (by simp) (by simpa using last)
  case h_2 other =>
    refine .added ?_
    cases cut : Text.cutLast '.' file.toList with
    | none => exact fun there => Text.cutLast_eq_none_iff.1 cut (List.mem_of_mem_tail there)
    | some parts =>
      obtain ⟨stem, ending⟩ := parts
      obtain ⟨text, last⟩ := Text.cutLast_eq_some cut
      cases stem with
      | nil => rwa [text]
      | cons first rest => exact absurd cut (other first rest ending)

theorem KeyName.added_iff {name : String} :
    KeyName name (name ++ ".key") ↔ '.' ∉ name.toList.tail := by
  refine ⟨fun named => ?_, .added⟩
  generalize longer : name ++ ".key" = key at named
  cases named with
  | replaced =>
    -- what is replaced does not get longer by a whole ending
    have length := congrArg String.length longer
    have point : ".".length = 1 := rfl
    simp only [String.length_append, point] at length
    omega
  | added whole => exact whole

theorem KeyName.eq_keyFile {file key : String} (named : KeyName file key) : key = keyFile file := by
  cases named with
  | @replaced stem ending some last =>
    obtain ⟨first, rest, chars⟩ := List.exists_cons_of_ne_nil (mt String.toList_eq_nil_iff.1 some)
    have text : (stem ++ "." ++ ending).toList = (first :: rest) ++ '.' :: ending.toList := by
      simp [chars]
    have same : String.ofList (first :: rest) = stem := by rw [← chars, String.ofList_toList]
    rw [keyFile, text, Text.cutLast_append _ last]
    exact congrArg (· ++ ".key") same.symm
  | added whole =>
    unfold keyFile
    split
    case h_1 first rest ending cut =>
      rw [(Text.cutLast_eq_some cut).1] at whole
      exact absurd (by simp) whole
    case h_2 => rfl

theorem keyName_iff {file key : String} : KeyName file key ↔ keyFile file = key :=
  ⟨fun named => named.eq_keyFile.symm, fun same => same ▸ keyName_keyFile file⟩

theorem KeyName.append_iff {directory name key : String} (named : KeyName name key) :
    KeyName (directory ++ name) (directory ++ key) ↔ CutInName directory name := by
  cases named with
  | @replaced stem ending some last =>
    have inside : CutInName directory (stem ++ "." ++ ending) := by
      obtain ⟨first, rest, text⟩ := List.exists_cons_of_ne_nil (mt String.toList_eq_nil_iff.1 some)
      exact .inl (by simp [text])
    refine iff_of_true ?_ inside
    rw [← String.append_assoc, ← String.append_assoc, ← String.append_assoc]
    exact .replaced (by simp [some]) last
  | added whole => rw [← String.append_assoc, KeyName.added_iff, CutInName, or_iff_right whole]

theorem exists_directory (certsDir : String) :
    ∃ front, DirectoryPart front ∧ ∀ file, path certsDir file = front ++ file := by
  cases text : directoryText certsDir with
  | nil => exact ⟨"", .inl rfl, fun file => by simp [path, text]⟩
  | cons c rest =>
    exact ⟨String.ofList (c :: rest) ++ "/", .inr ⟨_, rfl⟩, fun file => by simp [path, text]⟩

end Certificate

namespace Caddyfile

open Certificate

theorem tls_line_of_customCert (certsDir : String) (doc : Document) {site : Site}
    (there : site ∈ doc.sites certsDir) (secure : site.domain.tlsDisabled = false) {file : String}
    (typed : Text.trim site.domain.customCert = file) (given : file ≠ "") :
    (∃ line ∈ (siteBlock certsDir doc site).children, line.name = "tls") ∧
      ∀ line ∈ (siteBlock certsDir doc site).children, line.name = "tls" →
        line.args = [path certsDir file, path certsDir (keyFile file)] := by
  obtain ⟨d, -, rfl⟩ := List.mem_map.1 there
  have mode : (Site.of certsDir (doc.subdomainsOf d.id) d).tls =
      .custom (path certsDir file) (path certsDir (keyFile file)) := by
    change d.tlsMode certsDir = _
    change Text.trim d.customCert = file at typed
    change d.tlsDisabled = false at secure
    rw [Domain.tlsMode, typed, secure]
    simp [given]
  have clause : tlsClause certsDir (Site.of certsDir (doc.subdomainsOf d.id) d) =
      [{ name := "tls", args := [path certsDir file, path certsDir (keyFile file)]
         block := clientAuth certsDir d }] := by
    rw [tlsClause, mode]
    rfl
  refine ⟨⟨_, mem_children_siteBlock_tls_iff.2 (clause ▸ List.mem_cons_self)⟩,
    fun line inside name => ?_⟩
  have only := mem_children_siteBlock_tls_iff.1 ⟨inside, name⟩
  rw [clause, List.mem_singleton] at only
  rw [only]

end Caddyfile

namespace Certificate

open Caddyfile

/-- Every file's text is split in directories and a name, and there is a name that is meant for the key.
The key is named beside the certificate exactly if the point at which the text is cut stands inside the
name; and so it is in the line for TLS of each site that has the certificate. -/
theorem key_beside_certificate_iff (file : String) :
    (∃ directory name key, Splits file directory name ∧ KeyName name key) ∧
      ∀ directory name key, Splits file directory name → KeyName name key →
        (keyFile file = directory ++ key ↔ CutInName directory name) ∧
        ∀ certsDir doc, ∀ site ∈ doc.sites certsDir, site.domain.tlsDisabled = false →
          Text.trim site.domain.customCert = file → file ≠ "" →
          (∃ line ∈ (siteBlock certsDir doc site).children, line.name = "tls") ∧
            ∃ front, DirectoryPart front ∧
              ∀ line ∈ (siteBlock certsDir doc site).children, line.name = "tls" →
                ∃ keyPath, line.args = [front ++ directory ++ name, keyPath] ∧
                  (keyPath = front ++ directory ++ key ↔ CutInName directory name) := by
  constructor
  · obtain ⟨directory, name, split⟩ := exists_splits file
    exact ⟨directory, name, keyFile name, split, keyName_keyFile name⟩
  · intro directory name key split named
    have beside : keyFile file = directory ++ key ↔ CutInName directory name := by
      rw [split.text, ← keyName_iff, named.append_iff]
    refine ⟨beside, fun certsDir doc site there secure typed given => ?_⟩
    obtain ⟨some, only⟩ := tls_line_of_customCert certsDir doc there secure typed given
    obtain ⟨front, part, paths⟩ := exists_directory certsDir
    refine ⟨some, front, part, fun line inside tls => ⟨front ++ keyFile file, ?_, ?_⟩⟩
    · rw [only line inside tls, paths, paths, String.append_assoc, ← split.text]
    · rw [String.append_assoc, String.append_right_inj, beside]

def certified (file : String) : Document where
  general := { enabled := true }
  domains := [{ Domain.serving "d" "d.example" with customCert := file }]

theorem key_beside_certificate_iff_certified :
    Splits "conf.d/d.example.pem" "conf.d/" "d.example.pem" ∧
      KeyName "d.example.pem" "d.example.key" ∧
      keyFile "conf.d/d.example.pem" = "conf.d/" ++ "d.example.key" ∧
      ∃ site ∈ (certified " conf.d/d.example.pem").sites "./certs", ∃ line ∈ (siteBlock "./certs"
          (certified " conf.d/d.example.pem") site).children, ∃ front, line.name = "tls" ∧
        line.args = [front ++ "conf.d/" ++ "d.example.pem", front ++ "conf.d/" ++ "d.example.key"] := by
  have split : Splits "conf.d/d.example.pem" "conf.d/" "d.example.pem" :=
    ⟨rfl, .inr ⟨"conf.d", rfl⟩, by decide⟩
  have named : KeyName "d.example.pem" "d.example.key" :=
    @KeyName.replaced "d.example" "pem" (by decide) (by decide)
  have inside : CutInName "conf.d/" "d.example.pem" := by decide
  obtain ⟨-, all⟩ := key_beside_certificate_iff "conf.d/d.example.pem"
  obtain ⟨beside, rendered⟩ := all _ _ _ split named
  refine ⟨split, named, beside.2 inside, _, List.mem_cons_self, ?_⟩
  obtain ⟨⟨line, there, tls⟩, front, -, lines⟩ := rendered "./certs"
    (certified " conf.d/d.example.pem") _ List.mem_cons_self rfl (by decide) (by decide)
  obtain ⟨keyPath, args, same⟩ := lines line there tls
  exact ⟨line, there, front, tls, by rw [args, same.2 inside]⟩

/-- Without an ending, or with a point in front of the name, the text is cut at a point before the name,
and the key is one of another directory or has another name. -/
theorem key_elsewhere :
    (Splits "conf.d/site" "conf.d/" "site" ∧ KeyName "site" "site.key" ∧
        keyFile "conf.d/site" = "conf.key") ∧
      (Splits "sub/.site" "sub/" ".site" ∧ KeyName ".site" ".site.key" ∧
        keyFile "sub/.site" = "sub/.key") ∧
      ((certified "conf.d/site").sites "./certs").map Site.tls =
        [.custom "./certs/conf.d/site" "./certs/conf.key"] ∧
      ¬ ∀ file directory name key, file ≠ "" → Text.trim file = file →
        Splits file directory name → KeyName name key → keyFile file = directory ++ key := by
  have split : Splits "conf.d/site" "conf.d/" "site" := ⟨rfl, .inr ⟨"conf.d", rfl⟩, by decide⟩
  have hidden : Splits "sub/.site" "sub/" ".site" := ⟨rfl, .inr ⟨"sub", rfl⟩, by decide⟩
  have named : KeyName "site" "site.key" := .added (by decide)
  refine ⟨⟨split, named, by decide⟩, ⟨hidden, .added (by decide), by decide⟩, by decide, fun all => ?_⟩
  exact absurd (all _ _ _ _ (by decide) (by decide) split named) (by decide)

end Certificate

end ProxyConfig
