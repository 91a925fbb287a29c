import ProxyConfig.Caddyfile.Global

/-!
Compiling a document: the global options, and the sites unless they are switched off altogether.
Every document compiles.
-/

namespace ProxyConfig.Caddyfile

def renderedSites (certsDir : String) (doc : Document) : List Site :=
  if doc.general.enabled then doc.sites certsDir else []

def blocks (certsDir : String) (doc : Document) : List Directive :=
  globalOptions doc.general doc.rawRoutes ::
    (renderedSites certsDir doc).map (siteBlock certsDir doc)

structure Compiled where
  text : String
  sites : Nat
  deriving DecidableEq

def compile (certsDir : String) (doc : Document) : Compiled where
  text := Directive.format (blocks certsDir doc)
  sites := (renderedSites certsDir doc).length

end ProxyConfig.Caddyfile
