import AssetCatalog.Regex.Reader
import AssetCatalog.Regex.Match
import AssetCatalog.Metadata.Basic

/-! Lists of permitted base images: exact names, and patterns that match from the start. -/

namespace AssetCatalog

structure Allowlist where
  images : List String := []
  patterns : List (String × Regex) := []

namespace Allowlist

def texts? : Value → Option (List String)
  | .list xs => xs.mapM fun x => match x with
    | .text s => some s
    | _ => none
  | _ => none

def patternOf (s : String) : Except Fault (String × Regex) :=
  (Regex.parse s).map fun r => (s, r)

def ofValue (place : String) (v : Value) : Except Fault Allowlist :=
  match (match v with
    | .null => Value.map []
    | v => v) with
  | .map es =>
    match texts? ((Value.named "allowed_images" es).getD (.list [])) with
    | none => throw (.invalid s!"'allowed_images' must be a list of strings: {place}")
    | some images =>
      match texts? ((Value.named "allowed_image_patterns" es).getD (.list [])) with
      | none => throw (.invalid s!"'allowed_image_patterns' must be a list of regex strings: {place}")
      | some ps =>
        match ps.mapM patternOf with
        | .error .pattern => throw (.invalid s!"Invalid regex in allowlist {place}")
        | .error e => throw e
        | .ok patterns => pure { images := Text.distinct images, patterns }
  | _ => throw (.invalid s!"Allowlist must be a YAML mapping: {place}")

def load (p : Path) : Run Allowlist := do
  Run.ofExcept (ofValue p.text (← Metadata.loadYaml p))

/-- The list that holds when no other is named: images of the registry of the project, and images
of the language with a version. -/
def standard : Allowlist :=
  { patterns := ["^ghcr\\.io/kubeflow/.*$", "^python:\\d+\\.\\d+.*$"].filterMap fun s => (patternOf s).toOption }

def standardPath (site : Site) : Path :=
  site.installation.below "scripts/validate_base_images/base_image_allowlist.yaml"

def permits (a : Allowlist) (image : String) : Bool :=
  a.images.contains image || a.patterns.any fun p => p.2.matchesStart image

end Allowlist

namespace Image

def isValid (allowlist : Option Allowlist) (image : Value) : Except Fault Bool :=
  if !image.truthy then pure true
  else match allowlist, image with
    | none, _ => pure false
    | some a, .text s => pure (a.permits s)
    | some a, v =>
      if a.patterns.isEmpty then pure false
      else throw (.wrongKind s!"expected string or bytes-like object, got '{v.kindName}'")

def invalidOf (allowlist : Option Allowlist) (images : List Value) : Except Fault (List Value) :=
  images.filterM fun i => do
    let ok ← isValid allowlist i
    pure !ok

end Image

end AssetCatalog
