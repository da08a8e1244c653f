import AssetCatalog.Regex.Match
import AssetCatalog.Text.Quoted
import AssetCatalog.Fault

/-! The parts of the name of a container image: tags and single names. -/

namespace AssetCatalog.Image

variable (s : String)

def oneChar (items : List Regex.SetItem) : Regex := .oneOf { ascii := true } false items

def tagPattern : Regex :=
  let word := oneChar [.category .word false]
  let inner := oneChar [.category .word false, .char '.', .char '-']
  .seq word (.repeated 0 (some 1) .greedy (.seq (.repeated 0 (some 126) .greedy inner) word))

def namePattern : Regex :=
  .seq (oneChar [.range 'a' 'z', .range '0' '9', .char '_'])
    (.repeated 0 none .greedy
      (oneChar [.range 'A' 'Z', .range 'a' 'z', .range '0' '9', .char '_', .char '.', .char '-']))

def isTag : Bool := tagPattern.matchesWhole s

def isName : Bool := namePattern.matchesWhole s

def checkTag : Except Fault Unit :=
  if isTag s then pure () else throw (.invalid s!"Invalid container tag: {Text.quoted s}")

def checkName : Except Fault Unit :=
  if isName s then pure () else throw (.invalid s!"Invalid image name: {Text.quoted s}")

end AssetCatalog.Image
