import AssetCatalog.Docstring.Field
import AssetCatalog.Docstring.Section

/-! What a documentation text says about a function. -/

namespace AssetCatalog.Docstring

/-- The text read in the way that finds the most notes: with fields, with sections, or plainly. Of
two ways that find as many the first counts. -/
def parse (text : String) : Except Fault Docstring := do
  let fields ← ofFields text
  let readings := fields.toList ++ (ofSections text).toList ++ [ofDescription (unindent text)]
  pure <| readings.tail.foldl (fun best d => if best.notes.length < d.notes.length then d else best)
    (readings.head?.getD {})

structure Summary where
  overview : String
  parameters : List (String × String)
  result : Option String
deriving DecidableEq, Repr, Inhabited

def putParameter (name description : String) :
    List (String × String) → List (String × String)
  | [] => [(name, description)]
  | (n, d) :: rest =>
    if n = name then (n, description) :: rest else (n, d) :: putParameter name description rest

def parameterNotes (d : Docstring) : List (String × String) :=
  d.notes.foldl (fun acc n => match n with
    | .parameter name desc => putParameter name desc acc
    | _ => acc) []

def resultNote (d : Docstring) : Option String :=
  (d.notes.findSome? fun n => match n with
    | .result desc => some desc
    | _ => none).getD (some "")

def summary (place text : String) : Except Fault Summary := do
  if text = "" then
    throw (.invalid s!"Target function in {place} is missing required docstring.")
  let d ← parse text
  pure { overview := Text.join "\n\n" (d.short.toList ++ d.long.toList)
         parameters := d.parameterNotes
         result := d.resultNote }

end AssetCatalog.Docstring
