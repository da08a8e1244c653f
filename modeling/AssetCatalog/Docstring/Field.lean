import AssetCatalog.Docstring.Basic

/-! Documentation with fields: notes that start with a line `:word name: description`. -/

namespace AssetCatalog.Docstring

def fieldGroups : List (List Char) → List Char × List (List Char)
  | [] => ([], [])
  | l :: ls =>
    let (front, groups) := fieldGroups ls
    if l.head? = some ':' then ([], (l ++ front) :: groups) else (l ++ front, groups)

def splitLines (cs : List Char) : List (List Char) :=
  match (Text.splitList ['\n'] cs).reverse with
  | [] => []
  | last :: firsts => (firsts.reverse.map (· ++ ['\n'])) ++ [last]

inductive Field where
  | note (n : Note)
  | type
  | resultType

def fieldOf (words : List String) (description : String) : Except Fault (Option Field) :=
  match words with
  | [] => throw .noIndex
  | key :: more =>
    if key = "type" && more.length = 1 then pure (some .type)
    else if key = "rtype" && more.length ≤ 1 then pure (some .resultType)
    else if parameterWords.contains key then
      match more with
      | [name] => pure (some (.note (.parameter name description)))
      | [_, name] => pure (some (.note (.parameter name description)))
      | _ => pure none
    else if resultWords.contains key then
      pure (if more.length ≤ 1 then some (.note (.result (some description))) else none)
    else if errorWords.contains key then
      pure (if more.length ≤ 1 then some (.note .other) else none)
    else pure (some (.note .other))

def readField (chunk : List Char) : Except Fault (Option Field) :=
  match Text.cutList? [':'] (chunk.dropWhile (· = ':')) with
  | none => pure none
  | some (args, desc) =>
    fieldOf (Text.words (String.ofList args)) (unindentRest (Text.trim (String.ofList desc)))

def readFields : List (List Char) → Except Fault (Option (List Field))
  | [] => pure (some [])
  | c :: cs => do
    match ← readField c with
    | none => pure none
    | some f =>
      let fs ← readFields cs
      pure (fs.map (f :: ·))

def Field.note? : Field → Option Note
  | .note n => some n
  | _ => none

def Note.isResult : Note → Bool
  | .result _ => true
  | _ => false

def Field.isResultType : Field → Bool
  | .resultType => true
  | _ => false

/-- Reads a text with fields; `none` if some field is not well formed. A type of the result counts
as a note on it if there is no other. -/
def ofFields (text : String) : Except Fault (Option Docstring) := do
  let (front, groups) := fieldGroups (splitLines (unindent text).toList)
  match ← readFields groups with
  | none => pure none
  | some fields =>
    let notes := fields.filterMap Field.note?
    let types := if notes.any Note.isResult then []
      else (fields.filter Field.isResultType).take 1 |>.map fun _ => Note.result none
    pure (some { ofDescription (String.ofList front) with notes := notes ++ types })

end AssetCatalog.Docstring
