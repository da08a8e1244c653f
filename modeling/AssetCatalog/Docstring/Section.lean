import AssetCatalog.Docstring.Basic

/-! Documentation with sections: a title such as `Args:` on a line, and indented entries below it. -/

namespace AssetCatalog.Docstring

inductive SectionKind where
  | parameters
  | entries
  | result
  | text
deriving DecidableEq, Repr

def sectionTitles : List (String × SectionKind) :=
  [("Arguments", .parameters), ("Args", .parameters), ("Parameters", .parameters),
    ("Params", .parameters), ("Raises", .entries), ("Exceptions", .entries), ("Except", .entries),
    ("Attributes", .parameters), ("Example", .text), ("Examples", .text), ("Returns", .result),
    ("Yields", .result)]

def isTitleBlank (c : Char) : Bool :=
  c = ' ' || c = '\t' || c = '\r' || c = '\x0c' || c = '\x0b'

def titleOf (line : List Char) : Option String :=
  (sectionTitles.find? fun (t, _) =>
    let start := t.toList ++ [':']
    start.isPrefixOf line && (line.drop start.length).all isTitleBlank).map (·.1)

def splitTitles : List (List Char) → List (List Char) × List (String × List (List Char))
  | [] => ([], [])
  | l :: ls =>
    let (front, sections) := splitTitles ls
    match titleOf l with
    | some t => ([], (t, front) :: sections)
    | none => (l :: front, sections)

def putSection (t : String) (chunk : List Char) :
    List (String × List Char) → List (String × List Char)
  | [] => [(t, chunk)]
  | (u, c) :: rest => if u = t then (t, chunk) :: rest else (u, c) :: putSection t chunk rest

def indentedLines (lines : List (List Char)) : List (List Char) :=
  lines.takeWhile fun l => !((l.head?.map fun c => !Text.isBlank c).getD false)

def chunkOf (lines : List (List Char)) : List Char :=
  Text.trimList (· = '\n') (['\n'].intercalate (indentedLines lines))

def startsEntry (indent : List Char) (cs : List Char) : Bool :=
  indent.isPrefixOf cs && (((cs.drop indent.length).head?).map fun c => !Text.isBlank c).getD false

/-- The entries of a section: each starts in a line with exactly the given indentation. `atStart`
tells whether a line starts here. -/
def splitEntries (indent : List Char) (atStart : Bool) :
    List Char → List Char × List (List Char)
  | [] => ([], [])
  | c :: cs =>
    let (front, entries) := splitEntries indent (c = '\n') cs
    if atStart && startsEntry indent (c :: cs) then ([], (c :: front) :: entries)
    else (c :: front, entries)

def closesType (seen : List Char) : List Char → Bool
  | [] => false
  | c :: cs =>
    (c = ')' &&
      let inner := Text.trimList Text.isBlank seen.reverse
      !inner.isEmpty && !inner.contains '\n') || closesType (c :: seen) cs

def opensType (cs : List Char) : Bool :=
  match cs.dropWhile Text.isBlank with
  | '(' :: more => closesType [] more
  | _ => false

def nameBefore (taken : List Char) : List Char → Option (List Char)
  | [] => none
  | c :: cs =>
    if c = '\n' then none
    else if opensType cs then some (c :: taken).reverse
    else nameBefore (c :: taken) cs

def parameterName (before : String) : String :=
  let cs := before.toList
  let blanks := (cs.takeWhile Text.isBlank).length
  let starts := (List.range (blanks + 1)).reverse
  match starts.findSome? fun n => nameBefore [] (cs.drop n) with
  | some name => String.ofList name
  | none => before

def startsWithType (text : List Char) : Bool :=
  let word := (text.dropWhile Text.isBlank).takeWhile fun c => c ≠ ':' && !Text.isBlank c
  let rest := (text.dropWhile Text.isBlank).drop word.length
  (!word.isEmpty && rest.head? = some ':') ||
    match Text.cutList? [':'] text with
    | some (before, _) => before.getLast? = some ']'
    | none => false

def entryDescription (desc : String) : String :=
  let desc := if Text.startsWith desc " " then Text.drop 1 desc else desc
  Text.trimBy (· = '\n') (unindentRest desc)

def entryNote (kind : SectionKind) (entry : String) : Option Note :=
  match Text.cut? ":" entry with
  | none => none
  | some (before, desc) =>
    let desc := entryDescription desc
    some <| match kind with
      | .parameters => .parameter (parameterName before) desc
      | .result => .result (some desc)
      | _ => .other

def sectionNotes (title : String) (chunk : List Char) : Option (List Note) :=
  match (sectionTitles.lookup title).getD .text with
  | .text => some [.other]
  | .result =>
    let text := unindent (String.ofList chunk)
    if startsWithType text.toList then (entryNote .result text).map ([·])
    else some [.result (some text)]
  | kind =>
    let indent := chunk.takeWhile Text.isBlank
    let (_, entries) := splitEntries indent true chunk
    if entries.isEmpty then none
    else entries.mapM fun e =>
      entryNote kind (Text.trimBy (· = '\n') (String.ofList (e.drop indent.length)))

/-- Reads a text with sections; `none` if some section is not well formed. Of sections with one
title the last one counts, in the place of the first. -/
def ofSections (text : String) : Option Docstring := do
  let lines := Text.splitList ['\n'] (unindent text).toList
  let (front, sections) := splitTitles lines
  let frontText := if sections.isEmpty then ['\n'].intercalate front
    else front.flatMap (· ++ ['\n'])
  let chunks := sections.foldl (fun acc (t, ls) => putSection t (chunkOf ls) acc) []
  let notes ← chunks.mapM fun (t, c) => sectionNotes t c
  some { ofDescription (String.ofList frontText) with notes := notes.flatten }

end AssetCatalog.Docstring
