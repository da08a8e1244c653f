import AssetCatalog.Yaml.Token

/-! The tree of a YAML document. Aliases are replaced by the nodes they name. -/

namespace AssetCatalog.Yaml

inductive Tag where
  | implied
  | explicit (name : String)
deriving DecidableEq, Repr, Inhabited

inductive Node where
  | scalar (tag : Tag) (text : String) (decides : Bool)
  | sequence (tag : Tag) (items : List Node)
  | mapping (tag : Tag) (entries : List (Node × Node))
deriving Repr, Inhabited

namespace Node

abbrev Handles := List (String × String)

def defaultHandles : Handles := [("!", "!"), ("!!", "tag:yaml.org,2002:")]

structure Reader where
  tokens : List Token
  anchors : List (String × Node) := []
  opened : List String := []
  level : Nat := 0
  handles : Handles := defaultHandles

variable (r : Reader)

def refuse {α : Type} : List Token → Except Fault α
  | .unreadable e :: _ => throw e
  | _ => throw .yaml

def depthLimit : Nat := 488

def descend : Except Fault Reader :=
  if r.level < depthLimit then pure { r with level := r.level + 1 } else throw .tooDeep

def ascend : Reader := { r with level := r.level - 1 }

def drop1 : Reader := { r with tokens := r.tokens.tail }

def empty : Node := .scalar .implied "" true

def resolveTag (handles : Handles) (t : TagName) : Except Fault Tag :=
  match t.handle with
  | none => pure (if t.rest = "!" then .implied else .explicit t.rest)
  | some h =>
    match handles.lookup h with
    | some start =>
      let name := start ++ t.rest
      pure (if name = "!" then .implied else .explicit name)
    | none => throw .yaml

structure Properties where
  anchor : Option String := none
  tag : Option TagName := none

def properties : Properties × Reader :=
  match r.tokens with
  | .anchor a :: .tag t :: rest => (⟨some a, some t⟩, { r with tokens := rest })
  | .tag t :: .anchor a :: rest => (⟨some a, some t⟩, { r with tokens := rest })
  | .anchor a :: rest => (⟨some a, none⟩, { r with tokens := rest })
  | .tag t :: rest => (⟨none, some t⟩, { r with tokens := rest })
  | _ => ({}, r)

def openAnchor (a : Option String) (r : Reader) : Except Fault Reader :=
  match a with
  | none => pure r
  | some name =>
    if (r.anchors.lookup name).isSome || r.opened.contains name then throw .yaml
    else pure { r with opened := name :: r.opened }

def closeAnchor (a : Option String) (n : Node) (r : Reader) : Node × Reader :=
  match a with
  | none => (n, r)
  | some name => (n, { r with anchors := (name, n) :: r.anchors, opened := r.opened.erase name })

def orEmpty (ends : List Token) (f : Reader → Except Fault (Node × Reader)) (r : Reader) :
    Except Fault (Node × Reader) :=
  if r.tokens.head?.any ends.contains then pure (empty, r) else f r

def flowItem : Node × Option Node → Node
  | (n, none) => n
  | (k, some v) => .mapping .implied [(k, v)]

mutual

/-- Reads a node; `block` allows block collections and `indentless` a sequence at the same depth. -/
def read (block indentless : Bool) : Nat → Reader → Except Fault (Node × Reader)
  | 0, _ => throw .yaml
  | fuel + 1, r =>
    match r.tokens with
    | .reference name :: rest =>
      match r.anchors.lookup name with
      | some n => pure (n, { r with tokens := rest })
      | none => throw (if r.opened.contains name then .tooDeep else .yaml)
    | _ => do
      let (props, r) := properties r
      let tag ← match props.tag with
        | none => pure none
        | some t => (resolveTag r.handles t).map some
      let r ← openAnchor props.anchor r
      let shown := tag.getD .implied
      let (n, r) ←
        match r.tokens, block, indentless with
        | .blockEntry :: _, _, true => do
          let (xs, r) ← readBlockSequence true fuel (← descend r) []
          pure (.sequence shown xs, ascend r)
        | .scalar text isPlain :: rest, _, _ =>
          pure (.scalar shown text ((isPlain && tag.isNone) || tag = some .implied),
            { r with tokens := rest })
        | .flowSequenceStart :: _, _, _ => do
          let (xs, r) ← readFlow .flowSequenceEnd fuel (← descend (drop1 r)) true []
          pure (.sequence shown (xs.map flowItem), ascend r)
        | .flowMappingStart :: _, _, _ => do
          let (es, r) ← readFlow .flowMappingEnd fuel (← descend (drop1 r)) true []
          pure (.mapping shown (es.map fun e => (e.1, e.2.getD empty)), ascend r)
        | .blockSequenceStart :: _, true, _ => do
          let (xs, r) ← readBlockSequence false fuel (← descend (drop1 r)) []
          pure (.sequence shown xs, ascend r)
        | .blockMappingStart :: _, true, _ => do
          let (es, r) ← readBlockMapping fuel (← descend (drop1 r)) []
          pure (.mapping shown es, ascend r)
        | tokens, _, _ =>
          if props.anchor.isSome || tag.isSome then pure (.scalar shown "" true, r) else refuse tokens
      pure (closeAnchor props.anchor n r)

/-- Reads the entries of a sequence; one at the depth of its mapping has no end of its own. -/
def readBlockSequence (indentless : Bool) :
    Nat → Reader → List Node → Except Fault (List Node × Reader)
  | 0, _, _ => throw .yaml
  | fuel + 1, r, acc =>
    match r.tokens with
    | .blockEntry :: rest => do
      let ends := if indentless then [.blockEntry, .key, .value, .blockEnd] else [.blockEntry, .blockEnd]
      let (n, r) ← orEmpty ends (read true false fuel) { r with tokens := rest }
      readBlockSequence indentless fuel r (acc ++ [n])
    | tokens =>
      if indentless then pure (acc, r)
      else if tokens.head? = some .blockEnd then pure (acc, drop1 r)
      else refuse tokens

def readBlockMapping :
    Nat → Reader → List (Node × Node) → Except Fault (List (Node × Node) × Reader)
  | 0, _, _ => throw .yaml
  | fuel + 1, r, acc =>
    let part := orEmpty [.key, .value, .blockEnd] (read true true fuel)
    match r.tokens with
    | .key :: rest => do
      let (k, r) ← part { r with tokens := rest }
      match r.tokens with
      | .value :: rest => do
        let (v, r) ← part { r with tokens := rest }
        readBlockMapping fuel r (acc ++ [(k, v)])
      | _ => readBlockMapping fuel r (acc ++ [(k, empty)])
    | .blockEnd :: rest => pure (acc, { r with tokens := rest })
    | tokens => refuse tokens

def readFlow (closing : Token) : Nat → Reader → Bool → List (Node × Option Node) →
    Except Fault (List (Node × Option Node) × Reader)
  | 0, _, _, _ => throw .yaml
  | fuel + 1, r, first, acc => do
    let part (ends : List Token) := orEmpty (.flowEntry :: closing :: ends) (read false false fuel)
    if r.tokens.head? = some closing then pure (acc, drop1 r)
    else
      let r ← match first, r.tokens with
        | true, _ => pure r
        | false, .flowEntry :: rest => pure { r with tokens := rest }
        | false, tokens => refuse tokens
      if r.tokens.head? = some closing then pure (acc, drop1 r)
      else match r.tokens with
        | .key :: rest =>
          -- a pair in a sequence is a collection of its own
          let inner := closing = .flowSequenceEnd
          let r ← if inner then descend { r with tokens := rest } else pure { r with tokens := rest }
          let (k, r) ← part [.value] r
          let (v, r) ←
            match r.tokens with
            | .value :: rest => part [] { r with tokens := rest }
            | _ => pure (empty, r)
          readFlow closing fuel (if inner then ascend r else r) false (acc ++ [(k, some v)])
        | _ =>
          let (n, r) ← read false false fuel r
          readFlow closing fuel r false (acc ++ [(n, none)])

end

def readDirectives :
    List Token → Bool → Handles → Except Fault (Handles × List Token)
  | .directive d :: rest, versioned, handles =>
    match d with
    | .version major _ =>
      if versioned || major ≠ 1 then throw .yaml else readDirectives rest true handles
    | .tagHandle h start =>
      if (handles.lookup h).isSome then throw .yaml
      else readDirectives rest versioned (handles ++ [(h, start)])
    | .other => readDirectives rest versioned handles
  | rest, _, handles => pure (handles, rest)

def startsDocumentPart : List Token → Bool
  | .directive _ :: _ => true
  | .documentStart :: _ => true
  | .documentEnd :: _ => true
  | .streamEnd :: _ => true
  | [] => true
  | _ => false

def isDocumentEnd : Token → Bool
  | .documentEnd => true
  | _ => false

/-- Reads the next document, if there is one, and leaves the tokens after it. The first document
needs no mark in front of it. -/
def nextDocument (first : Bool) (tokens : List Token) :
    Except Fault (Option (Node × List Token)) := do
  let fuel := 4 * tokens.length + 8
  let finish (n : Node) (r : Reader) : Except Fault (Option (Node × List Token)) :=
    match r.tokens with
    | .documentEnd :: rest => pure (some (n, rest))
    | .unreadable e :: _ => throw e
    | rest => pure (some (n, rest))
  let implicit := first && match tokens with
    | .directive _ :: _ => false
    | .documentStart :: _ => false
    | .streamEnd :: _ => false
    | _ => true
  if implicit then
    let (n, r) ← read true false fuel { tokens }
    finish n r
  else
    match tokens.dropWhile isDocumentEnd with
    | [] => pure none
    | .streamEnd :: _ => pure none
    | rest =>
      let (handles, rest) ← readDirectives rest false []
      let handles := handles ++ defaultHandles.filter fun h => (handles.lookup h.1).isNone
      match rest with
      | .documentStart :: rest =>
        if startsDocumentPart rest then finish empty { tokens := rest, handles }
        else
          let (n, r) ← read true false fuel { tokens := rest, handles }
          finish n r
      | rest => refuse rest

end Node

end AssetCatalog.Yaml
