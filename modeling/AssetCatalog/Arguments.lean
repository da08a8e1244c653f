import AssetCatalog.Run
import AssetCatalog.Number.Reading

/-! Arguments of commands: options, and arguments known by their place. A long option may be cut short. -/

namespace AssetCatalog

inductive Arity where
  | noWord
  | oneWord
  | atMostOne
  | anyNumber
  | oneOrMore
deriving DecidableEq, Repr, Inhabited

structure Argument where
  name : String
  /-- The spellings of an option; an argument without any is known by its place. -/
  flags : List String := []
  arity : Arity := .oneWord
  required : Bool := false
  choices : List String := []
  complaint : String → Run (Option String) := fun _ => pure none
  label : String := name

namespace Argument

def option (flag : String) : Argument := { name := flag, flags := [flag] }

def needed (flag : String) : Argument := { option flag with required := true }

def switch (flag : String) : Argument := { name := flag, flags := [flag], arity := .noWord }

def positional (name : String) : Argument := { name, required := true }

def wholeNumber (word : String) : Run (Option String) :=
  pure (match Number.int? 10 word.toList with
    | some _ => none
    | none => some s!"invalid int value: {Text.quoted word}")

def shown (a : Argument) : String :=
  if a.flags.isEmpty then a.label else Text.join "/" a.flags

end Argument

structure Arguments where
  uses : List (String × List String) := []
deriving Repr, Inhabited

namespace Arguments

variable (a : Arguments) (name : String)

def has : Bool := a.uses.any fun u => u.1 = name

def wordsOf : List String :=
  ((a.uses.filter fun u => u.1 = name).getLast?.map (·.2)).getD []

def last? : Option String := (a.wordsOf name).head?

def textOf (default : String) : String := (a.last? name).getD default

def intOf (default : Int) : Int :=
  ((a.last? name).bind fun w => Number.int? 10 w.toList).getD default

def allOf : List String :=
  (a.uses.filter fun u => u.1 = name).flatMap (·.2)

end Arguments

namespace CommandLine

variable (known : List Argument)

def help : Argument := { name := "--help", flags := ["-h", "--help"], arity := .noWord }

/-- How an option was written: its declaration, the spelling, and the word joined to it; `marked`
tells whether an equals sign joins them. -/
structure Written where
  argument : Argument
  flag : String
  word : Option String := none
  marked : Bool := false

inductive Mark where
  | word
  | dashes
  | option (written : Option Written)

def Mark.isOption : Mark → Bool
  | .option _ => true
  | _ => false

def byFlag (flag : String) : Option Argument :=
  known.find? fun a => a.flags.contains flag

def spellings : List (Argument × String) :=
  known.flatMap fun a => a.flags.map fun f => (a, f)

def candidates (word : String) : List Written :=
  if Text.startsWith word "--" then
    let (start, joined) := match Text.cut? "=" word with
      | some (a, b) => (a, some b)
      | none => (word, none)
    (spellings known).filterMap fun (a, f) =>
      if Text.startsWith f start then some { argument := a, flag := f, word := joined, marked := joined.isSome }
      else none
  else
    (spellings known).filterMap fun (a, f) =>
      if f = Text.take 2 word then some { argument := a, flag := f, word := some (Text.drop 2 word) }
      else if Text.startsWith f word then some { argument := a, flag := f }
      else none

def allDecimal (cs : List Char) : Bool := !cs.isEmpty && cs.all Text.isDecimal

def isNegativeNumber (word : String) : Bool :=
  match word.toList with
  | '-' :: cs =>
    let cs := if cs.getLast? = some '\n' then cs.dropLast else cs
    let whole := cs.takeWhile Text.isDecimal
    match cs.drop whole.length with
    | [] => allDecimal whole
    | '.' :: rest => allDecimal rest
    | _ => false
  | _ => false

def markOf (word : String) : Except Fault Mark :=
  if !Text.startsWith word "-" then pure .word
  else match byFlag known word with
    | some a => pure (.option (some { argument := a, flag := word }))
    | none =>
      if word.length = 1 then pure .word
      else
        let split := (Text.cut? "=" word).bind fun (flag, joined) =>
          (byFlag known flag).map fun a =>
            ({ argument := a, flag, word := some joined, marked := true } : Written)
        match split with
        | some w => pure (.option (some w))
        | none =>
          match candidates known word with
          | [w] => pure (.option (some w))
          | [] =>
            if isNegativeNumber word || Text.contains word " " then pure .word
            else pure (.option none)
          | ws =>
            let names := Text.join ", " (ws.map Written.flag)
            throw (.usage s!"ambiguous option: {word} could match {names}")

/-- The words of a command line with their marks; after a pair of dashes all are plain. -/
def markAll (known : List Argument) : List String → Except Fault (List (String × Mark))
  | [] => pure []
  | "--" :: rest => pure (("--", .dashes) :: rest.map fun w => (w, .word))
  | w :: rest => do
    let m ← markOf known w
    let ms ← markAll known rest
    pure ((w, m) :: ms)

def takesBy (arity : Arity) (marks : List Mark) : Bool :=
  let words := (marks.filter fun m => match m with
    | .word => true
    | _ => false).length
  !marks.any Mark.isOption &&
    match arity with
    | .noWord => words = 0
    | .oneWord => words = 1
    | .atMostOne => words ≤ 1
    | .anyNumber => true
    | .oneOrMore => 1 ≤ words

def countsFor (marks : List Mark) : List Arity → Nat → Option (List Nat)
  | [], _ => some []
  | a :: as, start =>
    let rest := marks.drop start
    ((List.range (rest.length + 1)).reverse).findSome? fun n =>
      if takesBy a (rest.take n) then (countsFor marks as (start + n)).map (n :: ·) else none

def serve (marks : List Mark) (arities : List Arity) : List Nat :=
  (((List.range (arities.length + 1)).reverse).findSome? fun k =>
    countsFor marks (arities.take k) 0).getD []

structure Progress where
  waiting : List Argument
  given : Arguments := {}
  extras : List String := []

def refuse {α : Type} (a : Argument) (message : String) : Run α :=
  throw (.usage s!"argument {a.shown}: {message}")

def checkWord (a : Argument) (word : String) : Run Unit := do
  match ← a.complaint word with
  | some m => refuse a m
  | none => pure ()
  if a.choices.isEmpty || a.choices.contains word then pure ()
  else
    let names := Text.join ", " (a.choices.map Text.quoted)
    refuse a s!"invalid choice: {Text.quoted word} (choose from {names})"

def accept (exclusive : List Argument) (a : Argument) (words : List String) (p : Progress) :
    Run Progress := do
  if a.name = help.name then throw (.exit 0)
  let words := if a.flags.isEmpty then words.erase "--" else words
  words.forM (checkWord a)
  if exclusive.any fun e => e.name = a.name then
    match exclusive.find? fun e => e.name ≠ a.name && p.given.has e.name with
    | some e => refuse a s!"not allowed with argument {e.shown}"
    | none => pure ()
  pure { p with given := { uses := p.given.uses ++ [(a.name, words)] } }

def leadingWords (rest : List (String × Mark)) : Nat :=
  (rest.takeWhile fun e => match e.2 with
    | .word => true
    | _ => false).length

def optionTakes (a : Argument) (rest : List (String × Mark)) : Run Nat :=
  match a.arity, leadingWords rest with
  | .noWord, _ => pure 0
  | .oneWord, 0 => refuse a "expected one argument"
  | .oneWord, _ => pure 1
  | .atMostOne, n => pure (min n 1)
  | .anyNumber, n => pure n
  | .oneOrMore, 0 => refuse a "expected at least one argument"
  | .oneOrMore, n => pure n

/-- Reads one word with options; letters after a single dash may be several switches. -/
def readOption (known exclusive : List Argument) (rest : List (String × Mark)) :
    Nat → Written → List (Argument × List String) → Progress →
    Run (Progress × List (String × Mark))
  | 0, _, _, p => pure (p, rest)
  | fuel + 1, w, done, p => do
    let finish (uses : List (Argument × List String)) (p : Progress) : Run Progress :=
      uses.foldlM (fun p (a, ws) => accept exclusive a ws p) p
    match w.word with
    | none =>
      let n ← optionTakes w.argument rest
      let p ← finish (done ++ [(w.argument, (rest.take n).map (·.1))]) p
      pure (p, rest.drop n)
    | some joined =>
      if w.argument.arity ≠ .noWord then
        pure (← finish (done ++ [(w.argument, [joined])]) p, rest)
      else
        match joined.toList with
        | [] => refuse w.argument s!"ignored explicit argument {Text.quoted joined}"
        | c :: cs =>
          if Text.startsWith w.flag "--" || w.marked || c = '-' then
            refuse w.argument s!"ignored explicit argument {Text.quoted joined}"
          else
            let done := done ++ [(w.argument, [])]
            let flag := String.ofList ['-', c]
            match byFlag known flag with
            | none =>
              let p ← finish done { p with extras := p.extras ++ ["-" ++ joined] }
              pure (p, rest)
            | some a =>
              let next : Written := match cs with
                | [] => { argument := a, flag }
                | '=' :: cs => { argument := a, flag, word := some (String.ofList cs), marked := true }
                | cs => { argument := a, flag, word := some (String.ofList cs) }
              readOption known exclusive rest fuel next done p

def readPlaces (exclusive : List Argument) (rest : List (String × Mark)) (p : Progress) :
    Run (Progress × Nat) := do
  let counts := serve (rest.map (·.2)) (p.waiting.map Argument.arity)
  let shares := (p.waiting.zip counts).foldl (fun (acc : List (Argument × List String) × Nat) (a, n) =>
    (acc.1 ++ [(a, ((rest.drop acc.2).take n).map (·.1))], acc.2 + n)) ([], 0)
  let q ← shares.1.foldlM (fun p (a, ws) => accept exclusive a ws p) p
  pure ({ q with waiting := p.waiting.drop counts.length }, shares.2)

def readAll (known exclusive : List Argument) : Nat → List (String × Mark) → Progress →
    Run Progress
  | 0, _, p => pure p
  | fuel + 1, rest, p =>
    if rest.any fun e => e.2.isOption then
      match rest with
      | [] => pure p
      | (word, .option w) :: tail =>
        match w with
        | none => readAll known exclusive fuel tail { p with extras := p.extras ++ [word] }
        | some w => do
          let (p, tail) ← readOption known exclusive tail (word.length + 1) w [] p
          readAll known exclusive fuel tail p
      | rest => do
        let (p, n) ← readPlaces exclusive rest p
        if n > 0 then readAll known exclusive fuel (rest.drop n) p
        else
          let skipped := rest.takeWhile fun e => !e.2.isOption
          let p := { p with extras := p.extras ++ skipped.map (·.1) }
          readAll known exclusive fuel (rest.drop skipped.length) p
    else do
      let (p, n) ← readPlaces exclusive rest p
      pure { p with extras := p.extras ++ (rest.drop n).map (·.1) }

/-- Reads a command line. Of the arguments in `exclusive` exactly one has to be given. -/
def read (declared : List Argument) (words : List String) (exclusive : List Argument := []) :
    Run Arguments := do
  let known := help :: exclusive ++ declared
  let marked ← Run.ofExcept (markAll known words)
  let places := known.filter fun a => a.flags.isEmpty
  let p ← readAll known exclusive (2 * marked.length + 1) marked { waiting := places }
  let missing := (known.filter fun a => a.required && !p.given.has a.name).map Argument.shown
  if !missing.isEmpty then
    let names := Text.join ", " missing
    throw (.usage s!"the following arguments are required: {names}")
  if !exclusive.isEmpty && !exclusive.any fun a => p.given.has a.name then
    let names := Text.join " " (exclusive.map Argument.shown)
    throw (.usage s!"one of the arguments {names} is required")
  if !p.extras.isEmpty then
    let names := Text.join " " p.extras
    throw (.usage s!"unrecognized arguments: {names}")
  pure p.given

end CommandLine

end AssetCatalog
