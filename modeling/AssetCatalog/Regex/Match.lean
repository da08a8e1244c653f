import AssetCatalog.Regex.Basic

/-! Matching: choices are tried in order until the continuation, which is all that follows, succeeds. -/

namespace AssetCatalog.Regex

structure Cursor where
  before : List Char
  after : List Char
  captures : List (Nat × List Char) := []
deriving Inhabited

namespace Cursor

def isWord (ascii : Bool) (c : Option Char) : Bool :=
  (c.map (Category.word.holds ascii)).getD false

def atBoundary (ascii : Bool) (s : Cursor) : Bool :=
  isWord ascii s.before.head? != isWord ascii s.after.head?

def isAt (options : Options) (s : Cursor) : Place → Bool
  | .lineStart => s.before.isEmpty || (options.multiline && s.before.head? = some '\n')
  | .lineEnd => s.after.isEmpty || s.after = ['\n'] ||
      (options.multiline && s.after.head? = some '\n')
  | .textStart => s.before.isEmpty
  | .textEnd => s.after.isEmpty
  | .boundary => s.atBoundary options.ascii
  | .noBoundary => !s.atBoundary options.ascii

def next (p : Char → Bool) (s : Cursor) : Option Cursor :=
  match s.after with
  | c :: cs => if p c then some { s with before := c :: s.before, after := cs } else none
  | [] => none

def nextAll (same : Char → Char → Bool) : List Char → Cursor → Option Cursor
  | [], s => some s
  | c :: cs, s => (s.next (same c)).bind (nextAll same cs)

def back (n : Nat) (s : Cursor) : Option Cursor :=
  if s.before.length < n then none
  else some { s with before := s.before.drop n, after := (s.before.take n).reverse ++ s.after }

end Cursor

abbrev Rest := Cursor → Option Cursor

/-- Repeats `step`: `count` repetitions are done, and a repetition that moves nowhere is not tried
again. -/
def repeatFrom (step : Rest → Rest) (low : Nat) (high : Option Nat) (isLazy : Bool) (k : Rest) :
    Nat → Nat → Rest
  | 0, _, _ => none
  | fuel + 1, count, s =>
    let more : Option Cursor :=
      if (high.map fun n => decide (count < n)).getD true then
        step (fun s' =>
          if s'.after.length = s.after.length && low ≤ count then none
          else repeatFrom step low high isLazy k fuel (count + 1) s') s
      else none
    if count < low then more
    else if isLazy then (k s).orElse fun _ => more
    else more.orElse fun _ => k s

def run : Regex → Rest → Rest
  | .empty, k, s => k s
  | .any options, k, s => (s.next fun c => options.dotAll || c ≠ '\n').bind k
  | .oneOf options negated items, k, s =>
    (s.next fun c => items.any (SetItem.holds options c) != negated).bind k
  | .place options p, k, s => if s.isAt options p then k s else none
  | .seq a b, k, s => run a (run b k) s
  | .alt a b, k, s => (run a k s).orElse fun _ => run b k s
  | .repeated low high mode body, k, s =>
    let fuel := low + s.after.length + 2
    match mode with
    | .greedy => repeatFrom (run body) low high false k fuel 0 s
    | .lazy => repeatFrom (run body) low high true k fuel 0 s
    | .possessive => (repeatFrom (run body) low high false some fuel 0 s).bind k
  | .group n body, k, s =>
    run body (fun s' =>
      let text := (s'.before.take (s.after.length - s'.after.length)).reverse
      k { s' with captures := (n, text) :: s'.captures }) s
  | .reference options n, k, s =>
    match s.captures.lookup n with
    | some text =>
      let same := if options.ignoreCase then sameIgnoringCase options.ascii else fun c d => c = d
      (s.nextAll same text).bind k
    | none => none
  | .atomic body, k, s => (run body some s).bind k
  | .ahead negated body, k, s =>
    match run body some s with
    | some s' => if negated then none else k { s with captures := s'.captures }
    | none => if negated then k s else none
  | .behind negated n body, k, s =>
    match (s.back n).bind (run body some) with
    | some s' => if negated then none else k { s with captures := s'.captures }
    | none => if negated then k s else none
  | .ifGroup n yes no, k, s => if (s.captures.lookup n).isSome then run yes k s else run no k s

def matchesStart (r : Regex) (s : String) : Bool :=
  (run r some { before := [], after := s.toList }).isSome

def matchesWhole (r : Regex) (s : String) : Bool :=
  (run r (fun e => if e.after.isEmpty then some e else none) { before := [], after := s.toList }).isSome

def searchFrom (r : Regex) (before : List Char) : List Char → Bool
  | [] => (run r some { before, after := [] }).isSome
  | c :: cs => (run r some { before, after := c :: cs }).isSome || searchFrom r (c :: before) cs

def matchesWithin (r : Regex) (s : String) : Bool := searchFrom r [] s.toList

end AssetCatalog.Regex
