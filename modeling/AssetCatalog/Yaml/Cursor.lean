import AssetCatalog.Fault

/-! A place in a YAML text: the characters that follow, and the line and column reached. -/

namespace AssetCatalog.Yaml

structure Cursor where
  rest : List Char
  index : Nat
  line : Nat
  column : Nat
deriving Repr, Inhabited

def endMark : Char := Char.ofNat 0

def isBreak (c : Char) : Bool :=
  c = '\r' || c = '\n' || c.toNat = 0x85 || c.toNat = 0x2028 || c.toNat = 0x2029

def isBreakOrEnd (c : Char) : Bool := c = endMark || isBreak c

def isSpaceOrEnd (c : Char) : Bool := c = ' ' || c = '\t' || isBreakOrEnd c

def isAllowed (c : Char) : Bool :=
  let n := c.toNat
  n = 9 || n = 10 || n = 13 || (0x20 ≤ n && n ≤ 0x7e) || n = 0x85 || (0xa0 ≤ n && n ≤ 0xd7ff) ||
    (0xe000 ≤ n && n ≤ 0xfffd) || 0x10000 ≤ n

namespace Cursor

variable (k : Cursor)

def ofList (cs : List Char) : Cursor := ⟨cs, 0, 0, 0⟩

def peekAt (n : Nat) (k : Cursor) : Char := k.rest.getD n endMark

def peek : Char := k.rest.headD endMark

def next : Cursor :=
  match k.rest with
  | [] => k
  | c :: cs =>
    if c = '\n' || c.toNat = 0x85 || c.toNat = 0x2028 || c.toNat = 0x2029 ||
        (c = '\r' && cs.headD endMark ≠ '\n') then
      ⟨cs, k.index + 1, k.line + 1, 0⟩
    else if c.toNat = 0xfeff then ⟨cs, k.index + 1, k.line, k.column⟩
    else ⟨cs, k.index + 1, k.line, k.column + 1⟩

def forward : Nat → Cursor → Cursor
  | 0, k => k
  | n + 1, k => forward n k.next

def span (p : Char → Bool) (k : Cursor) : List Char × Cursor :=
  let cs := k.rest.takeWhile p
  (cs, k.forward cs.length)

def skip (p : Char → Bool) (k : Cursor) : Cursor := (k.span p).2

def atSeparator : Bool :=
  match k.rest with
  | '-' :: '-' :: '-' :: r => isSpaceOrEnd (r.headD endMark)
  | '.' :: '.' :: '.' :: r => isSpaceOrEnd (r.headD endMark)
  | _ => false

/-- Reads one line end; all forms but the two separators of Unicode count as `\n`. -/
def lineBreak : List Char × Cursor :=
  let c := k.peek
  if c = '\r' || c = '\n' || c.toNat = 0x85 then
    if c = '\r' && k.peekAt 1 = '\n' then (['\n'], k.forward 2) else (['\n'], k.next)
  else if c.toNat = 0x2028 || c.toNat = 0x2029 then ([c], k.next)
  else ([], k)

end Cursor

end AssetCatalog.Yaml
