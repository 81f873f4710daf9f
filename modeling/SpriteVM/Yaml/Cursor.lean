namespace SpriteVM.Yaml

structure Cursor where
  rest : List Char
  index : Nat
  line : Nat
  column : Nat
  deriving DecidableEq, Repr

def isBreak (c : Char) : Bool :=
  c = '\n' || c = '\r' || c.toNat = 0x85 || c.toNat = 0x2028 || c.toNat = 0x2029

/-- Whether what comes next, if anything, ends a word. -/
def isGap : Option Char → Bool
  | none => true
  | some c => c = ' ' || c = '\t' || isBreak c

def isMark (c : Char) : Bool := c.toNat = 0xFEFF

namespace Cursor

def start (cs : List Char) : Cursor := ⟨cs, 0, 0, 0⟩

def next? (c : Cursor) : Option Char := c.rest.head?

def ahead? (c : Cursor) (n : Nat) : Option Char := c.rest[n]?

/-- Past one character. A carriage return before a line feed does not end the line yet, and a byte
order mark takes no room. -/
def step (c : Cursor) : Cursor :=
  match c.rest with
  | [] => c
  | ch :: rest =>
    if (isBreak ch && ch ≠ '\r') || (ch = '\r' && rest.head? ≠ some '\n') then
      ⟨rest, c.index + 1, c.line + 1, 0⟩
    else ⟨rest, c.index + 1, c.line, if isMark ch then c.column else c.column + 1⟩

def skip : Nat → Cursor → Cursor
  | 0, c => c
  | n + 1, c => skip n c.step

/-- Past the characters that satisfy `p`, and what they were. -/
def span (p : Char → Bool) (c : Cursor) : List Char × Cursor :=
  let taken := c.rest.takeWhile p
  (taken, c.skip taken.length)

/-- Past a line break, which reads as a line feed unless it is one of the two separators. -/
def lineBreak? (c : Cursor) : Option (Char × Cursor) :=
  match c.rest with
  | '\r' :: '\n' :: _ => some ('\n', c.skip 2)
  | ch :: _ =>
    if !isBreak ch then none
    else some (if ch.toNat = 0x2028 || ch.toNat = 0x2029 then ch else '\n', c.step)
  | [] => none

/-- Whether a line of three of these characters stands here, as a line between documents does. -/
def atRule (ch : Char) (c : Cursor) : Bool :=
  c.rest.take 3 == [ch, ch, ch] && isGap (c.ahead? 3)

def atSeparator (c : Cursor) : Bool := c.atRule '-' || c.atRule '.'

end Cursor

end SpriteVM.Yaml
