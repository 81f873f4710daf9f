import SpriteVM.Yaml.Cursor
import SpriteVM.Text.Integer

namespace SpriteVM.Yaml

def escapes : List (Char × Nat) := [
  ('0', 0x00), ('a', 0x07), ('b', 0x08), ('t', 0x09), ('\t', 0x09), ('n', 0x0A), ('v', 0x0B),
  ('f', 0x0C), ('r', 0x0D), ('e', 0x1B), (' ', 0x20), ('"', 0x22), ('\\', 0x5C), ('/', 0x2F),
  ('N', 0x85), ('_', 0xA0), ('L', 0x2028), ('P', 0x2029)]

/-- How many hexadecimal digits follow the letter of an escape by code point. -/
def codeLength? (c : Char) : Option Nat :=
  if c = 'x' then some 2 else if c = 'u' then some 4 else if c = 'U' then some 8 else none

/-- The breaks of the empty lines here, each with the blanks before it; no line between documents
may stand among them. -/
def emptyLines : Nat → Cursor → Option (List Char × Cursor)
  | 0, c => some ([], c)
  | n + 1, c =>
    if c.atSeparator then none
    else
      let (_, c) := c.span fun ch => ch = ' ' || ch = '\t'
      match c.lineBreak? with
      | none => some ([], c)
      | some (ch, c) => (emptyLines n c).map fun (more, c) => (ch :: more, c)

/-- What a line break and the empty lines after it read as. -/
def folded (ch : Char) (empty : List Char) : List Char :=
  if ch ≠ '\n' then ch :: empty else if empty.isEmpty then [' '] else empty

def escape? (c : Cursor) : Option (List Char × Cursor) := do
  let ch ← c.next?
  match escapes.lookup ch, codeLength? ch with
  | some code, _ => return ([Char.ofNat code], c.step)
  | none, some n =>
    let ds ← ((c.rest.drop 1).take n).mapM (IntegerText.digitIn? 16)
    if ds.length < n then none
    return ([Char.ofNat (IntegerText.valueOf 16 ds)], c.skip (n + 1))
  | none, none =>
    let (_, c) ← c.lineBreak?
    emptyLines c.rest.length c

/-- The text up to the closing quote, which is passed over. -/
def quoted (double : Bool) : Nat → Cursor → Option (List Char × Cursor)
  | 0, _ => none
  | n + 1, c => do
    let ch ← c.next?
    if ch = '\'' && !double then
      if c.ahead? 1 = some '\'' then
        let (more, c) ← quoted double n (c.skip 2)
        return ('\'' :: more, c)
      return ([], c.step)
    if ch = '"' && double then return ([], c.step)
    if ch = '\\' && double then
      let (cs, c) ← escape? c.step
      let (more, c) ← quoted double n c
      return (cs ++ more, c)
    if isGap (some ch) then
      let (blanks, c) := c.span fun ch => ch = ' ' || ch = '\t'
      match c.lineBreak? with
      | none =>
        let (more, c) ← quoted double n c
        return (blanks ++ more, c)
      | some (ch, c) =>
        let (empty, c) ← emptyLines c.rest.length c
        let (more, c) ← quoted double n c
        return (folded ch empty ++ more, c)
    let (more, c) ← quoted double n c.step
    return (ch :: more, c)

/-- A scalar between quotes; the cursor is at the first of them. -/
def quotedScalar (double : Bool) (c : Cursor) : Option (String × Cursor) :=
  (quoted double c.rest.length c.step).map fun (cs, c) => (String.ofList cs, c)

end SpriteVM.Yaml
