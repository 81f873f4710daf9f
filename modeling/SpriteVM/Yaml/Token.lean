import SpriteVM.Yaml.Plain

/-!
The marks and scalars of a document. Nesting by indentation is made explicit: a collection opens
where its first entry is indented further, and closes where a line is indented less. What turns out
to be a key by the colon behind it is marked as one in hindsight, which is possible on the line it
stands in and for 1024 characters.
-/

namespace SpriteVM.Yaml

inductive Token
  | documentStart
  | documentEnd
  | blockSequence
  | blockMapping
  | blockEnd
  | flowSequence
  | flowSequenceEnd
  | flowMapping
  | flowMappingEnd
  | entry
  | comma
  | key
  | value
  | scalar (text : String) (isPlain : Bool)
  deriving DecidableEq, Repr

/-- A token that may turn out to begin a key: where it stands, and whether it has to be one. -/
structure KeyStart where
  token : Nat
  required : Bool
  index : Nat
  line : Nat
  column : Nat
  deriving DecidableEq, Repr

/-- A text taken apart so far. `keys` has a place for each open bracket and one more. -/
structure Scan where
  cursor : Cursor
  tokens : Array Token
  indent : Int
  outer : List Int
  keyAllowed : Bool
  keys : List (Option KeyStart)
  deriving Repr

namespace Scan

def start (text : String) : Scan := ⟨.start text.toList, #[], -1, [], true, [none]⟩

def inFlow (s : Scan) : Bool := 1 < s.keys.length

def emit (t : Token) (s : Scan) : Scan := { s with tokens := s.tokens.push t }

def skip (n : Nat) (s : Scan) : Scan := { s with cursor := s.cursor.skip n }

def insertAt (k : Nat) (t : Token) (s : Scan) : Scan :=
  { s with tokens := (s.tokens.extract 0 k).push t ++ s.tokens.extract k s.tokens.size }

/-- Closes the block collections that are indented further than a column. -/
def unwind (column : Int) : List Int → Scan → Scan
  | [], s => s
  | i :: outer, s =>
    if s.inFlow || s.indent ≤ column then s
    else unwind column outer { s.emit .blockEnd with indent := i, outer := outer }

/-- Whether a block collection opens at a column, and the text with that indentation. -/
def indentTo (column : Nat) (s : Scan) : Bool × Scan :=
  if s.indent < column then (true, { s with indent := column, outer := s.indent :: s.outer })
  else (false, s)

/-- Opens a block collection if the column asks for one. -/
def openBlock (t : Token) (s : Scan) : Scan :=
  let (opens, s) := s.indentTo s.cursor.column
  if opens then s.emit t else s

/-- A key start that cannot be one any longer. -/
def isStale (c : Cursor) (k : KeyStart) : Bool := k.line ≠ c.line || 1024 < c.index - k.index

/-- Forgets the key starts that are stale; one that had to be a key is an error. -/
def dropStale (s : Scan) : Option Scan :=
  if s.keys.any fun k => k.any fun k => isStale s.cursor k && k.required then none
  else some { s with keys := s.keys.map fun k => k.filter fun k => !isStale s.cursor k }

def dropKey (s : Scan) : Option Scan :=
  match s.keys with
  | some k :: rest => if k.required then none else some { s with keys := none :: rest }
  | _ => some s

def noteKey (s : Scan) : Option Scan :=
  if !s.keyAllowed then some s
  else do
    let s ← s.dropKey
    let c := s.cursor
    let required := !s.inFlow && s.indent = c.column
    let start : KeyStart := ⟨s.tokens.size, required, c.index, c.line, c.column⟩
    return { s with keys := some start :: s.keys.drop 1 }

/-- To the next mark or scalar, past blanks, comments and line breaks. A line break allows a key. -/
def toToken : Nat → Scan → Scan
  | 0, s => s
  | n + 1, s =>
    let (_, c) := s.cursor.span (· = ' ')
    let (_, c) := if c.next? = some '#' then c.span (!isBreak ·) else ([], c)
    match c.lineBreak? with
    | none => { s with cursor := c }
    | some (_, c) => toToken n { s with cursor := c, keyAllowed := s.keyAllowed || !s.inFlow }

def separator (t : Token) (s : Scan) : Option Scan := do
  let s ← (unwind (-1) s.outer s).dropKey
  return ({ s with keyAllowed := false }.emit t).skip 3

def openFlow (t : Token) (s : Scan) : Option Scan := do
  let s ← s.noteKey
  return ({ s with keyAllowed := true, keys := none :: s.keys }.emit t).skip 1

/-- A closing bracket needs an open one. -/
def closeFlow (t : Token) (s : Scan) : Option Scan := do
  if !s.inFlow then none
  let s ← s.dropKey
  return ({ s with keyAllowed := false, keys := s.keys.drop 1 }.emit t).skip 1

def comma (s : Scan) : Option Scan := do
  let s ← s.dropKey
  return ({ s with keyAllowed := true }.emit .comma).skip 1

def entry (s : Scan) : Option Scan := do
  if !s.inFlow && !s.keyAllowed then none
  let s := if s.inFlow then s else s.openBlock .blockSequence
  let s ← s.dropKey
  return ({ s with keyAllowed := true }.emit .entry).skip 1

def key (s : Scan) : Option Scan := do
  if !s.inFlow && !s.keyAllowed then none
  let s := if s.inFlow then s else s.openBlock .blockMapping
  let s ← s.dropKey
  return ({ s with keyAllowed := !s.inFlow }.emit .key).skip 1

/-- A colon before a value. The key start before it, if there is one, becomes a key. -/
def value (s : Scan) : Option Scan := do
  match s.keys with
  | some k :: rest =>
    let s := ({ s with keys := none :: rest }).insertAt k.token .key
    let (opens, s) := if s.inFlow then (false, s) else s.indentTo k.column
    let s := if opens then s.insertAt k.token .blockMapping else s
    return ({ s with keyAllowed := false }.emit .value).skip 1
  | _ =>
    if !s.inFlow && !s.keyAllowed then none
    let s := if s.inFlow then s else s.openBlock .blockMapping
    return ({ s with keyAllowed := !s.inFlow }.emit .value).skip 1

def quote (double : Bool) (s : Scan) : Option Scan := do
  let s ← s.noteKey
  let (text, c) ← quotedScalar double s.cursor
  return { s with keyAllowed := false, cursor := c }.emit (.scalar text false)

def plain (s : Scan) : Option Scan := do
  let s ← s.noteKey
  let (text, broke, c) := plainScalar s.inFlow (s.indent + 1) s.cursor
  return { s with keyAllowed := broke, cursor := c }.emit (.scalar text true)

/-- Characters that stand for something else at the start of a token, or for nothing. -/
def isIndicator (c : Char) : Bool :=
  "-?:,[]#&*!|>'\"%@\x60".toList.contains c || c = '\x7b' || c = '\x7d'

def token (ch : Char) (s : Scan) : Option Scan :=
  let c := s.cursor
  let spaced := isGap (c.ahead? 1)
  if c.column = 0 && c.atRule '-' then s.separator .documentStart
  else if c.column = 0 && c.atRule '.' then s.separator .documentEnd
  else if c.column = 0 && ch = '%' then none
  else if ch = '[' then s.openFlow .flowSequence
  else if ch = '\x7b' then s.openFlow .flowMapping
  else if ch = ']' then s.closeFlow .flowSequenceEnd
  else if ch = '\x7d' then s.closeFlow .flowMappingEnd
  else if ch = ',' then s.comma
  else if ch = '-' && spaced then s.entry
  else if ch = '?' && (s.inFlow || spaced) then s.key
  else if ch = ':' && (s.inFlow || spaced) then s.value
  else if ch = '\'' then s.quote false
  else if ch = '"' then s.quote true
  else if !(isIndicator ch || isGap (some ch))
      || (!spaced && (ch = '-' || (!s.inFlow && (ch = '?' || ch = ':')))) then s.plain
  else none

def run : Nat → Scan → Option (Array Token)
  | 0, _ => none
  | n + 1, s => do
    let s ← (s.toToken (s.cursor.rest.length + 1)).dropStale
    let s := unwind s.cursor.column s.outer s
    match s.cursor.next? with
    | none =>
      let s ← (unwind (-1) s.outer s).dropKey
      return s.tokens
    | some ch => run n (← s.token ch)

end Scan

/-- What a document may be written with: no control characters but tab and line ends. -/
def isAllowed (c : Char) : Bool :=
  c = '\t' || c = '\n' || c = '\r' || (0x20 ≤ c.toNat && c.toNat ≤ 0x7E) || c.toNat = 0x85
    || (0xA0 ≤ c.toNat && c.toNat ≤ 0xFFFD) || 0x10000 ≤ c.toNat

def Token.ofText? (text : String) : Option (List Token) := do
  if !text.toList.all isAllowed then none
  let s := Scan.start text
  let s := if s.cursor.next?.any isMark then s.skip 1 else s
  return (← s.run (text.length + 2)).toList

end SpriteVM.Yaml
