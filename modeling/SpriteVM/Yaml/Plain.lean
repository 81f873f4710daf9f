import SpriteVM.Yaml.Quote

namespace SpriteVM.Yaml

def isBracket (c : Char) : Bool := c = '[' || c = ']' || c = '\x7b' || c = '\x7d'

/-- Whether a colon before this is the mark of a value. -/
def endsKey (inFlow : Bool) (after : Option Char) : Bool :=
  isGap after || (inFlow && after.any fun c => c = ',' || isBracket c)

/-- The number of characters of the word that begins a text. -/
def wordLength (inFlow : Bool) : List Char → Nat
  | [] => 0
  | c :: rest =>
    if isGap (some c) || (c = ':' && endsKey inFlow rest.head?)
      || (inFlow && (c = ',' || c = '?' || isBracket c)) then 0
    else wordLength inFlow rest + 1

/-- The breaks of the lines without a word here, up to a line between documents. -/
def blankLines : Nat → Cursor → Option (List Char) × Cursor
  | 0, c => (some [], c)
  | n + 1, c =>
    let (_, c) := c.span (· = ' ')
    match c.lineBreak? with
    | none => (some [], c)
    | some (ch, c) =>
      if c.atSeparator then (none, c)
      else
        let (more, c) := blankLines n c
        (more.map (ch :: ·), c)

/-- What stands between two words: the text it reads as, whether a line ended, and the place after
it. A line between documents reads as nothing. -/
def gap (c : Cursor) : List Char × Bool × Cursor :=
  let (blanks, c) := c.span (· = ' ')
  match c.lineBreak? with
  | none => (blanks, false, c)
  | some (ch, c) =>
    if c.atSeparator then ([], true, c)
    else match blankLines c.rest.length c with
      | (none, c) => ([], true, c)
      | (some empty, c) => (folded ch empty, true, c)

/-- The words of a scalar after the `text` before them. A line that is indented less than `indent`
does not belong to it. -/
def words (inFlow : Bool) (indent : Int) :
    Nat → List Char → Bool → Cursor → List Char × Bool × Cursor
  | 0, text, broke, c => (text, broke, c)
  | n + 1, text, broke, c =>
    let length := if c.next? = some '#' then 0 else wordLength inFlow c.rest
    if length = 0 then (text, broke, c)
    else
      let word := c.rest.take length
      let (between, broke, after) := gap (c.skip length)
      let ends := between.isEmpty || after.next? = some '#'
        || (!inFlow && (after.column : Int) < indent)
      if ends || wordLength inFlow after.rest = 0 then (text ++ word, broke, after)
      else words inFlow indent n (text ++ word ++ between) broke after

/-- A scalar without quotes, whether a line ended behind it, and the place after it. -/
def plainScalar (inFlow : Bool) (indent : Int) (c : Cursor) : String × Bool × Cursor :=
  let (text, broke, c) := words inFlow indent c.rest.length [] false c
  (String.ofList text, broke, c)

end SpriteVM.Yaml
