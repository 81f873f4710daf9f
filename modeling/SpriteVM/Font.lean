namespace SpriteVM.Font

def base : Int := 0x50

def glyphHeight : Int := 5

/-- The four patterns a row of a digit can have, in the upper half of a byte. -/
inductive Row
  | full | sides | right | left
  deriving DecidableEq, Repr

def Row.byte : Row → UInt8
  | full => 0xF0
  | sides => 0x90
  | right => 0x10
  | left => 0x80

open Row

def glyphs : List (List Row) := [
  [full, sides, sides, sides, full],
  [right, right, right, right, right],
  [full, right, full, left, full],
  [full, right, full, right, full],
  [sides, sides, full, right, right],
  [full, left, full, right, full],
  [full, left, full, sides, full],
  [full, right, right, right, right],
  [full, sides, full, sides, full],
  [full, sides, full, right, right],
  [full, sides, full, sides, sides],
  [left, left, full, sides, full],
  [full, left, left, left, full],
  [right, right, full, sides, full],
  [full, sides, full, left, full],
  [full, left, full, left, left]]

def sprites : List UInt8 := glyphs.flatten.map Row.byte

/-- Where the sprite of a digit begins; of a larger number the lowest digit counts. -/
def address (digit : Int) : Int := base + digit % 16 * glyphHeight

end SpriteVM.Font
