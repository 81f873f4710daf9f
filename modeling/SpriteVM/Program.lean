import SpriteVM.Machine

namespace SpriteVM

/-- The size of the picture a program asks for. -/
structure Header where
  width : Nat
  height : Nat
  deriving DecidableEq, Repr

namespace Program

def headerSize : Nat := 16

def headerMark : List UInt8 := [0xC8, 0xC8]

def maxSize : Nat := 0xE00

/-- The last sixteen bytes, if others come before them and they begin with the mark. -/
def trailer? (image : List UInt8) : Option (List UInt8) :=
  let last := image.drop (image.length - headerSize)
  if headerSize < image.length ∧ last.take 2 = headerMark then some last else none

/-- The header of an image. One that names an empty picture is refused. -/
def header (image : List UInt8) : Except Fault (Option Header) :=
  match trailer? image with
  | none => .ok none
  | some last =>
    let width := (last.getD 6 0).toNat
    let height := (last.getD 7 0).toNat
    if width = 0 ∨ height = 0 then .error (.emptyDisplay width height)
    else .ok (some ⟨width, height⟩)

/-- Puts an image into memory and sets up the picture, of the standard size unless a header says
otherwise. An image that is refused changes nothing. -/
def load (image : List UInt8) : Action (Option Header) := do
  if maxSize < image.length then throw (.programSize image.length)
  match header image with
  | .error f => throw f
  | .ok h =>
    Machine.onBus (Bus.load State.entryPoint image)
    match h with
    | some h => Machine.resizeScreen h.width h.height
    | none => Machine.resizeScreen 64 32
    return h

end Program

end SpriteVM
