import SpriteVM.Bits
import SpriteVM.Text.Numeral

namespace SpriteVM

inductive OperandShape
  | none
  | register
  | registerPair
  | registerByte
  | address
  | registerPairNibble
  deriving DecidableEq, Repr

/-- Words that agree with `pattern` on the bits of `mask`. -/
structure Template (κ : Type) where
  pattern : Int
  mask : Int
  shape : OperandShape
  mnemonic : String
  kind : κ
  deriving DecidableEq, Repr

/-- A word with the template it was classified by and the address it was read from. -/
structure Decoded (κ : Type) where
  word : Int
  template : Template κ
  address : Int
  deriving DecidableEq, Repr

variable {κ : Type}

def Template.fits (t : Template κ) (word : Int) : Bool := Bits.and word t.mask = t.pattern

namespace Decoded

def kind (d : Decoded κ) : κ := d.template.kind

/-- The hexadecimal digit with this number in a word, counted from the least significant. -/
def digit (word : Int) (k : Nat) : Fin 16 := ⟨(word / Nat.pow 16 k % 16).toNat, by omega⟩

def x (d : Decoded κ) : Fin 16 := digit d.word 2

def y (d : Decoded κ) : Fin 16 := digit d.word 1

def nibble (d : Decoded κ) : Fin 16 := digit d.word 0

def byte (d : Decoded κ) : Int := d.word % 256

def nnn (d : Decoded κ) : Int := d.word % 4096

/-- The word in at least four upper-case digits. -/
def wordText (d : Decoded κ) : String := Numeral.hex 4 d.word

def registerText (x : Fin 16) : String := "V" ++ Numeral.hex 1 x.val

def byteText (byte : Int) : String := "#$" ++ Numeral.hex 2 byte

def addressText (nnn : Int) : String := "$" ++ Numeral.hex 3 nnn

/-- The operands the instruction shows, in order. -/
def operands (d : Decoded κ) : List String :=
  match d.template.shape with
  | .none => []
  | .register => [registerText d.x]
  | .registerPair => [registerText d.x, registerText d.y]
  | .registerByte => [registerText d.x, byteText d.byte]
  | .address => [addressText d.nnn]
  | .registerPairNibble => [registerText d.x, registerText d.y, toString d.nibble.val]

/-- The mnemonic, then the operands between commas. -/
def text (d : Decoded κ) : String :=
  match d.operands with
  | [] => d.template.mnemonic
  | operands => d.template.mnemonic ++ " " ++ ", ".intercalate operands

end Decoded

end SpriteVM
