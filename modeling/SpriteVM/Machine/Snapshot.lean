import SpriteVM.Bus
import SpriteVM.Instruction.Table

namespace SpriteVM

structure Snapshot where
  executed : Option Instruction
  cycle : Nat
  accesses : List Access
  deriving DecidableEq, Repr

/-- The address, the word and the listing of an instruction: `0x0200 6005 LD V0, #$05`. -/
def Instruction.traceText (d : Instruction) : String :=
  Numeral.address 6 d.address ++ " " ++ d.wordText ++ " " ++ d.text

namespace Snapshot

def traceText (s : Snapshot) : String :=
  match s.executed with
  | some d => d.traceText
  | none => "BLOCKED"

def touched (s : Snapshot) (address : Int) (kind : AccessKind) : Bool :=
  s.accesses.any fun a => a.address = address && a.kind = kind

end Snapshot

end SpriteVM
