import SpriteVM.Machine.State
import SpriteVM.Text.Numeral

namespace SpriteVM

/-- A register as it is shown: its name and its width in bits. -/
structure RegisterInfo where
  name : String
  width : Nat
  deriving DecidableEq, Repr

structure RegisterGroup where
  name : String
  registers : List RegisterInfo
  deriving DecidableEq, Repr

def registerName (x : Fin 16) : String := "V" ++ Numeral.hex 1 x.val

def registerLayout : List RegisterGroup := [
  ⟨"General", (List.finRange 16).map fun x => ⟨registerName x, 8⟩⟩,
  ⟨"Pointers", [⟨"I", 12⟩, ⟨"PC", 12⟩, ⟨"SP", 8⟩]⟩,
  ⟨"Timers", [⟨"DT", 8⟩, ⟨"ST", 8⟩]⟩]

namespace State

def registers (s : State) : List (String × Int) :=
  (List.finRange 16).map (fun x => (registerName x, s.reg x)) ++
    [("I", s.i), ("PC", s.pc), ("SP", s.sp), ("DT", s.delayTimer), ("ST", s.soundTimer)]

def flags (s : State) : List (String × Bool) := [
  ("CARRY", s.flag ≠ 0),
  ("DRAW", s.draw),
  ("BLOCKING", s.blocking),
  ("HALTED", s.halted),
  ("QUIT", s.quit)]

end State

end SpriteVM
