import SpriteVM.Text.Numeral
import SpriteVM.Text.Quoted

namespace SpriteVM

/-- The families of errors; `FaultClass.ancestors` says how they nest. -/
inductive FaultClass
  | engine
  | machine | memoryAccess | stack | stackOverflow | stackUnderflow | programCounter | keyIndex
  | protocol | machineStopped | invalidKey
  | programFormat | configuration
  | index | lookup | value | type
  | system | missingFile | directory | notDirectory
  | general | root
  deriving DecidableEq, Repr

/-- The program counter as it follows the message of a machine fault. -/
def located (message : String) : Option Int → String
  | some pc => message ++ " (pc=" ++ Numeral.address 5 pc ++ ")"
  | none => message

namespace FaultClass

def generalLine : List FaultClass := [general, root]

def valueLine : List FaultClass := value :: generalLine

def indexLine : List FaultClass := index :: lookup :: generalLine

def engineLine : List FaultClass := engine :: generalLine

def machineLine : List FaultClass := machine :: engineLine

def stackLine : List FaultClass := stack :: machineLine

def protocolLine : List FaultClass := protocol :: engineLine

def systemLine : List FaultClass := system :: generalLine

/-- A family and every family that contains it. -/
def ancestors : FaultClass → List FaultClass
  | engine => engineLine
  | machine => machineLine
  | memoryAccess => memoryAccess :: (machineLine ++ indexLine)
  | stack => stackLine
  | stackOverflow => stackOverflow :: stackLine
  | stackUnderflow => stackUnderflow :: stackLine
  | programCounter => programCounter :: machineLine
  | keyIndex => keyIndex :: (machineLine ++ indexLine)
  | protocol => protocolLine
  | machineStopped => machineStopped :: protocolLine
  | invalidKey => invalidKey :: (protocolLine ++ valueLine)
  | programFormat => programFormat :: (engineLine ++ valueLine)
  | configuration => configuration :: (engineLine ++ valueLine)
  | index => indexLine
  | lookup => lookup :: generalLine
  | value => valueLine
  | type => type :: generalLine
  | system => systemLine
  | missingFile => missingFile :: systemLine
  | directory => directory :: systemLine
  | notDirectory => notDirectory :: systemLine
  | general => generalLine
  | root => [root]

def isA (c d : FaultClass) : Bool := c.ancestors.contains d

/-- The text of an error. A machine fault puts a known counter behind its message; in other families
the two stand as a pair. -/
def text (c : FaultClass) (message : String) : Option (Option Int) → String
  | none => message
  | some pc =>
    if c.isA machine then located message pc
    else "(" ++ Quoted.render message ++ ", " ++ (pc.map toString).getD "None" ++ ")"

end FaultClass

inductive FileCause
  | missing
  | directory
  | notDirectory
  | longName
  | zeroByte
  deriving DecidableEq, Repr

namespace FileCause

def kind : FileCause → FaultClass
  | missing => .missingFile
  | directory => .directory
  | notDirectory => .notDirectory
  | longName => .system
  | zeroByte => .value

def message (name : String) : FileCause → String
  | missing => "[Errno 2] No such file or directory: " ++ Quoted.render name
  | directory => "[Errno 21] Is a directory: " ++ Quoted.render name
  | notDirectory => "[Errno 20] Not a directory: " ++ Quoted.render name
  | longName => "[Errno 36] File name too long: " ++ Quoted.render name
  | zeroByte => "embedded null byte"

end FileCause

/-- The causes of failure. A machine fault carries the program counter where one is known. -/
inductive Fault
  | unmapped (address : Int)
  | outsideRam (address : Int) (size : String)
  | notByte (data : Int)
  | ramSize
  | addressRange
  | notDevice
  | rangeSize (device : String) (range : Int)
  | stackOverflow (pc : Int)
  | stackUnderflow (pc : Int)
  | slotRead
  | slotWrite
  | targetOutside (target pc : Int)
  | targetOdd (target pc : Int)
  | counter (pc : Int)
  | keyRegister (key : Int) (register : Fin 16) (pc : Int)
  | stopped (halted : Bool)
  | hostKey (key : Int)
  | geometry (width height : Int)
  | programGeometry (width height : Int)
  | pixel (x y : Int) (width height : Nat)
  | programSize (bytes : Nat)
  | emptyDisplay (width height : Nat)
  | cyclesPerFrame
  | hook (message : String)
  | file (cause : FileCause) (name : String)
  deriving DecidableEq, Repr

namespace Fault

def kind : Fault → FaultClass
  | unmapped _ | outsideRam _ _ => .memoryAccess
  | stackOverflow _ => .stackOverflow
  | stackUnderflow _ => .stackUnderflow
  | targetOutside _ _ | targetOdd _ _ | counter _ => .programCounter
  | keyRegister _ _ _ => .keyIndex
  | stopped _ => .machineStopped
  | hostKey _ => .invalidKey
  | programGeometry _ _ | programSize _ | emptyDisplay _ _ => .programFormat
  | slotRead | slotWrite | pixel _ _ _ _ => .index
  | notByte _ | ramSize | addressRange | rangeSize _ _ | geometry _ _ | cyclesPerFrame
  | hook _ => .value
  | notDevice => .type
  | file cause _ => cause.kind

/-- The program counter reported with a machine fault. -/
def pc? : Fault → Option Int
  | stackOverflow pc | stackUnderflow pc | targetOutside _ pc | targetOdd _ pc | counter pc
  | keyRegister _ _ pc => some pc
  | _ => none

def geometryText (width height : Int) : String :=
  "Invalid display geometry " ++ toString width ++ "x" ++ toString height ++ "."

def summary : Fault → String
  | unmapped a => "Address " ++ Numeral.address 6 a ++ " not mapped to any device."
  | outsideRam a size =>
    "Address " ++ toString a ++ " out of bounds for RAM of size " ++ size ++ "."
  | notByte d => "Data " ++ toString d ++ " is not an 8-bit value."
  | ramSize => "RAM size must be a positive integer."
  | addressRange =>
    "Invalid address range: start_address must be <= end_address and non-negative."
  | notDevice => "Device must be an instance of a class derived from Device."
  | rangeSize device range =>
    "Registered RAM device size (" ++ device ++ " bytes) does not match the specified address "
      ++ "range size (" ++ toString range ++ " bytes)."
  | stackOverflow _ => "Call stack overflow (16 levels)."
  | stackUnderflow _ => "Return with an empty call stack."
  | slotRead => "list index out of range"
  | slotWrite => "list assignment index out of range"
  | targetOutside target _ => "Jump target " ++ Numeral.address 5 target ++ " outside memory."
  | targetOdd target _ =>
    "Jump target " ++ Numeral.address 5 target ++ " is not instruction aligned."
  | counter _ => "Program counter left the valid instruction range."
  | keyRegister key register _ =>
    "Key index " ++ toString key ++ " in V" ++ Numeral.hex 1 register.val ++ " is out of range."
  | stopped halted =>
    "Cannot step a machine that has " ++ (if halted then "halted" else "quit") ++ "."
  | hostKey key => "Key index " ++ toString key ++ " is out of range."
  | geometry w h | programGeometry w h => geometryText w h
  | pixel x y w h =>
    "Pixel (" ++ toString x ++ ", " ++ toString y ++ ") out of bounds for " ++ toString w ++ "x"
      ++ toString h ++ " display."
  | programSize bytes =>
    "Program image is " ++ toString bytes ++ " bytes; at most 3584 bytes fit above 0x200."
  | emptyDisplay w h =>
    "Header declares an empty display (" ++ toString w ++ "x" ++ toString h ++ ")."
  | cyclesPerFrame => "cycles_per_frame must be positive."
  | hook message => message
  | file cause name => cause.message name

def message (f : Fault) : String := located f.summary f.pc?

end Fault

end SpriteVM
