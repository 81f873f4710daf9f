import SpriteVM.Config.Settings
import SpriteVM.Files
import SpriteVM.Yaml.Document

namespace SpriteVM

inductive SettingsFault
  | file (f : Fault)
  | encoding
  | config (f : ConfigFault)
  deriving DecidableEq, Repr

/-- What makes a configuration value of a text. -/
abbrev Reader := String → Except ConfigFault Value

namespace Settings

def ofTextBy (read : Reader) (text : String) : Except ConfigFault Settings := do
  ofValue (← read text)

def ofText (text : String) : Except ConfigFault Settings := ofTextBy Yaml.read text

def lineFeeds : List Char → List Char
  | '\r' :: '\n' :: rest => '\n' :: lineFeeds rest
  | '\r' :: rest => '\n' :: lineFeeds rest
  | c :: rest => c :: lineFeeds rest
  | [] => []

/-- A text that cannot be taken apart is reported with the name of its file. -/
def named (file : String) : ConfigFault → ConfigFault
  | .malformed _ => .malformed (some file)
  | f => f

def ofFile (read : Reader) (fs : Files) (path : String) : Except SettingsFault Settings := do
  let bytes ← (fs.read path).mapError .file
  match String.fromUTF8? ⟨bytes.toArray⟩ with
  | none => throw .encoding
  | some text =>
    ((ofTextBy read (String.ofList (lineFeeds text.toList))).mapError (named path)).mapError .config

end Settings

end SpriteVM
