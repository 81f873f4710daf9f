import SpriteVM.Yaml.Node
import SpriteVM.Yaml.Scalar

/-!
The value of a document. In a mapping the last of several equal keys counts, and a collection cannot
be a key. An equals sign is a key but not a value, and two angle brackets, which would merge a
mapping into another, are neither.
-/

namespace SpriteVM.Yaml

namespace Node

def scalarValue (text : String) : Except ConfigFault Value :=
  if text = "=" || text = "<<" then .error (.malformed none) else plainValue text

def keyValue : Node → Except ConfigFault Value
  | scalar "=" true => .ok (.text "=")
  | scalar text true => scalarValue text
  | scalar text false => .ok (.text text)
  | _ => .error (.malformed none)

mutual

def value : Node → Except ConfigFault Value
  | scalar text isPlain => if isPlain then scalarValue text else .ok (.text text)
  | sequence items => (values items).map .list
  | mapping entries => (entryValues entries []).map .map

def values : List Node → Except ConfigFault (List Value)
  | [] => .ok []
  | item :: rest => do
    let v ← item.value
    let vs ← values rest
    return v :: vs

def entryValues : List (Node × Node) → List (Value × Value) →
    Except ConfigFault (List (Value × Value))
  | [], done => .ok done
  | (key, item) :: rest, done => do
    let k ← key.keyValue
    let v ← item.value
    entryValues rest (Value.insert k v done)

end

end Node

/-- The value a text stands for; an empty one is null. -/
def read (text : String) : Except ConfigFault Value :=
  match (Token.ofText? text).bind Node.ofTokens? with
  | none => .error (.malformed none)
  | some none => .ok .null
  | some (some node) => node.value

end SpriteVM.Yaml
