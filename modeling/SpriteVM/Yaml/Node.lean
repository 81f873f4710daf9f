import SpriteVM.Yaml.Token

namespace SpriteVM.Yaml

inductive Node
  | scalar (text : String) (isPlain : Bool)
  | sequence (items : List Node)
  | mapping (entries : List (Node × Node))
  deriving Inhabited, Repr

namespace Node

def empty : Node := scalar "" true

/-- Tokens before which a node of a block mapping is left out. -/
def endsBlock : List Token → Bool
  | .key :: _ | .value :: _ | .blockEnd :: _ => true
  | _ => false

/-- Tokens before which a node of a flow collection is left out. -/
def endsFlow (close : Token) : List Token → Bool
  | t :: _ => t = .comma || t = close
  | [] => false

def isValue : List Token → Bool
  | .value :: _ => true
  | _ => false

mutual

/-- A node. A sequence in a mapping need not be indented further than its key; in brackets there are
no block collections. The number bounds the depth of the calls. -/
def parse (block indentless : Bool) : Nat → List Token → Option (Node × List Token)
  | 0, _ => none
  | n + 1, ts =>
    match ts with
    | .scalar text isPlain :: rest => some (scalar text isPlain, rest)
    | .flowSequence :: rest => (flowItems true n rest).map fun (items, ts) => (sequence items, ts)
    | .flowMapping :: rest => (flowEntries true n rest).map fun (es, ts) => (mapping es, ts)
    | .blockSequence :: rest =>
      if block then (blockItems n rest).map fun (items, ts) => (sequence items, ts) else none
    | .blockMapping :: rest =>
      if block then (blockEntries n rest).map fun (es, ts) => (mapping es, ts) else none
    | .entry :: _ =>
      if indentless then (indentlessItems n ts).map fun (items, ts) => (sequence items, ts)
      else none
    | _ => none

/-- The entries of a sequence of its own indentation. -/
def blockItems : Nat → List Token → Option (List Node × List Token)
  | 0, _ => none
  | n + 1, ts =>
    match ts with
    | .blockEnd :: rest => some ([], rest)
    | .entry :: rest => do
      let (item, ts) ← match rest with
        | .entry :: _ | .blockEnd :: _ => some (empty, rest)
        | _ => parse true false n rest
      let (items, ts) ← blockItems n ts
      return (item :: items, ts)
    | _ => none

/-- The entries of a sequence indented like the mapping around it. -/
def indentlessItems : Nat → List Token → Option (List Node × List Token)
  | 0, _ => none
  | n + 1, ts =>
    match ts with
    | .entry :: rest => do
      let (item, ts) ← match rest with
        | .entry :: _ => some (empty, rest)
        | _ => if endsBlock rest then some (empty, rest) else parse true false n rest
      let (items, ts) ← indentlessItems n ts
      return (item :: items, ts)
    | _ => some ([], ts)

def blockEntries : Nat → List Token → Option (List (Node × Node) × List Token)
  | 0, _ => none
  | n + 1, ts =>
    match ts with
    | .blockEnd :: rest => some ([], rest)
    | .key :: rest => do
      let (key, ts) ← if endsBlock rest then some (empty, rest) else parse true true n rest
      let (value, ts) ← blockValue n ts
      let (entries, ts) ← blockEntries n ts
      return ((key, value) :: entries, ts)
    | _ => none

def blockValue : Nat → List Token → Option (Node × List Token)
  | 0, _ => none
  | n + 1, ts =>
    match ts with
    | .value :: rest => if endsBlock rest then some (empty, rest) else parse true true n rest
    | _ => some (empty, ts)

/-- The entries up to the closing square bracket. An entry with a colon is a mapping of its own. -/
def flowItems (first : Bool) : Nat → List Token → Option (List Node × List Token)
  | 0, _ => none
  | n + 1, ts => do
    if let .flowSequenceEnd :: rest := ts then return ([], rest)
    let ts ← if first then some ts else match ts with
      | .comma :: rest => some rest
      | _ => none
    match ts with
    | .flowSequenceEnd :: rest => return ([], rest)
    | .key :: rest =>
      let (key, ts) ← if isValue rest || endsFlow .flowSequenceEnd rest then some (empty, rest)
        else parse false false n rest
      let (value, ts) ← flowValue .flowSequenceEnd n ts
      let (items, ts) ← flowItems false n ts
      return (mapping [(key, value)] :: items, ts)
    | _ =>
      let (item, ts) ← parse false false n ts
      let (items, ts) ← flowItems false n ts
      return (item :: items, ts)

/-- The entries up to the closing curly bracket. An entry without a colon has no value. -/
def flowEntries (first : Bool) : Nat → List Token → Option (List (Node × Node) × List Token)
  | 0, _ => none
  | n + 1, ts => do
    if let .flowMappingEnd :: rest := ts then return ([], rest)
    let ts ← if first then some ts else match ts with
      | .comma :: rest => some rest
      | _ => none
    match ts with
    | .flowMappingEnd :: rest => return ([], rest)
    | .key :: rest =>
      let (key, ts) ← if isValue rest || endsFlow .flowMappingEnd rest then some (empty, rest)
        else parse false false n rest
      let (value, ts) ← flowValue .flowMappingEnd n ts
      let (entries, ts) ← flowEntries false n ts
      return ((key, value) :: entries, ts)
    | _ =>
      let (key, ts) ← parse false false n ts
      let (entries, ts) ← flowEntries false n ts
      return ((key, empty) :: entries, ts)

def flowValue (close : Token) : Nat → List Token → Option (Node × List Token)
  | 0, _ => none
  | n + 1, ts =>
    match ts with
    | .value :: rest => if endsFlow close rest then some (empty, rest) else parse false false n rest
    | _ => some (empty, ts)

end

/-- A whole document's worth of tokens is enough depth for each node in it. -/
def parseAll (ts : List Token) : Option (Node × List Token) :=
  parse true false (2 * ts.length + 2) ts

def nothingAfter (ts : List Token) : Bool := ts.all (· = .documentEnd)

/-- The node of the only document; a text without any has none. -/
def ofTokens? : List Token → Option (Option Node)
  | [] => some none
  | .documentStart :: rest =>
    match rest with
    | [] | .documentEnd :: _ => if nothingAfter rest then some (some empty) else none
    | .documentStart :: _ => none
    | _ => do
      let (node, ts) ← parseAll rest
      if nothingAfter ts then return some node else none
  | ts => do
    let (node, ts) ← parseAll ts
    if nothingAfter ts then return some node else none

end Node

end SpriteVM.Yaml
