import SpriteVM.Fault

namespace SpriteVM

structure Files where
  content : String → Except FileCause (List UInt8)

namespace Files

def read (fs : Files) (path : String) : Except Fault (List UInt8) :=
  (fs.content path).mapError (.file · path)

def has (fs : Files) (path : String) : Bool :=
  match fs.content path with
  | .ok _ => true
  | .error _ => false

/-- What stands before, between and behind the slashes. -/
def between : List Char → List (List Char)
  | [] => [[]]
  | c :: rest =>
    match between rest with
    | [] => [[c]]
    | part :: later => if c = '/' then [] :: part :: later else (c :: part) :: later

def parts (path : String) : List String := (between path.toList).map String.ofList

def stays (part : String) : Bool := part = "" || part = "."

/-- A path without the parts that lead nowhere. -/
def tidy (path : String) : String :=
  let inner := "/".intercalate ((parts path).filter (!stays ·))
  if path.startsWith "/" then "/" ++ inner else if inner.isEmpty then "." else inner

/-- Answers known in advance; any other path is missing. -/
def ofAnswers (answers : List (String × Except FileCause (List UInt8))) : Files :=
  ⟨fun path => (answers.lookup path).getD (.error .missing)⟩

end Files

/-- Files by the directories they lie in and their own name. -/
structure FileTree where
  entries : List (List String × List UInt8)
  deriving DecidableEq, Repr

namespace FileTree

def ofList (files : List (String × List UInt8)) : FileTree :=
  ⟨files.map fun (name, bytes) => ((Files.parts name).filter (!Files.stays ·), bytes)⟩

def file? (t : FileTree) (place : List String) : Option (List UInt8) := t.entries.lookup place

def isDirectory (t : FileTree) (place : List String) : Bool :=
  t.entries.any fun e => place.isPrefixOf e.1 && place ≠ e.1

def follow (t : FileTree) : List String → List String → Except FileCause (List UInt8)
  | [], _ => .error .directory
  | part :: rest, place =>
    if Files.stays part then follow t rest place
    else if part = ".." then
      if place.isEmpty then .error .missing else follow t rest place.dropLast
    else match t.file? (place ++ [part]) with
      | some bytes => if rest.isEmpty then .ok bytes else .error .notDirectory
      | none =>
        if t.isDirectory (place ++ [part]) then follow t rest (place ++ [part])
        else .error (if 255 < part.utf8ByteSize then .longName else .missing)

/-- What the file at a path holds; a path from the root leads out of the tree. -/
def content (t : FileTree) (path : String) : Except FileCause (List UInt8) :=
  if path.toList.contains '\x00' then .error .zeroByte
  else if path.isEmpty || path.startsWith "/" then .error .missing
  else t.follow (Files.parts path) []

def files (t : FileTree) : Files := ⟨t.content⟩

end FileTree

end SpriteVM
