import SpriteVM.Command.Run

namespace SpriteVM.Main

open Command

def answer (path : String) : IO (String × Except FileCause (List UInt8)) := do
  try
    let bytes ← IO.FS.readBinFile path
    return (path, .ok bytes.toList)
  catch
    | .noFileOrDirectory .. => return (path, .error .missing)
    | .inappropriateType .. => return (path, .error .notDirectory)
    | _ => return (path, .error .directory)

def readAll (paths : List String) : IO Files := do
  let answers ← (paths ++ paths.map Files.tidy).eraseDups.mapM answer
  return .ofAnswers answers

def usage : String := unlines [
  "Usage: run [OPTIONS] [ROM]",
  "",
  "  -c, --config FILE         YAML configuration file",
  "  --seed N                  seed of the random bytes",
  "  --max-frames N            stop after this many frames",
  "  --cycles-per-frame N      instructions executed per frame",
  "  -k, --key N               hold a key, 0 to 15, from the start",
  "  --trace                   print every executed instruction",
  "  --show-display            print the picture when the run ends",
  "  -v, --verbose             log the run, and twice, every instruction",
  "  --help                    print this"]

/-- A number that differs from run to run. -/
def entropy : IO Int := do
  let bytes ← IO.getRandomBytes 8
  return bytes.toList.foldl (fun n b => n * 256 + b.toNat) 0

def report (outcome : Outcome) : IO UInt32 := do
  match outcome with
  | .exit _ out err =>
    IO.print out
    IO.eprint err
  | .usage => IO.eprint usage
  | .help => IO.print usage
  | .badEncoding => IO.eprintln "Error: the configuration file is not UTF-8."
  | .crash _ | .unfinished => IO.eprintln "Error: the run broke off."
  return UInt32.ofNat (outcome.status?.getD 1)

/-- More frames than any run takes. -/
def patience : Nat := Nat.pow 2 60

def start (args : List String) : IO UInt32 := do
  let named := pathsIn args
  let fs ← readAll named
  let fs ← readAll (named ++ (pathConfigured fs args).toList)
  report (Command.run fs (← entropy) patience args)

end SpriteVM.Main

def main (args : List String) : IO UInt32 := SpriteVM.Main.start args
