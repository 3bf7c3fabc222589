import PriceRelay.Node
import PriceRelay.Setting.Dotenv
/-!
# The command line

Runs the node in real time: reads its files and variables, prints what it says, and goes on until
its input ends. It has no sockets of its own, so every server counts as out of reach.
-/

namespace PriceRelay.Main

/-- The bytes of a file, or why it cannot be read. -/
def readFile (path : String) : IO (Except FileFault (List UInt8)) := do
  try
    let bytes ← IO.FS.readBinFile path
    return .ok bytes.toList
  catch e =>
    match e with
    | .inappropriateType _ code _ =>
      return .error (if code = 21 then .isDirectory else .notDirectory)
    | _ => return .error .missing

/-- Some files, read beforehand. -/
def readFiles (paths : List String) : IO Files := do
  let found ← paths.mapM fun path => do return (path, ← readFile path)
  return fun path => (found.lookup path).getD (.error .missing)

/-- The text of a file; that of a missing one is empty. -/
def readText (path : String) : IO String := do
  match ← readFile path with
  | .ok bytes => return Text.Utf8.decode bytes
  | .error _ => return ""

/-- A variable as the system writes it. -/
def variableOf (entry : List Char) : String × String :=
  (String.ofList (entry.takeWhile (· ≠ '=')), String.ofList ((entry.dropWhile (· ≠ '=')).drop 1))

/-- The variables that are set. -/
def readVariables : IO (List (String × String)) := do
  let text ← readText "/proc/self/environ"
  let entries := (Text.splitOn '\x00' text.toList).filter fun entry => !entry.isEmpty
  return Dotenv.environment (entries.map variableOf) (← readText ".env")

/-- The files that loading may ask for: those at the path, and the extra list they name. -/
def readSettings (path : String) (environment : List (String × String)) : IO Files := do
  let files ← readFiles (settingsPaths path)
  let config := (files.settings? path).bind fun file => (file.layered environment).config?
  match config.bind Config.extraPath with
  | none => return files
  | some list =>
    let bytes ← readFile list
    return fun p => if p = list then bytes else files p

/-- What is said of a text that is no list of extra endpoints. -/
def unread : Wording := fun _ => "not a list of endpoints by chain"

/-- Say something. -/
def say (notices : List Notice) : IO Unit := do
  let out ← IO.getStdout
  for notice in notices do
    out.putStrLn notice.line
  out.flush

/-- Wait until the input ends. -/
partial def awaitEnd (input : IO.FS.Stream) : IO Unit := do
  let line ← input.getLine
  if line.isEmpty then return () else awaitEnd input

/-- Sleep for so long, but not beyond the end of the input. -/
partial def rest (ended : IO Bool) (time : Duration) : IO Unit := do
  if time = 0 || (← ended) then return ()
  let slice := min time (.ofMillis 100)
  IO.sleep slice.inMillis.toUInt32
  rest ended (time - slice)

/-- Let the loops run in real time until the input ends, and print what they log. -/
partial def live {σ : Type} (ended : IO Bool) (t : Timeline σ) : IO (Timeline σ) := do
  if ← ended then return t
  match t.turn? with
  | none =>
    rest ended (.ofMillis 100)
    live ended t
  | some next =>
    rest ended (next.relay.now - t.relay.now)
    if ← ended then return t
    say (next.relay.log.reverse.map .info)
    live ended { next with relay := { next.relay with log := [] } }

/-- Run the node. -/
def run : IO UInt32 := do
  say [Node.greeting]
  let environment ← readVariables
  let path := Config.path environment
  let loaded := Config.load (← readSettings path environment) path environment
  say (Node.extraNotices loaded)
  match loaded.outcome with
  | .error e =>
    (← IO.getStderr).putStrLn ("Error: " ++ e.message unread)
    return 1
  | .ok c =>
    let (line, up) := Node.start Web.unreachable () c
    say (Node.loadedNotice path c :: up)
    let task ← IO.asTask (awaitEnd (← IO.getStdin))
    let line ← live (IO.hasFinished task) line
    let (_, down) := Node.stop .terminate line
    say down
    return 0

end PriceRelay.Main

/-- Runs the node. -/
def main : IO UInt32 := PriceRelay.Main.run
