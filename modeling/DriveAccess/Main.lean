import DriveAccess.Sql.Transcript
import DriveAccess.Tool
/-!
The program. Its server is a transcript: the replies are read from standard input, and what would
be sent is written to standard error.
-/
namespace DriveAccess.Console

def settingNames : List String :=
  ["COFFER_DATABASE_URL", "COFFER_DATABASE_MAX_CONNECTIONS", "COFFER_RESOLVER_MAX_DEPTH",
    "COFFER_LOG_LEVEL", "COFFER_LOG_FORMAT"]

def readEnvironment : IO (List (String × String)) :=
  settingNames.filterMapM fun name => return (← IO.getEnv name).map (name, ·)

def readSource (path : String) : IO Settings.Source := do
  try
    return .file (← IO.FS.readBinFile path)
  catch _ =>
    return .missingFile

partial def readLines (input : IO.FS.Stream) (lines : List String) : IO (List String) := do
  let line ← input.getLine
  if line.isEmpty then
    return lines.reverse
  else
    readLines input ((line.dropEndWhile (· == '\n')).toString :: lines)

/-- An identifier of random bits, marked as such in the places that say so. -/
def drawUuid : IO Uuid := do
  let bytes ← IO.getRandomBytes 16
  let n := bytes.toList.foldl (fun n b => 256 * n + b.toNat) 0
  let random := n &&& 0xffffffffffff0fff3fffffffffffffff
  return .ofNat (random ||| 0x00000000000040008000000000000000)

/-- What the run finds around it. Only a run with a task reads settings and replies. No task
records a time. -/
def readSurroundings (args : List String) : IO Surroundings := do
  let environment ← readEnvironment
  match CommandLine.parse args with
  | .error _ =>
    return ⟨(environment.lookup ·), fun _ => .missingFile, fun _ => none, ⟨.ofNat 0, 0⟩⟩
  | .ok invocation =>
    let source ← (invocation.config.mapM readSource)
    let lines ← readLines (← IO.getStdin) []
    return ⟨(environment.lookup ·), fun _ => source.getD .missingFile,
      fun _ => Transcript.exchange? lines, ⟨← drawUuid, 0⟩⟩

def report (r : Report) : IO Unit := do
  IO.print r.printed
  for sent in (r.exchange.map (·.sent)).getD [] do
    IO.eprintln (Transcript.lineOf sent)
  for complaint in r.complaint do
    IO.eprintln s!"Error: {complaint}"

end DriveAccess.Console

def main (args : List String) : IO UInt32 := do
  let surroundings ← DriveAccess.Console.readSurroundings args
  let r := DriveAccess.runTool surroundings args
  DriveAccess.Console.report r
  return UInt32.ofNat r.status
