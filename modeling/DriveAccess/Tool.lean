import DriveAccess.Access.Execution
import DriveAccess.CommandLine
import DriveAccess.Settings
import DriveAccess.Sql.Factory
/-!
One run of the program, from its arguments to its exit status.
-/
namespace DriveAccess

/-- What a run finds around it. -/
structure Surroundings where
  environment : String → Option String
  file : String → Settings.Source
  /-- The exchange with the server at a URL, if the server can be reached. -/
  server : String → Option Exchange
  stamp : Stamp

structure Report where
  /-- Zero is success, two a misuse of the command line, and one any other failure. -/
  status : Nat
  output : List String := []
  complaint : Option String := none
  exchange : Option Exchange := none

namespace Report

/-- The text that is printed. What stands in one output may itself be several lines. -/
def printed (r : Report) : String := String.join (r.output.map (· ++ "\n"))

def failure (message : String) (exchange : Option Exchange) : Report where
  status := 1
  complaint := some message
  exchange := exchange

def ofUsage (e : UsageError) : Report :=
  match e with
  | .displayVersion => { status := 0, output := ["coffer 0.1.0"] }
  | .displayHelp => { status := 0, complaint := some e.name }
  | e => { status := 2, complaint := some e.name }

/-- The outcome of a conversation; the lines are for its success. -/
def ofConversation (c : Conversation Unit) (lines : List String) (x : Exchange) : Report :=
  match c.run Exchange.answer x with
  | (.ok (), x) => { status := 0, output := lines, exchange := some x }
  | (.error e, x) => failure e.message (some x)

def ofViolations (tenant : Uuid) (x : Exchange) : List Violation → Report
  | [] =>
    { status := 0, output := [s!"Folder hierarchy of tenant {tenant} is consistent"]
      exchange := some x }
  | vs =>
    { status := 1
      output := s!"Found {vs.length} closure violation(s) in tenant {tenant}:" ::
        vs.map fun v => "  " ++ v.message
      exchange := some x }

end Report

namespace Task

/-- Enters a new tenant, under an identifier just drawn, in a register that exists. -/
def provision (f : Factory) (tenant : Uuid) (name : String) : Conversation Unit := do
  createRegister
  let _ ← f.provision tenant name

def run (settings : Settings) (stamp : Stamp) (x : Exchange) : Task → Report
  | migrate => .ofConversation createRegister [] x
  | provisionTenant name =>
    .ofConversation (provision {} stamp.id name)
      ["Tenant provisioned successfully", s!"  Name:      {name}", s!"  Tenant ID: {stamp.id}"] x
  | verifyHierarchy tenant =>
    let r := ({} : Factory).backend.execute ⟨tenant, settings.maxDepth, stamp⟩
      Program.verifyHierarchy x
    match r.outcome with
    | .ok vs => .ofViolations tenant r.shared vs
    | .error e => .failure e.message (some r.shared)

end Task

def runTool (s : Surroundings) (args : List String) : Report :=
  match CommandLine.parse args with
  | .error e => .ofUsage e
  | .ok invocation =>
    let source := (invocation.config.map s.file).getD .builtIn
    match Settings.load source s.environment with
    | .error e => .failure e.message none
    | .ok settings =>
      match s.server settings.databaseUrl with
      | none => .failure "the database server cannot be reached" none
      | some x => invocation.task.run settings s.stamp x

end DriveAccess
