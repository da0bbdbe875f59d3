import DriveAccess.Uuid
/-!
The arguments of the program: a task, what it needs to know, and a file of settings.
-/
namespace DriveAccess

/-- What the program is asked to do. -/
inductive Task
  | migrate
  | provisionTenant (name : String)
  | verifyHierarchy (tenant : Uuid)
deriving DecidableEq

structure Invocation where
  task : Task
  config : Option String
deriving DecidableEq

/-- Why arguments do not amount to an invocation; a wish for help is one reason. -/
inductive UsageError
  | unknownArgument
  | invalidSubcommand
  | argumentConflict
  | invalidValue
  | valueValidation
  | tooManyValues
  | missingRequiredArgument
  | missingSubcommand
  | displayHelp
  | displayHelpOnMissing
  | displayVersion
deriving DecidableEq

def UsageError.name : UsageError → String
  | unknownArgument => "UnknownArgument"
  | invalidSubcommand => "InvalidSubcommand"
  | argumentConflict => "ArgumentConflict"
  | invalidValue => "InvalidValue"
  | valueValidation => "ValueValidation"
  | tooManyValues => "TooManyValues"
  | missingRequiredArgument => "MissingRequiredArgument"
  | missingSubcommand => "MissingSubcommand"
  | displayHelp => "DisplayHelp"
  | displayHelpOnMissing => "DisplayHelpOnMissingArgumentOrSubcommand"
  | displayVersion => "DisplayVersion"

namespace CommandLine

inductive Verb
  | migrate | provisionTenant | verifyHierarchy
deriving DecidableEq

def Verb.ofName? : String → Option Verb
  | "migrate" => some migrate
  | "provision-tenant" => some provisionTenant
  | "verify-hierarchy" => some verifyHierarchy
  | _ => none

/-- Arguments before the verb stand on no verb, those behind it on that one. -/
abbrev Level := Option Verb

inductive Flag
  | config | name | tenant
deriving DecidableEq

def Level.flag? (level : Level) : String → Option Flag
  | "config" => some .config
  | "name" => if level = some .provisionTenant then some .name else none
  | "tenant" => if level = some .verifyHierarchy then some .tenant else none
  | _ => none

/-- The flags whose values have been accepted on one level. -/
structure Given where
  config : Option String := none
  name : Option String := none
  tenant : Option Uuid := none
deriving DecidableEq

def Given.has (g : Given) : Flag → Bool
  | .config => g.config.isSome
  | .name => g.name.isSome
  | .tenant => g.tenant.isSome

/-- A path must not be empty and a tenant must be a UUID. -/
def Given.put (g : Given) (flag : Flag) (value : String) : Except UsageError Given :=
  match flag with
  | .config => if value.isEmpty then .error .invalidValue else .ok { g with config := some value }
  | .name => .ok { g with name := some value }
  | .tenant =>
    match Uuid.parse? value with
    | some u => .ok { g with tenant := some u }
    | none => .error .valueValidation

/-- A flag just read is kept aside with its value, or without one while it waits for it. -/
structure Progress where
  given : Given := {}
  aside : Option (Flag × Option String) := none

namespace Progress

def awaits (p : Progress) : Option Flag :=
  match p.aside with
  | some (flag, none) => some flag
  | _ => none

/-- Accepts the flag kept aside. It must have a value, be given once, and its value be good. -/
def settle (p : Progress) : Except UsageError Progress :=
  match p.aside with
  | none => .ok p
  | some (_, none) => .error .invalidValue
  | some (flag, some value) =>
    if p.given.has flag then .error .argumentConflict
    else do
      return ⟨← p.given.put flag value, none⟩

/-- Takes up a flag. A value attached to it is accepted at once. -/
def take (p : Progress) (flag : Flag) (attached : Option String) : Except UsageError Progress := do
  let p ← p.settle
  let p := { p with aside := some (flag, attached) }
  if attached.isSome then p.settle else return p

/-- Fails with a wish for help or for the version, unless the flag kept aside is at fault. -/
def leave (p : Progress) (wish : UsageError) : Except UsageError Progress := do
  let _ ← p.settle
  .error wish

end Progress

/-- The name of a long flag, and the value behind an equals sign. -/
def splitLong (body : List Char) : String × Option String :=
  match body.span (· != '=') with
  | (name, []) => (String.ofList name, none)
  | (name, _ :: value) => (String.ofList name, some (String.ofList value))

def readLong (level : Level) (p : Progress) (body : List Char) : Except UsageError Progress :=
  let (name, value) := splitLong body
  match level.flag? name with
  | some flag => p.take flag value
  | none =>
    let wish : Option UsageError :=
      if name = "help" then some .displayHelp
      else if name = "version" ∧ level = none then some .displayVersion
      else none
    match wish, value with
    | none, _ => .error .unknownArgument
    | some _, some _ => .error .tooManyValues
    | some wish, none => p.leave wish

/-- The value attached to a short flag, with an equals sign or without. -/
def attachedValue : List Char → Option String
  | [] => none
  | '=' :: value => some (String.ofList value)
  | value => some (String.ofList value)

def readShort (level : Level) (p : Progress) (flag : Char) (rest : List Char) :
    Except UsageError Progress :=
  match flag with
  | 'c' => p.take .config (attachedValue rest)
  | 'h' => p.leave .displayHelp
  | 'V' => if level = none then p.leave .displayVersion else .error .unknownArgument
  | _ => .error .unknownArgument

/-- What is wrong with an argument that is neither a flag nor the value of one. -/
def strayError (level : Level) (afterDashes : Bool) (arg : String) : UsageError :=
  if level ≠ none then .unknownArgument
  else if afterDashes ∧ ((Verb.ofName? arg).isSome ∨ arg = "help") then .unknownArgument
  else .invalidSubcommand

/-- One argument that is no verb. -/
def readArgument (level : Level) (p : Progress) (arg : String) : Except UsageError Progress :=
  match arg.toList, p.awaits with
  | '-' :: '-' :: body, _ => readLong level p body
  | '-' :: c :: rest, _ => readShort level p c rest
  | _, some flag => .ok { p with aside := some (flag, some arg) }
  | _, none => .error (strayError level false arg)

/-- Help is there for the verbs, and for itself. -/
def helpFor : List String → UsageError
  | [] => .displayHelp
  | [topic] =>
    if (Verb.ofName? topic).isSome ∨ topic = "help" then .displayHelp else .invalidSubcommand
  | _ => .invalidSubcommand

/-- Reads the arguments of a level, up to a verb if the level has verbs. -/
def scan (level : Level) : Progress → List String →
    Except UsageError (Progress × Option (Verb × List String))
  | p, [] => .ok (p, none)
  | p, arg :: rest =>
    let verb := if level = none ∧ p.awaits = none then Verb.ofName? arg else none
    match verb with
    | some verb => .ok (p, some (verb, rest))
    | none =>
      if level = none ∧ p.awaits = none ∧ arg = "help" then .error (helpFor rest)
      else if arg = "--" then
        match rest with
        | [] => .ok (p, none)
        | stray :: _ => .error (strayError level true stray)
      else do
        scan level (← readArgument level p arg) rest

/-- The task of a verb whose flags have been read. -/
def task (g : Given) : Verb → Except UsageError Task
  | .migrate => .ok .migrate
  | .provisionTenant =>
    match g.name with
    | some name => .ok (.provisionTenant name)
    | none => .error .missingRequiredArgument
  | .verifyHierarchy =>
    match g.tenant with
    | some tenant => .ok (.verifyHierarchy tenant)
    | none => .error .missingRequiredArgument

/-- Reads all arguments. What stands behind the verb is judged before a flag kept aside in front
of it; a file named behind the verb is preferred. -/
def parse (args : List String) : Except UsageError Invocation := do
  let (p, found) ← scan none {} args
  match found with
  | none =>
    let p ← p.settle
    if p.given = {} then .error .displayHelpOnMissing else .error .missingSubcommand
  | some (verb, rest) =>
    let (q, _) ← scan (some verb) {} rest
    let q ← q.settle
    let task ← task q.given verb
    let p ← p.settle
    return ⟨task, q.given.config <|> p.given.config⟩

end CommandLine

end DriveAccess
