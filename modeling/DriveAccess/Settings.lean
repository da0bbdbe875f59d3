import DriveAccess.Resolver
import DriveAccess.Toml.Document
/-!
Settings: built-in ones, over which a file and then the environment may set others.
-/
namespace DriveAccess

inductive LogFormat
  | json | pretty
deriving DecidableEq

def LogFormat.name : LogFormat → String
  | json => "json"
  | pretty => "pretty"

def LogFormat.ofName? : String → Option LogFormat
  | "json" => some json
  | "pretty" => some pretty
  | _ => none

structure Settings where
  databaseUrl : String := "postgresql://localhost:5432/coffer"
  maxConnections : Nat := 10
  maxDepth : Nat := Resolver.defaultMaxDepth
  logFormat : LogFormat := .json
  logLevel : String := "info"
deriving DecidableEq

/-- A setting that makes the settings as a whole unusable. -/
inductive InvalidSetting
  | zeroMaxDepth
  | zeroMaxConnections
  | emptyDatabaseUrl
deriving DecidableEq

inductive SettingsError
  | unreadable
  | malformed
  | invalid (setting : InvalidSetting)
deriving DecidableEq

def InvalidSetting.describe : InvalidSetting → String
  | zeroMaxDepth => "resolver.max_depth must be non-zero"
  | zeroMaxConnections => "database.max_connections must be non-zero"
  | emptyDatabaseUrl => "database.url must be set"

def SettingsError.name : SettingsError → String
  | unreadable => "ReadFile"
  | malformed => "ParseToml"
  | invalid _ => "Validation"

def SettingsError.message : SettingsError → String
  | unreadable => "failed to read config file"
  | malformed => "failed to parse TOML config"
  | invalid setting => s!"config validation failed: {setting.describe}"

namespace Settings

/-- The settings of a section by name. A section may also be an array of them, in the order of
`names`, and a date holds none of them. -/
def fieldsOf (names : List String) : Toml.Value → Option Toml.Entries
  | .table _ entries => some entries
  | .array _ items => some (names.zip items)
  | .moment _ => some []
  | _ => none

def text : Toml.Value → Option String
  | .text s => some s
  | _ => none

def natural (bound : Nat) : Toml.Value → Option Nat
  | .integer n => if 0 ≤ n ∧ n < bound then some n.toNat else none
  | _ => none

def isVoid : Toml.Value → Bool
  | .table _ entries => entries.isEmpty
  | .array _ items => items.isEmpty
  | _ => false

/-- A format is named by a text, or by the only key of a table without content. -/
def format : Toml.Value → Option LogFormat
  | .text s => LogFormat.ofName? s
  | .table _ [(key, v)] => if isVoid v then LogFormat.ofName? key else none
  | _ => none

/-- What a field says, or what holds without it. A field of the wrong type is refused. -/
def fieldOr {α : Type} (entries : Toml.Entries) (name : String) (read : Toml.Value → Option α)
    (default : α) : Option α :=
  match entries.lookup name with
  | none => some default
  | some v => read v

def section? (document : Toml.Entries) (name : String) (names : List String) :
    Option Toml.Entries :=
  fieldOr document name (fieldsOf names) []

/-- Connections are counted in 32 bits. -/
def connectionBound : Nat := 4294967296

/-- Hops are counted in 64 bits. -/
def hopBound : Nat := 18446744073709551616

/-- Settings by unknown names are passed over. -/
def ofDocument (document : Toml.Entries) : Option Settings := do
  let standard : Settings := {}
  let database ← section? document "database" ["url", "max_connections"]
  let resolver ← section? document "resolver" ["max_depth"]
  let log ← section? document "log" ["format", "level"]
  let databaseUrl ← fieldOr database "url" text standard.databaseUrl
  let maxConnections ←
    fieldOr database "max_connections" (natural connectionBound) standard.maxConnections
  let maxDepth ← fieldOr resolver "max_depth" (natural hopBound) standard.maxDepth
  let logFormat ← fieldOr log "format" format standard.logFormat
  let logLevel ← fieldOr log "level" text standard.logLevel
  return { databaseUrl, maxConnections, maxDepth, logFormat, logLevel }

def ofFile (bytes : ByteArray) : Except SettingsError Settings :=
  match String.fromUTF8? bytes with
  | none => .error .unreadable
  | some text =>
    match (Toml.parse text).bind ofDocument with
    | none => .error .malformed
    | some settings => .ok settings

/-- A number below a bound in decimal digits, which a plus sign may precede. -/
def parseNatural? (bound : Nat) (word : String) : Option Nat :=
  let digits := match word.toList with
    | '+' :: rest => rest
    | cs => cs
  if digits.isEmpty then none else (number? 10 digits).filter (· < bound)

/-- The environment's word is final where it can be understood. -/
def override (environment : String → Option String) (s : Settings) : Settings where
  databaseUrl := (environment "COFFER_DATABASE_URL").getD s.databaseUrl
  maxConnections :=
    ((environment "COFFER_DATABASE_MAX_CONNECTIONS").bind (parseNatural? connectionBound)).getD
      s.maxConnections
  maxDepth :=
    ((environment "COFFER_RESOLVER_MAX_DEPTH").bind (parseNatural? hopBound)).getD s.maxDepth
  logFormat := ((environment "COFFER_LOG_FORMAT").bind LogFormat.ofName?).getD s.logFormat
  logLevel := (environment "COFFER_LOG_LEVEL").getD s.logLevel

def validate (s : Settings) : Except SettingsError Settings :=
  if s.maxDepth = 0 then .error (.invalid .zeroMaxDepth)
  else if s.maxConnections = 0 then .error (.invalid .zeroMaxConnections)
  else if s.databaseUrl.isEmpty then .error (.invalid .emptyDatabaseUrl)
  else .ok s

/-- A file of settings, as far as one was asked for. -/
inductive Source
  | builtIn
  | missingFile
  | file (bytes : ByteArray)

def ofSource : Source → Except SettingsError Settings
  | .builtIn => .ok {}
  | .missingFile => .error .unreadable
  | .file bytes => ofFile bytes

def load (source : Source) (environment : String → Option String) :
    Except SettingsError Settings := do
  validate ((← ofSource source).override environment)

end Settings

end DriveAccess
