import Refactor.Failure

/-!
# Settings

What a user can set: how the server is started and spoken to, how long to wait
for it, how far to look for files, and what to log. Every setting has a default.
-/

namespace Refactor

open Json (Decoder Record)

/-- How the server is started and spoken to. -/
structure ServerSettings where
  command : List String
  requestTimeoutMs : UInt64
  preferences : Json
  formatOptions : Option Json

/-- How long to wait for the project to load. -/
structure ReadinessSettings where
  timeoutMs : UInt64
  pollIntervalMs : UInt64
deriving DecidableEq, Repr

/-- How far to look for files that a change may touch. -/
structure DiscoverySettings where
  maxReferenceAttempts : UInt32
  attemptIntervalMs : UInt64
  scanTimeoutMs : UInt64
  skipDirs : List String
  extensions : List String
deriving DecidableEq, Repr

/-- The form of log lines. -/
inductive LogFormat where
  | pretty
  | json
deriving DecidableEq, Repr

/-- What is logged. -/
structure LogSettings where
  level : String
  format : LogFormat
deriving DecidableEq, Repr

/-- All settings. -/
structure Settings where
  server : ServerSettings
  readiness : ReadinessSettings
  discovery : DiscoverySettings
  logging : LogSettings

/-! ## Defaults -/

def ServerSettings.default : ServerSettings where
  command := ["npx", "tsserver"]
  requestTimeoutMs := 30000
  preferences := .ofMembers [("providePrefixAndSuffixTextForRename", .bool true),
    ("allowRenameOfImportPath", .bool true), ("includePackageJsonAutoImports", .str "auto")]
  formatOptions := none

def ReadinessSettings.default : ReadinessSettings where
  timeoutMs := 5000
  pollIntervalMs := 100

def DiscoverySettings.default : DiscoverySettings where
  maxReferenceAttempts := 30
  attemptIntervalMs := 100
  scanTimeoutMs := 5000
  skipDirs := ["node_modules", "dist", "build", "out", "coverage"]
  extensions := ["ts", "tsx", "mts", "cts", "js", "jsx", "mjs", "cjs"]

def LogSettings.default : LogSettings where
  level := "info"
  format := .pretty

def Settings.default : Settings :=
  ⟨.default, .default, .default, .default⟩

/-! ## Decoding -/

/-- The fields of server settings, with a way to read the last one. -/
def ServerSettings.record (formatOptions : Record (Option Json)) : Record ServerSettings :=
  mk <$> .required "command" (Decoder.list .string) <*> .required "request_timeout_ms" .long <*>
    .required "preferences" .any <*> formatOptions

def ServerSettings.decode : Decoder ServerSettings :=
  (record (.optional "format_options" .any)).decode "TsServerConfig"

def ReadinessSettings.record : Record ReadinessSettings :=
  mk <$> .required "timeout_ms" .long <*> .required "poll_interval_ms" .long

def ReadinessSettings.decode : Decoder ReadinessSettings := record.decode "ReadinessConfig"

def DiscoverySettings.record : Record DiscoverySettings :=
  mk <$> .required "max_reference_attempts" .word <*> .required "attempt_interval_ms" .long <*>
    .required "scan_timeout_ms" .long <*> .required "skip_dirs" (Decoder.list .string) <*>
    .required "extensions" (Decoder.list .string)

def DiscoverySettings.decode : Decoder DiscoverySettings := record.decode "DiscoveryConfig"

/-- The format of a name. -/
def LogFormat.ofName (name : String) : Except Json.DecodeError LogFormat :=
  if name = "pretty" then .ok .pretty
  else if name = "json" then .ok .json
  else .error (.unknownVariant name ["pretty", "json"])

/-- A format by its name, or as an object whose one member has the name and is null. -/
def LogFormat.decode : Decoder LogFormat
  | .str name => LogFormat.ofName name
  | .obj [(name, v)] =>
    match LogFormat.ofName name, v with
    | .error e, _ => .error e
    | .ok f, .null => .ok f
    | .ok _, v => .error (.invalidType v.shape "unit")
  | .obj _ => .error (.invalidValue .map "map with a single key")
  | v => .error (.invalidType v.shape "string or map")

/-- The fields of log settings, with a way to read the format. -/
def LogSettings.record (format : Decoder LogFormat) : Record LogSettings :=
  mk <$> .required "level" .string <*> .required "format" format

def LogSettings.decode : Decoder LogSettings := (record LogFormat.decode).decode "LoggingConfig"

/-- The sections of the settings, with a way to read each. -/
def Settings.record (server : Decoder ServerSettings) (readiness : Decoder ReadinessSettings)
    (discovery : Decoder DiscoverySettings) (logging : Decoder LogSettings) : Record Settings :=
  mk <$> .defaulted "tsserver" server .default <*> .defaulted "readiness" readiness .default <*>
    .defaulted "discovery" discovery .default <*> .defaulted "logging" logging .default

def Settings.decode : Decoder Settings :=
  (record ServerSettings.decode ReadinessSettings.decode DiscoverySettings.decode
    LogSettings.decode).decode "AppConfig"

/-! ## Encoding -/

def ServerSettings.toJson (s : ServerSettings) : Json :=
  .ofMembers ([("command", .arr (s.command.map .str)),
    ("request_timeout_ms", .nat s.requestTimeoutMs.toNat), ("preferences", s.preferences)]
    ++ s.formatOptions.toList.map fun v => ("format_options", v))

def ReadinessSettings.toJson (s : ReadinessSettings) : Json :=
  .ofMembers [("timeout_ms", .nat s.timeoutMs.toNat),
    ("poll_interval_ms", .nat s.pollIntervalMs.toNat)]

def DiscoverySettings.toJson (s : DiscoverySettings) : Json :=
  .ofMembers [("max_reference_attempts", .nat s.maxReferenceAttempts.toNat),
    ("attempt_interval_ms", .nat s.attemptIntervalMs.toNat),
    ("scan_timeout_ms", .nat s.scanTimeoutMs.toNat), ("skip_dirs", .arr (s.skipDirs.map .str)),
    ("extensions", .arr (s.extensions.map .str))]

def LogFormat.name : LogFormat → String
  | .pretty => "pretty"
  | .json => "json"

def LogSettings.toJson (s : LogSettings) : Json :=
  .ofMembers [("level", .str s.level), ("format", .str s.format.name)]

def Settings.toJson (s : Settings) : Json :=
  .ofMembers [("tsserver", s.server.toJson), ("readiness", s.readiness.toJson),
    ("discovery", s.discovery.toJson), ("logging", s.logging.toJson)]

/-! ## Settings that cannot work -/

/-- The first reason why the settings cannot work. -/
def Settings.fault? (s : Settings) : Option String :=
  if s.server.command.isEmpty then some "tsserver.command cannot be empty"
  else if s.server.requestTimeoutMs = 0 then
    some "tsserver.request_timeout_ms must be greater than zero"
  else if s.readiness.pollIntervalMs = 0 then
    some "readiness.poll_interval_ms must be greater than zero"
  else if s.discovery.scanTimeoutMs = 0 then
    some "discovery.scan_timeout_ms must be greater than zero"
  else none

/-- Refuses settings that cannot work. -/
def Settings.validate (s : Settings) : Attempt Unit :=
  match s.fault? with
  | some reason => .error (.config reason)
  | none => .ok ()

end Refactor
