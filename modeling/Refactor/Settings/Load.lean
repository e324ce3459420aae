import Refactor.Settings.Basic
import Refactor.Settings.Variables
import Refactor.Toml.Reader

/-!
# Loading settings

Settings come in three layers: the defaults, the configuration file of the
project, and environment variables. A later layer is laid over an earlier one
(`Json.overlay`), and only the whole is decoded and checked.

No layer can say that something is absent, so in a layer null stands for a number
that has no JSON form. A section may be given as a list of its settings; items
after the last setting are passed over.
-/

namespace Refactor.Settings

open Json (Decoder Record)

/-- A format in a layer, which is always given by its name. -/
def layeredFormat : Decoder LogFormat
  | .str name => LogFormat.ofName name
  | v => .error (.invalidType v.shape "string or map")

/-- Decodes the settings that layers together give. -/
def decodeLayers : Decoder Settings :=
  (record
    ((ServerSettings.record (.defaulted "format_options" (fun v => .ok (some v)) none)).decodeLoosely
      "TsServerConfig")
    (ReadinessSettings.record.decodeLoosely "ReadinessConfig")
    (DiscoverySettings.record.decodeLoosely "DiscoveryConfig")
    ((LogSettings.record layeredFormat).decodeLoosely "LoggingConfig")).decodeLoosely "AppConfig"

/-- Why settings could not be loaded. -/
inductive LoadError where
  /-- The configuration file cannot be read. -/
  | malformed
  /-- The layers together are no settings. -/
  | undecodable (cause : Json.DecodeError)
  /-- The settings cannot work. -/
  | unworkable (failure : Failure)
  /-- A variable has a quoted text that cannot be cut; loading breaks off. -/
  | brokenOff

/-- The settings that a configuration file, if there is one, and variables give. -/
def load (file : Option Text) (vars : List (String × String)) : Except LoadError Settings :=
  match Variables.layer vars, file.elim (some (.obj [])) Toml.parse? with
  | none, _ => .error .brokenOff
  | some _, none => .error .malformed
  | some top, some fileLayer =>
    match decodeLayers ((Settings.default.toJson.overlay fileLayer).overlay top) with
    | .error e => .error (.undecodable e)
    | .ok s =>
      match s.validate with
      | .error e => .error (.unworkable e)
      | .ok () => .ok s

end Refactor.Settings
