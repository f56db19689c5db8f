import DependencyFiles.Decode.Record
import DependencyFiles.Text.Utf8
import DependencyFiles.Toml.Reader

/-!
# Settings of a collector

Settings are written in TOML, every one of them optional. Unknown settings and values of
the wrong kind are refused; of several faults the first in the document is reported.
-/

namespace DependencyFiles

/-- What a collector does where its caller leaves the choice. -/
structure Settings where
  /-- The id of the ecosystem. -/
  ecosystem : String := "bundler"
  /-- The reference taken when a source names none. -/
  defaultRef : String := "HEAD"
  /-- Whether a lock file must exist. -/
  requireLockfile : Bool := false
  followSubmodules : Bool := true
  /-- How many levels below a package's directory its specification is searched for. -/
  maxSearchDepth : Nat := 4
  deriving DecidableEq, Repr

/-- Why settings cannot be had. -/
inductive SettingsError where
  | unreadable
  | malformed
  | misshapen (error : ShapeError)
  deriving DecidableEq, Repr

namespace Settings

/-- The names of all settings, in order. -/
def fieldNames : List String :=
  ["ecosystem", "default_ref", "require_lockfile", "follow_submodules", "max_search_depth"]

/-- Take one setting from its shape. -/
def read (field : String) (value : Shape) (settings : Settings) : Except ShapeError Settings :=
  match field with
  | "ecosystem" => do return { settings with ecosystem := ← value.asText }
  | "default_ref" => do return { settings with defaultRef := ← value.asText }
  | "require_lockfile" => do return { settings with requireLockfile := ← value.asTruth }
  | "follow_submodules" => do return { settings with followSubmodules := ← value.asTruth }
  | "max_search_depth" => do return { settings with maxSearchDepth := ← value.asCount }
  | unknown => .error (.unknownField unknown fieldNames)

/-- The settings in a TOML text. -/
def parse (text : String) : Except SettingsError Settings :=
  match (Toml.read? text).bind (·.entries?) with
  | none => .error .malformed
  | some entries =>
    match entries.foldlM (fun settings (field, value) => read field (.ofToml value) settings) {} with
    | .ok settings => .ok settings
    | .error error => .error (.misshapen error)

/-- The settings in a file, which may be missing. -/
def load (content : Option Bytes) : Except SettingsError Settings :=
  match content.bind Text.decode? with
  | none => .error .unreadable
  | some text => parse text

/-- The JSON form of settings. -/
def format : RecordFormat Settings Settings where
  name := "FetchConfig"
  fields := fieldNames
  start := {}
  read field value settings := Settings.read field (.ofJson value) settings
  finish _ settings := .ok settings

/-- Settings as JSON. -/
def toJson (settings : Settings) : Json :=
  .object [("default_ref", .string settings.defaultRef), ("ecosystem", .string settings.ecosystem),
    ("follow_submodules", .bool settings.followSubmodules),
    ("max_search_depth", .integer settings.maxSearchDepth),
    ("require_lockfile", .bool settings.requireLockfile)]

/-- A one-line account of settings. -/
def describe (settings : Settings) : String :=
  "FetchConfig \x7b ecosystem: " ++ Text.quote settings.ecosystem ++
    ", default_ref: " ++ Text.quote settings.defaultRef ++
    ", require_lockfile: " ++ toString settings.requireLockfile ++
    ", follow_submodules: " ++ toString settings.followSubmodules ++
    ", max_search_depth: " ++ toString settings.maxSearchDepth ++ " \x7d"

end Settings

end DependencyFiles
