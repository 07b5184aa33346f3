import TraceSampling.Binary64.Read
import TraceSampling.Error
import TraceSampling.Settings.Document

/-!
# Where settings come from

A file, or the environment: one variable names a file and another one overrides the global
fraction. What the environment gets wrong is passed over.
-/

namespace TraceSampling

/-- What stands at a path. -/
inductive File where
  | missing
  | directory
  | content (bytes : ByteArray)

/-- The variable that names a settings file. -/
def settingsVariable : String := "OTEL_ADAPTIVE_SAMPLER_CONFIG"

/-- The variable that overrides the global fraction. -/
def fractionVariable : String := "OTEL_TRACES_SAMPLER_ARG"

def File.text : File → Except FileFault String
  | .missing => .error .notFound
  | .directory => .error .isDirectory
  | .content bytes =>
    match String.fromUTF8? bytes with
    | some s => .ok s
    | none => .error .notUtf8

namespace Settings

def ofFile (file : File) : Except SamplerError Settings := do
  let source ← file.text.mapError .unreadable
  (ofText source).mapError .document

/-- The settings of the file that the environment names, or the default ones. -/
def namedFile (setting? : String → Option ByteArray) (file : String → File) : Settings :=
  match (setting? settingsVariable).bind String.fromUTF8? with
  | some path =>
    if path = "" then {}
    else
      match ofFile (file path) with
      | .ok s => s
      | .error _ => {}
  | none => {}

def ofEnvironment (setting? : String → Option ByteArray) (file : String → File) : Settings :=
  let s := namedFile setting? file
  let fraction :=
    ((setting? fractionVariable).bind String.fromUTF8?).bind Binary64.read?
  { s with fraction := fraction.getD s.fraction }.sanitize

end Settings

end TraceSampling
