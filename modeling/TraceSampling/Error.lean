import TraceSampling.Dyeing.BloomFilter
import TraceSampling.Json.Token

/-!
# Errors

Why samplers could not be built, set, or shut down. Decisions themselves never fail.
-/

namespace TraceSampling

/-- Why a file could not be read as a text. -/
inductive FileFault where
  | notFound
  | isDirectory
  | notUtf8
  deriving DecidableEq, Repr

def FileFault.message : FileFault → String
  | .notFound => "No such file or directory (os error 2)"
  | .isDirectory => "Is a directory (os error 21)"
  | .notUtf8 => "stream did not contain valid UTF-8"

def Json.Fault.message : Json.Fault → String
  | .endOfText => "the text ended early"
  | .malformed => "the text is malformed"
  | .unfitting => "a value does not fit"

inductive SamplerError where
  | unreadable (fault : FileFault)
  | document (fault : Json.Fault)
  | filter (fault : FilterFault)
  | unknownStrategy (name : String)
  | alreadyShutDown
  | targetExists (target : String)
  | targetNotFound (target : String)
  deriving DecidableEq, Repr

def SamplerError.message : SamplerError → String
  | .unreadable fault => s!"failed to read sampler configuration: {fault.message}"
  | .document fault => s!"invalid sampler configuration: {fault.message}"
  | .filter fault => fault.message
  | .unknownStrategy name => "unknown sampling strategy " ++ Quoted.quote name
  | .alreadyShutDown => "sampler already shut down"
  | .targetExists target =>
    "a sampler is already registered for target " ++ Quoted.quote target
  | .targetNotFound target => "no sampler registered for target " ++ Quoted.quote target

end TraceSampling
