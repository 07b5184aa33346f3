import TraceSampling.Settings.Basic

/-!
# Snapshots

Sanitised settings with their rules compiled. A decision reads one snapshot from start to end.
-/

namespace TraceSampling

/-- Rules that are switched off are absent. -/
structure Snapshot where
  settings : Settings := {}
  exact : Option ExactRules := none
  bloom : Option BloomRules := none
  deriving DecidableEq, Repr

namespace Snapshot

def exactRules (s : DyeingSettings) : ExactRules :=
  s.rules.foldl (fun rules r => rules.add r.key r.values) {}

/-- A rule that describes no filter is passed over. -/
def bloomRules (s : BloomDyeingSettings) : BloomRules :=
  s.rules.foldl (fun rules r =>
    match r.build with
    | .ok filter => rules.add r.key filter
    | .error _ => rules) {}

def compile (s : Settings) : Snapshot :=
  let settings := s.sanitize
  { settings
    exact := if settings.dyeing.enabled then some (exactRules settings.dyeing) else none
    bloom := if settings.bloomDyeing.enabled then some (bloomRules settings.bloomDyeing) else none }

/-- The key of the attribute that dyes a span: by force, then by exact rules, then by filters. -/
def dyeingKey? (s : Snapshot) (attributes : List Attribute) : Option String :=
  forcedKey? attributes <|> s.exact.bind (·.match? attributes) <|>
    s.bloom.bind (·.match? attributes)

end Snapshot

end TraceSampling
