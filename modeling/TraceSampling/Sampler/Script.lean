import TraceSampling.Sampler.Stage
import TraceSampling.Text.Quoted

/-!
# Scripted stages

A decision stage given as data: which spans to drop by name, how to change the carried state before
and after the default stage has run a number of times, and what to answer in the end.
-/

namespace TraceSampling

/-- Changes to a carried state, made in the order of the fields. -/
structure Adjustment where
  reset : Bool := false
  sampled : Option Strategy := none
  root : Option Strategy := none
  args : Option String := none
  deriving DecidableEq, Repr

def Adjustment.apply (a : Adjustment) (hop : HopState) : HopState :=
  let hop := if a.reset then hop.resetLineage else hop
  let hop := (a.sampled.map hop.setSampled).getD hop
  let hop := (a.root.map hop.setRoot).getD hop
  if a.args.isSome then hop.setArgs a.args else hop

/-- `dump` and `probe` add attributes that show the occasion. -/
structure StageScript where
  dropNames : List String := []
  before : Adjustment := {}
  delegate : Nat := 0
  after : Adjustment := {}
  decision : Option Decision := none
  dump : Bool := false
  probe : Bool := false
  deriving DecidableEq, Repr

/-- The dump of an occasion whose request is that of a root span without attributes. -/
def Occasion.dump (o : Occasion) : String :=
  let r := o.request
  "DefaultPipeline \x7b service_name: " ++ Quoted.quote o.service ++
    ", request: SamplingRequest \x7b trace_id: " ++ Numeral.hexPadded 32 r.traceId.toNat ++
    ", name: " ++ Quoted.quote r.name ++ ", kind: " ++ r.kind.label ++
    ", attributes: [], parent: None \x7d \x7d"

namespace StageScript

/-- Runs the default stage again and again and keeps its last answer. -/
def repeatDefault (o : Occasion) : Nat → StageState → StageResult → StageState × StageResult
  | 0, st, last => (st, last)
  | n + 1, st, _ =>
    let (st, answer) := defaultStage o st
    repeatDefault o n st answer

def shown (s : StageScript) (o : Occasion) : List Attribute :=
  (if s.dump then [⟨"user.debug", .text o.dump⟩] else []) ++
    if s.probe then
      [⟨"user.name", .text o.request.name⟩,
        ⟨"user.fraction", .real o.snapshot.settings.fraction⟩]
    else []

def stage (s : StageScript) : DecisionStage := fun o st =>
  if s.dropNames.contains o.request.name then (st, .dropped)
  else
    let st := { st with hop := s.before.apply st.hop }
    let (st, answer) := repeatDefault o s.delegate st .dropped
    ({ st with hop := s.after.apply st.hop },
      { decision := s.decision.getD answer.decision
        attributes := answer.attributes ++ s.shown o })

end StageScript

end TraceSampling
