import TraceSampling.Decision
import TraceSampling.Fraction
import TraceSampling.HopState.Basic
import TraceSampling.MinCount
import TraceSampling.Snapshot

/-!
# Decision stages

A decision stage sees the occasion of a decision, and may use up resources and change the carried
state. The default stage tries in order: follow a kept parent, dyeing, the floor of the interface,
the fraction of trace ids. What it would keep is then charged to the bucket of the root strategy.
-/

namespace TraceSampling

/-- All that a decision is made from and does not change. -/
structure Occasion where
  service : String
  snapshot : Snapshot
  request : Request
  interface : Interface
  now : Nat

/-- What decisions use up. -/
structure Resources where
  windows : MinCount.Windows
  limiter : RateLimiter
  deriving DecidableEq, Repr

/-- What a stage may change. -/
structure StageState where
  resources : Resources
  hop : HopState
  deriving DecidableEq, Repr

abbrev DecisionStage := Occasion → StageState → StageState × StageResult

/-! ## The default stage -/

/-- A strategy and the arguments that go with it. -/
structure Choice where
  strategy : Strategy
  args : Option String := none
  deriving DecidableEq, Repr

namespace Occasion

/-- A parent that carried no state is followed by its flag, any other by its strategy alone. -/
def followsParent (o : Occasion) (hop : HopState) : Bool :=
  o.request.parent.any fun p =>
    if hop.isLegacy then p.sampled else hop.lineage.sampled.isSampled

def takeFloor (o : Occasion) (w : MinCount.Windows) : MinCount.Windows × Bool :=
  let s := o.snapshot.settings.minSample
  if s.enabled then w.take o.interface.calleeService o.interface.calleeMethod s.count s.maxKeys
  else (w, false)

def inFraction (o : Occasion) : Bool :=
  Fraction.selectsStart (o.snapshot.settings.fractionFor o.request.name o.request.kind)
    o.request.traceId

/-- The first strategy that applies. -/
def choose (o : Occasion) (hop : HopState) (w : MinCount.Windows) : MinCount.Windows × Choice :=
  if o.followsParent hop then (w, { strategy := .follow })
  else
    match o.snapshot.dyeingKey? o.request.attributes with
    | some key => (w, { strategy := .dyeing, args := some key })
    | none =>
      match o.takeFloor w with
      | (w, true) => (w, { strategy := .minCount })
      | (w, false) =>
        (w, { strategy := if o.inFraction then .random else .notMatch })

end Occasion

namespace HopState

/-- The strategy whose bucket a kept hop is charged to. -/
def bucket (hop : HopState) (s : Strategy) : Strategy :=
  if hop.lineage.root.isSampled then hop.lineage.root else s

/-- A kept hop; it becomes the root of its trace unless there is one already. -/
def kept (hop : HopState) (c : Choice) : HopState :=
  { hop with lineage :=
      { hop.lineage with sampled := c.strategy, root := hop.bucket c.strategy } }.setArgs c.args

/-- A hop to which no strategy applied. -/
def unkept (hop : HopState) : HopState :=
  { hop with lineage :=
      { sampled := .notMatch
        root := if hop.lineage.root = .notExist then .notMatch else hop.lineage.root } }

end HopState

def strategyAttribute (s : Strategy) : Attribute := ⟨Key.strategy, .text s.name⟩

/-- What the bucket refuses starts over as a new root; what no strategy keeps is still recorded when
spans are looked at again at their end. -/
def defaultStage : DecisionStage := fun o st =>
  let (windows, choice) := o.choose st.hop st.resources.windows
  let resources := { st.resources with windows }
  if choice.strategy.isSampled then
    match resources.limiter.allow (st.hop.bucket choice.strategy) o.now with
    | (limiter, true) =>
      (⟨{ resources with limiter }, st.hop.kept choice⟩,
        { decision := .recordAndSample, attributes := [strategyAttribute choice.strategy] })
    | (limiter, false) => (⟨{ resources with limiter }, st.hop.resetLineage⟩, .dropped)
  else
    (⟨resources, st.hop.unkept⟩,
      { decision := if o.snapshot.settings.deferred.enabled then .recordOnly else .drop })

end TraceSampling
