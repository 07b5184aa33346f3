import TraceSampling.Proofs.Sampler.Beneath
import TraceSampling.Proofs.Sampler.Frame

/-!
# Uses of a sampler

All that can be asked of a sampler and of the judgement of spans that belongs to it, and what is
answered. Whatever it is used for, a sampler keeps its decision stage.
-/

namespace TraceSampling

/-- A mark that is not kept with the sampler comes along with the outcome that it is about. -/
inductive SamplerUse where
  | call (c : SamplerCall)
  | shouldSample (r : Request) (parent : Option SpanContext) (now : Nat)
  | evaluate (o : Outcome)
  | precompute (mark : Option Strategy) (o : Outcome)
  | judge (mark : Option Strategy) (o : Outcome)
  | precomputeSpan (c : SpanContext) (live : Option SpanData) (now : Int)
  | endSpan (d : SpanData)
  | shutDown (now : Nat)

inductive SamplerAnswer where
  | decided (result : SamplingResult)
  | handedOn (result : SamplingResult) (vendors : VendorList)
  | judged (strategy : Strategy)
  | precomputed (p : Deferred.Precomputed)
  | verdict (v : Verdict)
  | forwarded (d : Option SpanData)
  | stopped (outcome : Except SamplerError Unit)
  | done

def SamplerAnswer.decision? : SamplerAnswer → Option Decision
  | .decided result | .handedOn result _ => some result.decision
  | _ => none

namespace Sampler

variable (s : Sampler) (now : Nat)

def use (s : Sampler) : SamplerUse → Sampler × SamplerAnswer
  | .call (.request r now) => ((s.sample r now).1, .decided (s.sample r now).2)
  | .call c => (s.serve c, .done)
  | .shouldSample r parent now =>
    let (next, result, vendors) := s.shouldSample r parent now
    (next, .handedOn result vendors)
  | .evaluate o => (s, .judged (Deferred.evaluate s.snapshot.settings.deferred o))
  | .precompute mark o =>
    (s, .precomputed (Deferred.precompute s.snapshot.settings.deferred mark o))
  | .judge mark o => (s, .verdict (Deferred.verdict s.snapshot.settings.deferred mark o))
  | .precomputeSpan c live now =>
    let (marks, strategy) :=
      Deferred.precomputeSpan s.snapshot.settings.deferred s.marks c live now
    ({ s with marks }, .judged strategy)
  | .endSpan d =>
    let (marks, forwarded) := Deferred.onEnd s.snapshot.settings.deferred s.marks d
    ({ s with marks }, .forwarded forwarded)
  | .shutDown now => ((s.shutDown now).1, .stopped (s.shutDown now).2)

def answers : Sampler → List SamplerUse → List SamplerAnswer
  | _, [] => []
  | s, use :: uses => (s.use use).2 :: (s.use use).1.answers uses

def useAll (s : Sampler) (uses : List SamplerUse) : Sampler :=
  uses.foldl (fun s use => (s.use use).1) s

/-! ## The stage -/

theorem stage_serve (call : SamplerCall) : (s.serve call).stage = s.stage := by
  cases call with
  | request r now => rfl
  | update settings now => exact fixed_stage.update s now settings
  | renew item now => exact fixed_stage.renew s now item
  | wake w now => exact fixed_stage.wake s now w

theorem stage_shutDown : (s.shutDown now).1.stage = s.stage := by
  unfold shutDown
  split
  · rfl
  · exact fixed_stage.wake s now .stop

/-- No use gives a sampler another stage. -/
theorem stage_use (use : SamplerUse) : (s.use use).1.stage = s.stage := by
  cases use with
  | call c =>
    cases c with
    | request r now => rfl
    | update settings now => exact s.stage_serve (.update settings now)
    | renew item now => exact s.stage_serve (.renew item now)
    | wake w now => exact s.stage_serve (.wake w now)
  | shutDown now => exact s.stage_shutDown now
  | shouldSample r parent now => rfl
  | evaluate o => rfl
  | precompute mark o => rfl
  | judge mark o => rfl
  | precomputeSpan c live now => rfl
  | endSpan d => rfl

end Sampler

end TraceSampling
