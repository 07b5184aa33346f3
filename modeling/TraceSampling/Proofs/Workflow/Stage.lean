import TraceSampling.Workflow.Stage

/-!
# What the workflow stage leaves alone

The stage writes its own mark into the carried state and nothing else, and it never keeps a span for
good.
-/

namespace TraceSampling.Workflow

theorem visit_decision_ne (cache : EdgeCache) (side : Side) (edge : Edge) (legacySampled : Bool)
    (incoming : WorkflowMark) (maxPaths : Nat) :
    (visit cache side edge legacySampled incoming maxPaths).2.2 ≠ .recordAndSample := by
  unfold visit
  split
  · simp
  · split
    · simp
    · split <;> simp

variable (settings : WorkflowSettings) (r : Request) (i : Interface) (cache : EdgeCache)
  (hop : HopState)

theorem sample_decision_ne :
    (sample settings r i cache hop).2.2.decision ≠ .recordAndSample := by
  unfold sample
  split
  · simp [StageResult.dropped]
  · split
    · simp [StageResult.dropped]
    · exact visit_decision_ne _ _ _ _ _ _

/-- The state that the stage hands on differs from the one it got in its own mark only. -/
theorem sample_hop :
    (sample settings r i cache hop).2.1 =
      { hop with workflow := (sample settings r i cache hop).2.1.workflow } := by
  unfold sample
  split
  · rfl
  · split <;> rfl

end TraceSampling.Workflow
