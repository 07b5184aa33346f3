import TraceSampling.Proofs.Sampler.Agreement
import TraceSampling.Proofs.Workflow.Stage

/-!
# What the default stage comes to

The default stage makes a choice and charges it to a bucket, and so it has three outcomes: the span
is kept, the bucket refuses it, or nothing keeps it. In each of them the lineage that leaves the
sampler is the one that the stage has written.
-/

namespace TraceSampling

/-! ## The stage -/

namespace Occasion

/-- What the stage would keep the span for. -/
def choice (o : Occasion) (st : StageState) : Choice :=
  (o.choose st.hop st.resources.windows).2

/-- The charge for that, and whether the bucket has taken it. -/
def charge (o : Occasion) (st : StageState) : RateLimiter × Bool :=
  st.resources.limiter.allow (st.hop.bucket (o.choice st).strategy) o.now

variable (o : Occasion) (st : StageState)

theorem defaultStage_eq :
    defaultStage o st =
      let windows := (o.choose st.hop st.resources.windows).1
      if (o.choice st).strategy.isSampled then
        if (o.charge st).2 then
          (⟨⟨windows, (o.charge st).1⟩, st.hop.kept (o.choice st)⟩,
            { decision := .recordAndSample
              attributes := [strategyAttribute (o.choice st).strategy] })
        else (⟨⟨windows, (o.charge st).1⟩, st.hop.resetLineage⟩, .dropped)
      else
        (⟨⟨windows, st.resources.limiter⟩, st.hop.unkept⟩,
          { decision := if o.snapshot.settings.deferred.enabled then .recordOnly else .drop }) := by
  have hcharge : o.charge st = st.resources.limiter.allow
    (st.hop.bucket (o.choose st.hop st.resources.windows).2.strategy) o.now := rfl
  have hchoice : o.choice st = (o.choose st.hop st.resources.windows).2 := rfl
  unfold defaultStage
  rw [hcharge, hchoice]
  dsimp only
  split
  · split
    · next hallow => simp [hallow]
    · next hallow => simp [hallow]
  · rfl

end Occasion

/-! ## Lineages that the stage writes -/

theorem Lineage.Agrees.align_eq {l : Lineage} {d : Decision} (h : l.Agrees d) : l.align d = l := by
  unfold align
  rw [if_neg h.root_ne]
  by_cases hd : d = .recordAndSample
  · have hsampled : l.sampled.isSampled = true := h.sampled_iff.mp hd
    rw [if_pos hd, if_pos hsampled]
  · have hunsampled : ¬ l.sampled.isSampled = true := fun hs => hd (h.sampled_iff.mpr hs)
    have hne : ¬ (l.sampled.isSampled = true ∨ l.sampled = .notExist) :=
      not_or.mpr ⟨hunsampled, h.sampled_ne⟩
    rw [if_neg hd, if_neg hne]

namespace HopState

theorem isSampled_bucket (hop : HopState) {s : Strategy} (h : s.isSampled = true) :
    (hop.bucket s).isSampled = true := by
  unfold bucket
  split
  · next hroot => exact hroot
  · exact h

theorem kept_agrees (hop : HopState) {c : Choice} (h : c.strategy.isSampled = true) :
    (hop.kept c).lineage.Agrees .recordAndSample where
  sampled_iff := iff_of_true rfl h
  sampled_ne := Strategy.ne_notExist_of_isSampled h
  root_ne := Strategy.ne_notExist_of_isSampled (hop.isSampled_bucket h)

theorem resetLineage_agrees (hop : HopState) {d : Decision} (hd : d ≠ .recordAndSample) :
    hop.resetLineage.lineage.Agrees d where
  sampled_iff := iff_of_false hd Bool.false_ne_true
  sampled_ne := by simp [resetLineage]
  root_ne := by simp [resetLineage]

theorem unkept_agrees (hop : HopState) {d : Decision} (hd : d ≠ .recordAndSample) :
    hop.unkept.lineage.Agrees d where
  sampled_iff := iff_of_false hd Bool.false_ne_true
  sampled_ne := by simp [unkept]
  root_ne := by
    simp only [unkept]
    split
    · simp
    · next hroot => exact hroot

end HopState

theorem Decision.merge_eq_recordAndSample {a : Decision} (ha : a ≠ .recordAndSample)
    (b : Decision) : a.merge b = .recordAndSample ↔ b = .recordAndSample := by
  cases a <;> cases b <;> simp_all [merge, rank]

/-! ## The sampler -/

namespace Sampler

/-- What the default stage of a sampler would keep the span of a request for. -/
def choice (s : Sampler) (r : Request) (now : Nat) : Choice :=
  (s.occasion r now).choice ⟨s.resources, incoming r⟩

/-- Whether the sampler would keep the span of a request, but its bucket refuses. -/
def refuses (s : Sampler) (r : Request) (now : Nat) : Bool :=
  (s.choice r now).strategy.isSampled && !((s.occasion r now).charge ⟨s.resources, incoming r⟩).2

/-- The mark that the workflow stage leaves on a request. -/
def mark (s : Sampler) (r : Request) : WorkflowMark :=
  (Workflow.sample s.snapshot.settings.workflow r (r.interface s.service) s.edges
    (incoming r)).2.1.workflow

/-- The ways in which a sampler with the default stage answers. -/
inductive Answers (s : Sampler) (r : Request) (now : Nat) (result : SamplingResult) : Prop
  | kept (hchoice : (s.choice r now).strategy.isSampled = true) (hrefuses : s.refuses r now = false)
      (hdecision : result.decision = .recordAndSample)
      (hlineage : result.state.lineage = ((incoming r).kept (s.choice r now)).lineage)
  | refused (hrefuses : s.refuses r now = true) (hdecision : result.decision ≠ .recordAndSample)
      (hlineage : result.state.lineage = (incoming r).resetLineage.lineage)
  | unkept (hchoice : (s.choice r now).strategy.isSampled = false)
      (hrefuses : s.refuses r now = false) (hdecision : result.decision ≠ .recordAndSample)
      (hlineage : result.state.lineage = (incoming r).unkept.lineage)

/-- The stage of a sampler and what it starts from. -/
def entering (s : Sampler) (r : Request) : StageState :=
  ⟨s.resources, { incoming r with workflow := s.mark r }⟩

theorem sample_eq (s : Sampler) (r : Request) (now : Nat) :
    ∃ found : StageResult, found.decision ≠ .recordAndSample ∧
      let out := s.stage (s.occasion r now) (s.entering r)
      (s.sample r now).2.decision = found.decision.merge out.2.decision ∧
      (s.sample r now).2.state =
        { out.1.hop with
          lineage := out.1.hop.lineage.align (found.decision.merge out.2.decision) } := by
  have hhop := Workflow.sample_hop s.snapshot.settings.workflow r (r.interface s.service) s.edges
    (incoming r)
  refine ⟨_, Workflow.sample_decision_ne s.snapshot.settings.workflow r (r.interface s.service)
    s.edges (incoming r), ?_⟩
  unfold entering mark
  rw [← hhop]
  exact ⟨rfl, rfl⟩

theorem sample_answers {s : Sampler} (hstage : s.stage = defaultStage) (r : Request) (now : Nat) :
    s.Answers r now (s.sample r now).2 := by
  obtain ⟨found, hfound, hdecision, hstate⟩ := s.sample_eq r now
  rw [hstage, Occasion.defaultStage_eq] at hdecision hstate
  have hchoice : (s.occasion r now).choice (s.entering r) = s.choice r now := rfl
  have hcharge : (s.occasion r now).charge (s.entering r) =
    (s.occasion r now).charge ⟨s.resources, incoming r⟩ := rfl
  rw [hchoice, hcharge] at hdecision hstate
  dsimp only at hdecision hstate
  by_cases hc : (s.choice r now).strategy.isSampled = true
  · by_cases hgrant : ((s.occasion r now).charge ⟨s.resources, incoming r⟩).2 = true
    · rw [if_pos hc, if_pos hgrant] at hdecision hstate
      have hd : found.decision.merge .recordAndSample = .recordAndSample :=
        (Decision.merge_eq_recordAndSample hfound _).mpr rfl
      refine .kept hc (by simp [refuses, hgrant]) (hdecision.trans hd) ?_
      rw [hstate, hd, (HopState.kept_agrees _ hc).align_eq]
      rfl
    · rw [if_pos hc, if_neg hgrant] at hdecision hstate
      have hd : found.decision.merge StageResult.dropped.decision ≠ .recordAndSample := by
        rw [ne_eq, Decision.merge_eq_recordAndSample hfound]
        simp [StageResult.dropped]
      refine .refused (by simp [refuses, hc, hgrant]) (by rwa [hdecision]) ?_
      rw [hstate, (HopState.resetLineage_agrees _ hd).align_eq]
      rfl
  · rw [if_neg hc] at hdecision hstate
    have hd : (s.sample r now).2.decision ≠ .recordAndSample := by
      rw [hdecision, ne_eq, Decision.merge_eq_recordAndSample hfound]
      split <;> simp
    refine .unkept (Bool.not_eq_true _ ▸ hc) (by simp [refuses, hc]) hd ?_
    rw [hstate, ← hdecision, (HopState.unkept_agrees _ hd).align_eq]
    rfl

theorem isSampled_root_of_kept {s : Sampler} (hstage : s.stage = defaultStage) {r : Request}
    {now : Nat} (hkept : (s.sample r now).2.decision = .recordAndSample) :
    (s.sample r now).2.state.lineage.root.isSampled = true := by
  cases s.sample_answers hstage r now with
  | kept hchoice _ _ hlineage =>
    rw [hlineage]
    exact HopState.isSampled_bucket _ hchoice
  | refused _ hdecision _ => exact absurd hkept hdecision
  | unkept _ _ hdecision _ => exact absurd hkept hdecision

/-- Apart from mark and lineage the carried state passes through. -/
theorem sample_state {s : Sampler} (hstage : s.stage = defaultStage) (r : Request) (now : Nat) :
    (s.sample r now).2.state =
      { incoming r with
        workflow := s.mark r
        lineage := (s.sample r now).2.state.lineage } := by
  obtain ⟨found, -, -, hstate⟩ := s.sample_eq r now
  rw [hstage, Occasion.defaultStage_eq] at hstate
  rw [hstate]
  dsimp only
  split
  · split <;> rfl
  · rfl

end Sampler

end TraceSampling
