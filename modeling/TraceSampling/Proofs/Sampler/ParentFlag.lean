import TraceSampling.Proofs.Sampler.Spending
import TraceSampling.Proofs.Sampler.Usage

/-!
# Flags of parents

Of a parent the two stages read the state that it carried, and its flag where that state is none of
this protocol. So requests that agree on this much are answered alike, one after the other, however
the flags are set beyond it and whatever trace the parents belong to.
-/

namespace TraceSampling

open Sampler (incoming)

/-! ## What is read of a parent -/

/-- A parent as far as a sampler with the default stage looks at it. -/
def Parent.relevant (p : Parent) : Parent where
  sampled := (HopState.decode p.carried).isLegacy && p.sampled
  carried := p.carried

def Request.relevant (r : Request) : Request := { r with parent := r.parent.map Parent.relevant }

def SpanContext.relevant (c : SpanContext) : SpanContext where
  flags := if (Sampler.parentOf c).relevant.sampled then 1 else 0
  vendors := c.vendors

theorem Sampler.incoming_relevant (r : Request) : incoming r.relevant = incoming r := by
  unfold incoming Request.relevant
  rw [Option.map_map]
  rfl

/-- Where the flag is asked for at all, it is still there. -/
theorem Request.flag_relevant {r : Request} {hop : HopState}
    (hlegacy : hop.isLegacy = (incoming r).isLegacy) (f : Parent → Bool)
    (hf : ∀ p, f p.relevant = f p) :
    (r.relevant.parent.any fun p => if hop.isLegacy then p.sampled else f p) =
      r.parent.any fun p => if hop.isLegacy then p.sampled else f p := by
  obtain ⟨traceId, name, kind, attributes, parent⟩ := r
  cases parent with
  | none => rfl
  | some p =>
    have hown : hop.isLegacy = (HopState.decode p.carried).isLegacy := hlegacy
    cases h : hop.isLegacy with
    | true => simp [Request.relevant, Parent.relevant, ← hown, h]
    | false => simp [Request.relevant, hf]

theorem Sampler.parentOf_relevant (c : SpanContext) :
    parentOf c.relevant = (parentOf c).relevant := by
  have hflag : (c.relevant).isSampled = (parentOf c).relevant.sampled := by
    unfold SpanContext.isSampled SpanContext.relevant
    cases (parentOf c).relevant.sampled <;> simp
  unfold parentOf Parent.relevant
  rw [hflag]
  rfl

/-! ## The two stages -/

theorem Workflow.sample_relevant (settings : WorkflowSettings) (r : Request) (i : Interface)
    (cache : EdgeCache) :
    Workflow.sample settings r.relevant i cache (incoming r) =
      Workflow.sample settings r i cache (incoming r) := by
  have hflag : ((incoming r).isLegacy && r.relevant.parent.any (·.sampled)) =
      ((incoming r).isLegacy && r.parent.any (·.sampled)) := by
    have hown : (incoming r).isLegacy = (incoming r).isLegacy := rfl
    have h := r.flag_relevant hown (fun _ => false) fun _ => rfl
    cases hlegacy : (incoming r).isLegacy with
    | false => rfl
    | true => simpa [hlegacy] using h
  unfold Workflow.sample
  rw [hflag]
  rfl

namespace Occasion

theorem followsParent_relevant (o : Occasion) {hop : HopState}
    (h : hop.isLegacy = (incoming o.request).isLegacy) :
    { o with request := o.request.relevant }.followsParent hop = o.followsParent hop :=
  o.request.flag_relevant h (fun _ => hop.lineage.sampled.isSampled) fun _ => rfl

theorem choose_relevant (o : Occasion) {hop : HopState}
    (h : hop.isLegacy = (incoming o.request).isLegacy) (w : MinCount.Windows) :
    { o with request := o.request.relevant }.choose hop w = o.choose hop w := by
  unfold choose
  rw [o.followsParent_relevant h]
  rfl

theorem defaultStage_relevant (o : Occasion) (st : StageState)
    (h : st.hop.isLegacy = (incoming o.request).isLegacy) :
    defaultStage { o with request := o.request.relevant } st = defaultStage o st := by
  unfold defaultStage
  rw [o.choose_relevant h]

theorem choose_follow_iff (o : Occasion) (hop : HopState) (w : MinCount.Windows) :
    (o.choose hop w).2.strategy = .follow ↔ o.applies hop w .follow = true := by
  cases hfollow : o.applies hop w .follow with
  | true => simp [o.choose_of_follow hop w hfollow]
  | false =>
    rw [choose_strategy, first?, List.find?_cons_of_neg (ne_true_of_eq_false hfollow)]
    refine iff_of_false (fun hchosen => ?_) Bool.false_ne_true
    cases hrest : [Strategy.dyeing, .minCount, .random].find? (o.applies hop w) with
    | none => simp [hrest] at hchosen
    | some c =>
      have hmem := List.mem_of_find?_eq_some hrest
      rw [hrest, Option.getD_some] at hchosen
      simp [hchosen] at hmem

end Occasion

/-! ## The sampler -/

namespace Sampler

variable {s : Sampler} (hstage : s.stage = defaultStage)

include hstage

theorem sample_relevant (r : Request) (now : Nat) : s.sample r.relevant now = s.sample r now := by
  have hoccasion : s.occasion r.relevant now =
    { s.occasion r now with request := r.relevant } := rfl
  have hflow := Workflow.sample_relevant s.snapshot.settings.workflow r
    (s.occasion r now).interface s.edges
  have hlegacy : (Workflow.sample s.snapshot.settings.workflow r (s.occasion r now).interface
      s.edges (incoming r)).2.1.isLegacy = (incoming r).isLegacy := by
    rw [Workflow.sample_hop]
    rfl
  have hanswer := (s.occasion r now).defaultStage_relevant ⟨s.resources, _⟩ hlegacy
  unfold sample
  rw [incoming_relevant, hoccasion, hstage]
  dsimp only
  rw [hflow]
  dsimp only [occasion] at hanswer ⊢
  rw [hanswer]

theorem shouldSample_relevant (r : Request) (parent : Option SpanContext) (now : Nat) :
    s.shouldSample { r with parent := none } (parent.map SpanContext.relevant) now =
      s.shouldSample r parent now := by
  have hparent : (parent.map SpanContext.relevant).map parentOf =
      (parent.map parentOf).map Parent.relevant := by
    rw [Option.map_map, Option.map_map]
    exact congrArg (parent.map ·) (funext parentOf_relevant)
  have hvendors : (parent.map SpanContext.relevant).map (·.vendors) = parent.map (·.vendors) := by
    rw [Option.map_map]
    rfl
  have hsample := sample_relevant hstage { r with parent := parent.map parentOf } now
  unfold shouldSample
  rw [hparent, hvendors]
  dsimp only [Request.relevant] at hsample ⊢
  rw [hsample]

end Sampler

/-- Below a parent that carried no state the flag decides whether a span is kept as its child. -/
theorem Sampler.follows_legacy_iff (s : Sampler) (r : Request) {p : Parent}
    (hcarried : (HopState.decode p.carried).isLegacy = true) (now : Nat) :
    (s.choice { r with parent := some p } now).strategy = .follow ↔ p.sampled = true := by
  have hincoming : incoming { r with parent := some p } = HopState.decode p.carried := rfl
  have hflag : (s.occasion { r with parent := some p } now).applies
      (incoming { r with parent := some p }) s.resources.windows .follow = p.sampled := by
    simp [Occasion.applies, occasion, hincoming, hcarried]
  rw [← hflag]
  exact Occasion.choose_follow_iff _ _ _

/-! ## Runs -/

/-- A use as far as a sampler with the default stage looks at it. -/
def SamplerUse.relevant : SamplerUse → SamplerUse
  | .call (.request r now) => .call (.request r.relevant now)
  | .shouldSample r parent now =>
    .shouldSample { r with parent := none } (parent.map SpanContext.relevant) now
  | use => use

namespace Sampler

theorem use_relevant {s : Sampler} (hstage : s.stage = defaultStage) (use : SamplerUse) :
    s.use use.relevant = s.use use := by
  cases use with
  | call c =>
    cases c with
    | request r now =>
      have hsample := sample_relevant hstage r now
      simp only [SamplerUse.relevant, Sampler.use, hsample]
    | update settings now => rfl
    | renew item now => rfl
    | wake w now => rfl
  | shouldSample r parent now =>
    have hsample := shouldSample_relevant hstage r parent now
    simp only [SamplerUse.relevant, Sampler.use, hsample]
  | evaluate o => rfl
  | precompute mark o => rfl
  | judge mark o => rfl
  | precomputeSpan c live now => rfl
  | endSpan d => rfl
  | shutDown now => rfl

theorem answers_relevant {s : Sampler} (hstage : s.stage = defaultStage) (uses : List SamplerUse) :
    s.answers (uses.map SamplerUse.relevant) = s.answers uses := by
  induction uses generalizing s with
  | nil => rfl
  | cons use uses ih =>
    have hnext : (s.use use).1.stage = defaultStage := (s.stage_use use).trans hstage
    rw [List.map_cons, answers, use_relevant hstage, ih hnext, answers]

/-- Uses that differ in what is not looked at get the same answers. -/
theorem answers_congr {s : Sampler} (hstage : s.stage = defaultStage) {uses uses' : List SamplerUse}
    (h : uses.map SamplerUse.relevant = uses'.map SamplerUse.relevant) :
    s.answers uses = s.answers uses' := by
  rw [← answers_relevant hstage uses, h, answers_relevant hstage]

/-- The flag of a parent that carried a state, and the trace that the parent belongs to, change
neither the answer nor anything that a later answer could depend on, whatever the flags of parents
say by then. Only below a parent without a state does the flag decide whether it is followed. -/
theorem sample_ignores_flag {s : Sampler} (hstage : s.stage = defaultStage) (r : Request)
    {p : Parent} (hcarried : (HopState.decode p.carried).isLegacy = false) (sampled : Bool)
    (traceId : TraceId) (now : Nat) :
    let first := s.sample { r with parent := some p } now
    let second := s.sample { r with parent := some { p with sampled, traceId } } now
    second = first ∧
      (∀ uses uses' : List SamplerUse,
        uses.map SamplerUse.relevant = uses'.map SamplerUse.relevant →
          first.1.answers uses = second.1.answers uses') ∧
      ∀ q : Parent, (HopState.decode q.carried).isLegacy = true →
        ((s.choice { r with parent := some q } now).strategy = .follow ↔ q.sampled = true) := by
  have hparent : { p with sampled, traceId }.relevant = p.relevant := by
    simp only [Parent.relevant, hcarried, Bool.false_and]
  have hrequest : { r with parent := some { p with sampled, traceId } }.relevant =
      { r with parent := some p }.relevant := by
    simp only [Request.relevant, Option.map_some, hparent]
  have hsame : s.sample { r with parent := some { p with sampled, traceId } } now =
      s.sample { r with parent := some p } now := by
    rw [← sample_relevant hstage, hrequest, sample_relevant hstage]
  refine ⟨hsame, fun uses uses' h => ?_, fun q hq => s.follows_legacy_iff r hq now⟩
  rw [hsame]
  have hnext : (s.sample { r with parent := some p } now).1.stage = defaultStage := hstage
  exact answers_congr hnext h

/-- A parent that was not kept, under a flag that says it was. -/
def misflagged : Parent := { traceId := 0xabc, sampled := true, carried := "s:0" }

def handler : Request := { traceId := 0xabc, name := "handler", kind := .server }

/-- The same handler below either flag, and then once more below the other one. Below a parent
without a state it is kept by its flag. -/
theorem sample_misflagged :
    let s := Sampler.make {} 0
    let below (sampled : Bool) (traceId : TraceId) : Request :=
      { handler with parent := some { misflagged with sampled, traceId } }
    (HopState.decode misflagged.carried).isLegacy = false ∧
      s.sample (below false 1) 0 = s.sample (below true 0xabc) 0 ∧
      (s.sample (below true 0xabc) 0).1.answers [.call (.request (below true 0xabc) 1)] =
        (s.sample (below false 1) 0).1.answers [.call (.request (below false 1) 1)] ∧
      (s.choice { handler with parent := some { sampled := true } } 0).strategy = .follow := by
  have hcarried : (HopState.decode misflagged.carried).isLegacy = false := by decide
  obtain ⟨hsame, hlater, hfollowed⟩ :=
    sample_ignores_flag (s := Sampler.make {} 0) rfl handler hcarried false 1 0
  refine ⟨hcarried, hsame, hlater _ _ ?_, (hfollowed { sampled := true } (by decide)).mpr rfl⟩
  simp only [List.map_cons, List.map_nil, SamplerUse.relevant, Request.relevant, Option.map_some,
    Parent.relevant, hcarried, Bool.false_and]

end Sampler

end TraceSampling
