import TraceSampling.Proofs.Sampler.DefaultStage
import TraceSampling.Proofs.Table

/-!
# What a decision uses up

The default stage tries its strategies in order and looks at a condition only if none before it held.
So a window is touched only for spans that nothing before the floor has kept, and a single token is
taken from a single bucket, and only for spans that something has kept.
-/

namespace TraceSampling

/-! ## One charge -/

namespace RateLimiter

variable (l : RateLimiter) (s : Strategy) (now : Nat)

/-- The bucket of a strategy, or else the default one. -/
def charged? : Option TokenBucket := (l.bucket? s).or l.default

theorem bucket?_setBucket (b : TokenBucket) (t : Strategy) :
    (l.setBucket s b).bucket? t = if t = s then some b else l.bucket? t :=
  Table.lookup_replace s t b l.buckets

theorem allow_granted :
    (l.allow s now).2 = ((l.charged? s).map fun b => (b.consume 1 now).2).getD true := by
  unfold allow charged?
  cases l.bucket? s with
  | some b => rfl
  | none => cases l.default <;> rfl

/-- No bucket of another strategy pays. -/
theorem bucket?_allow (t : Strategy) :
    (l.allow s now).1.bucket? t =
      if t = s then (l.bucket? t).map fun b => (b.consume 1 now).1 else l.bucket? t := by
  unfold allow
  cases hown : l.bucket? s with
  | some b =>
    dsimp only
    rw [bucket?_setBucket]
    split
    · next h =>
      rw [h, hown]
      rfl
    · rfl
  | none =>
    have hsame : l.bucket? t =
        if t = s then (l.bucket? t).map fun b => (b.consume 1 now).1 else l.bucket? t := by
      split
      · next h =>
        rw [h, hown]
        rfl
      · rfl
    cases l.default <;> exact hsame

/-- The default bucket pays for the strategies without their own. -/
theorem default_allow :
    (l.allow s now).1.default =
      if l.hasBucket s then l.default else l.default.map fun b => (b.consume 1 now).1 := by
  unfold allow hasBucket
  cases l.bucket? s with
  | some b => rfl
  | none => cases h : l.default <;> simp [h]

end RateLimiter

/-! ## The choice -/

namespace Occasion

variable (o : Occasion) (hop : HopState) (w : MinCount.Windows)

/-- The windows behind a request for the floor of the interface, and whether it was granted. -/
def floor : MinCount.Windows × Bool :=
  let s := o.snapshot.settings.minSample
  w.take o.interface.calleeService o.interface.calleeMethod s.count s.maxKeys

/-- Whether the condition of a strategy holds. -/
def applies : Strategy → Bool
  | .follow =>
    o.request.parent.any fun p =>
      if hop.isLegacy then p.sampled else hop.lineage.sampled.isSampled
  | .dyeing =>
    (forcedKey? o.request.attributes).isSome ||
      o.snapshot.exact.any (fun rules => (rules.match? o.request.attributes).isSome) ||
      o.snapshot.bloom.any (fun rules => (rules.match? o.request.attributes).isSome)
  | .minCount => o.snapshot.settings.minSample.enabled && (o.floor w).2
  | .random =>
    Fraction.selectsStart (o.snapshot.settings.fractionFor o.request.name o.request.kind)
      o.request.traceId
  | _ => false

/-- The first strategy whose condition holds. -/
def first? : Option Strategy :=
  [Strategy.follow, .dyeing, .minCount, .random].find? (o.applies hop w)

/-- Whether a decision comes as far as the floor of the interface. -/
def asksFloor : Bool :=
  o.snapshot.settings.minSample.enabled && !o.applies hop w .follow && !o.applies hop w .dyeing

theorem isSome_dyeingKey? :
    (o.snapshot.dyeingKey? o.request.attributes).isSome = o.applies hop w .dyeing := by
  unfold Snapshot.dyeingKey? applies
  cases o.snapshot.exact <;> cases o.snapshot.bloom <;> simp [Option.isSome_or, Bool.or_assoc]

theorem takeFloor_fst :
    (o.takeFloor w).1 = if o.snapshot.settings.minSample.enabled then (o.floor w).1 else w := by
  unfold takeFloor floor
  dsimp only
  split <;> rfl

theorem takeFloor_snd : (o.takeFloor w).2 = o.applies hop w .minCount := by
  unfold takeFloor applies floor
  dsimp only
  cases henabled : o.snapshot.settings.minSample.enabled <;> simp

theorem choose_of_follow (hfollow : o.applies hop w .follow = true) :
    o.choose hop w = (w, { strategy := .follow }) := if_pos hfollow

theorem choose_of_dyeing (hfollow : o.applies hop w .follow = false)
    (hdyes : o.applies hop w .dyeing = true) :
    ∃ key, o.choose hop w = (w, { strategy := .dyeing, args := some key }) := by
  have hfollows : ¬ o.followsParent hop = true := ne_true_of_eq_false hfollow
  obtain ⟨key, hkey⟩ := Option.isSome_iff_exists.mp ((o.isSome_dyeingKey? hop w).trans hdyes)
  refine ⟨key, ?_⟩
  rw [choose, if_neg hfollows, hkey]

theorem choose_of_floor (hfollow : o.applies hop w .follow = false)
    (hdyes : o.applies hop w .dyeing = false) :
    o.choose hop w = ((o.takeFloor w).1,
      { strategy :=
          if o.applies hop w .minCount then .minCount
          else if o.applies hop w .random then .random else .notMatch }) := by
  have hfollows : ¬ o.followsParent hop = true := ne_true_of_eq_false hfollow
  have hkey : o.snapshot.dyeingKey? o.request.attributes = none := by
    rw [← Option.not_isSome_iff_eq_none, o.isSome_dyeingKey? hop w, hdyes]
    exact Bool.false_ne_true
  rw [choose, if_neg hfollows, hkey, ← o.takeFloor_snd hop w]
  dsimp only
  split
  · next htake =>
    rw [htake]
    rfl
  · next htake =>
    rw [htake]
    rfl

theorem choose_fst :
    (o.choose hop w).1 = if o.asksFloor hop w then (o.floor w).1 else w := by
  unfold asksFloor
  cases hfollow : o.applies hop w .follow with
  | true => simp [o.choose_of_follow hop w hfollow]
  | false =>
    cases hdyes : o.applies hop w .dyeing with
    | true =>
      obtain ⟨key, hchoose⟩ := o.choose_of_dyeing hop w hfollow hdyes
      simp [hchoose]
    | false => simp [o.choose_of_floor hop w hfollow hdyes, takeFloor_fst]

theorem choose_strategy :
    (o.choose hop w).2.strategy = (o.first? hop w).getD .notMatch := by
  unfold first?
  cases hfollow : o.applies hop w .follow with
  | true => simp [o.choose_of_follow hop w hfollow, hfollow]
  | false =>
    cases hdyes : o.applies hop w .dyeing with
    | true =>
      obtain ⟨key, hchoose⟩ := o.choose_of_dyeing hop w hfollow hdyes
      simp [hchoose, hfollow, hdyes]
    | false =>
      rw [o.choose_of_floor hop w hfollow hdyes]
      cases hfloor : o.applies hop w .minCount <;> cases hrandom : o.applies hop w .random <;>
        simp [hfollow, hdyes, hfloor, hrandom]

theorem isSampled_of_first? {c : Strategy} (h : o.first? hop w = some c) : c.isSampled = true := by
  have hall : ∀ c ∈ [Strategy.follow, .dyeing, .minCount, .random], c.isSampled = true := by decide
  exact hall c (List.mem_of_find?_eq_some h)

/-! ## The stage -/

variable (st : StageState)

theorem windows_defaultStage :
    (defaultStage o st).1.resources.windows =
      if o.asksFloor st.hop st.resources.windows then (o.floor st.resources.windows).1
      else st.resources.windows := by
  rw [← choose_fst, defaultStage_eq]
  dsimp only
  split
  · split <;> rfl
  · rfl

theorem choice_strategy :
    (o.choice st).strategy = (o.first? st.hop st.resources.windows).getD .notMatch :=
  o.choose_strategy st.hop st.resources.windows

/-- Without a strategy no bucket is asked. -/
theorem defaultStage_of_none (h : o.first? st.hop st.resources.windows = none) :
    (defaultStage o st).1.resources.limiter = st.resources.limiter ∧
      (defaultStage o st).2.decision ≠ .recordAndSample := by
  have hunsampled : ¬ (o.choice st).strategy.isSampled = true := by
    rw [choice_strategy, h]
    decide
  rw [defaultStage_eq]
  dsimp only
  rw [if_neg hunsampled]
  refine ⟨rfl, ?_⟩
  dsimp only
  split <;> simp

/-- What comes of a strategy that applies is up to its bucket. -/
theorem defaultStage_of_some {c : Strategy} (h : o.first? st.hop st.resources.windows = some c) :
    let paid := st.resources.limiter.allow (st.hop.bucket c) o.now
    (defaultStage o st).1.resources.limiter = paid.1 ∧
      ((defaultStage o st).2.decision = .recordAndSample ↔ paid.2 = true) ∧
      (paid.2 = true → (defaultStage o st).2.attributes = [strategyAttribute c] ∧
        (defaultStage o st).1.hop.lineage.Agrees .recordAndSample ∧
        (defaultStage o st).1.hop.lineage.sampled = c) := by
  intro paid
  have hchoice : (o.choice st).strategy = c := by rw [choice_strategy, h, Option.getD_some]
  have hsampled : (o.choice st).strategy.isSampled = true := by
    rw [hchoice]
    exact o.isSampled_of_first? st.hop st.resources.windows h
  have hcharge : o.charge st = paid := by rw [charge, hchoice]
  rw [defaultStage_eq]
  dsimp only
  rw [if_pos hsampled, hcharge]
  by_cases hpaid : paid.2 = true
  · rw [if_pos hpaid]
    refine ⟨rfl, iff_of_true rfl hpaid, fun _ => ⟨by rw [hchoice], ?_, hchoice⟩⟩
    exact HopState.kept_agrees st.hop hsampled
  · rw [if_neg hpaid]
    exact ⟨rfl, iff_of_false (by simp [StageResult.dropped]) hpaid, fun hgranted =>
      absurd hgranted hpaid⟩

end Occasion

/-! ## The sampler -/

theorem Decision.drop_merge (d : Decision) : Decision.drop.merge d = d := by
  cases d <;> rfl

namespace Sampler

/-- Without the workflow stage a decision is that of the decision stage alone. -/
theorem sample_of_disabled {s : Sampler} (h : s.snapshot.settings.workflow.enabled = false)
    (r : Request) (now : Nat) :
    let out := s.stage (s.occasion r now) ⟨s.resources, incoming r⟩
    (s.sample r now).1 = { s with resources := out.1.resources } ∧
      (s.sample r now).2.decision = out.2.decision ∧
      (s.sample r now).2.attributes = out.2.attributes ∧
      (s.sample r now).2.state.lineage = out.1.hop.lineage.align out.2.decision := by
  have hskip : Workflow.sample s.snapshot.settings.workflow r (s.occasion r now).interface s.edges
    (incoming r) = (s.edges, incoming r, .dropped) := if_pos h
  unfold sample
  dsimp only
  rw [hskip]
  dsimp only [StageResult.merge_decision, StageResult.merge_attributes, StageResult.dropped]
  rw [Decision.drop_merge]
  exact ⟨rfl, rfl, rfl, rfl⟩

/-- One decision of the default stage alone. The strategy is the first one that applies, and the
windows are touched only if the decision comes to the floor. A single token is asked from a single
bucket if a strategy applies, and else from none. The span is kept if the token is granted, and then
it names its strategy once. -/
theorem sample_spends {s : Sampler} (hstage : s.stage = defaultStage)
    (hworkflow : s.snapshot.settings.workflow.enabled = false) (r : Request) (now : Nat) :
    let o := s.occasion r now
    let hop := incoming r
    let windows := s.resources.windows
    let limiter := s.resources.limiter
    let chosen := o.first? hop windows
    let payer (c : Strategy) := if hop.lineage.root.isSampled then hop.lineage.root else c
    let grants (c : Strategy) : Bool :=
      ((limiter.charged? (payer c)).map fun b => (b.consume 1 now).2).getD true
    let next := (s.sample r now).1
    let result := (s.sample r now).2
    next = { s with resources := next.resources } ∧
    next.resources.windows =
      (if o.asksFloor hop windows then (o.floor windows).1 else windows) ∧
    (chosen = none → next.resources.limiter = limiter) ∧
    (∀ c, chosen = some c →
      (∀ t, next.resources.limiter.bucket? t =
        if t = payer c then (limiter.bucket? t).map fun b => (b.consume 1 now).1
        else limiter.bucket? t) ∧
      next.resources.limiter.default =
        if limiter.hasBucket (payer c) then limiter.default
        else limiter.default.map fun b => (b.consume 1 now).1) ∧
    (result.decision = .recordAndSample ↔ ∃ c, chosen = some c ∧ grants c = true) ∧
    ∀ c, chosen = some c → result.decision = .recordAndSample →
      result.attributes = [⟨Key.strategy, .text c.name⟩] ∧
      result.state.lineage.sampled = c := by
  intro o hop windows limiter chosen payer grants next result
  obtain ⟨hnext, hdecision, hattributes, hlineage⟩ := sample_of_disabled hworkflow r now
  have hout : s.stage o ⟨s.resources, hop⟩ = defaultStage o ⟨s.resources, hop⟩ := by rw [hstage]
  rw [hout] at hnext hdecision hattributes hlineage
  have hresources : next.resources = (defaultStage o ⟨s.resources, hop⟩).1.resources :=
    congrArg Sampler.resources hnext
  have hgrants : ∀ c, (limiter.allow (payer c) now).2 = grants c :=
    fun c => limiter.allow_granted (payer c) now
  refine ⟨?_, ?_, fun hnone => ?_, fun c hc => ?_, ?_, fun c hc hkept => ?_⟩
  · rw [hresources]
    exact hnext
  · rw [hresources]
    exact o.windows_defaultStage ⟨s.resources, hop⟩
  · rw [hresources]
    exact (o.defaultStage_of_none ⟨s.resources, hop⟩ hnone).1
  · obtain ⟨hlimiter, -, -⟩ := o.defaultStage_of_some ⟨s.resources, hop⟩ hc
    rw [hresources, hlimiter]
    exact ⟨limiter.bucket?_allow (payer c) now, limiter.default_allow (payer c) now⟩
  · rw [hdecision]
    cases hc : chosen with
    | none => simp [(o.defaultStage_of_none ⟨s.resources, hop⟩ hc).2]
    | some c =>
      obtain ⟨-, hpaid, -⟩ := o.defaultStage_of_some ⟨s.resources, hop⟩ hc
      rw [hpaid]
      constructor
      · intro hgranted
        exact ⟨c, rfl, (hgrants c).symm.trans hgranted⟩
      · rintro ⟨_, ⟨⟩, hgranted⟩
        exact (hgrants c).trans hgranted
  · obtain ⟨-, hpaid, hkeeps⟩ := o.defaultStage_of_some ⟨s.resources, hop⟩ hc
    rw [hdecision] at hkept
    obtain ⟨hnames, hagrees, hsampled⟩ := hkeeps (hpaid.mp hkept)
    rw [hattributes, hlineage, hkept, hagrees.align_eq]
    exact ⟨hnames, hsampled⟩

/-- Floors are kept, and dyed spans have a bucket with a single token. -/
def dyeingOnce : Sampler :=
  make
    { settings.workflow.enabled := false
      settings.minSample.enabled := true
      settings.rateLimit.buckets := [(Strategy.dyeing.name, { rate := 1, burst := 1 })]
      background := false } 0

def forcedSpan : Request where
  traceId := 1
  name := "GET /cart"
  kind := .server
  attributes := [⟨Key.force, .text "1"⟩]

/-- The forced span takes the token and nothing from its floor. -/
theorem sample_forcedSpan :
    let next := (dyeingOnce.sample forcedSpan 0).1
    let result := (dyeingOnce.sample forcedSpan 0).2
    dyeingOnce.stage = defaultStage ∧ dyeingOnce.snapshot.settings.workflow.enabled = false ∧
      result.decision = .recordAndSample ∧ result.state.lineage.sampled = .dyeing ∧
      next.resources.windows = dyeingOnce.resources.windows ∧
      next.resources.limiter.bucket? .dyeing ≠ dyeingOnce.resources.limiter.bucket? .dyeing := by
  have hworkflow : dyeingOnce.snapshot.settings.workflow.enabled = false := by decide +kernel
  have hchosen : (dyeingOnce.occasion forcedSpan 0).first? (incoming forcedSpan)
    dyeingOnce.resources.windows = some .dyeing := by decide +kernel
  obtain ⟨-, hwindows, -, hpaid, hdecision, hnamed⟩ :=
    sample_spends (s := dyeingOnce) rfl hworkflow forcedSpan 0
  have hkept := hdecision.mpr ⟨.dyeing, hchosen, by decide +kernel⟩
  refine ⟨rfl, hworkflow, hkept, (hnamed .dyeing hchosen hkept).2,
    hwindows.trans (if_neg (by decide +kernel)), ?_⟩
  rw [(hpaid .dyeing hchosen).1]
  decide +kernel

end Sampler

end TraceSampling
