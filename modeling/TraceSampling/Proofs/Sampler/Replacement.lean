import TraceSampling.Proofs.RateLimiter.Routing
import TraceSampling.Proofs.Sampler.Regime
import TraceSampling.Proofs.Sampler.Usage

/-!
# What new settings replace

Behind an update a sampler has the new settings in force wherever it keeps any, and goes on to have
the last settings in force whatever it is used for. All that it has learned is left as it was, apart
from what its rotation has found overdue. This is all that can be left of settings that were
replaced at once.
-/

namespace TraceSampling

/-! ## What is read afterwards -/

namespace Workflow

theorem Evaluation.limit_run (e : Evaluation) (c : EdgeCache) : (e.run c).1.limit = c.limit := by
  rw [e.cache_run]
  unfold cacheCall?
  split
  · rfl
  · split
    · rfl
    · rw [Option.map_some, Option.getD_some, EdgeCache.serve_insert, EdgeCache.insertWith_eq]
      dsimp only
      split
      · exact EdgeCache.limit_setSide ..
      · rfl

end Workflow

/-- The settings in force behind a use, given those before. -/
def Settings.behind (c : Settings) : SamplerUse → Settings
  | .call (.update settings _) => settings
  | _ => c

/-- A sampler that has the same settings in force wherever it keeps any. -/
structure Sampler.Obeys (s : Sampler) (c : Settings) : Prop where
  snapshot_eq : s.snapshot = Snapshot.compile c
  limit_eq : s.edges.limit = c.sanitize.workflow.maxInsertionsPerMinute
  waiting_eq : ∀ r, s.rotation = some r → r.stopped = false → r.waiting = c.sanitize.intervals

theorem Sampler.limit_renewed (s : Sampler) (now : Nat) (items : List Item) :
    (s.renewed now items).edges.limit = s.edges.limit := by
  unfold renewed
  dsimp only
  split <;> split <;> rfl

namespace Sampler.Obeys

variable {s : Sampler} {c : Settings}

theorem sample (h : s.Obeys c) (r : Request) (now : Nat) : (s.sample r now).1.Obeys c where
  snapshot_eq := h.snapshot_eq
  limit_eq := ((s.evaluation r).limit_run s.edges).trans h.limit_eq
  waiting_eq := h.waiting_eq

theorem under (s : Sampler) (c : Settings) (now : Nat) : (s.under (c.regime now)).Obeys c where
  snapshot_eq := rfl
  limit_eq := rfl
  waiting_eq r hr hrunning := by
    obtain ⟨r', -, rfl⟩ := Option.map_eq_some_iff.mp hr
    rw [Rotation.stopped_await] at hrunning
    rw [Rotation.await, if_neg (ne_true_of_eq_false hrunning)]
    rfl

theorem renew (h : s.Obeys c) (now : Nat) (i : Item) : (s.renew now i).Obeys c := by
  cases i <;> exact ⟨h.snapshot_eq, h.limit_eq, h.waiting_eq⟩

theorem wake (h : s.Obeys c) (w : WakeUp) (now : Nat) : (s.wake w now).Obeys c := by
  cases hr : s.rotation with
  | none =>
    rw [Sampler.wake, hr]
    exact h
  | some r =>
    rw [wake_eq now hr]
    refine ⟨h.snapshot_eq, (s.limit_renewed now _).trans h.limit_eq, fun next hnext hrunning => ?_⟩
    obtain rfl := Option.some.inj hnext
    rw [Rotation.waiting_wake _ _ _ hrunning, h.snapshot_eq]
    rfl

theorem use (h : s.Obeys c) (use : SamplerUse) : (s.use use).1.Obeys (c.behind use) := by
  cases use with
  | call call =>
    cases call with
    | request r now => exact h.sample r now
    | update settings now =>
      have hupdate : (s.use (.call (.update settings now))).1 = _ := s.update_eq settings now
      rw [hupdate]
      exact under _ settings now
    | renew item now => exact h.renew now item
    | wake w now => exact h.wake w now
  | shouldSample r parent now => exact h.sample _ now
  | evaluate o => exact h
  | precompute mark o => exact h
  | judge mark o => exact h
  | precomputeSpan context live now => exact ⟨h.snapshot_eq, h.limit_eq, h.waiting_eq⟩
  | endSpan d => exact ⟨h.snapshot_eq, h.limit_eq, h.waiting_eq⟩
  | shutDown now =>
    have hwoken := h.wake .stop now
    change (s.shutDown now).1.Obeys c
    unfold Sampler.shutDown
    split
    · exact h
    · exact ⟨hwoken.snapshot_eq, hwoken.limit_eq, hwoken.waiting_eq⟩

theorem useAll (h : s.Obeys c) (uses : List SamplerUse) :
    (s.useAll uses).Obeys (uses.foldl Settings.behind c) := by
  induction uses generalizing s c with
  | nil => exact h
  | cons use uses ih => exact ih (h.use use)

end Sampler.Obeys

/-! ## The change as a whole -/

/-- Every bucket is that of an entry of the table, with a whole burst in it. -/
def RateLimiter.AllFull (l : RateLimiter) (s : RateLimitSettings) (now : Nat) : Prop :=
  ∀ p b, l.purse? p = some b →
    ∃ e ∈ s.buckets, b = s.bucket now e.2 ∧ b.Full e.2 s.tick now

theorem RateLimitSettings.allFull_limiter (s : RateLimitSettings) (now : Nat) :
    (s.limiter now).AllFull s now := by
  have hlast {p : String → Bool} {b : TokenBucket} (h : s.last? now p = some b) :
      ∃ e ∈ s.buckets, b = s.bucket now e.2 ∧ b.Full e.2 s.tick now := by
    obtain ⟨e, he, rfl⟩ := Option.map_eq_some_iff.mp h
    exact ⟨e, List.mem_reverse.mp (List.mem_of_find?_eq_some he), rfl,
      TokenBucket.full_make e.2 s.tick now⟩
  intro p b hb
  cases p with
  | own strategy => exact hlast ((s.limiter_bucket? now strategy).symm.trans hb)
  | shared => exact hlast ((s.limiter_default now).symm.trans hb)
  | nobody => cases hb

/-- The sampler behind new settings, and what it was before. Only what is overdue has changed apart
from the settings. -/
structure Sampler.Replaces (next s : Sampler) (c : Settings) (now : Nat) : Prop where
  obeys : next.Obeys c
  limiter_eq : next.resources.limiter = c.sanitize.rateLimit.limiter now
  allFull : next.resources.limiter.AllFull c.sanitize.rateLimit now
  windows_eq : next.resources.windows =
    if .window ∈ s.overdue c now then
      { current := { counts := [], distinct := 0, started := now }
        previous := s.resources.windows.current }
    else s.resources.windows
  side_eq : ∀ side, next.edges.side side =
    if .cache ∈ s.overdue c now then {} else s.edges.side side
  used_eq : next.edges.used = if .budget ∈ s.overdue c now then 0 else s.edges.used
  marks_eq : next.marks = s.marks
  service_eq : next.service = s.service
  stage_eq : next.stage = s.stage
  isShutDown_eq : next.isShutDown = s.isShutDown

namespace Sampler

variable (s : Sampler) (now : Nat)

theorem replaces_update (c : Settings) : (s.update c now).Replaces s c now := by
  rw [update_eq]
  exact {
    obeys := .under _ c now
    limiter_eq := rfl
    allFull := c.sanitize.rateLimit.allFull_limiter now
    windows_eq := congrArg (·.windows) (s.resources_renewed now _)
    side_eq := s.side_renewed now _
    used_eq := s.used_renewed now _
    marks_eq := rfl
    service_eq := rfl
    stage_eq := rfl
    isShutDown_eq := rfl }

/-- Of the settings before, nothing is read again. -/
theorem update_under (g : Regime) (c : Settings) : (s.under g).update c now = s.update c now := by
  rw [update_eq, update_eq, overdue_under, turn_under, under_under]

theorem update_congr {c c' : Settings} (h : c.sanitize = c'.sanitize) :
    s.update c now = s.update c' now := by
  have hcompile : Snapshot.compile c = Snapshot.compile c' := by
    unfold Snapshot.compile
    rw [h]
  unfold update publish
  rw [hcompile]

theorem last_turn_under (items : List Item) (g : Regime) (i : Item) :
    ((s.turn now items).under g).rotation.map (fun r => r.last.get i) =
      s.rotation.map fun r => if i ∈ items then now else r.last.get i := by
  have hlast (r : Rotation) : ((r.turn now items).await g.waiting).last.get i =
      if i ∈ items then now else r.last.get i := by
    rw [Rotation.last_await]
    exact PerItem.get_ofFn _ i
  unfold under turn
  dsimp only
  rw [Option.map_map, Option.map_map]
  exact congrArg (s.rotation.map ·) (funext hlast)

/-- The first of two updates shows only in what it alone has found overdue. -/
theorem update_update_eq_iff (c₁ c₂ : Settings) :
    (s.update c₁ now).update c₂ now = s.update c₂ now ↔
      ∀ i ∈ s.overdue c₁ now, i ∈ s.overdue c₂ now := by
  rw [update_update, update_eq s c₂]
  constructor
  · intro hsame i hi
    by_contra hnot
    -- The item was renewed now, and yet last renewed before now.
    obtain ⟨r, hr, hoverdue⟩ := (s.mem_overdue_iff i).mp hi
    have hlast := congrArg (fun t : Sampler => t.rotation.map fun r => r.last.get i) hsame
    have hpos := c₁.intervals_sanitize_pos i
    rw [last_turn_under, last_turn_under, hr, Option.map_some, Option.map_some,
      if_pos (List.mem_append_left _ hi), if_neg hnot] at hlast
    have hnow : now = r.last.get i := Option.some.inj hlast
    obtain ⟨-, hdue, -⟩ := (r.mem_overdue_iff _ now i).mp hoverdue
    omega
  · intro hwithin
    have hsame : ∀ i, i ∈ s.overdue c₁ now ++ s.overdue c₂ now ↔ i ∈ s.overdue c₂ now := fun i =>
      List.mem_append.trans (or_iff_right_of_imp (hwithin i))
    rw [turn_congr now hsame]

/-- Where the rotation hears of both settings only when both are in force, the first ones never
show. -/
theorem publish_publish (c₁ c₂ : Settings) :
    ((((s.publish c₁ now).publish c₂ now).wake .reschedule now).wake .reschedule now).catchUp now =
      s.update c₂ now := by
  have hover : (s.publish c₁ now).publish c₂ now = s.publish c₂ now := rfl
  have hagain : (s.under (c₂.regime now)).publish c₂ now = s.under (c₂.regime now) := rfl
  have htwice := (s.under (c₂.regime now)).wake_publish c₂ now
  rw [hagain, under_under] at htwice
  rw [hover, wake_publish, htwice, update, wake_publish]

/-- New settings replace the old ones and nothing else, apart from what the rotation that is told of
them renews. -/
theorem update_replaces (s : Sampler) (c₁ c₂ : Settings) (now : Nat) :
    let once := s.update c₂ now
    let twice := (s.update c₁ now).update c₂ now
    (twice = once ↔ ∀ i ∈ s.overdue c₁ now, i ∈ s.overdue c₂ now) ∧
      ((((s.publish c₁ now).publish c₂ now).wake .reschedule now).wake .reschedule now).catchUp
        now = once ∧
      once.Replaces s c₂ now ∧
      (∀ g c, c.sanitize = c₂.sanitize → (s.under g).update c now = once) ∧
      ∀ uses, (once.useAll uses).Obeys (uses.foldl Settings.behind c₂) :=
  ⟨s.update_update_eq_iff now c₁ c₂, s.publish_publish now c₁ c₂, s.replaces_update now c₂,
    fun g c h => (s.update_under now g c).trans (s.update_congr now h),
    fun uses => (s.replaces_update now c₂).obeys.useAll uses⟩

/-- A call into another service. -/
def cartCall : Request where
  traceId := 1
  name := "x"
  kind := .client
  attributes := [⟨Key.calleeService, .text "cart"⟩]

/-- A sampler that has seen the edge of the call, and nothing else. -/
def behindCartCall : Sampler :=
  ((make { service := "checkout", settings := { fraction := .zero } } 0).sample cartCall 0).1

/-- Ten seconds later a cache that would live for one second is forgotten. That the settings are
replaced in the same moment by those from the beginning does not bring it back. -/
theorem update_update_behindCartCall :
    let now := 10 * nanosPerSecond
    let settings : Settings := { fraction := .zero }
    let brief : Settings := { settings with workflow.cacheLifetimeSecs := 1 }
    let once := behindCartCall.update settings now
    let twice := (behindCartCall.update brief now).update settings now
    let uses : List SamplerUse := [.call (.request cartCall now)]
    (behindCartCall.update brief now).edges.client ≠ behindCartCall.edges.client ∧
      (twice.answers uses).map SamplerAnswer.decision? = [some .recordOnly] ∧
      (once.answers uses).map SamplerAnswer.decision? = [some .drop] ∧
      twice.answers uses ≠ once.answers uses := by
  intro now settings brief once twice uses
  have htwice : (twice.answers uses).map SamplerAnswer.decision? = [some .recordOnly] := by
    decide +kernel
  have honce : (once.answers uses).map SamplerAnswer.decision? = [some .drop] := by
    decide +kernel
  refine ⟨by decide +kernel, htwice, honce, fun hsame => ?_⟩
  rw [hsame, honce] at htwice
  cases htwice

end Sampler

end TraceSampling
