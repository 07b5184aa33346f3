import TraceSampling.Proofs.Sampler.Chain
import TraceSampling.Proofs.Sampler.Spending
import TraceSampling.Sampler.Script

/-!
# Roots of kept spans

A span that is kept without a strategy of its own gets one, and a root with it if there is none. A
decision stage that writes a strategy for the hop and none for the root gets no root, and what is
kept further on is then charged to some other bucket.
-/

namespace TraceSampling

/-- A root that is not kept stays under a strategy that is, and is made up only without one. -/
theorem Lineage.isSampled_root_align (l : Lineage) :
    (l.align .recordAndSample).root.isSampled = true ↔
      (l.sampled.isSampled = true → l.root.isSampled = true) := by
  unfold align
  extract_lets m
  have hroot : m.root.isSampled = l.root.isSampled := by
    simp only [m]
    split
    · next h => rw [h]; rfl
    · rfl
  have hsampled : m.sampled = l.sampled := by
    simp only [m]
    split <;> rfl
  rw [if_pos rfl, hsampled]
  by_cases hs : l.sampled.isSampled = true
  · rw [if_pos hs, hroot]
    simp [hs]
  · rw [if_neg hs]
    refine iff_of_true ?_ fun h => absurd h hs
    dsimp only
    split
    · assumption
    · rfl

namespace Sampler

theorem sample_resources (s : Sampler) (r : Request) (now : Nat) :
    (s.sample r now).1.resources =
      (s.stage (s.occasion r now) (s.entering r)).1.resources := by
  have hhop := Workflow.sample_hop s.snapshot.settings.workflow r (r.interface s.service) s.edges
    (incoming r)
  unfold entering mark
  rw [← hhop]
  rfl

end Sampler

/-! ## Hops below a root -/

/-- A hop whose caller was kept under some root. -/
structure Link.Below (l : Link) (root : Strategy) : Prop where
  called : ∃ carried, l.carried = some carried
  sampled : l.arriving.lineage.sampled.isSampled = true
  root_eq : l.arriving.lineage.root = root

namespace Link.Below

variable {l : Link} {root : Strategy}

theorem follows (h : l.Below root) :
    let st := l.hop.sampler.entering l.request
    (l.hop.sampler.occasion l.request l.hop.now).first? st.hop st.resources.windows =
      some .follow := by
  intro st
  obtain ⟨carried, hcarried⟩ := h.called
  have happlies : (l.hop.sampler.occasion l.request l.hop.now).applies st.hop st.resources.windows
    .follow = true := l.followsParent hcarried h.sampled
  simp [Occasion.first?, happlies]

/-- Whatever the hop would have been kept for, the root pays. -/
theorem charged (h : l.Below root) (hroot : root.isSampled = true) :
    let paid := l.hop.sampler.resources.limiter.allow root l.hop.now
    (l.hop.sampler.sample l.request l.hop.now).1.resources.limiter = paid.1 ∧
      (l.Kept ↔ paid.2 = true) := by
  intro paid
  have hbucket : (l.hop.sampler.entering l.request).hop.bucket .follow = root := by
    have hentering : (l.hop.sampler.entering l.request).hop.lineage.root = root := h.root_eq
    rw [HopState.bucket, hentering, if_pos hroot]
  obtain ⟨hlimiter, hdecision, -⟩ := Occasion.defaultStage_of_some _ _ h.follows
  rw [hbucket] at hlimiter hdecision
  rw [← l.hop.default_stage] at hlimiter hdecision
  obtain ⟨found, hfound, hmerged, -⟩ := l.hop.sampler.sample_eq l.request l.hop.now
  refine ⟨?_, ?_⟩
  · rw [Sampler.sample_resources]
    exact hlimiter
  · rw [Link.Kept, Link.result, hmerged, Decision.merge_eq_recordAndSample hfound]
    exact hdecision

/-- What a kept hop calls is below the same root. -/
theorem of_calls (h : l.Below root) (hroot : root.isSampled = true) (hfollow : root ≠ .follow)
    (hkept : l.Kept) {next : Link} (hcalls : l.Calls next) : next.Below root where
  called := ⟨l.leaving, hcalls⟩
  sampled := hcalls.isSampled_arriving hkept
  root_eq := by
    have hsampled : l.result.state.lineage.root.isSampled = true :=
      Link.isSampled_root_of_kept hkept
    have hstays : l.result.state.lineage.root = root := by
      have heq := l.root_eq (by rwa [h.root_eq])
      split at heq
      · rw [heq] at hsampled
        cases hsampled
      · exact heq.trans h.root_eq
    rw [hcalls.arriving_eq, HopState.egress_root_eq hsampled (hstays ▸ hfollow), hstays]

end Link.Below

theorem below_of_isChain {first : Link} {rest : List Link} {root : Strategy}
    (hcalls : (first :: rest).IsChain Link.Calls) (hfirst : first.Below root)
    (hroot : root.isSampled = true) (hfollow : root ≠ .follow) {before after : List Link} {l : Link}
    (hsplit : first :: rest = before ++ l :: after) (hkept : ∀ b ∈ before, b.Kept) :
    l.Below root := by
  induction before generalizing first rest with
  | nil =>
    obtain ⟨rfl, -⟩ := List.cons_eq_cons.mp hsplit
    exact hfirst
  | cons b before ih =>
    obtain ⟨rfl, hrest⟩ := List.cons_eq_cons.mp hsplit
    cases rest with
    | nil => simp at hrest
    | cons next rest =>
      obtain ⟨hcall, hcalls⟩ := List.isChain_cons_cons.mp hcalls
      have hnext : next.Below root :=
        hfirst.of_calls hroot hfollow (hkept first List.mem_cons_self) hcall
      exact ih hcalls hnext hrest fun b hb => hkept b (List.mem_cons_of_mem _ hb)

/-- Behind kept hops only, everything in a chain is below the root that the chain starts with. -/
theorem below_of_mem_chain {carried : String} {root : Strategy}
    (hsampled : (HopState.decode carried).lineage.sampled.isSampled = true)
    (hcarried : (HopState.decode carried).lineage.root = root) (hroot : root.isSampled = true)
    (hfollow : root ≠ .follow) {hops : List Hop} {before after : List Link} {l : Link}
    (hsplit : chain (some carried) hops = before ++ l :: after) (hkept : ∀ b ∈ before, b.Kept) :
    l.Below root := by
  have hcalls := chain_calls (some carried) hops
  cases hops with
  | nil => simp [chain] at hsplit
  | cons hop hops =>
    have hfirst : (Link.mk hop (some carried)).Below root := ⟨⟨carried, rfl⟩, hsampled, hcarried⟩
    exact below_of_isChain hcalls hfirst hroot hfollow hsplit hkept

/-! ## The root of a kept span -/

namespace Sampler

/-- A kept span has a kept root unless the decision stage has written a strategy for the hop alone.
Under a kept root all that is called is charged to the bucket of the root, which is that of a merely
kept one where following is all that is known, until one of these buckets refuses. -/
theorem sample_root_iff {s : Sampler} {r : Request} {now : Nat}
    (hkept : (s.sample r now).2.decision = .recordAndSample) :
    let written := (s.stage (s.occasion r now) (s.entering r)).1.hop.lineage
    let state := (s.sample r now).2.state
    let root := state.lineage.root
    let payer := if root = .follow then .matched else root
    (root.isSampled = true ↔ (written.sampled.isSampled = true → written.root.isSampled = true)) ∧
    (s.stage = defaultStage → root.isSampled = true) ∧
    (root.isSampled = true → ∀ hops before l after,
      chain (some state.egress.encode) hops = before ++ l :: after → (∀ b ∈ before, b.Kept) →
        let paid := l.hop.sampler.resources.limiter.allow payer l.hop.now
        (l.hop.sampler.sample l.request l.hop.now).1.resources.limiter = paid.1 ∧
          (l.Kept ↔ paid.2 = true)) := by
  intro written state root payer
  obtain ⟨found, -, hdecision, hstate⟩ := s.sample_eq r now
  have hroot : root = (written.align .recordAndSample).root := by
    rw [← hkept, hdecision]
    exact congrArg (HopState.lineage · |>.root) hstate
  have hsampled : state.lineage.sampled.isSampled = true :=
    (s.sample_lineage_agrees r now).sampled_iff.mp hkept
  refine ⟨by rw [hroot, written.isSampled_root_align],
    fun hstage => isSampled_root_of_kept hstage hkept, ?_⟩
  intro hrooted hops before l after hsplit hbefore
  have hpayer : state.egress.lineage.root = payer := by
    simp [HopState.egress_root, payer, root, hrooted]
  have hpaying : payer.isSampled = true := hpayer ▸ HopState.isSampled_egress_root hrooted
  have hfollow : payer ≠ .follow := hpayer ▸ state.egress_root_ne_follow
  have hbelow : l.Below payer :=
    below_of_mem_chain (by rwa [HopState.decode_encode, HopState.egress_sampled])
      (by rwa [HopState.decode_encode]) hpaying hfollow hsplit hbefore
  exact hbelow.charged hpaying

/-- A sampler that keeps every span under what is written over the carried state. -/
def keepingUnder (written : Adjustment) : Sampler :=
  let script : StageScript := { before := written, decision := some .recordAndSample }
  let settings : Settings := { fraction := .zero, workflow := { enabled := false } }
  make { settings, stage := script.stage, background := false } 0

def rootSpan : Request where
  traceId := 1
  name := "GET /cart"
  kind := .server

/-- A hop that is called by a span of the same trace. -/
def calledHop : Hop where
  sampler := dyeingOnce
  request := rootSpan
  now := 0
  default_stage := rfl

def underDyeing : Sampler := keepingUnder { sampled := some .user, root := some .dyeing }

/-- A root that is written is a root for all that is called. -/
theorem sample_underDyeing :
    let result := (underDyeing.sample rootSpan 0).2
    let below : Link := ⟨calledHop, some result.state.egress.encode⟩
    result.decision = .recordAndSample ∧ result.state.lineage.root.isSampled = true ∧
      (calledHop.sampler.sample below.request 0).1.resources.limiter =
        (calledHop.sampler.resources.limiter.allow .dyeing 0).1 := by
  have hkept : (underDyeing.sample rootSpan 0).2.decision = .recordAndSample := by decide +kernel
  have hroot : (underDyeing.sample rootSpan 0).2.state.lineage.root = .dyeing := by decide +kernel
  obtain ⟨hiff, -, hpays⟩ := sample_root_iff hkept
  have hsampled := hiff.mpr fun _ => by decide +kernel
  have hpaid := (hpays hsampled [calledHop] [] _ [] rfl fun _ hb => absurd hb List.not_mem_nil).1
  simp only [hroot] at hpaid
  exact ⟨hkept, hsampled, hpaid⟩

/-- A kept span without a kept root: the stage has written that the span is kept, and no root. What
the span calls is charged to the bucket of those that follow. -/
theorem sample_underNoRoot :
    let s := keepingUnder { sampled := some .user }
    let result := (s.sample rootSpan 0).2
    let below : Link := ⟨calledHop, some result.state.egress.encode⟩
    result.decision = .recordAndSample ∧ result.state.lineage.sampled = .user ∧
      result.state.lineage.root = .notMatch ∧ Strategy.notMatch.isSampled = false ∧
      below.arriving.bucket .follow = .follow := by
  decide +kernel

end Sampler

end TraceSampling
