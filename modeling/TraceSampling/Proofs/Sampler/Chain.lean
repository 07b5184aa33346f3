import Mathlib.Data.List.Chain
import TraceSampling.Proofs.Sampler.DefaultStage

/-!
# Lineage along a chain of calls

Hops call each other, each with a sampler of its own, and every hop reads what the one before it has
put on the wire. A kept hop is followed unless the bucket of the root on the wire refuses, and the
root stays what it is as long as nothing is refused.
-/

namespace TraceSampling

/-- A sampler with the default stage that gets a request; the flag and the trace of the parent come
with the call. -/
structure Hop where
  sampler : Sampler
  request : Request
  parentTrace : TraceId := 0
  flagged : Bool := false
  now : Nat
  default_stage : sampler.stage = defaultStage

/-- A hop and what it reads from the wire, if there is a parent. -/
structure Link where
  hop : Hop
  carried : Option String

namespace Link

def request (l : Link) : Request :=
  { l.hop.request with
    parent := l.carried.map fun carried => ⟨l.hop.parentTrace, l.hop.flagged, carried⟩ }

/-- The state on the wire into a hop. -/
def arriving (l : Link) : HopState := Sampler.incoming l.request

def result (l : Link) : SamplingResult := (l.hop.sampler.sample l.request l.hop.now).2

/-- What a hop puts on the wire. -/
def leaving (l : Link) : String := l.result.state.egress.encode

/-- The root strategy on the wire out of a hop. -/
def leavingRoot (l : Link) : Strategy := (HopState.decode l.leaving).lineage.root

def Kept (l : Link) : Prop := l.result.decision = .recordAndSample

/-- Whether the limiter of a hop refuses a token to the bucket of the root on the wire. -/
def rootRefused (l : Link) : Bool :=
  !(l.hop.sampler.resources.limiter.allow l.arriving.lineage.root l.hop.now).2

/-- Whether the hop would have been kept, had its limiter not refused. -/
def refused (l : Link) : Bool := l.hop.sampler.refuses l.request l.hop.now

end Link

/-- The hops of a chain, the first of which reads what is given. -/
def chain : Option String → List Hop → List Link
  | _, [] => []
  | carried, h :: hs => ⟨h, carried⟩ :: chain (some (Link.leaving ⟨h, carried⟩)) hs

/-! ## One hop -/

namespace HopState

theorem egress_root (s : HopState) :
    s.egress.lineage.root =
      if s.lineage.root = .follow ∨
          (s.lineage.sampled = .follow ∧ s.lineage.root.isSampled = false) then .matched
      else s.lineage.root := by
  unfold egress
  split <;> rfl

theorem egress_root_ne_follow (s : HopState) : s.egress.lineage.root ≠ .follow := by
  rw [egress_root]
  split
  · simp
  · next h => exact fun hroot => h (.inl hroot)

theorem isSampled_egress_root {s : HopState} (h : s.lineage.root.isSampled = true) :
    s.egress.lineage.root.isSampled = true := by
  rw [egress_root]
  split
  · rfl
  · exact h

theorem egress_root_eq {s : HopState} (hsampled : s.lineage.root.isSampled = true)
    (hfollow : s.lineage.root ≠ .follow) : s.egress.lineage.root = s.lineage.root := by
  simp [egress_root, hsampled, hfollow]

end HopState

namespace Link

variable (l : Link)

theorem answers : l.hop.sampler.Answers l.request l.hop.now l.result :=
  Sampler.sample_answers l.hop.default_stage l.request l.hop.now

@[simp] theorem leavingRoot_eq : l.leavingRoot = l.result.state.egress.lineage.root := by
  rw [leavingRoot, leaving, HopState.decode_encode]

/-- A root on the wire is the root of the hop, unless the hop starts over. -/
theorem root_eq (hroot : l.arriving.lineage.root.isSampled = true) :
    l.result.state.lineage.root =
      if l.refused then .notMatch else l.arriving.lineage.root := by
  have hne : l.arriving.lineage.root ≠ .notExist := Strategy.ne_notExist_of_isSampled hroot
  cases l.answers with
  | kept hchoice hrefuses _ hlineage =>
    have hbucket : l.result.state.lineage.root =
      l.arriving.bucket (l.hop.sampler.choice l.request l.hop.now).strategy :=
        congrArg Lineage.root hlineage
    rw [hbucket, HopState.bucket, if_pos hroot, refused, hrefuses]
    rfl
  | refused hrefuses _ hlineage =>
    rw [hlineage, refused, hrefuses]
    rfl
  | unkept _ hrefuses _ hlineage =>
    have hunkept : l.result.state.lineage.root =
      if l.arriving.lineage.root = .notExist then .notMatch else l.arriving.lineage.root :=
        congrArg Lineage.root hlineage
    rw [hunkept, if_neg hne, refused, hrefuses]
    rfl

/-- A hop follows what it reads from the wire, if that was kept. -/
theorem followsParent {carried : String} (hcarried : l.carried = some carried)
    (hsampled : l.arriving.lineage.sampled.isSampled = true) :
    (l.hop.sampler.occasion l.request l.hop.now).followsParent (Sampler.incoming l.request) =
      true := by
  have hincoming : (Sampler.incoming l.request).lineage.sampled.isSampled = true := hsampled
  have hlegacy : (Sampler.incoming l.request).isLegacy = false :=
    HopState.isLegacy_eq_false (Strategy.ne_notExist_of_isSampled hincoming)
  have hparent : l.request.parent = some ⟨l.hop.parentTrace, l.hop.flagged, carried⟩ :=
    congrArg (Option.map _) hcarried
  simp [Occasion.followsParent, Sampler.occasion, hparent, hlegacy, hincoming]

theorem isSampled_root_of_kept {l : Link} (h : l.Kept) :
    l.result.state.lineage.root.isSampled = true :=
  Sampler.isSampled_root_of_kept l.hop.default_stage h

end Link

/-! ## Hops one after the other -/

/-- One hop reads what another one has put on the wire. -/
def Link.Calls (a b : Link) : Prop := b.carried = some a.leaving

theorem chain_calls (carried : Option String) (hops : List Hop) :
    (chain carried hops).IsChain Link.Calls := by
  induction hops generalizing carried with
  | nil => exact .nil
  | cons h hs ih =>
    cases hs with
    | nil => exact .singleton _
    | cons next hs => exact List.isChain_cons_cons.mpr ⟨rfl, ih (some (Link.leaving ⟨h, carried⟩))⟩

namespace Link.Calls

variable {a b : Link}

theorem arriving_eq (h : a.Calls b) : b.arriving = a.result.state.egress := by
  have hcarried : b.carried = some a.leaving := h
  simp [Link.arriving, Sampler.incoming, Link.request, hcarried, Link.leaving,
    HopState.decode_encode]

theorem isSampled_arriving (h : a.Calls b) (ha : a.Kept) :
    b.arriving.lineage.sampled.isSampled = true := by
  rw [h.arriving_eq, HopState.egress_sampled]
  exact (Sampler.sample_lineage_agrees _ _ _).sampled_iff.mp ha

theorem isSampled_arriving_root (h : a.Calls b) (ha : a.Kept) :
    b.arriving.lineage.root.isSampled = true := by
  rw [h.arriving_eq]
  exact HopState.isSampled_egress_root (Link.isSampled_root_of_kept ha)

theorem choice_eq (h : a.Calls b) (ha : a.Kept) :
    b.hop.sampler.choice b.request b.hop.now = { strategy := .follow } := by
  have hfollows := b.followsParent h (h.isSampled_arriving ha)
  simp [Sampler.choice, Occasion.choice, Occasion.choose, hfollows]

theorem refused_eq (h : a.Calls b) (ha : a.Kept) : b.refused = b.rootRefused := by
  have hroot : (Sampler.incoming b.request).lineage.root.isSampled = true :=
    h.isSampled_arriving_root ha
  have hbucket : (Sampler.incoming b.request).bucket .follow = b.arriving.lineage.root :=
    if_pos hroot
  have hchoice := h.choice_eq ha
  have hcharge : (b.hop.sampler.occasion b.request b.hop.now).charge
      ⟨b.hop.sampler.resources, Sampler.incoming b.request⟩ =
    b.hop.sampler.resources.limiter.allow b.arriving.lineage.root b.hop.now := by
    rw [Sampler.choice] at hchoice
    rw [Occasion.charge, hchoice, ← hbucket]
    rfl
  have hfollow : Strategy.follow.isSampled = true := rfl
  rw [Link.refused, Sampler.refuses, hchoice, hcharge, hfollow]
  rfl

/-- What becomes of the hop behind a kept one. -/
theorem follows (h : a.Calls b) (ha : a.Kept) :
    (b.rootRefused = false ∧ b.Kept ∧ b.result.state.lineage.sampled = .follow) ∨
      (b.rootRefused = true ∧ ¬ b.Kept ∧
        b.result.state.lineage = { sampled := .notMatch, root := .notMatch, args := none }) := by
  have hchoice := h.choice_eq ha
  have hrefused := h.refused_eq ha
  cases b.answers with
  | kept _ hrefuses hdecision hlineage =>
    refine .inl ⟨hrefused.symm.trans hrefuses, hdecision, ?_⟩
    rw [hlineage, hchoice]
    rfl
  | refused hrefuses hdecision hlineage =>
    exact .inr ⟨hrefused.symm.trans hrefuses, hdecision, hlineage⟩
  | unkept hunsampled _ _ _ =>
    rw [hchoice] at hunsampled
    cases hunsampled

theorem leavingRoot_eq (h : a.Calls b) (ha : a.Kept) (hb : b.Kept) :
    b.leavingRoot = a.leavingRoot := by
  have hsampled := h.isSampled_arriving_root ha
  have hgranted : b.refused = false := by
    obtain ⟨hroot, -, -⟩ | ⟨-, hdropped, -⟩ := h.follows ha
    · exact (h.refused_eq ha).trans hroot
    · exact absurd hb hdropped
  have hroot : b.result.state.lineage.root = a.result.state.egress.lineage.root := by
    rw [b.root_eq hsampled, hgranted, ← h.arriving_eq]
    rfl
  have hstays : b.result.state.egress.lineage.root = b.result.state.lineage.root := by
    refine HopState.egress_root_eq (Link.isSampled_root_of_kept hb) ?_
    rw [hroot]
    exact HopState.egress_root_ne_follow _
  rw [Link.leavingRoot_eq, Link.leavingRoot_eq, hstays, hroot]

end Link.Calls

theorem leavingRoot_of_isChain {first : Link} {run : List Link}
    (hcalls : (first :: run).IsChain Link.Calls) (hkept : ∀ l ∈ first :: run, l.Kept) :
    ∀ l ∈ run, l.leavingRoot = first.leavingRoot := by
  -- Each hop takes over the root from the one before, so the first one changes along the run.
  induction run generalizing first with
  | nil => simp
  | cons next run ih =>
    obtain ⟨hcall, hrest⟩ := List.isChain_cons_cons.mp hcalls
    have hfirst : first.Kept := hkept first (by simp)
    have hrun : ∀ l ∈ next :: run, l.Kept := fun l hl => hkept l (List.mem_cons_of_mem _ hl)
    have hnext : next.leavingRoot = first.leavingRoot :=
      hcall.leavingRoot_eq hfirst (hrun next (by simp))
    intro l hl
    obtain rfl | hl := List.mem_cons.mp hl
    · exact hnext
    · exact (ih hrest hrun l hl).trans hnext

/-- The lineage along any chain of hops. -/
theorem chain_lineage (carried : Option String) (hops : List Hop) :
    (chain carried hops).IsChain (fun a b => a.Kept →
        (b.rootRefused = false ∧ b.Kept ∧ b.result.state.lineage.sampled = .follow) ∨
        (b.rootRefused = true ∧ ¬ b.Kept ∧
          b.result.state.lineage = { sampled := .notMatch, root := .notMatch, args := none })) ∧
      (∀ l ∈ chain carried hops, l.arriving.lineage.root.isSampled = true →
        l.result.state.lineage.root =
          if l.refused then .notMatch else l.arriving.lineage.root) ∧
      ∀ before first run after, chain carried hops = before ++ (first :: run) ++ after →
        (∀ l ∈ first :: run, l.Kept) → ∀ l ∈ run, l.leavingRoot = first.leavingRoot := by
  have hcalls := chain_calls carried hops
  refine ⟨hcalls.imp fun a b h => h.follows, fun l _ => l.root_eq, ?_⟩
  intro before first run after hchain hkept
  have hrun : (first :: run).IsChain Link.Calls := by
    rw [hchain] at hcalls
    exact hcalls.left_of_append.right_of_append
  exact leavingRoot_of_isChain hrun hkept

end TraceSampling
