import TraceSampling.Proofs.Registry.Operations

/-!
# The life cycle of registered samplers

The log of a registry tells which sampler is registered under a target: the one that was created for
it last, unless the target was destroyed or the registry shut down since. A sampler that was created
is registered or has been shut down. While it is registered, only who holds its handle can have done
that, and this is what makes shutting down the registry fail.
-/

namespace TraceSampling

/-! ## Calls and their log -/

inductive RegistryCall where
  | create (target : String) (o : SamplerOptions) (now : Nat)
  | get (target : String)
  | update (target : String) (settings : Settings) (now : Nat)
  | destroy (target : String) (now : Nat)
  | shutDown (now : Nat)
  /-- Who holds a handle shuts its sampler down. -/
  | close (h : Handle) (now : Nat)

inductive RegistryAnswer where
  | created (outcome : Except SamplerError Handle)
  | found (h : Option Handle)
  | done (outcome : Except SamplerError Unit)
  /-- No such handle was ever given out. -/
  | noHandle

def Registry.serve (r : Registry) : RegistryCall → Registry × RegistryAnswer
  | .create target o now => ((r.create target o now).1, .created (r.create target o now).2)
  | .get target => (r, .found (r.get? target))
  | .update target c now => ((r.update target c now).1, .done (r.update target c now).2)
  | .destroy target now => ((r.destroy target now).1, .done (r.destroy target now).2)
  | .shutDown now => ((r.shutDown now).1, .done (r.shutDown now).2)
  | .close h now =>
    ((r.shutDownHandle h now).1,
      if h < r.pool.length then .done (r.shutDownHandle h now).2 else .noHandle)

structure RegistryEvent where
  call : RegistryCall
  answer : RegistryAnswer

namespace RegistryEvent

/-- The handle of the sampler that was created, if any. -/
def handle? : RegistryEvent → Option Handle
  | ⟨_, .created (.ok h)⟩ => some h
  | _ => none

/-- The handle of the sampler that was created for a target. -/
def created? (target : String) : RegistryEvent → Option Handle
  | ⟨.create name _ _, .created (.ok h)⟩ => if name = target then some h else none
  | _ => none

/-- Whether it takes a target out. -/
def ends (target : String) : RegistryEvent → Bool
  | ⟨.destroy name _, _⟩ => name = target
  | ⟨.shutDown _, _⟩ => true
  | _ => false

/-- Whether a sampler was shut down by who holds its handle. -/
def closes (h : Handle) : RegistryEvent → Bool
  | ⟨.close k _, .done _⟩ => k = h
  | _ => false

theorem created?_eq_some_iff (e : RegistryEvent) (target : String) (h : Handle) :
    e.created? target = some h ↔ ∃ o now, e = ⟨.create target o now, .created (.ok h)⟩ := by
  constructor
  · intro he
    unfold created? at he
    split at he
    · next name o now k =>
      obtain ⟨rfl, hk⟩ := Option.ite_none_right_eq_some.mp he
      obtain rfl := Option.some.inj hk
      exact ⟨o, now, rfl⟩
    · cases he
  · rintro ⟨o, now, rfl⟩
    exact if_pos rfl

theorem created?_of_handle? {e : RegistryEvent} (he : e.handle? = none) (target : String) :
    e.created? target = none := by
  unfold created?
  split
  · cases he
  · rfl

end RegistryEvent

/-- What was called and answered, the latest first. -/
abbrev RegistryLog := List RegistryEvent

namespace RegistryLog

/-- The handles that were given out. -/
def handles (log : RegistryLog) : List Handle := log.filterMap RegistryEvent.handle?

def closed (log : RegistryLog) (h : Handle) : Bool := log.any (·.closes h)

/-- The handle of the sampler that was created last for a target that was not taken out since. -/
def registered (target : String) : RegistryLog → Option Handle
  | [] => none
  | e :: earlier =>
    (e.created? target).or (if e.ends target then none else registered target earlier)

theorem registered_eq_some_iff (log : RegistryLog) (target : String) (h : Handle) :
    registered target log = some h ↔
      ∃ later earlier o now,
        log = later ++ ⟨.create target o now, .created (.ok h)⟩ :: earlier ∧
          ∀ e ∈ later, e.created? target = none ∧ e.ends target = false := by
  induction log with
  | nil => simp [registered]
  | cons e log ih =>
    constructor
    · intro hregistered
      cases hcreated : e.created? target with
      | some k =>
        rw [registered, hcreated, Option.some_or] at hregistered
        obtain rfl := Option.some.inj hregistered
        obtain ⟨o, now, rfl⟩ := (e.created?_eq_some_iff target k).mp hcreated
        exact ⟨[], log, o, now, rfl, by simp⟩
      | none =>
        rw [registered, hcreated, Option.none_or] at hregistered
        split at hregistered
        · cases hregistered
        · next hends =>
          obtain ⟨later, earlier, o, now, rfl, hlater⟩ := ih.mp hregistered
          refine ⟨e :: later, earlier, o, now, rfl, List.forall_mem_cons.mpr ⟨?_, hlater⟩⟩
          exact ⟨hcreated, Bool.not_eq_true _ ▸ hends⟩
    · rintro ⟨later, earlier, o, now, hlog, hlater⟩
      cases later with
      | nil =>
        obtain ⟨rfl, rfl⟩ := List.cons.inj hlog
        have hcreated := (RegistryEvent.created?_eq_some_iff _ target h).mpr ⟨o, now, rfl⟩
        rw [registered, hcreated, Option.some_or]
      | cons first later =>
        obtain ⟨rfl, rfl⟩ := List.cons.inj hlog
        obtain ⟨⟨hcreated, hends⟩, hlater⟩ := List.forall_mem_cons.mp hlater
        rw [registered, hcreated, Option.none_or, hends]
        exact ih.mpr ⟨later, earlier, o, now, rfl, hlater⟩

end RegistryLog

/-- Serves calls one after the other and logs the answers. -/
def Registry.run : Registry → RegistryLog → List RegistryCall → Registry × RegistryLog
  | r, log, [] => (r, log)
  | r, log, call :: calls => (r.serve call).1.run (⟨call, (r.serve call).2⟩ :: log) calls

/-! ## The invariant -/

/-- A registry is as its log says. -/
structure Registry.Follows (r : Registry) (log : RegistryLog) : Prop where
  nodup_names : (r.targets.map (·.1)).Nodup
  nodup_handles : r.handles.Nodup
  lt_length : ∀ h ∈ r.handles, h < r.pool.length
  get?_eq : ∀ target, r.get? target = log.registered target
  nodup_given : log.handles.Nodup
  given_lt : ∀ h ∈ log.handles, h < r.pool.length
  closed_lt : ∀ h, log.closed h = true → h < r.pool.length
  hasShutDown_iff : ∀ h < r.pool.length,
    r.hasShutDown h = true ↔ log.closed h = true ∨ h ∉ r.handles

namespace Registry.Follows

variable {r next : Registry} {log : RegistryLog}

theorem empty : ({} : Registry).Follows [] where
  nodup_names := List.nodup_nil
  nodup_handles := List.nodup_nil
  lt_length h hh := by cases hh
  get?_eq target := rfl
  nodup_given := List.nodup_nil
  given_lt h hh := by cases hh
  closed_lt h hh := by cases hh
  hasShutDown_iff h hlt := by cases hlt

/-- An event that creates nothing takes some targets out and shuts down some samplers. -/
theorem step (h : r.Follows log) {targets : Table Handle} {hs : List Handle} {e : RegistryEvent}
    (hshut : { r with targets }.ShutsDown next hs) (hhandle : e.handle? = none)
    (hsub : targets.Sublist r.targets)
    (hget : ∀ t, targets.get? t = if e.ends t then none else r.get? t)
    (hcloses : ∀ k, e.closes k = true → k < r.pool.length)
    (hiff : ∀ k < r.pool.length, r.hasShutDown k = true ∨ k ∈ hs ↔
      (e.closes k = true ∨ log.closed k = true) ∨ k ∉ targets.map (·.2)) :
    next.Follows (e :: log) := by
  have htargets : next.targets = targets := hshut.targets_eq
  have hlength : next.pool.length = r.pool.length := hshut.length_eq
  have hgiven : RegistryLog.handles (e :: log) = log.handles := by
    rw [RegistryLog.handles, List.filterMap_cons_none hhandle]
    rfl
  have hclosed (k : Handle) :
      RegistryLog.closed (e :: log) k = true ↔ e.closes k = true ∨ log.closed k = true := by
    rw [RegistryLog.closed, List.any_cons, Bool.or_eq_true]
    rfl
  have hhandles : next.handles = targets.map (·.2) := congrArg _ htargets
  exact {
    nodup_names := by
      rw [htargets]
      exact h.nodup_names.sublist (hsub.map _)
    nodup_handles := by
      rw [hhandles]
      exact h.nodup_handles.sublist (hsub.map _)
    lt_length := by
      rw [hhandles, hlength]
      exact fun k hk => h.lt_length k ((hsub.map _).subset hk)
    get?_eq := fun t => by
      rw [Registry.get?, htargets, hget, h.get?_eq, RegistryLog.registered,
        RegistryEvent.created?_of_handle? hhandle, Option.none_or]
    nodup_given := by
      rw [hgiven]
      exact h.nodup_given
    given_lt := by
      rw [hgiven, hlength]
      exact h.given_lt
    closed_lt := fun k hk => by
      rw [hlength]
      exact ((hclosed k).mp hk).elim (hcloses k) (h.closed_lt k)
    hasShutDown_iff := fun k hlt => by
      rw [hlength] at hlt
      rw [hshut.hasShutDown_iff, hclosed, hhandles, ← hiff k hlt]
      exact or_congr_right (and_iff_left hlt) }

/-- An event that changes nothing. -/
theorem quiet (h : r.Follows log) {e : RegistryEvent} (hshut : r.ShutsDown next [])
    (hhandle : e.handle? = none) (hends : ∀ t, e.ends t = true → r.get? t = none)
    (hcloses : ∀ k, e.closes k = false) : next.Follows (e :: log) := by
  refine h.step hshut hhandle (List.Sublist.refl _) (fun t => ?_) (fun k hk => ?_) fun k hlt => ?_
  · split
    · next ht => exact hends t ht
    · rfl
  · rw [hcloses] at hk
    cases hk
  · rw [hcloses, h.hasShutDown_iff k hlt]
    simp [handles]

theorem create (h : r.Follows log) {target : String} (habsent : r.get? target = none)
    (o : SamplerOptions) (now : Nat) :
    (r.create target o now).1.Follows
      (⟨.create target o now, .created (.ok r.pool.length)⟩ :: log) := by
  have hnew : r.pool.length ∉ r.handles := fun hmem => Nat.lt_irrefl _ (h.lt_length _ hmem)
  have hungiven : r.pool.length ∉ log.handles := fun hmem => Nat.lt_irrefl _ (h.given_lt _ hmem)
  have hunclosed : ¬ log.closed r.pool.length = true := fun hclosed =>
    Nat.lt_irrefl _ (h.closed_lt _ hclosed)
  rw [create_of_absent now habsent]
  -- All that is new stands behind the last handle.
  generalize hnext : Registry.mk (r.pool ++ [Sampler.make o now])
    (r.targets ++ [(target, r.pool.length)]) = next
  have htargets : next.targets = r.targets ++ [(target, r.pool.length)] := by rw [← hnext]
  have hhandles : next.handles = r.handles ++ [r.pool.length] := by
    rw [Registry.handles, htargets, List.map_append]
    rfl
  have hlength : next.pool.length = r.pool.length + 1 := by
    rw [← hnext]
    exact List.length_append
  exact {
    nodup_names := by
      rw [htargets, List.map_append]
      exact List.nodup_append_comm.mp
        (List.nodup_cons.mpr ⟨(Table.get?_eq_none_iff target).mp habsent, h.nodup_names⟩)
    nodup_handles := by
      rw [hhandles]
      exact List.nodup_append_comm.mp (List.nodup_cons.mpr ⟨hnew, h.nodup_handles⟩)
    lt_length := fun k hk => by
      rw [hhandles, List.mem_append, List.mem_singleton] at hk
      rw [hlength]
      rcases hk with hk | rfl
      · exact Nat.lt_succ_of_lt (h.lt_length k hk)
      · exact Nat.lt_succ_self _
    get?_eq := fun t => by
      have hcreated : RegistryEvent.created? t
          ⟨.create target o now, .created (.ok r.pool.length)⟩ =
            if target = t then some r.pool.length else none := rfl
      rw [Registry.get?, htargets, ← Table.put_of_absent habsent, Table.get?_put,
        RegistryLog.registered, hcreated]
      by_cases ht : t = target
      · rw [if_pos ht, if_pos ht.symm, Option.some_or]
      · rw [if_neg ht, if_neg (Ne.symm ht), Option.none_or]
        exact h.get?_eq t
    nodup_given := List.nodup_cons.mpr ⟨hungiven, h.nodup_given⟩
    given_lt := fun k hk => by
      rw [hlength]
      rcases List.mem_cons.mp hk with rfl | hk
      · exact Nat.lt_succ_self _
      · exact Nat.lt_succ_of_lt (h.given_lt k hk)
    closed_lt := fun k hk => by
      rw [hlength]
      exact Nat.lt_succ_of_lt (h.closed_lt k hk)
    hasShutDown_iff := fun k hlt => by
      have hclosed : RegistryLog.closed
          (⟨.create target o now, .created (.ok r.pool.length)⟩ :: log) k = log.closed k := rfl
      rw [hlength] at hlt
      rw [← hnext, hasShutDown_append, hnext, hclosed, hhandles, List.mem_append,
        List.mem_singleton]
      rcases Nat.lt_succ_iff_lt_or_eq.mp hlt with hk | rfl
      · rw [h.hasShutDown_iff k hk, or_iff_left (Nat.ne_of_lt hk)]
      · rw [r.hasShutDown_of_le (Nat.le_refl _)]
        simp [hunclosed] }

theorem destroy (h : r.Follows log) {target : String} {k : Handle}
    (hpresent : r.get? target = some k) (now : Nat) (outcome : Except SamplerError Unit) :
    (r.destroy target now).1.Follows (⟨.destroy target now, .done outcome⟩ :: log) := by
  have hentry : (target, k) ∈ r.targets := Table.mem_of_get? hpresent
  -- The entry of a target is the only one with its handle.
  have hgone (j : Handle) :
      j ∈ (r.targets.filter (·.1 ≠ target)).map (·.2) ↔ j ∈ r.handles ∧ j ≠ k := by
    constructor
    · intro hj
      obtain ⟨entry, hmem, rfl⟩ := List.mem_map.mp hj
      obtain ⟨hmem, hname⟩ := List.mem_filter.mp hmem
      refine ⟨List.mem_map_of_mem hmem, fun hsame => of_decide_eq_true hname ?_⟩
      rw [List.inj_on_of_nodup_map h.nodup_handles hmem hentry hsame]
    · rintro ⟨hj, hne⟩
      obtain ⟨entry, hmem, rfl⟩ := List.mem_map.mp hj
      refine List.mem_map_of_mem (List.mem_filter.mpr ⟨hmem, decide_eq_true fun hname => hne ?_⟩)
      rw [List.inj_on_of_nodup_map h.nodup_names hmem hentry hname]
  rw [destroy_of_present now hpresent]
  refine h.step (shutsDown_handle _ k now) rfl List.filter_sublist (fun t => ?_)
    (fun j hj => ?_) fun j hlt => ?_
  · have hends : RegistryEvent.ends t ⟨.destroy target now, .done outcome⟩ = true ↔ t = target :=
      decide_eq_true_iff.trans eq_comm
    simp only [hends]
    exact Table.lookup_remove target t r.targets
  · cases hj
  · rw [hgone, List.mem_singleton]
    by_cases hj : j = k
    · exact iff_of_true (.inr hj) (.inr fun hstays => hstays.2 hj)
    · rw [or_iff_left hj, and_iff_left hj, h.hasShutDown_iff j hlt]
      exact or_congr_left ⟨.inr, fun hclosed => hclosed.resolve_left Bool.false_ne_true⟩

theorem shutDown (h : r.Follows log) (now : Nat) (outcome : Except SamplerError Unit) :
    (r.shutDown now).1.Follows (⟨.shutDown now, .done outcome⟩ :: log) := by
  refine h.step (shutsDown_all { r with targets := [] } now r.handles) rfl (List.nil_sublist _)
    (fun t => rfl) (fun k hk => ?_) fun k hlt => ?_
  · cases hk
  · refine iff_of_true ?_ (.inr List.not_mem_nil)
    by_cases hk : k ∈ r.handles
    · exact .inr hk
    · exact .inl ((h.hasShutDown_iff k hlt).mpr (.inr hk))

theorem close (h : r.Follows log) {k : Handle} (hlt : k < r.pool.length) (now : Nat)
    (outcome : Except SamplerError Unit) :
    (r.shutDownHandle k now).1.Follows (⟨.close k now, .done outcome⟩ :: log) := by
  have hcloses (j : Handle) : RegistryEvent.closes j ⟨.close k now, .done outcome⟩ = true ↔ j = k :=
    decide_eq_true_iff.trans eq_comm
  refine h.step (r.shutsDown_handle k now) rfl (List.Sublist.refl _) (fun t => rfl)
    (fun j hj => ?_) fun j hj => ?_
  · rw [(hcloses j).mp hj]
    exact hlt
  · rw [hcloses, List.mem_singleton, h.hasShutDown_iff j hj]
    exact or_comm.trans or_assoc.symm

/-- Every call keeps a registry as its log says. -/
theorem serve (h : r.Follows log) (call : RegistryCall) :
    (r.serve call).1.Follows (⟨call, (r.serve call).2⟩ :: log) := by
  cases call with
  | create target o now =>
    cases hget : r.get? target with
    | some k =>
      rw [Registry.serve, create_of_present now hget]
      exact h.quiet (.refl r) rfl (fun _ ht => Bool.noConfusion ht) fun _ => rfl
    | none =>
      have hcreate := create_of_absent now hget o
      have hanswer : (r.create target o now).2 = .ok r.pool.length := congrArg Prod.snd hcreate
      rw [Registry.serve, hanswer]
      exact h.create hget o now
  | get target => exact h.quiet (.refl r) rfl (fun _ ht => Bool.noConfusion ht) fun _ => rfl
  | update target c now =>
    cases hget : r.get? target with
    | some k =>
      have hlt : k < r.pool.length := h.lt_length k (List.mem_map_of_mem (Table.mem_of_get? hget))
      exact h.quiet (update_of_present now hget hlt c).2 rfl (fun _ ht => Bool.noConfusion ht)
        fun _ => rfl
    | none =>
      rw [Registry.serve, update_of_absent now hget]
      exact h.quiet (.refl r) rfl (fun _ ht => Bool.noConfusion ht) fun _ => rfl
  | destroy target now =>
    cases hget : r.get? target with
    | some k => exact h.destroy hget now _
    | none =>
      rw [Registry.serve, destroy_of_absent now hget]
      refine h.quiet (.refl r) rfl (fun t ht => ?_) fun _ => rfl
      rw [← of_decide_eq_true ht]
      exact hget
  | shutDown now => exact h.shutDown now _
  | close k now =>
    rw [Registry.serve]
    split
    · next hlt => exact h.close hlt now _
    · next hlt =>
      rw [shutDownHandle_of_le r now (Nat.le_of_not_lt hlt)]
      exact h.quiet (.refl r) rfl (fun _ ht => Bool.noConfusion ht) fun _ => rfl

theorem run (h : r.Follows log) (calls : List RegistryCall) :
    (r.run log calls).1.Follows (r.run log calls).2 := by
  induction calls generalizing r log with
  | nil => exact h
  | cons call calls ih => exact ih (h.serve call)

theorem mem_handles_iff (h : r.Follows log) (k : Handle) :
    k ∈ r.handles ↔ ∃ target, r.get? target = some k := by
  constructor
  · intro hk
    obtain ⟨⟨target, _⟩, hentry, rfl⟩ := List.mem_map.mp hk
    exact ⟨target, Table.get?_of_mem h.nodup_names hentry⟩
  · rintro ⟨target, hget⟩
    exact List.mem_map_of_mem (Table.mem_of_get? hget)

/-- Of the registered samplers, those have been shut down whose handles were used for it. -/
theorem any_hasShutDown_iff (h : r.Follows log) :
    r.handles.any r.hasShutDown = true ↔
      ∃ target k, r.get? target = some k ∧ log.closed k = true := by
  have hclosed (k : Handle) (hk : k ∈ r.handles) : r.hasShutDown k = true ↔ log.closed k = true :=
    (h.hasShutDown_iff k (h.lt_length k hk)).trans (or_iff_left (not_not_intro hk))
  rw [List.any_eq_true]
  constructor
  · rintro ⟨k, hk, hshut⟩
    obtain ⟨target, hget⟩ := (h.mem_handles_iff k).mp hk
    exact ⟨target, k, hget, (hclosed k hk).mp hshut⟩
  · rintro ⟨target, k, hget, hk⟩
    have hmem := (h.mem_handles_iff k).mpr ⟨target, hget⟩
    exact ⟨k, hmem, (hclosed k hmem).mpr hk⟩

end Registry.Follows

namespace Registry

/-- Behind any calls, a target has the sampler that was created for it last, unless it was taken out
since. Only an absent target can be created, and only a present one updated or destroyed; otherwise
nothing changes. Every sampler that was created is registered or has been shut down. Shutting down
the registry takes out every target and shuts down its sampler, and it fails exactly if one of these
samplers had been shut down through its handle. -/
theorem run_life_cycle (calls : List RegistryCall) :
    let r := (run {} [] calls).1
    let log := (run {} [] calls).2
    (∀ target h, r.get? target = some h ↔
      ∃ later earlier o now,
        log = later ++ ⟨.create target o now, .created (.ok h)⟩ :: earlier ∧
          ∀ e ∈ later, e.created? target = none ∧ e.ends target = false) ∧
    (∀ target h, r.get? target = some h → ∀ now,
      (∀ o, r.create target o now = (r, .error (.targetExists target))) ∧
      ∀ c, (r.update target c now).2 = .ok ()) ∧
    (∀ target, r.get? target = none → ∀ now,
      (∀ o, ∃ h ∉ log.handles, (r.create target o now).2 = .ok h) ∧
      (∀ c, r.update target c now = (r, .error (.targetNotFound target))) ∧
      r.destroy target now = (r, .error (.targetNotFound target))) ∧
    (log.handles.Nodup ∧
      ∀ h ∈ log.handles, (∃ target, r.get? target = some h) ∨ r.hasShutDown h = true) ∧
    ∀ now,
      let next := (r.shutDown now).1
      next.targets = [] ∧
      (∀ target h, r.get? target = some h → next.hasShutDown h = true) ∧
      ((∃ e, (r.shutDown now).2 = .error e) ↔
        ∃ target h, r.get? target = some h ∧ log.closed h = true) := by
  intro r log
  have h : r.Follows log := Follows.empty.run calls
  refine ⟨fun target k => ?_, fun target k hget now => ?_, fun target hget now => ?_,
    ⟨h.nodup_given, fun k hk => ?_⟩, fun now => ?_⟩
  · rw [h.get?_eq]
    exact log.registered_eq_some_iff target k
  · have hlt := h.lt_length k ((h.mem_handles_iff k).mpr ⟨target, hget⟩)
    exact ⟨create_of_present now hget, fun c => (update_of_present now hget hlt c).1⟩
  · have hnew : r.pool.length ∉ log.handles := fun hmem => Nat.lt_irrefl _ (h.given_lt _ hmem)
    exact ⟨fun o => ⟨_, hnew, congrArg Prod.snd (create_of_absent now hget o)⟩,
      update_of_absent now hget, destroy_of_absent now hget⟩
  · rw [← h.mem_handles_iff]
    by_cases hmem : k ∈ r.handles
    · exact .inl hmem
    · exact .inr ((h.hasShutDown_iff k (h.given_lt k hk)).mpr (.inr hmem))
  · have hshut := shutsDown_all { r with targets := [] } now r.handles
    have houtcome : (r.shutDown now).2 =
        if r.handles.any r.hasShutDown then .error .alreadyShutDown else .ok () :=
      shutDownAll_outcome { r with targets := [] } now h.nodup_handles
    refine ⟨hshut.targets_eq, fun target k hget => ?_, ?_⟩
    · have hmem := (h.mem_handles_iff k).mpr ⟨target, hget⟩
      exact (hshut.hasShutDown_iff k).mpr (.inr ⟨hmem, h.lt_length k hmem⟩)
    · rw [← h.any_hasShutDown_iff, houtcome]
      split
      · next hany => exact iff_of_true ⟨_, rfl⟩ hany
      · next hany => exact iff_of_false (fun ⟨_, herror⟩ => nomatch herror) hany

end Registry

end TraceSampling
