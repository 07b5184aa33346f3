import TraceSampling.Proofs.HopState.RoundTrip
import TraceSampling.Proofs.Sampler.Trail

/-!
# The shape of path ids

A step into a callee renews the forty-eight bits of the edge below the prefix that it finds. The one
id that would be zero becomes one, which has the same prefix as zero, so along any calls the ids
share their prefix and none of them reads as no path. As a signed attribute and in hexadecimal they
keep all of their bits.
-/

namespace TraceSampling.Workflow

/-! ## One step -/

theorem rootPrefix_lt (path : UInt64) : rootPrefix path < 0x10000 := by
  rw [UInt64.lt_iff_toNat_lt, rootPrefix, UInt64.toNat_shiftRight, Nat.shiftRight_eq_div_pow]
  exact Nat.div_lt_of_lt_mul path.toNat_lt

theorem rootPrefix_nonZero (path : UInt64) : rootPrefix (nonZero path) = rootPrefix path := by
  unfold nonZero
  split
  · next hpath =>
    rw [hpath]
    rfl
  · rfl

/-- The bits of an edge lie below the prefix. -/
theorem rootPrefix_join (path edge : UInt64) :
    rootPrefix ((path &&& ~~~edgeMask) ||| (edge &&& edgeMask)) = rootPrefix path := by
  have hmask : edgeMask >>> 48 = 0 := rfl
  have hrest : (~~~edgeMask) >>> 48 = (-1 : UInt64) >>> 48 := rfl
  rw [rootPrefix, UInt64.shiftRight_or, UInt64.shiftRight_and, UInt64.shiftRight_and, hmask, hrest,
    ← UInt64.shiftRight_and, UInt64.and_neg_one, UInt64.and_zero, UInt64.or_zero, rootPrefix]

theorem rootPrefix_childPath (path : UInt64) (service method : String) :
    rootPrefix (childPath path service method) = rootPrefix path := by
  rw [childPath, rootPrefix_nonZero, rootPrefix_join]

theorem rootPath_ne_zero (service method : String) : rootPath service method ≠ 0 :=
  nonZero_ne_zero _

/-! ## Steps one after the other -/

/-- The id behind calls of methods of services, from the id before them. -/
def descend (path : UInt64) (callees : List (String × String)) : UInt64 :=
  callees.foldl (fun path callee => childPath path callee.1 callee.2) path

theorem descend_cons (path : UInt64) (service method : String) (callees : List (String × String)) :
    descend path ((service, method) :: callees) = descend (childPath path service method) callees :=
  rfl

theorem rootPrefix_descend (path : UInt64) (callees : List (String × String)) :
    rootPrefix (descend path callees) = rootPrefix path := by
  induction callees generalizing path with
  | nil => rfl
  | cons callee callees ih => rw [descend_cons, ih, rootPrefix_childPath]

theorem descend_ne_zero {path : UInt64} (h : path ≠ 0) (callees : List (String × String)) :
    descend path callees ≠ 0 := by
  induction callees generalizing path with
  | nil => exact h
  | cons callee callees ih =>
    rw [descend_cons]
    exact ih (childPath_ne_zero _ _ _)

/-! ## Edges of a trail -/

/-- Both ends of the edge have an id, and these ids have a given prefix. -/
structure Edge.Within (shared : UInt64) (e : Edge) : Prop where
  path_ne_zero : e.path ≠ 0
  parentPath_ne_zero : e.parentPath ≠ 0
  path_prefix : rootPrefix e.path = shared
  parentPath_prefix : rootPrefix e.parentPath = shared

namespace Edge

theorem within_child {path : UInt64} (h : path ≠ 0) (service method : String) :
    Within (rootPrefix path) ⟨childPath path service method, path⟩ where
  path_ne_zero := childPath_ne_zero _ _ _
  parentPath_ne_zero := h
  path_prefix := rootPrefix_childPath _ _ _
  parentPath_prefix := rfl

/-- An edge that nothing leads to has the prefix of its root. -/
theorem next_none (call : GraphCall) :
    next none call = none ∨ ∃ e, next none call = some e ∧
      e.Within (rootPrefix (rootPath call.interface.callerService call.interface.callerMethod)) := by
  unfold next
  cases call.kind with
  | internal => exact .inl rfl
  | client | server | producer | consumer =>
    exact .inr ⟨_, rfl, within_child (rootPath_ne_zero _ _) _ _⟩

/-- Whatever is called from an edge stays within its prefix. -/
theorem Within.next {shared : UInt64} {e : Edge} (h : e.Within shared) (call : GraphCall) :
    ∃ e', Edge.next (some e) call = some e' ∧ e'.Within shared := by
  unfold Edge.next
  cases call.kind with
  | internal | server | consumer => exact ⟨e, rfl, h⟩
  | client | producer => exact ⟨_, rfl, h.path_prefix ▸ within_child h.path_ne_zero _ _⟩

end Edge

/-- A trail stays within the prefix of the edge from which it goes on. -/
theorem within_trail {shared : UInt64} {before : Edge} (h : before.Within shared)
    (calls : List GraphCall) :
    ∀ e, some e ∈ some before :: trail (some before) calls → e.Within shared := by
  induction calls generalizing before with
  | nil => simpa [trail] using h
  | cons call calls ih =>
    obtain ⟨next, hnext, hwithin⟩ := h.next call
    intro e he
    rw [trail, hnext] at he
    obtain he | he := List.mem_cons.mp he
    · obtain rfl := Option.some_inj.mp he
      exact h
    · exact ih hwithin e he

/-- The first call that is an edge settles the prefix for all that follow. -/
theorem exists_within_trail (calls : List GraphCall) :
    ∃ shared, ∀ e, some e ∈ trail none calls → e.Within shared := by
  induction calls with
  | nil => exact ⟨0, by simp [trail]⟩
  | cons call calls ih =>
    rw [trail]
    obtain hnone | ⟨first, hfirst, hwithin⟩ := Edge.next_none call
    · rw [hnone]
      simpa using ih
    · rw [hfirst]
      exact ⟨_, within_trail hwithin calls⟩

/-- From a hop without a parent on, the edges that hops hand on to each other share a prefix. -/
theorem exists_within_chain {hops : List Hop}
    (henabled : ∀ hop ∈ hops, hop.sampler.snapshot.settings.workflow.enabled = true) :
    ∃ shared, ∀ l ∈ chain none hops, ∀ e, l.result.state.workflow.edge? = some e →
      e.Within shared := by
  obtain ⟨shared, hwithin⟩ := exists_within_trail (hops.map Hop.call)
  refine ⟨shared, fun l hl e he => hwithin e ?_⟩
  have hedges : (chain none hops).map (·.result.state.workflow.edge?) =
    trail none (hops.map Hop.call) := edges_chain none henabled
  rw [← hedges, ← he]
  exact List.mem_map_of_mem hl

/-! ## Ids that are shown and handed on -/

/-- The ids in the attributes of a mark are those of the mark. -/
theorem attributes_toUInt64 (m : WorkflowMark) :
    ∃ path parentPath : Int64,
      Attribute.values (attributes m) Key.workflowPath = [.int path] ∧ path.toUInt64 = m.path ∧
      Attribute.values (attributes m) Key.workflowParentPath = [.int parentPath] ∧
        parentPath.toUInt64 = m.parentPath :=
  ⟨_, _, rfl, UInt64.toUInt64_toInt64 _, rfl, UInt64.toUInt64_toInt64 _⟩

/-- Along any calls the ids are there, share the prefix of their root, and are read back from
attributes and from the wire as they were. -/
theorem paths_share_prefix :
    (∀ path service method,
      rootPrefix (childPath path service method) = rootPrefix path ∧
        childPath path service method ≠ 0) ∧
    (∀ service method callees,
      let root := rootPath service method
      rootPrefix (descend root callees) = rootPrefix root ∧ descend root callees ≠ 0) ∧
    (∀ calls, ∃ shared, ∀ e, some e ∈ trail none calls → e.Within shared) ∧
    (∀ path, rootPrefix path < 0x10000) ∧
    (∀ m : WorkflowMark, ∃ path parentPath : Int64,
      Attribute.values (attributes m) Key.workflowPath = [.int path] ∧ path.toUInt64 = m.path ∧
      Attribute.values (attributes m) Key.workflowParentPath = [.int parentPath] ∧
        parentPath.toUInt64 = m.parentPath) ∧
    (∀ path : UInt64, Entry.readPath? (Numeral.writeNat 16 path.toNat) = some path) ∧
    ∀ hop : HopState, (HopState.decode hop.encode).workflow = hop.workflow := by
  refine ⟨fun path service method => ?_, fun service method callees => ?_, exists_within_trail,
    rootPrefix_lt, attributes_toUInt64, Entry.readPath?_writeNat, fun hop => ?_⟩
  · exact ⟨rootPrefix_childPath path service method, childPath_ne_zero path service method⟩
  · exact ⟨rootPrefix_descend _ callees, descend_ne_zero (rootPath_ne_zero service method) callees⟩
  · rw [HopState.decode_encode]

end TraceSampling.Workflow
