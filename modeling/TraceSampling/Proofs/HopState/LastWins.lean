import TraceSampling.Proofs.HopState.Item

/-!
# The last well-formed field wins

Reading runs over the entries of a carried value and replaces one field after the other. The state that
it ends in is the one that the items declare: each field is what the last item gives that gives
anything for it, whatever else that item or any other one holds, and the items of no known kind are
kept as they are.
-/

namespace TraceSampling.HopState
open Entry

/-- The items of a carried value in order; empty ones do not count. -/
def items (value : String) : List (List Char) := (value.toList.splitOn ';').filter (· ≠ [])

section Fields

variable {α : Type} (gives : List Char → α → Prop)

/-- The last item that gives anything gives this. -/
def LastGives (items : List (List Char)) (x : α) : Prop :=
  ∃ before item behind, items = before ++ item :: behind ∧ gives item x ∧
    ∀ e ∈ behind, ∀ y, ¬ gives e y

/-- What the last item gives that gives anything, or a default if none does. -/
def LastOr (default : α) (items : List (List Char)) (x : α) : Prop :=
  LastGives gives items x ∨ (∀ e ∈ items, ∀ y, ¬ gives e y) ∧ x = default

/-- Reading an entry sets a field to what the item gives, and leaves it alone otherwise. -/
structure Settles (field : HopState → α) : Prop where
  given : ∀ (s : HopState) item x, gives item x → field (s.accept (read item)) = x
  kept : ∀ (s : HopState) item, (∀ x, ¬ gives item x) → field (s.accept (read item)) = field s

variable {gives}

theorem lastGives_cons {e : List Char} {es : List (List Char)} {x : α} :
    LastGives gives (e :: es) x ↔
      LastGives gives es x ∨ (∀ e' ∈ es, ∀ y, ¬ gives e' y) ∧ gives e x := by
  constructor
  · intro h
    rcases h with ⟨before, item, behind, hitems, hgives, hnone⟩
    cases before with
    | nil =>
      obtain ⟨rfl, rfl⟩ := List.cons.inj hitems
      exact .inr ⟨hnone, hgives⟩
    | cons f fs => exact .inl ⟨fs, item, behind, (List.cons.inj hitems).2, hgives, hnone⟩
  · intro h
    rcases h with ⟨before, item, behind, rfl, hgives, hnone⟩ | ⟨hnone, hgives⟩
    · exact ⟨e :: before, item, behind, rfl, hgives, hnone⟩
    · exact ⟨[], e, es, rfl, hgives, hnone⟩

theorem lastOr_cons {default : α} {e : List Char} {es : List (List Char)} {x : α} :
    LastOr gives default (e :: es) x ↔
      LastGives gives es x ∨
        (∀ e' ∈ es, ∀ y, ¬ gives e' y) ∧ (gives e x ∨ (∀ y, ¬ gives e y) ∧ x = default) := by
  rw [LastOr, lastGives_cons, List.forall_mem_cons]
  tauto

namespace Settles

variable {field : HopState → α}

theorem of_view {view : Entry → Option α}
    (hview : ∀ {item x}, gives item x ↔ view (read item) = some x)
    (haccept : ∀ s e, field (accept s e) = (view e).getD (field s)) : Settles gives field where
  given s item x hx := by rw [haccept, hview.mp hx, Option.getD_some]
  kept s item hnone := by
    have hview : view (read item) = none := by
      by_contra hsome
      obtain ⟨x, hx⟩ := Option.ne_none_iff_exists'.mp hsome
      exact hnone x (hview.mpr hx)
    rw [haccept, hview, Option.getD_none]

variable (h : Settles gives field)
include h

theorem accept_iff (s : HopState) (item : List Char) (x : α) :
    gives item x ∨ (∀ y, ¬ gives item y) ∧ x = field s ↔ field (s.accept (read item)) = x := by
  constructor
  · intro hx
    rcases hx with hx | ⟨hnone, rfl⟩
    · exact h.given s item x hx
    · exact h.kept s item hnone
  · intro hx
    by_cases hgives : ∃ y, gives item y
    · obtain ⟨y, hy⟩ := hgives
      left
      rwa [← hx, h.given s item y hy]
    · have hnone := not_exists.mp hgives
      exact .inr ⟨hnone, by rw [← hx, h.kept s item hnone]⟩

/-- What a run over items leaves in a field, and nothing else, is what the last of them gives. -/
theorem acceptAll_iff (s : HopState) (items : List (List Char)) (x : α) :
    LastOr gives (field s) items x ↔ field (s.acceptAll items) = x := by
  induction items generalizing s with
  | nil =>
    constructor
    · intro hx
      rcases hx with ⟨before, item, behind, hitems, -⟩ | ⟨-, rfl⟩
      · simp at hitems
      · rfl
    · intro hx
      exact .inr ⟨by simp, hx.symm⟩
  | cons item items ih =>
    rw [lastOr_cons, h.accept_iff s item x, acceptAll_cons, ← ih, LastOr]
    simp only [eq_comm]

/-! ### One item for another -/

theorem accept_congr {s t : HopState} {item item' : List Char}
    (hitem : ∀ x, gives item x ↔ gives item' x) (hst : field s = field t) :
    field (s.accept (read item)) = field (t.accept (read item')) := by
  apply (h.accept_iff s item _).mp
  rw [hst]
  simp only [hitem]
  exact (h.accept_iff t item' _).mpr rfl

theorem acceptAll_congr {s t : HopState} (hst : field s = field t) (es : List (List Char)) :
    field (s.acceptAll es) = field (t.acceptAll es) := by
  induction es generalizing s t with
  | nil => exact hst
  | cons e es ih => exact ih (h.accept_congr (fun _ => Iff.rfl) hst)

end Settles

end Fields

/-! ## The fields of the state -/

theorem settles_result : Settles GivesResult (·.workflow.result) :=
  .of_view givesResult_iff fun s e => by cases e <;> rfl

theorem settles_path : Settles GivesPath (·.workflow.path) :=
  .of_view givesPath_iff fun s e => by cases e <;> rfl

theorem settles_parentPath : Settles GivesParentPath (·.workflow.parentPath) :=
  .of_view givesParentPath_iff fun s e => by cases e <;> rfl

theorem settles_sampled : Settles GivesSampled (·.lineage.sampled) :=
  .of_view givesSampled_iff fun s e => by cases e <;> rfl

theorem settles_root : Settles GivesRoot (·.lineage.root) :=
  .of_view givesRoot_iff fun s e => by cases e <;> rfl

theorem settles_args : Settles GivesArgs (·.lineage.args) :=
  .of_view givesArgs_iff fun s e => by cases e <;> rfl

/-! ## Whole values -/

theorem items_eq_filled (value : String) : items value = Split.filled ';' value.toList := by
  rw [items, Split.filled, Split.pieces_eq_splitOn]
  congr 1
  funext p
  cases p <;> rfl

theorem accept_read_nil (s : HopState) : s.accept (read []) = s := by
  have hnone : (Extension.ofText? "").toList = [] := rfl
  change { s with extensions := s.extensions ++ (Extension.ofText? "").toList } = s
  rw [hnone, List.append_nil]

theorem acceptAll_filled (s : HopState) (es : List (List Char)) :
    s.acceptAll (es.filter (· ≠ [])) = s.acceptAll es := by
  induction es generalizing s with
  | nil => rfl
  | cons e es ih =>
    by_cases he : e = []
    · rw [List.filter_cons_of_neg (by simp [he]), ih, acceptAll_cons, he, accept_read_nil]
    · rw [List.filter_cons_of_pos (by simp [he]), acceptAll_cons, acceptAll_cons, ih]

theorem decode_eq_acceptAll {value : String} (h : value ≠ "") :
    decode value = initial.resetLineage.acceptAll (items value) := by
  rw [decode, if_neg h, items_eq_filled]
  rfl

/-- What a carried value declares, field by field; what it does not say is that nothing applied. -/
structure Declares (value : String) (s : HopState) : Prop where
  result : LastOr GivesResult .notExist (items value) s.workflow.result
  path : LastOr GivesPath 0 (items value) s.workflow.path
  parentPath : LastOr GivesParentPath 0 (items value) s.workflow.parentPath
  sampled : LastOr GivesSampled .notMatch (items value) s.lineage.sampled
  root : LastOr GivesRoot .notMatch (items value) s.lineage.root
  args : LastOr GivesArgs none (items value) s.lineage.args
  unknown : s.unknown? = unknownOf? (((items value).filter (!isKnown ·)).map String.ofList)

theorem unknown?_decode (value : String) :
    (decode value).unknown? =
      unknownOf? (((items value).filter (!isKnown ·)).map String.ofList) := by
  rw [unknown?_eq, texts_decode, items_eq_filled]
  rfl

/-- Extensions come apart again at the semicolons between them. -/
theorem extensions_of_unknown? {s t : HopState} (h : s.unknown? = t.unknown?) :
    s.extensions = t.extensions := by
  have htexts (s : HopState) :
      ((s.unknown?.map String.toList).map (Split.filled ';')).getD [] =
        s.extensions.map (·.text.toList) := by
    unfold unknown?
    split
    · next hempty => simp [List.isEmpty_iff.mp hempty]
    · have hjoin : (";".intercalate (s.extensions.map (·.text))).toList =
          Split.join ';' (s.extensions.map (·.text.toList)) := by
        rw [String.toList_intercalate, Split.join_eq_intercalate, List.map_map]
        rfl
      rw [Option.map_some, Option.map_some, Option.getD_some, hjoin,
        Split.filled_join (separable_extensions s.extensions)]
  have hsame : s.extensions.map (·.text.toList) = t.extensions.map (·.text.toList) := by
    rw [← htexts s, h, htexts t]
  refine List.map_injective_iff.mpr (fun e f hef => ?_) hsame
  cases e
  cases f
  cases String.toList_inj.mp hef
  rfl

theorem Settles.decode_iff {α : Type} {gives : List Char → α → Prop} {field : HopState → α}
    (hfield : Settles gives field) {value : String} (h : value ≠ "") (x : α) :
    LastOr gives (field initial.resetLineage) (items value) x ↔ field (decode value) = x := by
  rw [decode_eq_acceptAll h]
  exact hfield.acceptAll_iff _ _ x

theorem decode_eq_iff {value : String} (h : value ≠ "") (s : HopState) :
    decode value = s ↔ Declares value s := by
  constructor
  · intro hs
    subst hs
    exact
      { result := (settles_result.decode_iff h _).mpr rfl
        path := (settles_path.decode_iff h _).mpr rfl
        parentPath := (settles_parentPath.decode_iff h _).mpr rfl
        sampled := (settles_sampled.decode_iff h _).mpr rfl
        root := (settles_root.decode_iff h _).mpr rfl
        args := (settles_args.decode_iff h _).mpr rfl
        unknown := unknown?_decode value }
  · intro hs
    have hresult := (settles_result.decode_iff h _).mp hs.result
    have hpath := (settles_path.decode_iff h _).mp hs.path
    have hparent := (settles_parentPath.decode_iff h _).mp hs.parentPath
    have hsampled := (settles_sampled.decode_iff h _).mp hs.sampled
    have hroot := (settles_root.decode_iff h _).mp hs.root
    have hargs := (settles_args.decode_iff h _).mp hs.args
    have hextensions := extensions_of_unknown? ((unknown?_decode value).trans hs.unknown.symm)
    obtain ⟨⟨_, _, _⟩, ⟨_, _, _⟩, _⟩ := s
    simp only at hresult hpath hparent hsampled hroot hargs hextensions
    subst hresult hpath hparent hsampled hroot hargs hextensions
    rfl

/-- The older protocol, or a last strategy that says the same. -/
theorem isLegacy_decode_iff (value : String) :
    (decode value).isLegacy = true ↔
      value = "" ∨ LastGives GivesSampled (items value) .notExist := by
  by_cases h : value = ""
  · subst h
    exact iff_of_true rfl (.inl rfl)
  · have hlast := settles_sampled.decode_iff h .notExist
    have hdefault : initial.resetLineage.lineage.sampled ≠ .notExist := by decide
    rw [isLegacy, decide_eq_true_iff, ← hlast, LastOr]
    simp [h, hdefault.symm]

/-! ## One item for another -/

/-- Parts of a value around one place. -/
def row (before : List (List Char)) (item : List Char) (behind : List (List Char)) : String :=
  String.ofList ([';'].intercalate (before ++ item :: behind))

/-- Where two items give the same for a field, either may stand for the other as far as that field
goes. An item that gives nothing for it may as well be empty. -/
def Exchangeable {α β : Type} (gives : List Char → α → Prop) (field : HopState → β) : Prop :=
  ∀ before item item' behind, (∀ part ∈ before ++ behind, ';' ∉ part) → ';' ∉ item → ';' ∉ item' →
    row before item behind ≠ "" → row before item' behind ≠ "" →
    (∀ x, gives item x ↔ gives item' x) →
    field (decode (row before item behind)) = field (decode (row before item' behind))

/-- The whole text of an item of no known kind. -/
def GivesUnknown (item text : List Char) : Prop := item ≠ [] ∧ isKnown item = false ∧ text = item

variable {before : List (List Char)} {item : List Char} {behind : List (List Char)}

theorem items_row (hrest : ∀ part ∈ before ++ behind, ';' ∉ part) (hitem : ';' ∉ item) :
    items (row before item behind) = (before ++ item :: behind).filter (· ≠ []) := by
  have hparts : ∀ part ∈ before ++ item :: behind, ';' ∉ part := by
    intro part hpart
    rcases List.mem_append.mp hpart with hbefore | hpart
    · exact hrest part (List.mem_append_left behind hbefore)
    · rcases List.mem_cons.mp hpart with rfl | hbehind
      · exact hitem
      · exact hrest part (List.mem_append_right before hbehind)
  rw [items, row, String.toList_ofList, List.splitOn_intercalate ';' hparts (by simp)]

theorem Settles.exchangeable {α : Type} {gives : List Char → α → Prop} {field : HopState → α}
    (hfield : Settles gives field) : Exchangeable gives field := by
  intro before item item' behind hrest hitem hitem' hvalue hvalue' hgives
  rw [decode_eq_acceptAll hvalue, decode_eq_acceptAll hvalue', items_row hrest hitem,
    items_row hrest hitem', acceptAll_filled, acceptAll_filled, acceptAll_append, acceptAll_append,
    acceptAll_cons, acceptAll_cons]
  exact hfield.acceptAll_congr (hfield.accept_congr hgives rfl) behind

theorem exchangeable_unknown : Exchangeable GivesUnknown unknown? := by
  intro before item item' behind hrest hitem hitem' _ _ hgives
  rw [unknown?_decode, unknown?_decode, items_row hrest hitem, items_row hrest hitem']
  have hone : ([item].filter (· ≠ [])).filter (!isKnown ·) =
      ([item'].filter (· ≠ [])).filter (!isKnown ·) := by
    by_cases h : GivesUnknown item item
    · rw [((hgives item).mp h).2.2]
    · have h' : ¬ GivesUnknown item' item' := fun h' =>
        h (((hgives item').mpr h').2.2 ▸ (hgives item').mpr h')
      simp only [GivesUnknown, and_true, not_and, Bool.not_eq_false] at h h'
      by_cases hempty : item = [] <;> by_cases hempty' : item' = [] <;>
        simp [hempty, hempty', h, h']
  have hsplit (i : List Char) : before ++ i :: behind = before ++ ([i] ++ behind) := rfl
  rw [hsplit item, hsplit item']
  simp only [List.filter_append, hone]

/-- Reading a carried value yields the state that its items declare, each field what the last item
says in which that field is well formed. A text in one field of an item, well formed or not, does not
change what the item gives for the others, and what an item gives for one field does not change what
the others come to. A state is of the older protocol if the value is empty or its last well-formed
strategy says so. -/
theorem decode_last_wellFormed :
    (∀ value s, value ≠ "" → (decode value = s ↔ Declares value s)) ∧
      (∀ place item item', DifferAt place item item' → AlikeElsewhere place item item') ∧
      (Exchangeable GivesResult (·.workflow.result) ∧ Exchangeable GivesPath (·.workflow.path) ∧
        Exchangeable GivesParentPath (·.workflow.parentPath) ∧
        Exchangeable GivesSampled (·.lineage.sampled) ∧ Exchangeable GivesArgs (·.lineage.args) ∧
        Exchangeable GivesRoot (·.lineage.root) ∧ Exchangeable GivesUnknown unknown?) ∧
      ∀ value, (decode value).isLegacy = true ↔
        value = "" ∨ LastGives GivesSampled (items value) .notExist :=
  ⟨fun _ s h => decode_eq_iff h s, fun _ _ _ h => h.alikeElsewhere,
    ⟨settles_result.exchangeable, settles_path.exchangeable, settles_parentPath.exchangeable,
      settles_sampled.exchangeable, settles_args.exchangeable, settles_root.exchangeable,
      exchangeable_unknown⟩,
    isLegacy_decode_iff⟩

/-- Fields repeated, left out, too long, out of range and of other kinds. -/
def scuffedValue : String :=
  "w:4:a:b;s:2:uin;x:1;;w:9:+C;r:-1;s:99;w::0000000000000001f:1;r:2:x;y"

def scuffedState : HopState where
  workflow := ⟨.path, 12, 1⟩
  lineage := { sampled := .dyeing, root := .notExist }
  extensions := [⟨"x:1", by decide⟩, ⟨"y", by decide⟩]

theorem decode_scuffedValue :
    scuffedValue ≠ "" ∧ decode scuffedValue = scuffedState ∧ Declares scuffedValue scuffedState ∧
      (∀ x, GivesSampled ['s', ':', '9', '9'] x ↔ GivesSampled [] x) ∧
      (decode (row [['s', ':', '4']] ['s', ':', '9', '9'] [['y']])).lineage.sampled =
        (decode (row [['s', ':', '4']] [] [['y']])).lineage.sampled := by
  have hfilled : scuffedValue ≠ "" := by decide
  have hdecode : decode scuffedValue = scuffedState := by decide +kernel
  have hnone : ∀ x, GivesSampled ['s', ':', '9', '9'] x ↔ GivesSampled [] x := by
    intro x
    rw [givesSampled_iff, givesSampled_iff]
    rfl
  exact ⟨hfilled, hdecode, (decode_last_wellFormed.1 _ _ hfilled).mp hdecode, hnone,
    decode_last_wellFormed.2.2.1.2.2.2.1 _ _ _ _ (by decide) (by decide) (by decide) (by decide)
      (by decide) hnone⟩

end TraceSampling.HopState
