import TraceSampling.Proofs.HopState.Unknown
import TraceSampling.Proofs.Text.Spelling

/-!
# What an item of a carried value gives

A carried value is a row of items between semicolons, and an item a row of fields between colons. What
an item gives is said field by field, each on its own: the kind, the place of the field, and the texts
that are well formed there. Reading an entry yields for each field what the item gives, or nothing.
-/

namespace TraceSampling

namespace Entry
open Numeral

/-! ## Fields of an item -/

def fields (item : List Char) : List (List Char) := item.splitOn ':'

/-- The text of a field of an item of some kind. -/
def TextAt (kind : Char) (place : Nat) (item text : List Char) : Prop :=
  (fields item)[0]? = some [kind] ∧ (fields item)[place]? = some text

/-- One to sixteen bytes that spell a word. -/
def SpellsPath (cs : List Char) (p : UInt64) : Prop :=
  (String.ofList cs).utf8ByteSize ≤ 16 ∧ SpellsNat 16 cs p.toNat

def GivesResult (item : List Char) (r : EdgeResult) : Prop :=
  ∃ text, TextAt 'w' 1 item text ∧ SpellsNat 10 text r.rank

def GivesPath (item : List Char) (p : UInt64) : Prop :=
  ∃ text, TextAt 'w' 2 item text ∧ SpellsPath text p

/-- The last id ends the item. -/
def GivesParentPath (item : List Char) (p : UInt64) : Prop :=
  ∃ text, TextAt 'w' 3 item text ∧ (fields item).length = 4 ∧ SpellsPath text p

def GivesSampled (item : List Char) (s : Strategy) : Prop :=
  ∃ text, TextAt 's' 1 item text ∧ SpellsInt text s.rank

/-- All behind the strategy are the arguments, if the wire can carry them; if not, there are none. -/
def GivesArgs (item : List Char) (args : Option Args) : Prop :=
  (fields item)[0]? = some ['s'] ∧ 2 ≤ (fields item).length ∧
    args = Args.ofText? (String.ofList ([':'].intercalate ((fields item).drop 2)))

/-- The strategy of the root ends the item. -/
def GivesRoot (item : List Char) (s : Strategy) : Prop :=
  ∃ text, TextAt 'r' 1 item text ∧ (fields item).length = 2 ∧ SpellsInt text s.rank

/-! ## Fields of an entry -/

def result? : Entry → Option EdgeResult
  | .workflow result _ _ => result
  | _ => none

def path? : Entry → Option UInt64
  | .workflow _ path _ => path
  | _ => none

def parentPath? : Entry → Option UInt64
  | .workflow _ _ parentPath => parentPath
  | _ => none

def sampled? : Entry → Option Strategy
  | .sample strategy _ => strategy
  | _ => none

/-- An entry for this hop settles the arguments, even if it has none. -/
def args? : Entry → Option (Option Args)
  | .sample _ args => some (args.bind Args.ofText?)
  | _ => none

def root? : Entry → Option Strategy
  | .root strategy => strategy
  | _ => none

/-! ## Well-formed texts -/

theorem readResult?_eq_some_iff {cs : List Char} {r : EdgeResult} :
    readResult? cs = some r ↔ SpellsNat 10 cs r.rank := by
  have hrank (n : Nat) : EdgeResult.ofRank? n = some r ↔ n = r.rank := by
    constructor
    · intro h
      have hfound := List.find?_some h
      simpa using (of_decide_eq_true hfound).symm
    · rintro rfl
      exact EdgeResult.ofRank?_rank r
  simp [readResult?, Option.bind_eq_some_iff, readNat?_eq_some_iff isBase_ten, hrank]

theorem readStrategy?_eq_some_iff {cs : List Char} {s : Strategy} :
    readStrategy? cs = some s ↔ SpellsInt cs s.rank := by
  have hrank (i : Int) : Strategy.ofRank? i = some s ↔ i = s.rank := by
    constructor
    · intro h
      have hfound := List.find?_some h
      simpa using (of_decide_eq_true hfound).symm
    · rintro rfl
      exact Strategy.ofRank?_rank s
  simp [readStrategy?, Option.bind_eq_some_iff, readInt?_eq_some_iff, hrank]

theorem readPath?_eq_some_iff {cs : List Char} {p : UInt64} :
    readPath? cs = some p ↔ SpellsPath cs p := by
  have hsize {n : Nat} (h : SpellsNat 16 cs n) : (String.ofList cs).utf8ByteSize = cs.length :=
    Split.utf8ByteSize_of_narrow (h.narrow isBase_sixteen)
  simp only [readPath?, SpellsPath, Option.ite_none_right_eq_some, Option.map_eq_some_iff,
    readNat?_eq_some_iff isBase_sixteen]
  constructor
  · rintro ⟨hlength, n, hn, rfl⟩
    have hword : n < 16 ^ 16 :=
      Nat.lt_of_lt_of_le (hn.lt_pow isBase_sixteen) (Nat.pow_le_pow_right (by omega) hlength)
    rw [hsize hn, UInt64.toNat_ofNat_of_lt' hword]
    exact ⟨hlength, hn⟩
  · rintro ⟨hlength, hp⟩
    rw [hsize hp] at hlength
    exact ⟨hlength, p.toNat, hp, UInt64.ofNat_toNat⟩

/-! ## Fields one by one -/

theorem fields_eq (cs : List Char) :
    fields cs = (field cs).1 :: ((field cs).2.map fields).getD [] := by
  rw [fields, Split.splitOn_eq_cut?, field]
  cases Split.cut? ':' cs <;> rfl

theorem fields_zero (cs : List Char) : (fields cs)[0]? = some (field cs).1 := by
  rw [fields_eq, List.getElem?_cons_zero]

theorem fields_succ (cs : List Char) (place : Nat) :
    (fields cs)[place + 1]? = (field cs).2.bind fun behind => (fields behind)[place]? := by
  rw [fields_eq, List.getElem?_cons_succ]
  cases (field cs).2 <;> rfl

theorem intercalate_fields (cs : List Char) : [':'].intercalate (fields cs) = cs :=
  List.intercalate_splitOn ':'

/-- A row of one field is that field. -/
theorem field_of_length {cs : List Char} (h : (fields cs).length = 1) : (field cs).1 = cs := by
  obtain ⟨text, htext⟩ := List.length_eq_one_iff.mp h
  have hfirst := fields_zero cs
  rw [htext] at hfirst
  rw [← Option.some.inj hfirst, ← intercalate_fields cs, htext, List.intercalate_singleton]

section Kind

variable {kind : Char} (hkind : kind ≠ ':')
include hkind

theorem fields_kind (body : List Char) : fields (kind :: ':' :: body) = [kind] :: fields body := by
  have hnot : ':' ∉ [kind] := by simpa using hkind.symm
  exact List.splitOn_append_cons_self_of_not_mem hnot body

theorem textAt_kind (body text : List Char) (place : Nat) :
    TextAt kind (place + 1) (kind :: ':' :: body) text ↔ (fields body)[place]? = some text := by
  rw [TextAt, fields_kind hkind, List.getElem?_cons_zero, List.getElem?_cons_succ]
  exact and_iff_right rfl

theorem body_of_textAt {item text : List Char} {place : Nat}
    (h : TextAt kind (place + 1) item text) :
    ∃ body, item = kind :: ':' :: body ∧ (fields body)[place]? = some text := by
  obtain ⟨hfirst, htext⟩ := h
  have hitem := intercalate_fields item
  rcases hfields : fields item with _ | ⟨first, _ | ⟨second, rest⟩⟩ <;>
    rw [hfields] at hfirst htext hitem
  · cases hfirst
  · cases htext
  · cases Option.some.inj hfirst
    have hbody : item = kind :: ':' :: [':'].intercalate (second :: rest) := by
      rw [← hitem]
      simp
    refine ⟨_, hbody, ?_⟩
    rw [hbody, fields_kind hkind] at hfields
    rw [(List.cons.inj hfields).2]
    exact htext

end Kind

/-! ## What is read is what is given -/

/-- What is seen of an entry is seen of one of the four kinds, with the item that it is read from. -/
theorem view_cases {α : Type} {view : Entry → Option α} {item : List Char} {x : α}
    (h : view (read item) = some x) :
    (∃ body, item = 'w' :: ':' :: body ∧ view (readWorkflow body) = some x) ∨
      (∃ body, item = 's' :: ':' :: body ∧ view (readSample body) = some x) ∨
      (∃ body, item = 'r' :: ':' :: body ∧ view (.root (readStrategy? body)) = some x) ∨
      view (.unknown (String.ofList item)) = some x := by
  unfold read at h
  split at h
  · next body => exact .inl ⟨body, rfl, h⟩
  · next body => exact .inr (.inl ⟨body, rfl, h⟩)
  · next body => exact .inr (.inr (.inl ⟨body, rfl, h⟩))
  · exact .inr (.inr (.inr h))

theorem path?_readWorkflow (body : List Char) :
    (readWorkflow body).path? = ((field body).2.map field).bind fun ids => readPath? ids.1 := rfl

theorem parentPath?_readWorkflow (body : List Char) :
    (readWorkflow body).parentPath? = (((field body).2.map field).bind (·.2)).bind readPath? := rfl

/-- The arguments begin behind the first colon and may hold more of them. -/
theorem args?_readSample (body : List Char) :
    (readSample body).args? =
      some (Args.ofText? (String.ofList ([':'].intercalate ((fields body).drop 1)))) := by
  have hempty : Args.ofText? "" = none := rfl
  change some ((((field body).2.filter (!·.isEmpty)).map String.ofList).bind Args.ofText?) = _
  rw [fields_eq, List.drop_one, List.tail_cons]
  cases (field body).2 with
  | none => exact congrArg some hempty.symm
  | some behind =>
    rw [Option.map_some, Option.getD_some, intercalate_fields]
    cases behind with
    | nil => exact congrArg some hempty.symm
    | cons c cs => rfl

theorem w_ne_colon : 'w' ≠ ':' := by decide

theorem s_ne_colon : 's' ≠ ':' := by decide

theorem r_ne_colon : 'r' ≠ ':' := by decide

variable {item : List Char}

theorem givesResult_iff {r : EdgeResult} : GivesResult item r ↔ (read item).result? = some r := by
  constructor
  · intro h
    rcases h with ⟨text, htext, hspells⟩
    obtain ⟨body, rfl, hbody⟩ := body_of_textAt w_ne_colon htext
    rw [fields_zero] at hbody
    cases Option.some.inj hbody
    exact readResult?_eq_some_iff.mpr hspells
  · intro h
    rcases view_cases h with ⟨body, rfl, hview⟩ | ⟨_, _, hview⟩ | ⟨_, _, hview⟩ | hview
    · exact ⟨_, (textAt_kind w_ne_colon body _ 0).mpr (fields_zero body),
        readResult?_eq_some_iff.mp hview⟩
    all_goals cases hview

theorem givesPath_iff {p : UInt64} : GivesPath item p ↔ (read item).path? = some p := by
  constructor
  · intro h
    rcases h with ⟨text, htext, hspells⟩
    obtain ⟨body, rfl, hbody⟩ := body_of_textAt w_ne_colon htext
    rw [fields_succ] at hbody
    obtain ⟨ids, hids, hfirst⟩ := Option.bind_eq_some_iff.mp hbody
    rw [fields_zero] at hfirst
    cases Option.some.inj hfirst
    change (readWorkflow body).path? = some p
    rw [path?_readWorkflow, hids]
    exact readPath?_eq_some_iff.mpr hspells
  · intro h
    rcases view_cases h with ⟨body, rfl, hview⟩ | ⟨_, _, hview⟩ | ⟨_, _, hview⟩ | hview
    · rw [path?_readWorkflow] at hview
      obtain ⟨pair, hpair, hpath⟩ := Option.bind_eq_some_iff.mp hview
      obtain ⟨ids, hids, rfl⟩ := Option.map_eq_some_iff.mp hpair
      refine ⟨(field ids).1, (textAt_kind w_ne_colon body _ 1).mpr ?_,
        readPath?_eq_some_iff.mp hpath⟩
      rw [fields_succ, hids, Option.bind_some, fields_zero]
    all_goals cases hview

theorem givesParentPath_iff {p : UInt64} :
    GivesParentPath item p ↔ (read item).parentPath? = some p := by
  constructor
  · intro h
    rcases h with ⟨text, htext, hlength, hspells⟩
    obtain ⟨body, rfl, hbody⟩ := body_of_textAt w_ne_colon htext
    rw [fields_succ] at hbody
    obtain ⟨ids, hids, hbody⟩ := Option.bind_eq_some_iff.mp hbody
    rw [fields_succ] at hbody
    obtain ⟨last, hlast, hfirst⟩ := Option.bind_eq_some_iff.mp hbody
    rw [fields_kind w_ne_colon, fields_eq body, hids, Option.map_some, Option.getD_some,
      fields_eq ids, hlast, Option.map_some, Option.getD_some] at hlength
    rw [fields_zero, field_of_length (by simpa using hlength)] at hfirst
    cases Option.some.inj hfirst
    change (readWorkflow body).parentPath? = some p
    rw [parentPath?_readWorkflow, hids, Option.map_some, Option.bind_some, hlast]
    exact readPath?_eq_some_iff.mpr hspells
  · intro h
    rcases view_cases h with ⟨body, rfl, hview⟩ | ⟨_, _, hview⟩ | ⟨_, _, hview⟩ | hview
    · rw [parentPath?_readWorkflow] at hview
      obtain ⟨last, hlast, hpath⟩ := Option.bind_eq_some_iff.mp hview
      obtain ⟨pair, hpair, hlast⟩ := Option.bind_eq_some_iff.mp hlast
      obtain ⟨ids, hids, rfl⟩ := Option.map_eq_some_iff.mp hpair
      have hspells := readPath?_eq_some_iff.mp hpath
      -- What spells a number holds no colon, so nothing stands behind the last id.
      have hcolon := hspells.2.not_mem isBase_sixteen (foreign_colon.no_digit 16) (by decide)
      have hsingle : fields last = [last] := List.splitOn_eq_singleton hcolon
      refine ⟨last, (textAt_kind w_ne_colon body _ 2).mpr ?_, ?_, hspells⟩
      · rw [fields_succ, hids, Option.bind_some, fields_succ, hlast, Option.bind_some, hsingle]
        rfl
      · rw [fields_kind w_ne_colon, fields_eq body, hids, Option.map_some, Option.getD_some,
          fields_eq ids, hlast, Option.map_some, Option.getD_some, hsingle]
        rfl
    all_goals cases hview

theorem givesSampled_iff {s : Strategy} : GivesSampled item s ↔ (read item).sampled? = some s := by
  constructor
  · intro h
    rcases h with ⟨text, htext, hspells⟩
    obtain ⟨body, rfl, hbody⟩ := body_of_textAt s_ne_colon htext
    rw [fields_zero] at hbody
    cases Option.some.inj hbody
    exact readStrategy?_eq_some_iff.mpr hspells
  · intro h
    rcases view_cases h with ⟨_, _, hview⟩ | ⟨body, rfl, hview⟩ | ⟨_, _, hview⟩ | hview
    · cases hview
    · exact ⟨_, (textAt_kind s_ne_colon body _ 0).mpr (fields_zero body),
        readStrategy?_eq_some_iff.mp hview⟩
    all_goals cases hview

theorem givesArgs_iff {args : Option Args} :
    GivesArgs item args ↔ (read item).args? = some args := by
  constructor
  · intro h
    rcases h with ⟨hkind, hlength, rfl⟩
    obtain ⟨body, rfl, -⟩ :=
      body_of_textAt s_ne_colon ⟨hkind, List.getElem?_eq_getElem (Nat.lt_of_succ_le hlength)⟩
    rw [fields_kind s_ne_colon, List.drop_succ_cons]
    exact args?_readSample body
  · intro h
    rcases view_cases h with ⟨_, _, hview⟩ | ⟨body, rfl, hview⟩ | ⟨_, _, hview⟩ | hview
    · cases hview
    · rw [args?_readSample] at hview
      rw [GivesArgs, fields_kind s_ne_colon, List.drop_succ_cons]
      refine ⟨rfl, ?_, (Option.some.inj hview).symm⟩
      rw [fields_eq]
      simp
    all_goals cases hview

theorem givesRoot_iff {s : Strategy} : GivesRoot item s ↔ (read item).root? = some s := by
  constructor
  · intro h
    rcases h with ⟨text, htext, hlength, hspells⟩
    obtain ⟨body, rfl, hbody⟩ := body_of_textAt r_ne_colon htext
    rw [fields_kind r_ne_colon] at hlength
    rw [fields_zero, field_of_length (by simpa using hlength)] at hbody
    cases Option.some.inj hbody
    exact readStrategy?_eq_some_iff.mpr hspells
  · intro h
    rcases view_cases h with ⟨_, _, hview⟩ | ⟨_, _, hview⟩ | ⟨body, rfl, hview⟩ | hview
    · cases hview
    · cases hview
    · have hspells := readStrategy?_eq_some_iff.mp hview
      have hcolon := hspells.not_mem foreign_colon (by decide)
      have hsingle : fields body = [body] := List.splitOn_eq_singleton hcolon
      refine ⟨body, (textAt_kind r_ne_colon body _ 0).mpr ?_, ?_, hspells⟩
      · rw [hsingle]
        rfl
      · rw [fields_kind r_ne_colon, hsingle]
        rfl
    · cases hview

theorem isKnown_iff_body :
    isKnown item = true ↔ ∃ kind ∈ ['w', 's', 'r'], ∃ body, item = kind :: ':' :: body := by
  have hmarks : [['w', ':'], ['s', ':'], ['r', ':']] = ['w', 's', 'r'].map ([·, ':']) := rfl
  rw [isKnown, hmarks, List.any_map, List.any_eq_true]
  refine exists_congr fun kind => and_congr_right fun _ => ?_
  rw [Function.comp_apply, List.isPrefixOf_iff_prefix]
  exact exists_congr fun body => eq_comm

theorem isKnown_iff :
    isKnown item = true ↔
      (∃ kind ∈ ['w', 's', 'r'], (fields item)[0]? = some [kind]) ∧ 2 ≤ (fields item).length := by
  have hcolon : ∀ kind ∈ ['w', 's', 'r'], kind ≠ ':' := by simp
  rw [isKnown_iff_body]
  constructor
  · intro h
    obtain ⟨kind, hkind, body, rfl⟩ := h
    rw [fields_kind (hcolon kind hkind), fields_eq]
    exact ⟨⟨kind, hkind, rfl⟩, by simp⟩
  · intro h
    obtain ⟨⟨kind, hkind, hfirst⟩, hlength⟩ := h
    have htext := List.getElem?_eq_getElem (Nat.lt_of_succ_le hlength)
    obtain ⟨body, hitem, -⟩ := body_of_textAt (hcolon kind hkind) ⟨hfirst, htext⟩
    exact ⟨kind, hkind, body, hitem⟩

/-! ## Fields apart from each other -/

/-- Items that are the same but for the field at one place behind the kind. -/
def DifferAt (place : Nat) (item item' : List Char) : Prop :=
  0 < place ∧ ∃ text, fields item' = (fields item).set place text

section Differ

variable {place : Nat} {item' : List Char} (h : DifferAt place item item')
include h

theorem DifferAt.length_eq : (fields item').length = (fields item).length := by
  obtain ⟨-, text, hfields⟩ := h
  rw [hfields, List.length_set]

theorem DifferAt.getElem?_eq {other : Nat} (hother : place ≠ other) :
    (fields item')[other]? = (fields item)[other]? := by
  obtain ⟨-, text, hfields⟩ := h
  rw [hfields, List.getElem?_set_ne hother]

theorem DifferAt.drop_eq {count : Nat} (hcount : place < count) :
    (fields item').drop count = (fields item).drop count := by
  obtain ⟨-, text, hfields⟩ := h
  rw [hfields, List.drop_set_of_lt hcount]

theorem DifferAt.textAt_iff {kind : Char} {other : Nat}
    (hother : (fields item)[0]? = some [kind] → place ≠ other) (text : List Char) :
    TextAt kind other item text ↔ TextAt kind other item' text := by
  have hkind := h.getElem?_eq (Nat.ne_of_gt h.1)
  unfold TextAt
  rw [hkind]
  refine and_congr_right fun hitem => ?_
  rw [h.getElem?_eq (hother hitem)]

end Differ

/-- What two items give is the same for every field but the one in which they differ. The arguments
are all that stands from the second place on. -/
structure AlikeElsewhere (place : Nat) (item item' : List Char) : Prop where
  result : ((fields item)[0]? = some ['w'] → place ≠ 1) →
    ∀ r, GivesResult item r ↔ GivesResult item' r
  path : ((fields item)[0]? = some ['w'] → place ≠ 2) →
    ∀ p, GivesPath item p ↔ GivesPath item' p
  parentPath : ((fields item)[0]? = some ['w'] → place ≠ 3) →
    ∀ p, GivesParentPath item p ↔ GivesParentPath item' p
  sampled : ((fields item)[0]? = some ['s'] → place ≠ 1) →
    ∀ s, GivesSampled item s ↔ GivesSampled item' s
  args : ((fields item)[0]? = some ['s'] → place < 2) →
    ∀ args, GivesArgs item args ↔ GivesArgs item' args
  root : ((fields item)[0]? = some ['r'] → place ≠ 1) →
    ∀ s, GivesRoot item s ↔ GivesRoot item' s
  known : isKnown item = isKnown item'

theorem DifferAt.alikeElsewhere {place : Nat} {item' : List Char} (h : DifferAt place item item') :
    AlikeElsewhere place item item' where
  result hplace r := by simp only [GivesResult, h.textAt_iff hplace]
  path hplace p := by simp only [GivesPath, h.textAt_iff hplace]
  parentPath hplace p := by simp only [GivesParentPath, h.textAt_iff hplace, h.length_eq]
  sampled hplace s := by simp only [GivesSampled, h.textAt_iff hplace]
  args hplace args := by
    rw [GivesArgs, GivesArgs, h.getElem?_eq (Nat.ne_of_gt h.1), h.length_eq]
    refine and_congr_right fun hkind => ?_
    rw [h.drop_eq (hplace hkind)]
  root hplace s := by simp only [GivesRoot, h.textAt_iff hplace, h.length_eq]
  known := by
    rw [Bool.eq_iff_iff, isKnown_iff, isKnown_iff, h.length_eq]
    simp only [h.getElem?_eq (Nat.ne_of_gt h.1)]

end Entry

end TraceSampling
