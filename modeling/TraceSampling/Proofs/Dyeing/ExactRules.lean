import TraceSampling.Proofs.Table
import TraceSampling.Snapshot

/-!
# Values that exact rules dye

Compiling puts the values of all rules of one key together, so a list of rules dyes just those texts
under a key that some rule of that key lists. In what order the rules stand, and over how many of
them the values of a key are spread, leaves no trace in what is matched.
-/

namespace TraceSampling

/-! ## The first attribute that dyes -/

section FirstKey

variable {attributes : List Attribute} {dyes : String → String → Bool}

theorem firstKey?_eq_some_iff {key : String} :
    firstKey? attributes dyes = some key ↔
      ∃ before a after, attributes = before ++ a :: after ∧ a.key = key ∧
        dyes a.key a.text = true ∧ ∀ b ∈ before, ¬dyes b.key b.text = true := by
  simp only [firstKey?, Option.map_eq_some_iff, List.find?_eq_some_iff_append]
  constructor
  · rintro ⟨a, ⟨hdyes, before, after, rfl, hbefore⟩, hkey⟩
    exact ⟨before, a, after, rfl, hkey, hdyes, by simpa using hbefore⟩
  · rintro ⟨before, a, after, rfl, hkey, hdyes, hbefore⟩
    exact ⟨a, ⟨hdyes, before, after, rfl, by simpa using hbefore⟩, hkey⟩

theorem firstKey?_eq_none_iff :
    firstKey? attributes dyes = none ↔ ∀ a ∈ attributes, ¬dyes a.key a.text = true := by
  rw [firstKey?, Option.map_eq_none_iff, List.find?_eq_none]

end FirstKey

/-! ## Rules put together -/

namespace ExactRules

theorem lookup_addTo (key other : String) (values : List String)
    (sets : List (String × List String)) :
    (addTo key values sets).lookup other =
      if other = key then some ((sets.lookup key).getD [] ++ values) else sets.lookup other := by
  induction sets with
  | nil => rw [addTo, Table.lookup_cons_eq, List.lookup_nil, List.lookup_nil, Option.getD_none,
      List.nil_append]
  | cons entry rest ih =>
    obtain ⟨k, vs⟩ := entry
    rw [addTo]
    by_cases hk : k = key
    · rw [if_pos hk, hk, Table.lookup_cons_eq, Table.lookup_cons_eq, Table.lookup_cons_eq,
        if_pos rfl, Option.getD_some]
      split <;> rfl
    · rw [if_neg hk, Table.lookup_cons_eq, Table.lookup_cons_eq, Table.lookup_cons_eq, ih,
        if_neg (Ne.symm hk)]
      by_cases hother : other = k
      · rw [if_pos hother, if_pos hother, if_neg (hother ▸ hk)]
      · rw [if_neg hother, if_neg hother]

/-- Adding a rule dyes what it lists, besides all that was dyed before. -/
theorem dyes_add (r : ExactRules) (key other text : String) (values : List String) :
    (r.add key values).dyes other text = true ↔
      r.dyes other text = true ∨ key = other ∧ text ∈ values := by
  rw [dyes, dyes, add, lookup_addTo]
  by_cases h : other = key
  · subst h
    cases r.sets.lookup other <;> simp
  · simp [h, Ne.symm h]

end ExactRules

/-! ## What is listed -/

namespace ExactRuleSettings

/-- The text is among the values of all rules of the key. -/
def Listed (rules : List ExactRuleSettings) (key text : String) : Prop :=
  ∃ r ∈ rules, r.key = key ∧ text ∈ r.values

instance (rules : List ExactRuleSettings) (key text : String) : Decidable (Listed rules key text) :=
  inferInstanceAs (Decidable (∃ r ∈ rules, r.key = key ∧ text ∈ r.values))

/-- Rules put into another order, taken apart, or given twice. -/
inductive Rewritten : List ExactRuleSettings → List ExactRuleSettings → Prop
  | permute {rules rules' : List ExactRuleSettings} : rules.Perm rules' → Rewritten rules rules'
  | split {earlier later : List ExactRuleSettings} {key : String}
      {values first second : List String} :
      (∀ v, v ∈ values ↔ v ∈ first ∨ v ∈ second) →
      Rewritten (earlier ++ ⟨key, values⟩ :: later)
        (earlier ++ ⟨key, first⟩ :: ⟨key, second⟩ :: later)
  | duplicate {rules : List ExactRuleSettings} {r : ExactRuleSettings} :
      r ∈ rules → Rewritten rules (r :: rules)
  | symm {rules rules' : List ExactRuleSettings} : Rewritten rules rules' → Rewritten rules' rules
  | trans {rules rules' rules'' : List ExactRuleSettings} :
      Rewritten rules rules' → Rewritten rules' rules'' → Rewritten rules rules''

theorem Rewritten.listed_iff {rules rules' : List ExactRuleSettings} (h : Rewritten rules rules')
    (key text : String) : Listed rules' key text ↔ Listed rules key text := by
  induction h with
  | permute hperm => simp only [Listed, hperm.mem_iff]
  | split hvalues =>
    simp only [Listed, List.mem_append, List.mem_cons, or_and_right, exists_or, exists_eq_left,
      hvalues, and_or_left, or_assoc]
  | duplicate hmem =>
    simp only [Listed, List.mem_cons, or_and_right, exists_or, exists_eq_left, or_iff_right_iff_imp]
    exact fun hlisted => ⟨_, hmem, hlisted⟩
  | symm _ ih => exact ih.symm
  | trans _ _ ih ih' => exact ih'.trans ih

end ExactRuleSettings

namespace Snapshot

open ExactRuleSettings (Listed Rewritten)

theorem dyes_foldl_add (rules : List ExactRuleSettings) (before : ExactRules) (key text : String) :
    (rules.foldl (fun rs r => rs.add r.key r.values) before).dyes key text = true ↔
      before.dyes key text = true ∨ Listed rules key text := by
  induction rules generalizing before with
  | nil => simp [Listed]
  | cons r rules ih =>
    rw [List.foldl_cons, ih, ExactRules.dyes_add, or_assoc]
    simp [Listed]

theorem dyes_exactRules (s : DyeingSettings) (key text : String) :
    (exactRules s).dyes key text = true ↔ Listed s.rules key text := by
  have hnone : ¬({} : ExactRules).dyes key text = true := Bool.false_ne_true
  rw [exactRules, dyes_foldl_add, or_iff_right hnone]

/-- What the exact rules of a snapshot match, if they are switched on. -/
def exactKey? (s : Snapshot) (attributes : List Attribute) : Option String :=
  s.exact.bind (·.match? attributes)

variable {s : Settings}

theorem exactKey?_compile (h : s.dyeing.enabled = true) (attributes : List Attribute) :
    (compile s).exactKey? attributes = (exactRules s.dyeing).match? attributes := by
  have hexact : (compile s).exact = some (exactRules s.dyeing) := if_pos h
  rw [exactKey?, hexact, Option.bind_some]

/-- The answer is the key of the first attribute whose text is listed under its key. Rules that are
rewritten list the same, so they answer the same. -/
theorem exact_finds_first (henabled : s.dyeing.enabled = true) :
    (∀ attributes key, (compile s).exactKey? attributes = some key ↔
      ∃ before a after, attributes = before ++ a :: after ∧ a.key = key ∧
        Listed s.dyeing.rules a.key a.text ∧
        ∀ b ∈ before, ¬Listed s.dyeing.rules b.key b.text) ∧
    (∀ attributes, (compile s).exactKey? attributes = none ↔
      ∀ a ∈ attributes, ¬Listed s.dyeing.rules a.key a.text) ∧
    ∀ (s' : Settings), s'.dyeing.enabled = true → Rewritten s.dyeing.rules s'.dyeing.rules →
      ∀ attributes, (compile s').exactKey? attributes = (compile s).exactKey? attributes := by
  refine ⟨?_, ?_, ?_⟩
  · intro attributes key
    rw [exactKey?_compile henabled, ExactRules.match?, firstKey?_eq_some_iff]
    simp only [dyes_exactRules]
  · intro attributes
    rw [exactKey?_compile henabled, ExactRules.match?, firstKey?_eq_none_iff]
    simp only [dyes_exactRules]
  · intro s' henabled' hrewritten attributes
    have hsame : (exactRules s'.dyeing).dyes = (exactRules s.dyeing).dyes := by
      funext key text
      rw [Bool.eq_iff_iff, dyes_exactRules, dyes_exactRules, hrewritten.listed_iff]
    rw [exactKey?_compile henabled', exactKey?_compile henabled, ExactRules.match?,
      ExactRules.match?, hsame]

/-- Two rules of one key, and one that lists nothing. -/
def sharedUser : Settings where
  dyeing.enabled := true
  dyeing.rules := [⟨"user", ["7", "42"]⟩, ⟨"device", []⟩, ⟨"user", ["42"]⟩]

/-- The same rules, the first of them taken apart, in another order, and one of them twice. -/
def sharedUserRewritten : Settings where
  dyeing.enabled := true
  dyeing.rules :=
    [⟨"device", []⟩, ⟨"device", []⟩, ⟨"user", ["42"]⟩, ⟨"user", ["7"]⟩, ⟨"user", ["42"]⟩]

theorem exact_finds_rewritten :
    sharedUser.dyeing.enabled = true ∧ sharedUserRewritten.dyeing.enabled = true ∧
      Rewritten sharedUser.dyeing.rules sharedUserRewritten.dyeing.rules ∧
      (compile sharedUser).exactKey? [⟨"device", .text "7"⟩, ⟨"user", .text "7 "⟩] = none ∧
      (compile sharedUserRewritten).exactKey?
        [⟨"user", .text "8"⟩, ⟨"device", .text "7"⟩, ⟨"user", .int 42⟩] = some "user" := by
  have henabled : sharedUser.dyeing.enabled = true := rfl
  have henabled' : sharedUserRewritten.dyeing.enabled = true := rfl
  have hsplit : Rewritten sharedUser.dyeing.rules
      [⟨"user", ["42"]⟩, ⟨"user", ["7"]⟩, ⟨"device", []⟩, ⟨"user", ["42"]⟩] :=
    @Rewritten.split [] _ "user" ["7", "42"] ["42"] ["7"] (by grind)
  have hrewritten : Rewritten sharedUser.dyeing.rules sharedUserRewritten.dyeing.rules :=
    (hsplit.trans (.duplicate (r := ⟨"device", []⟩) (by simp))).trans (.permute (by decide))
  obtain ⟨hfirst, hnone, hsame⟩ := exact_finds_first henabled
  refine ⟨henabled, henabled', hrewritten, ?_, ?_⟩
  · rw [hnone]
    decide
  · rw [hsame sharedUserRewritten henabled' hrewritten, hfirst]
    exact ⟨[⟨"user", .text "8"⟩, ⟨"device", .text "7"⟩], ⟨"user", .int 42⟩, [], rfl, rfl,
      by decide, by decide⟩

end Snapshot

end TraceSampling
