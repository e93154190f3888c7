import PlatformSdk.Access

/-!
# The column mask and the levels of clearance

`CLEARANCE_LEVELS` lists the levels from the lowest to the highest, and
`build_col_mask` is documented by level: all sensitive columns for `standard`,
the compliance columns for `aml_view`, none for `compliance_full`. The code
does not look for the level of a context. It asks for two of the names, each
for itself, so that `compliance_full` does not bring along what `aml_view`
shows.

`maskByLevel_iff` says for which contexts the mask is the one of the level:
those that hold `aml_view` where they hold `compliance_full`.
-/

/-- `CLEARANCE_LEVELS`, from the lowest to the highest. -/
def clearanceLevels : List String := ["standard", "aml_view", "compliance_full"]

namespace AgentContext

variable (c d : AgentContext String)

/-- `has_clearance`. -/
def hasClearance (level : String) : Bool := c.complianceClearance.contains level

/-- **The highest entry of `CLEARANCE_LEVELS` a context holds**, if any. -/
def highestClearance : Option String := (clearanceLevels.filter c.hasClearance).getLast?

/-- The rank of that entry: 0 for none, and from 1 on for those there are. -/
def clearanceRank : ℕ :=
  match c.highestClearance with
  | none => 0
  | some level => clearanceLevels.idxOf level + 1

/-- **What the levels promise of one mask**: a context at `aml_view` is denied
the compliance columns and no others, one with `compliance_full` nothing. -/
structure MasksAsDocumented : Prop where
  amlView : c.highestClearance = some "aml_view" →
    ∀ column, column ∈ c.buildColMask ↔ column ∈ complianceColumns
  complianceFull : c.hasClearance "compliance_full" = true → ∀ column, column ∉ c.buildColMask

/-- **What they promise of two**: each is as documented, the mask depends on
the highest level alone, and a higher level masks nothing a lower one
shows. -/
structure MaskByLevel : Prop where
  left : c.MasksAsDocumented
  right : d.MasksAsDocumented
  ofLevel : c.highestClearance = d.highestClearance →
    ∀ column, column ∈ c.buildColMask ↔ column ∈ d.buildColMask
  antitone : c.clearanceRank ≤ d.clearanceRank →
    ∀ column, column ∈ d.buildColMask → column ∈ c.buildColMask

/-- **The exception**: a context has the highest level and not the one
below. -/
def SkipsAmlView : Prop :=
  c.hasClearance "compliance_full" = true ∧ c.hasClearance "aml_view" = false

instance : Decidable c.SkipsAmlView := inferInstanceAs (Decidable (_ ∧ _))

variable {c d}

theorem hasClearance_iff {level : String} :
    c.hasClearance level = true ↔ level ∈ c.complianceClearance := List.contains_iff_mem

theorem mem_buildColMask_iff {column : String} :
    column ∈ c.buildColMask
      ↔ c.hasClearance "compliance_full" = false ∧ column ∈ complianceColumns
        ∨ c.hasClearance "aml_view" = false ∧ column ∈ amlColumns := by
  rw [← Bool.not_eq_true, ← Bool.not_eq_true, hasClearance_iff, hasClearance_iff, buildColMask,
    List.mem_append]
  refine or_congr ?_ ?_
  · by_cases h : "compliance_full" ∈ c.complianceClearance <;> simp [h]
  · by_cases h : "aml_view" ∈ c.complianceClearance <;> simp [h]

/-! ## The highest level -/

/-- Who has `compliance_full` has the highest level there is. -/
theorem highestClearance_of_full (h : c.hasClearance "compliance_full" = true) :
    c.highestClearance = some "compliance_full" := by
  have hsplit : clearanceLevels = ["standard", "aml_view"] ++ ["compliance_full"] := rfl
  rw [highestClearance, hsplit, List.filter_append, List.filter_cons_of_pos h]
  exact List.getLast?_concat

/-- Without `compliance_full` the highest level is `aml_view`, where the context
has it. -/
theorem highestClearance_of_aml (hfull : c.hasClearance "compliance_full" = false)
    (h : c.hasClearance "aml_view" = true) : c.highestClearance = some "aml_view" := by
  have hsplit : clearanceLevels = ["standard"] ++ ["aml_view"] ++ ["compliance_full"] := rfl
  have hnone : ["compliance_full"].filter c.hasClearance = [] :=
    List.filter_cons_of_neg (by rw [hfull]; decide)
  rw [highestClearance, hsplit, List.filter_append, List.filter_append, hnone,
    List.filter_cons_of_pos h, List.append_nil]
  exact List.getLast?_concat

/-- With neither, `standard` is all that is left. -/
theorem highestClearance_of_neither (hfull : c.hasClearance "compliance_full" = false)
    (haml : c.hasClearance "aml_view" = false) :
    c.highestClearance = if c.hasClearance "standard" then some "standard" else none := by
  have hnone : ["aml_view", "compliance_full"].filter c.hasClearance = [] := by
    rw [List.filter_cons_of_neg (by rw [haml]; decide),
      List.filter_cons_of_neg (by rw [hfull]; decide)]
    rfl
  have hsplit : clearanceLevels = ["standard"] ++ ["aml_view", "compliance_full"] := rfl
  rw [highestClearance, hsplit, List.filter_append, hnone, List.append_nil]
  cases h : c.hasClearance "standard" with
  | true => rw [List.filter_cons_of_pos h]; rfl
  | false => rw [List.filter_cons_of_neg (by rw [h]; decide)]; rfl

/-- **The rank**, by what a context holds. -/
theorem clearanceRank_eq :
    c.clearanceRank = if c.hasClearance "compliance_full" then 3
      else if c.hasClearance "aml_view" then 2
      else if c.hasClearance "standard" then 1 else 0 := by
  cases hfull : c.hasClearance "compliance_full" with
  | true =>
    rw [clearanceRank, highestClearance_of_full hfull, if_pos rfl]
    decide
  | false =>
    cases haml : c.hasClearance "aml_view" with
    | true =>
      rw [clearanceRank, highestClearance_of_aml hfull haml, if_neg Bool.false_ne_true, if_pos rfl]
      decide
    | false =>
      rw [clearanceRank, highestClearance_of_neither hfull haml]
      cases c.hasClearance "standard" <;> decide

/-- **The rank is a threshold**: it is 3 for those with `compliance_full`. -/
theorem clearanceRank_lt_three_iff :
    c.clearanceRank < 3 ↔ c.hasClearance "compliance_full" = false := by
  rw [clearanceRank_eq]
  cases c.hasClearance "compliance_full" <;> cases c.hasClearance "aml_view"
    <;> cases c.hasClearance "standard" <;> decide

/-- It is below 2 for those who have neither of the upper levels. -/
theorem clearanceRank_lt_two_iff :
    c.clearanceRank < 2
      ↔ c.hasClearance "compliance_full" = false ∧ c.hasClearance "aml_view" = false := by
  rw [clearanceRank_eq]
  cases c.hasClearance "compliance_full" <;> cases c.hasClearance "aml_view"
    <;> cases c.hasClearance "standard" <;> decide

/-! ## The mask of a level -/

/-- **The mask by thresholds.** But for the exception, the compliance columns
are masked below the third level and the AML columns below the second. -/
theorem mem_buildColMask_iff_rank (h : ¬ c.SkipsAmlView) {column : String} :
    column ∈ c.buildColMask
      ↔ c.clearanceRank < 3 ∧ column ∈ complianceColumns
        ∨ c.clearanceRank < 2 ∧ column ∈ amlColumns := by
  have haml : c.hasClearance "aml_view" = false
      ↔ c.hasClearance "compliance_full" = false ∧ c.hasClearance "aml_view" = false := by
    refine ⟨fun hnot => ⟨?_, hnot⟩, And.right⟩
    exact Bool.eq_false_iff.mpr (fun hfull => h ⟨hfull, hnot⟩)
  rw [mem_buildColMask_iff, clearanceRank_lt_three_iff, clearanceRank_lt_two_iff, ← haml]

/-- A threshold that is met stays met below: who ranks higher has no more
columns masked. -/
theorem mem_buildColMask_of_rank_le (hc : ¬ c.SkipsAmlView) (hd : ¬ d.SkipsAmlView)
    (hle : c.clearanceRank ≤ d.clearanceRank) {column : String} (h : column ∈ d.buildColMask) :
    column ∈ c.buildColMask := by
  rw [mem_buildColMask_iff_rank hd] at h
  rw [mem_buildColMask_iff_rank hc]
  exact h.imp (And.imp_left hle.trans_lt) (And.imp_left hle.trans_lt)

/-- **Which contexts are masked as documented**: all but those that have
`compliance_full` without `aml_view`, since each group of columns asks for its
own entry. -/
theorem masksAsDocumented_iff : c.MasksAsDocumented ↔ ¬ c.SkipsAmlView := by
  constructor
  · rintro h ⟨hfull, haml⟩
    exact h.complianceFull hfull "RiskRating"
      (mem_buildColMask_iff.mpr (.inr ⟨haml, by decide⟩))
  · intro h
    refine ⟨fun hlevel column => ?_, fun hfull column => ?_⟩
    · have hrank : c.clearanceRank = 2 := by
        rw [clearanceRank, hlevel]
        decide
      rw [mem_buildColMask_iff_rank h, hrank]
      simp
    · have hrank : ¬ c.clearanceRank < 3 := by
        rw [clearanceRank_lt_three_iff, hfull]
        decide
      have hrank' : ¬ c.clearanceRank < 2 := fun h2 => hrank (h2.trans (by decide))
      rw [mem_buildColMask_iff_rank h]
      exact fun hor => hor.elim (fun hand => hrank hand.1) (fun hand => hrank' hand.1)

/-- **When the mask goes by the level.** Of two contexts it does, in every
respect, exactly when neither has the highest level without the one below. The
code tests the two levels one by one, so that the higher one alone leaves the
columns of the lower one masked. -/
theorem maskByLevel_iff (c d : AgentContext String) :
    MaskByLevel c d ↔ ¬ c.SkipsAmlView ∧ ¬ d.SkipsAmlView := by
  constructor
  · exact fun h => ⟨masksAsDocumented_iff.mp h.left, masksAsDocumented_iff.mp h.right⟩
  · rintro ⟨hc, hd⟩
    have hlevel : c.highestClearance = d.highestClearance → c.clearanceRank = d.clearanceRank := by
      intro h
      rw [clearanceRank, clearanceRank, h]
    exact
      { left := masksAsDocumented_iff.mpr hc
        right := masksAsDocumented_iff.mpr hd
        ofLevel := fun h _ =>
          ⟨mem_buildColMask_of_rank_le hd hc (hlevel h).ge,
            mem_buildColMask_of_rank_le hc hd (hlevel h).le⟩
        antitone := fun h _ => mem_buildColMask_of_rank_le hc hd h }

/-- A compliance officer whose token lists one level and not those below. -/
def complianceOfficer : AgentContext String :=
  new
    { rmId := "co-1", rmName := "Ada", role := "compliance_officer", teamId := "t1"
      assignedAccountIds := [], complianceClearance := ["compliance_full"]
      userEmail := "", userRole := "" }

/-- **The highest level alone is denied what the level below is shown.** -/
theorem not_maskByLevel_complianceOfficer :
    ¬ MaskByLevel complianceOfficer complianceOfficer
      ∧ "RiskRating" ∈ complianceOfficer.buildColMask := by
  refine ⟨fun h => ?_, by decide⟩
  exact h.left.complianceFull (by decide) "RiskRating" (by decide)

end AgentContext
