import PlatformSdk.Auth

/-!
# What a context may see

Four decisions are taken on an `AgentContext`: whether it may open an
account, which rows of the CRM and of the payments warehouse it is shown, and
which columns are blanked out. The row filters are mappings from tables to the
values a row may have, and a table that is *absent* from one is not restricted
at all (`Admits`).

The anonymous context is meant to be the one of least privilege: whatever it
is shown, every other context is shown too. Of three of the decisions that is
so. The payments filter, however, names `dim_party` where it restricts to the
parties of a relationship manager, and forgets it where it denies everything;
`anonymous_seesNoMore_iff` says that this is the one exception.
-/

/-- `_AML_COLUMNS`. -/
def amlColumns : List String :=
  ["AMLRiskCategory", "RiskRating", "KYCStatus", "FraudMonitoringSegment"]

/-- `_COMPLIANCE_COLUMNS`. -/
def complianceColumns : List String :=
  ["SanctionsScreeningStatus", "PEPFlag", "BSAAMLProgramRating", "SanctionsComplianceStatus"]

/-- The roles without a restriction on rows. -/
def unrestrictedRoles : List String := ["manager", "compliance_officer", "senior_rm"]

/-- The value no row has, which a filter lets through in the place of an empty
list. -/
def denyAll : String := "__DENY_ALL__"

/-- A row filter: for each table it restricts, the values a row may have. -/
abbrev RowFilters := Dict String (List String)

/-- **The rows a filter admits**: all of a table that is absent, and of one
that is present those with a listed value. -/
def RowFilters.Admits (f : RowFilters) (table value : String) : Prop :=
  ∀ values, f.get? table = some values → value ∈ values

namespace AgentContext

/-- `can_access_account`. -/
def canAccessAccount (c : AgentContext String) (accountId : String) : Bool :=
  if c.role ∈ unrestrictedRoles then true else decide (accountId ∈ c.assignedAccountIds)

/-- `build_row_filters_crm`. -/
def buildRowFiltersCrm (c : AgentContext String) : RowFilters :=
  if c.role ∈ unrestrictedRoles then []
  else if c.assignedAccountIds ≠ [] then [("Account", c.assignedAccountIds)]
  else [("Account", [denyAll])]

/-- `build_row_filters_payments`. -/
def buildRowFiltersPayments (c : AgentContext String) (partyNames : Option (List String)) :
    RowFilters :=
  if c.role ∈ unrestrictedRoles then []
  else
    match partyNames with
    | none | some [] => [("fact_payments", [denyAll])]
    | some names => [("fact_payments", names), ("dim_party", names)]

/-- `build_col_mask`. The order of the columns is that of a set, and no order. -/
def buildColMask (c : AgentContext String) : List String :=
  (if "compliance_full" ∉ c.complianceClearance then complianceColumns else [])
    ++ (if "aml_view" ∉ c.complianceClearance then amlColumns else [])

/-! ## Least privilege -/

/-- **One context sees no more than another** of an account, of the rows of a
table with a value, and of a column; the first has no resolved party names,
the second has the given ones. -/
structure SeesNoMore (a c : AgentContext String) (partyNames : Option (List String))
    (accountId table value column : String) : Prop where
  account : a.canAccessAccount accountId = true → c.canAccessAccount accountId = true
  crm : a.buildRowFiltersCrm.Admits table value → c.buildRowFiltersCrm.Admits table value
  payments : ∀ noNames : Option (List String), noNames.getD [] = [] →
    (a.buildRowFiltersPayments noNames).Admits table value →
      (c.buildRowFiltersPayments partyNames).Admits table value
  columns : column ∉ a.buildColMask → column ∉ c.buildColMask

variable {c : AgentContext String}

/-- A filter that is empty admits everything. -/
theorem admits_nil (table value : String) : RowFilters.Admits [] table value :=
  fun _ h => absurd h (by simp)

/-- Without party names every row of the payments is denied, and no table
besides is restricted. -/
theorem buildRowFiltersPayments_of_noNames (h : c.role ∉ unrestrictedRoles)
    {noNames : Option (List String)} (hnone : noNames.getD [] = []) :
    c.buildRowFiltersPayments noNames = [("fact_payments", [denyAll])] := by
  unfold buildRowFiltersPayments
  rw [if_neg h]
  match noNames, hnone with
  | none, _ => rfl
  | some [], _ => rfl

/-- The rows of one table with the denying filter. -/
theorem admits_deny_iff {denied table value : String} (hv : value ≠ denyAll) :
    RowFilters.Admits [(denied, [denyAll])] table value ↔ table ≠ denied := by
  constructor
  · rintro h rfl
    exact hv (List.mem_singleton.mp (h [denyAll] (by simp [Dict.get?])))
  · intro hne values hvalues
    rw [Dict.get?_cons, if_neg (Ne.symm hne)] at hvalues
    cases hvalues

/-- The rows with a value among the party names, or of another table. -/
theorem admits_names_iff {names : List String} {table value : String} :
    RowFilters.Admits [("fact_payments", names), ("dim_party", names)] table value
      ↔ (table = "fact_payments" ∨ table = "dim_party" → value ∈ names) := by
  unfold RowFilters.Admits
  by_cases h₁ : table = "fact_payments"
  · simp [Dict.get?, h₁]
  · by_cases h₂ : table = "dim_party"
    · simp [Dict.get?, h₂]
    · simp [Dict.get?, h₁, h₂, Ne.symm h₁, Ne.symm h₂]

/-- The anonymous role is one of those a list of accounts restricts, since only
three roles are not. -/
theorem anonymous_role : anonymous.role ∉ unrestrictedRoles := by decide

/-- **The anonymous context opens no account.** Its role is restricted and its
list of accounts empty, so no account is on it. -/
theorem canAccessAccount_anonymous (accountId : String) :
    anonymous.canAccessAccount accountId = false := by
  show (if anonymous.role ∈ unrestrictedRoles then true
    else decide (accountId ∈ anonymous.assignedAccountIds)) = false
  rw [if_neg anonymous_role]
  exact decide_eq_false List.not_mem_nil

/-- **The anonymous context sees the least of the CRM.** -/
theorem admits_crm_of_anonymous {table value : String} (hv : value ≠ denyAll)
    (h : anonymous.buildRowFiltersCrm.Admits table value) :
    c.buildRowFiltersCrm.Admits table value := by
  have htable : table ≠ "Account" := (admits_deny_iff hv).mp h
  intro values hvalues
  unfold buildRowFiltersCrm at hvalues
  split at hvalues
  · cases hvalues
  · split at hvalues
    · rw [Dict.get?_cons, if_neg (Ne.symm htable)] at hvalues
      cases hvalues
    · rw [Dict.get?_cons, if_neg (Ne.symm htable)] at hvalues
      cases hvalues

/-- **The anonymous context sees the fewest columns**: all those anybody is
denied are denied to it. -/
theorem notMem_buildColMask_of_anonymous {column : String}
    (h : column ∉ anonymous.buildColMask) : column ∉ c.buildColMask := by
  have hmask : anonymous.buildColMask = complianceColumns ++ amlColumns := by decide
  rw [hmask, List.mem_append, not_or] at h
  unfold buildColMask
  rw [List.mem_append, not_or]
  constructor
  · split
    · exact h.1
    · exact List.not_mem_nil
  · split
    · exact h.2
    · exact List.not_mem_nil

/-- **What the payments filter admits** of a restricted context with party
names, and of every other one. -/
theorem admits_payments_iff {partyNames : Option (List String)} {table value : String}
    (hv : value ≠ denyAll) :
    (c.buildRowFiltersPayments partyNames).Admits table value
      ↔ c.role ∈ unrestrictedRoles
        ∨ (partyNames.getD [] = [] ∧ table ≠ "fact_payments")
        ∨ (partyNames.getD [] ≠ []
          ∧ (table = "fact_payments" ∨ table = "dim_party" → value ∈ partyNames.getD [])) := by
  by_cases hrole : c.role ∈ unrestrictedRoles
  · unfold buildRowFiltersPayments
    rw [if_pos hrole]
    exact iff_of_true (admits_nil table value) (.inl hrole)
  · by_cases hnames : partyNames.getD [] = []
    · rw [buildRowFiltersPayments_of_noNames hrole hnames, admits_deny_iff hv]
      simp [hrole, hnames]
    · have hfilter : c.buildRowFiltersPayments partyNames
          = [("fact_payments", partyNames.getD []), ("dim_party", partyNames.getD [])] := by
        unfold buildRowFiltersPayments
        rw [if_neg hrole]
        match partyNames, hnames with
        | some (name :: names), _ => rfl
      rw [hfilter, admits_names_iff]
      simp [hrole, hnames]

/-- **The anonymous context is the one of least privilege, but for the
parties.** It sees no more than a context unless that context is restricted to
parties it has names for, and the row is of a party that is not one of
them. -/
theorem anonymous_seesNoMore_iff (c : AgentContext String) (partyNames : Option (List String))
    (accountId table value column : String) (hv : value ≠ denyAll) :
    SeesNoMore anonymous c partyNames accountId table value column
      ↔ ¬ (table = "dim_party" ∧ c.role ∉ unrestrictedRoles ∧ partyNames.getD [] ≠ []
        ∧ value ∉ partyNames.getD []) := by
  have hanonymous : ∀ noNames : Option (List String), noNames.getD [] = [] →
      ((anonymous.buildRowFiltersPayments noNames).Admits table value
        ↔ table ≠ "fact_payments") := by
    intro noNames hnone
    rw [buildRowFiltersPayments_of_noNames anonymous_role hnone, admits_deny_iff hv]
  constructor
  · rintro h ⟨rfl, hrole, hnames, hvalue⟩
    have hadmits := h.payments none rfl ((hanonymous none rfl).mpr (by decide))
    rcases (admits_payments_iff hv).mp hadmits with hrole' | ⟨hnone, -⟩ | ⟨-, hmem⟩
    · exact hrole hrole'
    · exact hnames hnone
    · exact hvalue (hmem (.inr rfl))
  · intro h
    refine ⟨fun haccount => ?_, admits_crm_of_anonymous hv, fun noNames hnone hadmits => ?_,
      notMem_buildColMask_of_anonymous⟩
    · rw [canAccessAccount_anonymous] at haccount
      cases haccount
    · have htable := (hanonymous noNames hnone).mp hadmits
      rw [admits_payments_iff hv]
      by_cases hrole : c.role ∈ unrestrictedRoles
      · exact .inl hrole
      · by_cases hnames : partyNames.getD [] = []
        · exact .inr (.inl ⟨hnames, htable⟩)
        · refine .inr (.inr ⟨hnames, fun hor => ?_⟩)
          by_contra hvalue
          exact h ⟨hor.resolve_left htable, hrole, hnames, hvalue⟩

/-- A relationship manager with one account. -/
def rmContext : AgentContext String :=
  { rmId := "rm-1", rmName := "Grace", role := "rm", teamId := "t1"
    assignedAccountIds := ["a1"], complianceClearance := ["standard"]
    userEmail := "", userRole := "" }

/-- A party the relationship manager has a name for. -/
theorem anonymous_seesNoMore_rm :
    SeesNoMore anonymous rmContext (some ["Acme"]) "a1" "dim_party" "Acme" "RiskRating" :=
  (anonymous_seesNoMore_iff rmContext (some ["Acme"]) "a1" "dim_party" "Acme" "RiskRating"
    (by decide)).mpr (by decide)

/-- **The anonymous context sees a party the relationship manager does not.** -/
theorem not_anonymous_seesNoMore :
    ¬ SeesNoMore anonymous rmContext (some ["Acme"]) "a1" "dim_party" "Globex" "RiskRating" := by
  intro h
  have hadmits : (anonymous.buildRowFiltersPayments none).Admits "dim_party" "Globex" :=
    fun _ hvalues => by cases hvalues
  have hmem : "Globex" ∈ ["Acme"] := h.payments none rfl hadmits ["Acme"] rfl
  exact absurd hmem (by decide)

end AgentContext
