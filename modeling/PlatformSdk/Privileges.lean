import Mathlib.Order.Basic
import PlatformSdk.ColumnMask

/-!
# More privileges, more to see

Roles have ranks, contexts have accounts and levels of clearance, and more of
each should never show less. The source decides it four times over: two methods
compare the role with a list of three names, not with `role_rank`, and each
builds its own filter.

`View` is what is meant, with no filters and no masks in it: the accounts, rows
and columns that somebody is shown, ordered by inclusion. `view_mono` says that
the decisions respect it, for contexts ordered by `AtMost`, and
`canAccessAccount_iff_admits` that the question for an account and the filter of
the account's rows have one answer.

The one table left out is `dim_party`, which the filter of the payments does not
mention where it denies everything.
-/

/-- `ROLE_RANK`. -/
def roleRanks : Dict String ℕ :=
  [("readonly", 0), ("rm", 1), ("senior_rm", 2), ("manager", 3), ("compliance_officer", 3)]

namespace AgentContext

/-- `role_rank`. -/
def roleRank (c : AgentContext String) : ℕ := (roleRanks.get? c.role).getD 0

/-- **One context has at most the privileges of another.** -/
structure AtMost (c d : AgentContext String) : Prop where
  rank : c.roleRank ≤ d.roleRank
  accounts : c.assignedAccountIds ⊆ d.assignedAccountIds
  clearance : c.complianceClearance ⊆ d.complianceClearance

end AgentContext

/-- **What somebody is shown**: accounts, rows of the CRM and of the payments
by table and value, and columns. -/
@[ext] structure View where
  accounts : Set String
  crm : Set (String × String)
  payments : Set (String × String)
  columns : Set String

namespace View

/-- One view is part of another. -/
instance : LE View :=
  ⟨fun v w => v.accounts ⊆ w.accounts ∧ v.crm ⊆ w.crm ∧ v.payments ⊆ w.payments
    ∧ v.columns ⊆ w.columns⟩

instance : PartialOrder View where
  le_refl v := ⟨fun _ h => h, fun _ h => h, fun _ h => h, fun _ h => h⟩
  le_trans u v w huv hvw :=
    ⟨fun _ h => hvw.1 (huv.1 h), fun _ h => hvw.2.1 (huv.2.1 h),
      fun _ h => hvw.2.2.1 (huv.2.2.1 h), fun _ h => hvw.2.2.2 (huv.2.2.2 h)⟩
  le_antisymm v w hvw hwv :=
    View.ext (Set.Subset.antisymm hvw.1 hwv.1) (Set.Subset.antisymm hvw.2.1 hwv.2.1)
      (Set.Subset.antisymm hvw.2.2.1 hwv.2.2.1) (Set.Subset.antisymm hvw.2.2.2 hwv.2.2.2)

end View

namespace AgentContext

/-- **What a context is shown**, of the values a row can have and of the tables
the payments filter always names. -/
def view (c : AgentContext String) (partyNames : Option (List String)) : View where
  accounts := {a | c.canAccessAccount a = true}
  crm := {r | r.2 ≠ denyAll ∧ c.buildRowFiltersCrm.Admits r.1 r.2}
  payments := {r | r.1 ≠ "dim_party" ∧ r.2 ≠ denyAll
    ∧ (c.buildRowFiltersPayments partyNames).Admits r.1 r.2}
  columns := {column | column ∉ c.buildColMask}

/-- **The list of roles is a rank.** The roles without a restriction are those
of rank 2 and above. -/
theorem role_mem_unrestrictedRoles_iff (c : AgentContext String) :
    c.role ∈ unrestrictedRoles ↔ 2 ≤ c.roleRank := by
  rw [roleRank, roleRanks]
  generalize c.role = role
  by_cases h₁ : role = "readonly"
  · subst h₁
    decide
  by_cases h₂ : role = "rm"
  · subst h₂
    decide
  by_cases h₃ : role = "senior_rm"
  · subst h₃
    decide
  by_cases h₄ : role = "manager"
  · subst h₄
    decide
  by_cases h₅ : role = "compliance_officer"
  · subst h₅
    decide
  simp [Dict.get?_cons, unrestrictedRoles, h₃, h₄, h₅, Ne.symm h₁, Ne.symm h₂, Ne.symm h₃,
    Ne.symm h₄, Ne.symm h₅]

/-- Who is let at an account: a rank of two or more is, and of the others who
has the account assigned. -/
theorem canAccessAccount_iff (c : AgentContext String) (accountId : String) :
    c.canAccessAccount accountId = true ↔ 2 ≤ c.roleRank ∨ accountId ∈ c.assignedAccountIds := by
  rw [canAccessAccount, ← role_mem_unrestrictedRoles_iff]
  by_cases hrole : c.role ∈ unrestrictedRoles
  · simp [hrole]
  · simp [hrole]

/-- Whose rows of the CRM are shown. -/
theorem admits_crm_iff (c : AgentContext String) {table value : String} (hv : value ≠ denyAll) :
    c.buildRowFiltersCrm.Admits table value
      ↔ 2 ≤ c.roleRank ∨ table ≠ "Account" ∨ value ∈ c.assignedAccountIds := by
  rw [← role_mem_unrestrictedRoles_iff, buildRowFiltersCrm]
  by_cases hrole : c.role ∈ unrestrictedRoles
  · rw [if_pos hrole]
    exact iff_of_true (admits_nil table value) (Or.inl hrole)
  rw [if_neg hrole, or_iff_right hrole]
  by_cases hassigned : c.assignedAccountIds = []
  · rw [if_neg (not_not.mpr hassigned), admits_deny_iff hv, hassigned]
    exact ⟨Or.inl, fun h => h.resolve_right List.not_mem_nil⟩
  · rw [if_pos hassigned, RowFilters.Admits]
    by_cases htable : table = "Account"
    · simp [Dict.get?, htable]
    · simp [Dict.get?, htable, Ne.symm htable]

/-- **Two ways to ask for an account have one answer**: the method for one
account, and the filter of the rows of the accounts. -/
theorem canAccessAccount_iff_admits (c : AgentContext String) {accountId : String}
    (hv : accountId ≠ denyAll) :
    c.canAccessAccount accountId = true
      ↔ c.buildRowFiltersCrm.Admits "Account" accountId := by
  rw [canAccessAccount_iff, admits_crm_iff c hv, or_iff_right (not_not.mpr rfl)]

/-- **Authorization is monotone.** Whoever has at least the rank, the accounts,
the clearance and the party names of somebody else is shown every account, row
and column the other one is shown. -/
theorem view_mono {c d : AgentContext String} (h : c.AtMost d)
    {partyNames partyNames' : Option (List String)}
    (hnames : partyNames.getD [] ⊆ partyNames'.getD []) :
    c.view partyNames ≤ d.view partyNames' := by
  have hrank : 2 ≤ c.roleRank → 2 ≤ d.roleRank := fun hc => hc.trans h.rank
  refine ⟨fun a ha => ?_, fun r hr => ⟨hr.1, ?_⟩, fun r hr => ⟨hr.1, hr.2.1, ?_⟩,
    fun column hcolumn hmask => hcolumn ?_⟩
  · have hc := (canAccessAccount_iff c a).mp ha
    exact (canAccessAccount_iff d a).mpr (hc.imp hrank (fun hmem => h.accounts hmem))
  · have hc := (admits_crm_iff c hr.1).mp hr.2
    exact (admits_crm_iff d hr.1).mpr (hc.imp hrank (Or.imp_right fun hmem => h.accounts hmem))
  · obtain ⟨htable, hv, hc⟩ := hr
    rw [admits_payments_iff hv, role_mem_unrestrictedRoles_iff] at hc ⊢
    by_cases hd : 2 ≤ d.roleRank
    · exact Or.inl hd
    refine Or.inr ?_
    rcases hc.resolve_left (fun hc => hd (hrank hc)) with ⟨hnone, hfact⟩ | ⟨hsome, hvalue⟩
    · by_cases hnames' : partyNames'.getD [] = []
      · exact Or.inl ⟨hnames', hfact⟩
      · exact Or.inr ⟨hnames', fun hor => absurd hor (not_or.mpr ⟨hfact, htable⟩)⟩
    · have hsome' : partyNames'.getD [] ≠ [] := by
        intro hnil
        rw [hnil] at hnames
        exact hsome (List.subset_nil.mp hnames)
      exact Or.inr ⟨hsome', fun hor => hnames (hvalue hor)⟩
  · rw [buildColMask, List.mem_append] at hmask ⊢
    refine hmask.imp (fun hmem => ?_) (fun hmem => ?_)
    · by_cases hfull : "compliance_full" ∈ d.complianceClearance
      · rw [if_neg (not_not.mpr hfull)] at hmem
        cases hmem
      · rw [if_pos hfull] at hmem
        rwa [if_pos (fun hc => hfull (h.clearance hc))]
    · by_cases haml : "aml_view" ∈ d.complianceClearance
      · rw [if_neg (not_not.mpr haml)] at hmem
        cases hmem
      · rw [if_pos haml] at hmem
        rwa [if_pos (fun hc => haml (h.clearance hc))]

/-- The relationship manager's superior, who has his accounts and one clearance
more. -/
def seniorContext : AgentContext String :=
  { rmContext with
    rmId := "rm-2", role := "senior_rm", complianceClearance := ["standard", "aml_view"] }

/-- **The superior is shown what the relationship manager is shown.** -/
theorem view_mono_senior :
    rmContext.view (some ["Acme"]) ≤ seniorContext.view (some ["Globex", "Acme"]) :=
  view_mono ⟨by decide, by decide, by decide⟩ (by decide)

end AgentContext
