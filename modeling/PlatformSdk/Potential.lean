import Mathlib.Algebra.Order.Ring.Nat
import Mathlib.Data.Nat.Cast.Basic
import Mathlib.Tactic.GCongr
import PlatformSdk.Run

/-!
# What a run costs

Each step of a machine may cost something – a request sent, seconds of some
budget, an event of one party among many –, and what a run costs is the sum of
its steps, `Machine.total`. Where every step pays for itself out of a potential
of the state, `Machine.add_total_le` bounds the cost of the whole run by the
potential it starts with.

What has to wait between two steps pays with time: its potential is its age, up
to the time it has to wait – `cappedAge` – against the time that has passed.
-/

variable {σ α β : Type*}

namespace Machine

variable (M : Machine σ α)

section Total

variable [AddCommMonoid β] (cost : σ → α → σ → β)

/-- **What the steps of a run cost**, as far as it gets. -/
def total : σ → List α → β
  | _, [] => 0
  | s, a :: as => match M.step s a with
    | none => 0
    | some s' => cost s a s' + total s' as

@[simp] theorem total_nil (s : σ) : M.total cost s [] = 0 := rfl

theorem total_cons_of_step {s s' : σ} {a : α} (h : M.step s a = some s') (as : List α) :
    M.total cost s (a :: as) = cost s a s' + M.total cost s' as := by
  rw [total, h]

/-- **The potential method.** Where every step from a state of the invariant
leaves at least its cost less of the potential, a run costs no more than the
potential it uses up. -/
theorem add_total_le [Preorder β] [AddRightMono β] [AddLeftMono β] {Inv : σ → Prop} (φ : σ → β)
    (hinv : ∀ s a s', Inv s → M.step s a = some s' → Inv s')
    (hpays : ∀ s a s', Inv s → M.step s a = some s' → φ s' + cost s a s' ≤ φ s)
    {s t : σ} {as : List α} (hs : Inv s) (hrun : M.run s as = some t) :
    φ t + M.total cost s as ≤ φ s := by
  induction as generalizing s with
  | nil =>
    obtain rfl := Option.some.inj hrun
    rw [total_nil, add_zero]
  | cons a as ih =>
    obtain ⟨s', hstep, hrest⟩ := M.run_cons_eq_some.mp hrun
    calc φ t + M.total cost s (a :: as)
        = φ t + M.total cost s' as + cost s a s' := by
          rw [M.total_cons_of_step cost hstep, add_assoc, add_comm (cost s a s')]
      _ ≤ φ s' + cost s a s' := by gcongr; exact ih (hinv s a s' hs hstep) hrest
      _ ≤ φ s := hpays s a s' hs hstep

end Total

/-- Costs with what is given back in return. -/
theorem total_sub [AddCommGroup β] (f g : σ → α → σ → β) (s : σ) (as : List α) :
    M.total (fun s a s' => f s a s' - g s a s') s as = M.total f s as - M.total g s as := by
  induction as generalizing s with
  | nil => exact (sub_zero 0).symm
  | cons a as ih =>
    rw [total, total, total]
    cases M.step s a with
    | none => exact (sub_zero 0).symm
    | some s' =>
      show _ + _ = (_ + _) - (_ + _)
      rw [ih]
      exact sub_add_sub_comm _ _ _ _

/-- A cost that is one for some steps and nothing for others counts them. -/
def count (p : σ → α → σ → Bool) : σ → List α → ℕ :=
  M.total (fun s a s' => if p s a s' then 1 else 0)

/-- The count of the events that satisfy a condition. -/
theorem count_eq_countP (p : α → Bool) {s t : σ} {as : List α} (hrun : M.run s as = some t) :
    M.count (fun _ a _ => p a) s as = as.countP p := by
  induction as generalizing s with
  | nil => rfl
  | cons a as ih =>
    obtain ⟨s', hstep, hrest⟩ := M.run_cons_eq_some.mp hrun
    rw [count, M.total_cons_of_step _ hstep, List.countP_cons, add_comm]
    exact congrArg (· + _) (ih hrest)

/-- A fixed price for each step that is counted. -/
theorem total_price [NonAssocSemiring β] (price : β) (p : σ → α → σ → Bool) (s : σ)
    (as : List α) :
    M.total (fun s a s' => if p s a s' then price else 0) s as = M.count p s as * price := by
  induction as generalizing s with
  | nil => rw [count, total_nil, total_nil, Nat.cast_zero, zero_mul]
  | cons a as ih =>
    rw [count, total, total]
    cases M.step s a with
    | none => rw [Nat.cast_zero, zero_mul]
    | some s' =>
      show _ + _ = ((_ + M.count p s' as : ℕ) : β) * price
      rw [ih, Nat.cast_add, add_mul]
      cases p s a s' <;> simp

end Machine

/-! ## Waiting -/

section Waiting

variable [AddCommGroup β] [LinearOrder β]

/-- **The age of something**, up to a bound. -/
def cappedAge (bound since now : β) : β := min (now - since) bound

variable {bound since now later : β}

theorem cappedAge_self (hbound : 0 ≤ bound) : cappedAge bound now now = 0 := by
  rw [cappedAge, sub_self, min_eq_left hbound]

/-- What has waited long enough has the whole of it. -/
theorem cappedAge_of_le (h : bound ≤ now - since) : cappedAge bound since now = bound :=
  min_eq_right h

variable [IsOrderedAddMonoid β]

theorem cappedAge_nonneg (hbound : 0 ≤ bound) (h : since ≤ now) :
    0 ≤ cappedAge bound since now := le_min (sub_nonneg.mpr h) hbound

/-- **Nothing ages faster than time passes**, and what has reached the bound
ages no further. -/
theorem cappedAge_le_add (h : now ≤ later) :
    cappedAge bound since later ≤ cappedAge bound since now + (later - now) := by
  rw [cappedAge, cappedAge, ← min_add_add_right]
  refine min_le_min ?_ (le_add_of_nonneg_right (sub_nonneg.mpr h))
  rw [add_comm, sub_add_sub_cancel]

end Waiting
