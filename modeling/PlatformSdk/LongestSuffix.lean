import Mathlib.Data.List.DropRight

/-!
# The longest suffix that fits

A list is cut to its longest suffix that satisfies a condition – a budget, say
– and to nothing where no suffix does. `IsLongestFit` is the relation,
`longestFit` the function.

Where the condition passes to shorter suffixes, `SuffixClosed`, everything there is to
know about the cut can be asked of the list itself:
`IsLongestFit.suffix_iff` says which suffixes it keeps,
`IsLongestFit.length_lt_iff` how long it is, `IsLongestFit.eq_cons_iff` where
it starts, and `IsLongestFit.eq_iff` when two conditions cut a list at one
place.
-/

variable {α : Type*}

/-- **The longest suffix of `l` that satisfies `p`**, empty where none
does. -/
structure IsLongestFit (p : List α → Prop) (l s : List α) : Prop where
  /-- It is a suffix. -/
  suffix : s <:+ l
  /-- It satisfies the condition, unless there is nothing of it. -/
  fits : s = [] ∨ p s
  /-- Any other suffix that does is a suffix of it. -/
  longest : ∀ t, t <:+ l → p t → t <:+ s

/-- **A condition that passes to shorter suffixes.** -/
def SuffixClosed (p : List α → Prop) : Prop := ∀ t u, t <:+ u → p u → p t

/-- The longest suffix that satisfies `p`, from the left. -/
def longestFit (p : List α → Prop) [DecidablePred p] : List α → List α
  | [] => []
  | x :: xs => if p (x :: xs) then x :: xs else longestFit p xs

theorem isLongestFit_longestFit (p : List α → Prop) [DecidablePred p] (l : List α) :
    IsLongestFit p l (longestFit p l) := by
  induction l with
  | nil => exact ⟨List.suffix_rfl, .inl rfl, fun t ht _ => ht⟩
  | cons x xs ih =>
    rw [longestFit]
    split
    · next h => exact ⟨List.suffix_rfl, .inr h, fun t ht _ => ht⟩
    · next h =>
      refine ⟨ih.suffix.trans (List.suffix_cons x xs), ih.fits, fun t ht hp => ?_⟩
      rcases List.suffix_cons_iff.mp ht with rfl | ht'
      · exact absurd hp h
      · exact ih.longest t ht' hp

namespace IsLongestFit

variable {p q : List α → Prop} {l s u : List α}

/-- There is one longest suffix, two suffixes of a list being of different
lengths or one. -/
theorem unique (hs : IsLongestFit p l s) (hu : IsLongestFit p l u) : s = u := by
  have key : ∀ {s u : List α}, IsLongestFit p l s → IsLongestFit p l u → s <:+ u := by
    intro s u hs hu
    rcases hs.fits with rfl | h
    · exact List.nil_suffix
    · exact hu.longest s hs.suffix h
  exact (key hs hu).eq_of_length_le (key hu hs).length_le

/-- **A list that satisfies the condition is not cut.** -/
theorem eq_self (hs : IsLongestFit p l s) (h : p l) : s = l :=
  hs.suffix.eq_of_length_le (hs.longest l List.suffix_rfl h).length_le

/-- **What the cut keeps**: the suffixes that satisfy the condition. -/
theorem suffix_iff (hs : IsLongestFit p l s) (hp : SuffixClosed p) {t : List α} (ht : t <:+ l)
    (hne : t ≠ []) : t <:+ s ↔ p t := by
  refine ⟨fun h => ?_, hs.longest t ht⟩
  rcases hs.fits with rfl | hps
  · exact absurd (List.suffix_nil.mp h) hne
  · exact hp t s h hps

/-- **How much the cut keeps**: fewer than `k` members exactly when the last
`k` do not fit. -/
theorem length_lt_iff (hs : IsLongestFit p l s) (hp : SuffixClosed p) {k : ℕ} (hk : 0 < k)
    (hl : k ≤ l.length) : s.length < k ↔ ¬ p (l.rtake k) := by
  have hlen : (l.rtake k).length = k := by
    rw [List.rtake, List.length_drop]
    omega
  have hsuf : l.rtake k <:+ l := List.drop_suffix _ _
  have hne : l.rtake k ≠ [] := fun h => by simp [h] at hlen; omega
  rw [← hs.suffix_iff hp hsuf hne, ← not_le]
  refine not_congr ⟨fun h => ?_, fun h => hlen ▸ h.length_le⟩
  exact List.suffix_of_suffix_length_le hsuf hs.suffix (hlen.le.trans h)

/-- **Where the cut starts**: with the last member after which everything
fits and before which it does not. -/
theorem eq_cons_iff (hs : IsLongestFit p l s) (hp : SuffixClosed p) {x : α} {t : List α} :
    s = x :: t
      ↔ x :: t <:+ l ∧ p (x :: t) ∧ ∀ y, y :: x :: t <:+ l → ¬ p (y :: x :: t) := by
  constructor
  · rintro rfl
    have hpt : p (x :: t) := hs.fits.resolve_left (List.cons_ne_nil x t)
    refine ⟨hs.suffix, hpt, fun y hy hpy => ?_⟩
    exact absurd (hs.longest _ hy hpy).length_le (by simp)
  · rintro ⟨hsuf, hpt, hmax⟩
    have ht : x :: t <:+ s := (hs.suffix_iff hp hsuf (List.cons_ne_nil x t)).mpr hpt
    obtain ⟨pre, rfl⟩ := ht
    rcases List.eq_nil_or_concat pre with rfl | ⟨pre', y, rfl⟩
    · rfl
    · -- the member before `x` would have to fit too
      rw [List.concat_eq_append, List.append_assoc] at hs
      have hy : y :: x :: t <:+ pre' ++ ([y] ++ x :: t) := List.suffix_append _ _
      have hps : p (pre' ++ ([y] ++ x :: t)) := hs.fits.resolve_left (by simp)
      exact absurd (hp _ _ hy hps) (hmax y (hy.trans hs.suffix))

/-- **Two conditions cut a list at one place** exactly when they agree on its
suffixes. -/
theorem eq_iff (hs : IsLongestFit p l s) (hu : IsLongestFit q l u) (hp : SuffixClosed p)
    (hq : SuffixClosed q) : s = u ↔ ∀ t, t <:+ l → t ≠ [] → (p t ↔ q t) := by
  constructor
  · rintro rfl t ht hne
    rw [← hs.suffix_iff hp ht hne, hu.suffix_iff hq ht hne]
  · intro h
    refine hs.unique ⟨hu.suffix, ?_, fun t ht hpt => ?_⟩
    · rcases hu.fits with rfl | hqu
      · exact .inl rfl
      · by_cases hne : u = []
        · exact .inl hne
        · exact .inr ((h u hu.suffix hne).mpr hqu)
    · by_cases hne : t = []
      · exact hne ▸ List.nil_suffix
      · exact hu.longest t ht ((h t ht hne).mp hpt)

end IsLongestFit

example : longestFit (fun s => s.sum ≤ 5) [4, 3, 2] = [3, 2] := by decide
