import Mathlib.Data.List.Induction
import Mathlib.Data.List.Perm.Basic
import PlatformSdk.Dict

/-!
# Grouping a list by a key

`d.setdefault(key, []).append(value)`, once for every element of a list, makes
a mapping of the elements by their key, in the order in which the keys are
first met. Each group is the part of the list with its key, in order
(`get?_groupOn`), and the groups of distinct keys that leave none out are
together the list, but for the order (`flatMap_filter_perm`).
-/

namespace Dict

variable {κ α β : Type*} [DecidableEq κ]

/-- `d.setdefault(key, []).append(value)`. -/
def push (d : Dict κ (List α)) (k : κ) (v : α) : Dict κ (List α) :=
  d.set k ((d.get? k).getD [] ++ [v])

/-- **The values of a list by their keys.** -/
def groupOn (key : β → κ) (val : β → α) (xs : List β) : Dict κ (List α) :=
  xs.foldl (fun d x => d.push (key x) (val x)) []

variable (key : β → κ) (val : β → α)

theorem groupOn_concat (xs : List β) (x : β) :
    groupOn key val (xs ++ [x]) = (groupOn key val xs).push (key x) (val x) :=
  List.foldl_concat _ _ _ _

/-- **A group is the part of the list with its key**, and no other key has
one. -/
theorem get?_groupOn (xs : List β) (k : κ) :
    (groupOn key val xs).get? k
      = if k ∈ xs.map key then some ((xs.filter (fun x => key x = k)).map val) else none := by
  induction xs using List.reverseRecOn with
  | nil => rfl
  | append_singleton xs x ih =>
    rw [groupOn_concat, push, List.map_append, List.filter_append, List.map_append]
    by_cases hk : k = key x
    · subst hk
      have hold : ((groupOn key val xs).get? (key x)).getD []
          = (xs.filter (fun y => key y = key x)).map val := by
        rw [ih]
        by_cases hmem : key x ∈ xs.map key
        · rw [if_pos hmem]
          rfl
        · have hnone : xs.filter (fun y => key y = key x) = [] := by
            rw [List.filter_eq_nil_iff]
            intro y hy hkey
            exact hmem (of_decide_eq_true hkey ▸ List.mem_map_of_mem hy)
          rw [if_neg hmem, hnone]
          rfl
      rw [get?_set_self, hold, if_pos (by simp), List.filter_cons_of_pos (by simp)]
      rfl
    · rw [get?_set_of_ne _ _ hk, ih, List.filter_cons_of_neg (by simp [Ne.symm hk])]
      simp [hk]

/-- **The keys are distinct**, each group being written under its own. -/
theorem nodup_keys_groupOn (xs : List β) : (groupOn key val xs).keys.Nodup := by
  induction xs using List.reverseRecOn with
  | nil => exact List.nodup_nil
  | append_singleton xs x ih =>
    rw [groupOn_concat]
    exact nodup_keys_set ih _ _

/-- The keys are those of the elements, so no group is empty. -/
theorem mem_keys_groupOn {xs : List β} {k : κ} :
    k ∈ (groupOn key val xs).keys ↔ ∃ x ∈ xs, key x = k := by
  rw [mem_keys_iff, get?_groupOn, ← List.mem_map]
  by_cases h : k ∈ xs.map key <;> simp [h]

/-- An entry is the group of its key: the values of the elements that have it,
in the order they came. -/
theorem eq_of_mem_groupOn {xs : List β} {k : κ} {vs : List α}
    (h : (k, vs) ∈ groupOn key val xs) : vs = (xs.filter (fun x => key x = k)).map val := by
  have hget := get?_of_mem (nodup_keys_groupOn key val xs) h
  rw [get?_groupOn] at hget
  exact (Option.some.inj (Option.ite_none_right_eq_some.mp hget).2).symm

end Dict

/-- **Nothing is lost, and nothing is there twice.** The parts of a list with
distinct keys, none left out, are together the list. -/
theorem flatMap_filter_perm {κ β : Type*} [DecidableEq κ] (key : β → κ) {ks : List κ}
    (hks : ks.Nodup) {xs : List β} (h : ∀ x ∈ xs, key x ∈ ks) :
    (ks.flatMap (fun k => xs.filter (fun x => key x = k))).Perm xs := by
  induction ks generalizing xs with
  | nil =>
    cases xs with
    | nil => exact List.Perm.refl _
    | cons x xs => exact absurd (h x List.mem_cons_self) List.not_mem_nil
  | cons k ks ih =>
    obtain ⟨hk, hks⟩ := List.nodup_cons.mp hks
    have hrest : ks.flatMap (fun k' => xs.filter (fun x => key x = k'))
        = ks.flatMap (fun k' => (xs.filter (fun x => !decide (key x = k))).filter
          (fun x => key x = k')) := by
      refine List.flatMap_congr (fun k' hk' => ?_)
      have hne : k' ≠ k := fun heq => hk (heq ▸ hk')
      rw [List.filter_filter]
      refine List.filter_congr (fun x _ => ?_)
      by_cases hx : key x = k'
      · simp [hx, hne]
      · simp [hx]
    have hkeys : ∀ x ∈ xs.filter (fun x => !decide (key x = k)), key x ∈ ks := by
      intro x hx
      obtain ⟨hmem, hne⟩ := List.mem_filter.mp hx
      refine (List.mem_cons.mp (h x hmem)).resolve_left (fun heq => ?_)
      simp [heq] at hne
    rw [List.flatMap_cons, hrest]
    exact ((ih hks hkeys).append_left _).trans (List.filter_append_perm _ xs)
