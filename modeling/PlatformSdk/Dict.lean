import Mathlib.Data.List.Basic
import Mathlib.Data.List.Nodup

/-!
# Insertion-ordered mappings

A mapping that remembers the order its keys were first written in, as a
list of key–value pairs. Writing a key that is present replaces its value
where it stands; writing a new one appends. When a list carries a key twice
the first entry counts, so that a reading never depends on what `set` does
behind it.

Keys are compared by equality, up to the last section, where they are compared
by a function of them.
-/

/-- **A mapping in insertion order**, as a `dict` keeps it: a list of entries,
the first of a key being the one that counts. -/
abbrev Dict (κ α : Type*) := List (κ × α)

namespace Dict

variable {κ α : Type*} [DecidableEq κ]

/-- The value at a key, if the key is present. -/
def get? : Dict κ α → κ → Option α
  | [], _ => none
  | (k', v) :: d, k => if k' = k then some v else get? d k

/-- The keys, in insertion order, each as often as it has entries. -/
def keys (d : Dict κ α) : List κ := d.map Prod.fst

/-- Write a value at a key: in place when the key is there, at the end
otherwise. -/
def set : Dict κ α → κ → α → Dict κ α
  | [], k, v => [(k, v)]
  | (k', w) :: d, k, v => if k' = k then (k', v) :: d else (k', w) :: set d k v

/-- Write every entry of the second mapping into the first, in order. -/
def update (d : Dict κ α) : Dict κ α → Dict κ α
  | [] => d
  | (k, v) :: e => update (d.set k v) e

/-- Remove a key, with every entry it has. -/
def erase : Dict κ α → κ → Dict κ α
  | [], _ => []
  | (k', v) :: d, k => if k' = k then erase d k else (k', v) :: erase d k

omit [DecidableEq κ] in
@[simp] theorem keys_nil : keys ([] : Dict κ α) = [] := rfl

omit [DecidableEq κ] in
@[simp] theorem keys_cons (k : κ) (v : α) (d : Dict κ α) :
    keys ((k, v) :: d) = k :: keys d := rfl

@[simp] theorem get?_nil (k : κ) : get? ([] : Dict κ α) k = none := rfl

theorem get?_cons (k' k : κ) (v : α) (d : Dict κ α) :
    get? ((k', v) :: d) k = if k' = k then some v else get? d k := rfl

/-- A key that is read is a key of the mapping. -/
theorem mem_keys_iff (d : Dict κ α) (k : κ) : k ∈ d.keys ↔ ∃ v, d.get? k = some v := by
  induction d with
  | nil => simp
  | cons e d ih =>
    obtain ⟨k', w⟩ := e
    rw [keys_cons, List.mem_cons, get?_cons]
    by_cases h : k' = k
    · simp [h]
    · rw [if_neg h, ← ih]
      exact ⟨fun hk => hk.resolve_left (fun e => h e.symm), Or.inr⟩

theorem get?_eq_none_iff (d : Dict κ α) (k : κ) : d.get? k = none ↔ k ∉ d.keys := by
  rw [mem_keys_iff]
  cases d.get? k <;> simp

/-- What has just been written is what is read. -/
@[simp] theorem get?_set_self (d : Dict κ α) (k : κ) (v : α) :
    (d.set k v).get? k = some v := by
  induction d with
  | nil => simp [set, get?]
  | cons e d ih =>
    obtain ⟨k', w⟩ := e
    by_cases h : k' = k
    · simp [set, get?, h]
    · simp only [set, if_neg h, get?_cons]
      exact ih

/-- Writing one key leaves every other one alone. -/
theorem get?_set_of_ne (d : Dict κ α) {k k' : κ} (v : α) (h : k' ≠ k) :
    (d.set k v).get? k' = d.get? k' := by
  induction d with
  | nil => simp [set, get?, Ne.symm h]
  | cons e d ih =>
    obtain ⟨k₁, w⟩ := e
    by_cases h₁ : k₁ = k
    · subst h₁
      simp [set, get?, Ne.symm h]
    · simp only [set, if_neg h₁, get?_cons]
      rw [ih]

/-- A removed key reads as nothing, and every other one as before. -/
theorem get?_erase (d : Dict κ α) (k k' : κ) :
    (d.erase k).get? k' = if k = k' then none else d.get? k' := by
  induction d with
  | nil => simp [erase]
  | cons e d ih =>
    obtain ⟨k₁, w⟩ := e
    by_cases h : k₁ = k
    · rw [erase, if_pos h, ih, get?_cons, h]
      split <;> rfl
    · rw [erase, if_neg h, get?_cons, get?_cons, ih]
      by_cases h' : k₁ = k'
      · rw [if_pos h', if_pos h', if_neg (fun e => h (h'.trans e.symm))]
      · rw [if_neg h', if_neg h']

/-- Keeping the entries of some keys keeps what is read at them. -/
theorem get?_filter (d : Dict κ α) (keep : κ → Bool) (k : κ) :
    Dict.get? (d.filter (fun e => keep e.1)) k = if keep k then d.get? k else none := by
  induction d with
  | nil => simp
  | cons e d ih =>
    obtain ⟨k₁, w⟩ := e
    rw [List.filter_cons]
    by_cases h : keep k₁ = true
    · rw [if_pos h, get?_cons, get?_cons, ih]
      by_cases hk : k₁ = k
      · rw [if_pos hk, if_pos hk, if_pos (hk ▸ h)]
      · rw [if_neg hk, if_neg hk]
    · rw [if_neg h, ih, get?_cons]
      by_cases hk : k₁ = k
      · rw [if_neg (hk ▸ h), if_neg (hk ▸ h)]
      · rw [if_neg hk]

/-- What is read where every value was replaced. -/
theorem get?_map {β : Type*} (d : Dict κ α) (f : κ × α → β) (k : κ) :
    get? (d.map fun e => (e.1, f e)) k = (d.get? k).map fun v => f (k, v) := by
  induction d with
  | nil => rfl
  | cons e d ih =>
    obtain ⟨k', v⟩ := e
    rw [List.map_cons, get?_cons, get?_cons, ih]
    by_cases hk : k' = k
    · rw [if_pos hk, if_pos hk, hk]
      rfl
    · rw [if_neg hk, if_neg hk]

/-- A new key is appended, as a `dict` keeps its keys in the order they were
first written. -/
theorem set_of_notMem (d : Dict κ α) {k : κ} (v : α) (h : k ∉ d.keys) :
    d.set k v = d ++ [(k, v)] := by
  induction d with
  | nil => rfl
  | cons e d ih =>
    obtain ⟨k', w⟩ := e
    rw [keys_cons, List.mem_cons, not_or] at h
    rw [set, if_neg (fun e => h.1 e.symm), ih h.2, List.cons_append]

/-- A value that is read belongs to an entry. -/
theorem mem_of_get? {d : Dict κ α} {k : κ} {v : α} (h : d.get? k = some v) : (k, v) ∈ d := by
  induction d with
  | nil => cases h
  | cons e d ih =>
    obtain ⟨k', w⟩ := e
    rw [get?_cons] at h
    split at h
    · next hk => rw [hk, Option.some.inj h]; exact List.mem_cons_self
    · exact List.mem_cons_of_mem _ (ih h)

/-- An entry of a mapping without a key twice is what is read at its key. -/
theorem get?_of_mem {d : Dict κ α} (h : d.keys.Nodup) {k : κ} {v : α} (hmem : (k, v) ∈ d) :
    d.get? k = some v := by
  induction d with
  | nil => exact absurd hmem List.not_mem_nil
  | cons e d ih =>
    obtain ⟨k', w⟩ := e
    rw [keys_cons, List.nodup_cons] at h
    rw [get?_cons]
    rcases List.mem_cons.mp hmem with heq | hmem
    · obtain ⟨rfl, rfl⟩ := Prod.mk.inj heq
      exact if_pos rfl
    · have hne : k' ≠ k := fun hk => h.1 (hk ▸ List.mem_map_of_mem (f := Prod.fst) hmem)
      rw [if_neg hne]
      exact ih h.2 hmem

/-- Writing adds the key that is written, if it is new, and no other. -/
theorem mem_keys_set_iff (d : Dict κ α) (k k' : κ) (v : α) :
    k' ∈ (d.set k v).keys ↔ k' = k ∨ k' ∈ d.keys := by
  rw [mem_keys_iff, mem_keys_iff]
  by_cases h : k' = k
  · subst h
    simp
  · rw [get?_set_of_ne d v h]
    simp [h]

/-- Writing repeats no key: the entry of a key that is there is replaced. -/
theorem nodup_keys_set {d : Dict κ α} (h : d.keys.Nodup) (k : κ) (v : α) :
    (d.set k v).keys.Nodup := by
  induction d with
  | nil => simp [set]
  | cons e d ih =>
    obtain ⟨k', w⟩ := e
    have h' := List.nodup_cons.mp h
    rw [set]
    split
    · exact h
    · next hk =>
      rw [keys_cons, List.nodup_cons, mem_keys_set_iff]
      exact ⟨fun hmem => hmem.elim hk h'.1, ih h'.2⟩

/-- Writing a mapping with new and distinct keys appends it. -/
theorem update_of_disjoint (d e : Dict κ α) (he : e.keys.Nodup)
    (hd : ∀ k ∈ e.keys, k ∉ d.keys) : d.update e = d ++ e := by
  induction e generalizing d with
  | nil => rw [update, List.append_nil]
  | cons x e ih =>
    obtain ⟨k, v⟩ := x
    rw [keys_cons, List.nodup_cons] at he
    have hk : k ∉ d.keys := hd k List.mem_cons_self
    rw [update, set_of_notMem d v hk, ih _ he.2, List.append_assoc, List.singleton_append]
    intro k' hk' hmem
    rw [keys, List.map_append, List.mem_append] at hmem
    rcases hmem with hmem | hmem
    · exact hd k' (List.mem_cons_of_mem _ hk') hmem
    · rw [List.map_singleton, List.mem_singleton] at hmem
      rw [hmem] at hk'
      exact he.1 hk'

/-! ## Keys that are spelled in several ways

A key may come in spellings that count as one, as the number `1` and the truth
value `True` do in Python. What a key is compared by is a function `f` of it,
and the mapping is read under its images; the key that was written first stays
as it was spelled. -/

section SetBy

variable {μ : Type*} [DecidableEq μ] (f : κ → μ)

omit [DecidableEq κ] [DecidableEq μ] in
/-- The mapping under what its keys are compared by. -/
def rekey (d : Dict κ α) : Dict μ α := d.map fun e => (f e.1, e.2)

omit [DecidableEq κ] [DecidableEq μ] in
theorem rekey_cons (k : κ) (v : α) (d : Dict κ α) :
    rekey f ((k, v) :: d) = (f k, v) :: rekey f d := rfl

/-- Write a value at a key: in place when a key that counts as the same is
there, at the end otherwise. -/
def setBy : Dict κ α → κ → α → Dict κ α
  | [], k, v => [(k, v)]
  | (k', w) :: d, k, v => if f k' = f k then (k', v) :: d else (k', w) :: setBy d k v

omit [DecidableEq κ] in
/-- **Written under one spelling, read under any**: keys that are one to Python
have one entry, and the first spelling stays. -/
theorem rekey_setBy (d : Dict κ α) (k : κ) (v : α) :
    rekey f (setBy f d k v) = (rekey f d).set (f k) v := by
  induction d with
  | nil => rfl
  | cons e d ih =>
    obtain ⟨k', w⟩ := e
    rw [setBy, rekey_cons, set]
    split
    · rfl
    · exact congrArg ((f k', w) :: ·) ih

omit [DecidableEq κ] [DecidableEq μ] in
/-- An entry under what its key is compared by is an entry. -/
theorem mem_rekey {d : Dict κ α} {m : μ} {v : α} :
    (m, v) ∈ rekey f d ↔ ∃ k, (k, v) ∈ d ∧ f k = m := by
  rw [rekey, List.mem_map]
  constructor
  · rintro ⟨e, he, heq⟩
    obtain ⟨rfl, rfl⟩ := Prod.mk.inj heq
    exact ⟨e.1, he, rfl⟩
  · rintro ⟨k, he, rfl⟩
    exact ⟨(k, v), he, rfl⟩

end SetBy

end Dict
