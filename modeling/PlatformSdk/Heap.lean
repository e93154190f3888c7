import PlatformSdk.DocTree

/-!
# Mappings as objects

A document in memory is not a tree: a mapping is an object with an address,
several places may hold the same one, and writing a key changes it for all of
them. Here such objects are the cells of a heap, which only grows; a value is
a scalar, a list, or the address of a mapping. Lists are values as a whole,
since nothing below reads or writes into one. What the keys of a mapping are
compared by is a function `f` of them.

`Heap.Holds h S v t` says that in the heap `h` the value `v` is the tree `t`,
no mapping met on the way having its address in `S`. It survives every change
of the heap that leaves the other addresses alone (`Heap.Holds.mono`), which is
the only thing a proof about a program with writes needs.
-/

variable {κ σ : Type}

/-- **A value of a document in memory.** -/
inductive Ref (κ σ : Type) where
  | scalar (a : σ)
  | list (xs : List (DocTree κ σ))
  /-- The mapping at an address. -/
  | dict (a : ℕ)

/-- **The mappings in memory**, by their addresses. -/
abbrev Heap (κ σ : Type) := List (Dict κ (Ref κ σ))

namespace Heap

section Write

variable {μ : Type*} [DecidableEq μ] (f : κ → μ)

/-- Write a key of the mapping at an address. -/
def write (h : Heap κ σ) (a : ℕ) (k : κ) (v : Ref κ σ) : Heap κ σ :=
  h.modify a (fun cell => Dict.setBy f cell k v)

/-- The mapping that is written to has the key with its new value, if there is
such a mapping. -/
theorem getElem?_write_self (h : Heap κ σ) (a : ℕ) (k : κ) (v : Ref κ σ) :
    (h.write f a k v)[a]? = h[a]?.map (fun cell => Dict.setBy f cell k v) := by
  exact List.getElem?_modify_eq _ _ _

/-- Every other one is as it was. -/
theorem getElem?_write_of_ne (h : Heap κ σ) {a b : ℕ} (k : κ) (v : Ref κ σ) (hne : a ≠ b) :
    (h.write f a k v)[b]? = h[b]? := by
  exact List.getElem?_modify_ne _ h hne

/-- Writing behind a part of the heap leaves the part. -/
theorem prefix_write {g h : Heap κ σ} (hgh : g <+: h) {a : ℕ} (ha : g.length ≤ a) (k : κ)
    (v : Ref κ σ) : g <+: h.write f a k v := by
  rw [List.prefix_iff_getElem?] at hgh ⊢
  intro i hi
  rw [getElem?_write_of_ne f h k v (by omega)]
  exact hgh i hi

end Write

/-- A mapping of a part of the heap is one of the heap. -/
theorem getElem?_of_prefix {g h : Heap κ σ} (hgh : g <+: h) {a : ℕ} {cell : Dict κ (Ref κ σ)}
    (ha : g[a]? = some cell) : h[a]? = some cell := by
  obtain ⟨fresh, rfl⟩ := hgh
  obtain ⟨hlt, -⟩ := List.getElem?_eq_some_iff.mp ha
  rw [List.getElem?_append_left hlt, ha]

/-! ## The tree a value is -/

mutual

/-- **The value is the tree**, by way of mappings outside `S` only. -/
def Holds (h : Heap κ σ) (S : Set ℕ) : DocTree κ σ → Ref κ σ → Prop
  | .leaf a, .scalar b => b = a
  | .list xs, .list ys => ys = xs
  | .map d, .dict a => a ∉ S ∧ ∃ cell, h[a]? = some cell ∧ HoldsMap h S d cell
  | _, _ => False

/-- The entries of a mapping are those of the tree, in the same order. -/
def HoldsMap (h : Heap κ σ) (S : Set ℕ) :
    List (κ × DocTree κ σ) → Dict κ (Ref κ σ) → Prop
  | [], [] => True
  | (k, t) :: d, (l, v) :: cell => l = k ∧ Holds h S t v ∧ HoldsMap h S d cell
  | _, _ => False

end

/-- **What lies outside `S` in `g` lies outside `T` in `h`, unchanged.** -/
def Keeps (g : Heap κ σ) (S : Set ℕ) (h : Heap κ σ) (T : Set ℕ) : Prop :=
  ∀ a cell, a ∉ S → g[a]? = some cell → a ∉ T ∧ h[a]? = some cell

mutual

/-- **A value is the same tree in every heap that keeps the mappings on the
way.** -/
theorem Holds.mono {g h : Heap κ σ} {S T : Set ℕ} (hgh : Keeps g S h T) :
    ∀ {t : DocTree κ σ} {v : Ref κ σ}, Holds g S t v → Holds h T t v
  | .leaf _, .scalar _, hv => hv
  | .list _, .list _, hv => hv
  | .map _, .dict a, ⟨ha, cell, hcell, hd⟩ =>
    ⟨(hgh a cell ha hcell).1, cell, (hgh a cell ha hcell).2, HoldsMap.mono hgh hd⟩

/-- The entries of a mapping stay what they are as well, each by what its own
value is. -/
theorem HoldsMap.mono {g h : Heap κ σ} {S T : Set ℕ} (hgh : Keeps g S h T) :
    ∀ {d : List (κ × DocTree κ σ)} {cell : Dict κ (Ref κ σ)},
      HoldsMap g S d cell → HoldsMap h T d cell
  | [], [], _ => trivial
  | (_, _) :: _, (_, _) :: _, ⟨hk, hv, hd⟩ => ⟨hk, Holds.mono hgh hv, HoldsMap.mono hgh hd⟩

end

/-- A heap that only grew keeps what it had, away from the new addresses. -/
theorem keeps_of_prefix {g h : Heap κ σ} (hgh : g <+: h) {S T : Set ℕ}
    (hT : ∀ a ∈ T, a ∈ S ∨ g.length ≤ a) : Keeps g S h T := by
  intro a cell ha hcell
  refine ⟨fun haT => ?_, getElem?_of_prefix hgh hcell⟩
  obtain ⟨hlt, -⟩ := List.getElem?_eq_some_iff.mp hcell
  exact (hT a haT).elim ha (fun hle => absurd hlt (Nat.not_lt.mpr hle))

/-- Writing to a mapping keeps the others, so what is held outside of it is held
as before. -/
theorem keeps_write {μ : Type*} [DecidableEq μ] (f : κ → μ) {h : Heap κ σ} {S : Set ℕ} {a : ℕ}
    (ha : a ∈ S) (k : κ) (v : Ref κ σ) : Keeps h S (h.write f a k v) S := by
  intro b cell hb hcell
  have hne : a ≠ b := fun e => hb (e ▸ ha)
  exact ⟨hb, (getElem?_write_of_ne f h k v hne).trans hcell⟩

section Entries

variable {μ : Type*} [DecidableEq μ] (f : κ → μ) {h : Heap κ σ} {S : Set ℕ}

/-- A key is there in both or in neither, and its values agree. -/
theorem HoldsMap.get? {d : List (κ × DocTree κ σ)} {cell : Dict κ (Ref κ σ)}
    (hd : HoldsMap h S d cell) (m : μ) :
    Option.Rel (Holds h S) ((Dict.rekey f d).get? m) ((Dict.rekey f cell).get? m) := by
  induction d generalizing cell with
  | nil =>
    cases cell with
    | nil => exact .none
    | cons e' cell => exact hd.elim
  | cons e d ih =>
    cases cell with
    | nil => exact hd.elim
    | cons e' cell =>
      obtain ⟨hk, hv, hd⟩ := hd
      rw [Dict.rekey_cons, Dict.rekey_cons, Dict.get?_cons, Dict.get?_cons, hk]
      split
      · exact .some hv
      · exact ih hd

/-- A key written in both: the mapping and its cell go on to hold each other's
values. -/
theorem HoldsMap.setBy {d : List (κ × DocTree κ σ)} {cell : Dict κ (Ref κ σ)}
    (hd : HoldsMap h S d cell) (k : κ) {t : DocTree κ σ} {v : Ref κ σ} (hv : Holds h S t v) :
    HoldsMap h S (Dict.setBy f d k t) (Dict.setBy f cell k v) := by
  induction d generalizing cell with
  | nil =>
    cases cell with
    | nil => exact ⟨rfl, hv, trivial⟩
    | cons e' cell => exact hd.elim
  | cons e d ih =>
    cases cell with
    | nil => exact hd.elim
    | cons e' cell =>
      obtain ⟨hk, hw, hd⟩ := hd
      rw [Dict.setBy, Dict.setBy, hk]
      split
      · exact ⟨rfl, hv, hd⟩
      · exact ⟨rfl, hw, ih hd⟩

end Entries

end Heap
