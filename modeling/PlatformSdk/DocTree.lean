import PlatformSdk.Dict

/-!
# Trees of scalars, sequences and mappings

The shape JSON and YAML documents share: a scalar, a sequence of trees, or
a mapping from keys to trees in the order the keys were written. The scalars
and the keys are parameters, so that the two formats are two instances and
not two copies.

`DocTree.induct` is the induction principle: a property of trees follows from
its holding at every scalar and passing from the members of a sequence, or
the values of a mapping, to the whole. `DocTree.at?` reads the subtree at a
path, and `DocTree.mapLeaves` rewrites the scalars where they stand, so that the
two commute (`DocTree.at?_mapLeaves`).
-/

/-- **A document tree** with keys in `κ` and scalars in `σ`. -/
inductive DocTree (κ σ : Type) where
  /-- A scalar. -/
  | leaf (a : σ)
  /-- A sequence. -/
  | list (xs : List (DocTree κ σ))
  /-- A mapping, in the order its keys were written. -/
  | map (d : List (κ × DocTree κ σ))

namespace DocTree

variable {κ σ : Type}

/-! ## Induction -/

/-- **Induction on trees**: over the members of a sequence and the values of
a mapping. -/
@[elab_as_elim]
theorem induct {P : DocTree κ σ → Prop} (leaf : ∀ a, P (.leaf a))
    (list : ∀ xs : List (DocTree κ σ), (∀ x ∈ xs, P x) → P (.list xs))
    (map : ∀ d : Dict κ (DocTree κ σ), (∀ e ∈ d, P e.2) → P (.map d))
    (t : DocTree κ σ) : P t :=
  @DocTree.rec κ σ P (fun xs => ∀ x ∈ xs, P x) (fun d => ∀ e ∈ d, P e.2)
    (fun e => P e.2) leaf (fun xs ih => list xs ih) (fun d ih => map d ih)
    (fun _ h => absurd h List.not_mem_nil)
    (fun _ _ hx hxs y hy => by
      rcases List.mem_cons.mp hy with rfl | hy
      · exact hx
      · exact hxs y hy)
    (fun _ h => absurd h List.not_mem_nil)
    (fun _ _ he hd e' he' => by
      rcases List.mem_cons.mp he' with rfl | he'
      · exact he
      · exact hd e' he')
    (fun _ _ h => h) t

/-! ## Equality is decidable -/

section Beq

variable [DecidableEq κ] [DecidableEq σ]

mutual

/-- Whether two trees are the same. -/
def beq : DocTree κ σ → DocTree κ σ → Bool
  | .leaf a, .leaf b => decide (a = b)
  | .list xs, .list ys => beqList xs ys
  | .map d, .map e => beqMap d e
  | _, _ => false

/-- Whether two sequences are the same. -/
def beqList : List (DocTree κ σ) → List (DocTree κ σ) → Bool
  | [], [] => true
  | x :: xs, y :: ys => beq x y && beqList xs ys
  | _, _ => false

/-- Whether two mappings are the same, entry for entry. -/
def beqMap : List (κ × DocTree κ σ) → List (κ × DocTree κ σ) → Bool
  | [], [] => true
  | (k, x) :: d, (l, y) :: e => decide (k = l) && beq x y && beqMap d e
  | _, _ => false

end

mutual

theorem beq_iff : ∀ s t : DocTree κ σ, beq s t = true ↔ s = t
  | .leaf a, .leaf b => by simp [beq]
  | .list xs, .list ys => by simp [beq, beqList_iff xs ys]
  | .map d, .map e => by simp [beq, beqMap_iff d e]
  | .leaf _, .list _ | .leaf _, .map _ | .list _, .leaf _ | .list _, .map _
  | .map _, .leaf _ | .map _, .list _ => by simp [beq]

theorem beqList_iff : ∀ xs ys : List (DocTree κ σ), beqList xs ys = true ↔ xs = ys
  | [], [] => by simp [beqList]
  | x :: xs, y :: ys => by simp [beqList, beq_iff x y, beqList_iff xs ys]
  | [], _ :: _ | _ :: _, [] => by simp [beqList]

theorem beqMap_iff : ∀ d e : List (κ × DocTree κ σ), beqMap d e = true ↔ d = e
  | [], [] => by simp [beqMap]
  | (k, x) :: d, (l, y) :: e => by simp [beqMap, beq_iff x y, beqMap_iff d e]
  | [], _ :: _ | _ :: _, [] => by simp [beqMap]

end

instance : DecidableEq (DocTree κ σ) := fun s t =>
  decidable_of_iff (beq s t = true) (beq_iff s t)

end Beq

/-! ## Reading at a path -/

/-- One step into a tree: a key of a mapping or a position of a sequence. -/
inductive Step (κ : Type) where
  | key (k : κ)
  | index (i : ℕ)

/-- The subtree at a path, if there is one. -/
def at? [DecidableEq κ] : DocTree κ σ → List (Step κ) → Option (DocTree κ σ)
  | t, [] => some t
  | .map d, .key k :: p => (Dict.get? d k).bind (fun t => at? t p)
  | .list xs, .index i :: p => xs[i]?.bind (fun t => at? t p)
  | _, _ :: _ => none

/-! ## Rewriting the scalars -/

mutual

/-- Rewrite every scalar. -/
def mapLeaves (f : σ → σ) : DocTree κ σ → DocTree κ σ
  | .leaf a => .leaf (f a)
  | .list xs => .list (mapLeavesList f xs)
  | .map d => .map (mapLeavesMap f d)

/-- Rewrite every scalar of the members of a sequence. -/
def mapLeavesList (f : σ → σ) : List (DocTree κ σ) → List (DocTree κ σ)
  | [] => []
  | x :: xs => mapLeaves f x :: mapLeavesList f xs

/-- Rewrite every scalar of the values of a mapping. -/
def mapLeavesMap (f : σ → σ) : List (κ × DocTree κ σ) → List (κ × DocTree κ σ)
  | [] => []
  | (k, x) :: d => (k, mapLeaves f x) :: mapLeavesMap f d

end

mutual

/-- The same tree with its keys and scalars in other types. -/
def translate {κ' σ' : Type} (f : κ → κ') (g : σ → σ') : DocTree κ σ → DocTree κ' σ'
  | .leaf a => .leaf (g a)
  | .list xs => .list (translateList f g xs)
  | .map d => .map (translateMap f g d)

/-- The members of a sequence, translated. -/
def translateList {κ' σ' : Type} (f : κ → κ') (g : σ → σ') :
    List (DocTree κ σ) → List (DocTree κ' σ')
  | [] => []
  | x :: xs => translate f g x :: translateList f g xs

/-- The keys and values of a mapping, translated. -/
def translateMap {κ' σ' : Type} (f : κ → κ') (g : σ → σ') :
    List (κ × DocTree κ σ) → List (κ' × DocTree κ' σ')
  | [] => []
  | (k, x) :: d => (f k, translate f g x) :: translateMap f g d

end

mutual

/-- The scalars, from left to right. -/
def leaves : DocTree κ σ → List σ
  | .leaf a => [a]
  | .list xs => leavesList xs
  | .map d => leavesMap d

/-- The scalars of the members of a sequence. -/
def leavesList : List (DocTree κ σ) → List σ
  | [] => []
  | x :: xs => leaves x ++ leavesList xs

/-- The scalars of the values of a mapping. -/
def leavesMap : List (κ × DocTree κ σ) → List σ
  | [] => []
  | (_, x) :: d => leaves x ++ leavesMap d

end

theorem mapLeavesList_eq_map (f : σ → σ) (xs : List (DocTree κ σ)) :
    mapLeavesList f xs = xs.map (mapLeaves f) := by
  induction xs with
  | nil => rfl
  | cons x xs ih => rw [mapLeavesList, ih, List.map_cons]

theorem mapLeavesMap_eq_map (f : σ → σ) (d : List (κ × DocTree κ σ)) :
    mapLeavesMap f d = d.map (fun e => (e.1, mapLeaves f e.2)) := by
  induction d with
  | nil => rfl
  | cons e d ih => rw [mapLeavesMap, ih, List.map_cons]

theorem leavesList_eq_flatMap (xs : List (DocTree κ σ)) : leavesList xs = xs.flatMap leaves := by
  induction xs with
  | nil => rfl
  | cons x xs ih => rw [leavesList, ih, List.flatMap_cons]

theorem leavesMap_eq_flatMap (d : List (κ × DocTree κ σ)) :
    leavesMap d = d.flatMap (fun e => leaves e.2) := by
  induction d with
  | nil => rfl
  | cons e d ih => rw [leavesMap, ih, List.flatMap_cons]

/-- **Two rewritings that agree on the scalars of a tree agree on it.** -/
theorem mapLeaves_congr {f g : σ → σ} {t : DocTree κ σ} (h : ∀ a ∈ t.leaves, f a = g a) :
    mapLeaves f t = mapLeaves g t := by
  induction t using DocTree.induct with
  | leaf a => exact congrArg DocTree.leaf (h a List.mem_cons_self)
  | list xs ih =>
    rw [leaves, leavesList_eq_flatMap] at h
    rw [mapLeaves, mapLeaves, mapLeavesList_eq_map, mapLeavesList_eq_map]
    refine congrArg DocTree.list (List.map_congr_left fun x hx => ih x hx fun a ha => h a ?_)
    exact List.mem_flatMap.mpr ⟨x, hx, ha⟩
  | map d ih =>
    rw [leaves, leavesMap_eq_flatMap] at h
    rw [mapLeaves, mapLeaves, mapLeavesMap_eq_map, mapLeavesMap_eq_map]
    refine congrArg DocTree.map
      (List.map_congr_left fun e he => congrArg _ (ih e he fun a ha => ?_))
    exact h a (List.mem_flatMap.mpr ⟨e, he, ha⟩)

section MapLeaves

variable [DecidableEq κ]

theorem get?_map_mapLeaves (f : σ → σ) (d : Dict κ (DocTree κ σ)) (k : κ) :
    Dict.get? (d.map (fun e => (e.1, mapLeaves f e.2))) k = (Dict.get? d k).map (mapLeaves f) := by
  induction d with
  | nil => rfl
  | cons e d ih =>
    rw [List.map_cons, Dict.get?_cons,
      show Dict.get? (e :: d) k = _ from Dict.get?_cons e.1 k e.2 d]
    split
    · rfl
    · exact ih

/-- **Rewriting the scalars leaves the shape alone**: the subtree at a path
is the rewritten one. -/
theorem at?_mapLeaves (f : σ → σ) (t : DocTree κ σ) (p : List (Step κ)) :
    (mapLeaves f t).at? p = (t.at? p).map (mapLeaves f) := by
  induction p generalizing t with
  | nil => cases t <;> rfl
  | cons s p ih =>
    cases t with
    | leaf a => cases s <;> rfl
    | list xs =>
      rw [mapLeaves, mapLeavesList_eq_map]
      cases s with
      | key k => rfl
      | index i =>
        rw [at?, at?, List.getElem?_map]
        cases xs[i]? with
        | none => rfl
        | some x => exact ih x
    | map d =>
      rw [mapLeaves, mapLeavesMap_eq_map]
      cases s with
      | index i => rfl
      | key k =>
        rw [at?, at?, get?_map_mapLeaves]
        cases Dict.get? d k with
        | none => rfl
        | some x => exact ih x

end MapLeaves

end DocTree
