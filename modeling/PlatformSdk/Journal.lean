import PlatformSdk.Dict
import PlatformSdk.Run

/-!
# A table and the journal of its writes

Where the state of a machine holds a table that its steps only ever write
entries of, the table is what the writes of the run replay to. The last write
of a key decides what is read there (`Dict.get?_update`), so that a reading of
the table is a statement about the run: `Machine.get?_table` and, for when the
write was, `Machine.exists_lastWrite`.
-/

namespace Dict

variable {κ ν : Type*} [DecidableEq κ]

/-- **The last value written at a key**, if any was. -/
def lastWrite : List (κ × ν) → κ → Option ν
  | [], _ => none
  | (k', v) :: ws, k => (lastWrite ws k).orElse fun _ => if k' = k then some v else none

theorem lastWrite_append (ws vs : List (κ × ν)) (k : κ) :
    lastWrite (ws ++ vs) k = (lastWrite vs k).orElse fun _ => lastWrite ws k := by
  induction ws with
  | nil =>
    show lastWrite vs k = (lastWrite vs k).orElse fun _ => none
    cases lastWrite vs k <;> rfl
  | cons w ws ih =>
    obtain ⟨k', v⟩ := w
    rw [List.cons_append, lastWrite, ih, lastWrite]
    cases lastWrite vs k <;> rfl

/-- The last write is one of the writes. -/
theorem mem_of_lastWrite {ws : List (κ × ν)} {k : κ} {v : ν} (h : lastWrite ws k = some v) :
    (k, v) ∈ ws := by
  induction ws with
  | nil => cases h
  | cons w ws ih =>
    obtain ⟨k', v'⟩ := w
    rw [lastWrite] at h
    cases hlast : lastWrite ws k with
    | some v'' =>
      rw [hlast] at h
      exact List.mem_cons_of_mem _ (ih (hlast.trans h))
    | none =>
      rw [hlast] at h
      by_cases hk : k' = k
      · have hv : (if k' = k then some v' else none) = some v := h
        rw [if_pos hk] at hv
        rw [← hk, ← Option.some.inj hv]
        exact List.mem_cons_self
      · have hv : (if k' = k then some v' else none) = some v := h
        rw [if_neg hk] at hv
        cases hv

/-- **The last write of a key decides** what is read there. -/
theorem get?_update (d : Dict κ ν) (ws : List (κ × ν)) (k : κ) :
    (d.update ws).get? k = (lastWrite ws k).orElse fun _ => d.get? k := by
  induction ws generalizing d with
  | nil => rfl
  | cons w ws ih =>
    obtain ⟨k', v⟩ := w
    rw [update, ih, lastWrite]
    cases lastWrite ws k with
    | some v' => rfl
    | none =>
      show (d.set k' v).get? k = (if k' = k then some v else none).orElse fun _ => d.get? k
      by_cases hk : k' = k
      · rw [if_pos hk, hk, get?_set_self]
        rfl
      · rw [if_neg hk, get?_set_of_ne d v (Ne.symm hk)]
        rfl

theorem update_append (d : Dict κ ν) (ws vs : List (κ × ν)) :
    d.update (ws ++ vs) = (d.update ws).update vs := by
  induction ws generalizing d with
  | nil => rfl
  | cons w ws ih => exact ih (d.set w.1 w.2)

theorem nodup_keys_update {d : Dict κ ν} (h : d.keys.Nodup) (ws : List (κ × ν)) :
    (d.update ws).keys.Nodup := by
  induction ws generalizing d with
  | nil => exact h
  | cons w ws ih => exact ih (nodup_keys_set h w.1 w.2)

/-- Writing a key that is there adds none. -/
theorem keys_set_of_mem {d : Dict κ ν} {k : κ} (h : k ∈ d.keys) (v : ν) :
    (d.set k v).keys = d.keys := by
  induction d with
  | nil => cases h
  | cons e d ih =>
    obtain ⟨k', w⟩ := e
    by_cases hk : k' = k
    · rw [set, if_pos hk]
      rfl
    · rw [set, if_neg hk, keys_cons, keys_cons, ih]
      exact (List.mem_cons.mp h).resolve_left (Ne.symm hk)

end Dict

namespace Machine

variable {σ α κ ν : Type*} [DecidableEq κ] (M : Machine σ α) (writes : σ → α → List (κ × ν))

/-- **What the steps of a run write**, in order. -/
def journal : σ → List α → List (κ × ν)
  | _, [] => []
  | s, a :: as => writes s a ++ ((M.step s a).map fun s' => journal s' as).getD []

variable {M writes}

/-- **The table of a machine**: every step writes what `writes` says, and
nothing else. -/
def Keeps (M : Machine σ α) (table : σ → Dict κ ν) (writes : σ → α → List (κ × ν)) : Prop :=
  ∀ s a s', M.step s a = some s' → table s' = (table s).update (writes s a)

/-- **The table is what its journal replays to**, so an entry can be traced to
the last write of its key. -/
theorem table_eq_update {table : σ → Dict κ ν} (hkeeps : M.Keeps table writes) {s t : σ}
    {as : List α} (hrun : M.run s as = some t) :
    table t = (table s).update (M.journal writes s as) := by
  induction as generalizing s with
  | nil =>
    rw [Option.some.inj hrun]
    rfl
  | cons a as ih =>
    obtain ⟨s', h₁, h₂⟩ := M.run_cons_eq_some.mp hrun
    rw [ih h₂, hkeeps s a s' h₁, journal, h₁, Dict.update_append]
    rfl

/-- **What is read in the table** is the last write of the run. -/
theorem get?_table {table : σ → Dict κ ν} (hkeeps : M.Keeps table writes) {s t : σ}
    {as : List α} (hrun : M.run s as = some t) (k : κ) :
    (table t).get? k
      = (Dict.lastWrite (M.journal writes s as) k).orElse fun _ => (table s).get? k := by
  rw [table_eq_update hkeeps hrun, Dict.get?_update]

/-- **When the last write was**: in some step of the run, behind which the key
is not written. -/
theorem exists_lastWrite {s t : σ} {as : List α} (hrun : M.run s as = some t) {k : κ} {v : ν}
    (h : Dict.lastWrite (M.journal writes s as) k = some v) :
    ∃ bs a cs u u', as = bs ++ a :: cs ∧ M.run s bs = some u ∧ M.step u a = some u'
      ∧ Dict.lastWrite (writes u a) k = some v
      ∧ Dict.lastWrite (M.journal writes u' cs) k = none := by
  induction as generalizing s with
  | nil => cases h
  | cons a as ih =>
    obtain ⟨s', h₁, h₂⟩ := M.run_cons_eq_some.mp hrun
    rw [journal, h₁] at h
    have h' : Dict.lastWrite (writes s a ++ M.journal writes s' as) k = some v := h
    rw [Dict.lastWrite_append] at h'
    cases hlast : Dict.lastWrite (M.journal writes s' as) k with
    | none =>
      rw [hlast] at h'
      exact ⟨[], a, as, s, s', rfl, rfl, h₁, h', hlast⟩
    | some w =>
      rw [hlast] at h'
      obtain ⟨bs, b, cs, u, u', rfl, hbs, hstep, hv, hnone⟩ := ih h₂ (hlast.trans h')
      exact ⟨a :: bs, b, cs, u, u', rfl, (M.run_cons_of_step h₁ bs).trans hbs, hstep, hv, hnone⟩

end Machine
