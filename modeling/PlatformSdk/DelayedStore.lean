import PlatformSdk.Dict

/-!
# A store whose writes arrive late

A client of a remote store sends a write and waits. The store applies the
write at some moment of its own – possibly after the client has given up –,
or never; and an entry may be gone at any moment, expired or evicted. So the
store is its entries together with the writes on their way.

What can be said of such a store without knowing any of those moments is what
holds of every write that is ever sent: `Every P` says that each entry and
each write on its way satisfies `P`, and every operation keeps it. A value
read from the store then satisfies `P` for the key it was read at, whatever
was lost, delayed or overtaken in between.
-/

/-- **A store with writes on their way**, each with the name `ι` of the client
that sent it. -/
structure DelayedStore (ι κ ν : Type*) where
  /-- What the store holds. -/
  entries : Dict κ ν := []
  /-- The writes sent and not yet applied. -/
  inFlight : List (ι × κ × ν) := []

namespace DelayedStore

variable {ι κ ν : Type*} [DecidableEq ι] [DecidableEq κ]

/-- The value at a key, as a read finds it at this moment. -/
def get? (s : DelayedStore ι κ ν) (k : κ) : Option ν := s.entries.get? k

/-- A client sends a write, which is on its way until it is applied. -/
def send (s : DelayedStore ι κ ν) (i : ι) (k : κ) (v : ν) : DelayedStore ι κ ν :=
  { s with inFlight := s.inFlight ++ [(i, k, v)] }

/-- Whether a write of the client is on its way. -/
def isPending (s : DelayedStore ι κ ν) (i : ι) : Bool := s.inFlight.any (fun w => w.1 = i)

/-- The store applies the first write of a client that is on its way. -/
def apply (s : DelayedStore ι κ ν) (i : ι) : Option (DelayedStore ι κ ν) :=
  (s.inFlight.find? (fun w => w.1 = i)).map fun w =>
    { entries := s.entries.set w.2.1 w.2.2
      inFlight := s.inFlight.eraseP (fun w => w.1 = i) }

/-- An entry expires, or is evicted, at whatever moment. -/
def expire (s : DelayedStore ι κ ν) (k : κ) : DelayedStore ι κ ν :=
  { s with entries := s.entries.erase k }

/-- **Every entry and every write on its way satisfies `P`.** -/
def Every (P : κ → ν → Prop) (s : DelayedStore ι κ ν) : Prop :=
  (∀ k v, s.get? k = some v → P k v) ∧ ∀ w ∈ s.inFlight, P w.2.1 w.2.2

variable {P Q : κ → ν → Prop} {s : DelayedStore ι κ ν}

omit [DecidableEq ι] in
theorem every_empty : Every P ({} : DelayedStore ι κ ν) :=
  ⟨fun _ _ h => absurd h (by simp [get?]), fun _ h => absurd h List.not_mem_nil⟩

omit [DecidableEq ι] in
theorem Every.mono (hs : s.Every P) (h : ∀ k v, P k v → Q k v) : s.Every Q :=
  ⟨fun k v hv => h k v (hs.1 k v hv), fun w hw => h _ _ (hs.2 w hw)⟩

omit [DecidableEq ι] in
theorem Every.send (hs : s.Every P) (i : ι) {k : κ} {v : ν} (h : P k v) :
    (s.send i k v).Every P := by
  refine ⟨hs.1, fun w hw => ?_⟩
  rcases List.mem_append.mp hw with hw | hw
  · exact hs.2 w hw
  · rw [List.mem_singleton.mp hw]
    exact h

theorem Every.apply (hs : s.Every P) {i : ι} {s' : DelayedStore ι κ ν}
    (h : s.apply i = some s') : s'.Every P := by
  obtain ⟨w, hw, rfl⟩ := Option.map_eq_some_iff.mp h
  have hP : P w.2.1 w.2.2 := hs.2 w (List.mem_of_find?_eq_some hw)
  refine ⟨fun k v hv => ?_, fun w' hw' => hs.2 w' (List.mem_of_mem_eraseP hw')⟩
  rw [get?] at hv
  by_cases hk : k = w.2.1
  · subst hk
    rw [Dict.get?_set_self] at hv
    exact Option.some.inj hv ▸ hP
  · rw [Dict.get?_set_of_ne _ _ hk] at hv
    exact hs.1 k v hv

omit [DecidableEq ι] in
theorem Every.expire (hs : s.Every P) (k : κ) : (s.expire k).Every P := by
  refine ⟨fun k' v hv => ?_, hs.2⟩
  rw [get?, DelayedStore.expire, Dict.get?_erase] at hv
  split at hv
  · exact absurd hv (by simp)
  · exact hs.1 k' v hv

/-! ### Writes on their way -/

/-- The clients with a write on its way, one entry for each write. -/
def senders (s : DelayedStore ι κ ν) : List ι := s.inFlight.map Prod.fst

omit [DecidableEq κ] in
theorem isPending_iff {i : ι} : s.isPending i = true ↔ i ∈ s.senders := by
  rw [isPending, List.any_eq_true, senders, List.mem_map]
  exact exists_congr fun w => and_congr_right fun _ => decide_eq_true_iff

omit [DecidableEq ι] [DecidableEq κ] in
theorem senders_send (i : ι) (k : κ) (v : ν) : (s.send i k v).senders = s.senders ++ [i] :=
  List.map_append

omit [DecidableEq κ] in
theorem isPending_send (i j : ι) (k : κ) (v : ν) :
    (s.send i k v).isPending j = (s.isPending j || decide (i = j)) := by
  rw [isPending, isPending, send, List.any_append, List.any_cons, List.any_nil, Bool.or_false]

/-- A write that is applied was on its way, and its client has one write less
on its way. -/
theorem exists_of_apply {i : ι} {s' : DelayedStore ι κ ν} (h : s.apply i = some s') :
    ∃ k v, (i, k, v) ∈ s.inFlight ∧ s'.entries = s.entries.set k v
      ∧ s'.senders = s.senders.erase i ∧ ∀ w ∈ s'.inFlight, w ∈ s.inFlight := by
  obtain ⟨⟨j, k, v⟩, hw, rfl⟩ := Option.map_eq_some_iff.mp h
  obtain rfl : j = i := by simpa using List.find?_some hw
  refine ⟨k, v, List.mem_of_find?_eq_some hw, rfl, ?_, fun w => List.mem_of_mem_eraseP⟩
  rw [senders, senders, List.erase_eq_eraseP', List.eraseP_map]
  refine congrArg (List.map Prod.fst) (congrArg (fun p => s.inFlight.eraseP p) ?_)
  funext w
  rw [Function.comp_apply, beq_eq_decide]

/-- A write alone on its way is the one that is applied. -/
theorem apply_send (h : s.inFlight = []) (i : ι) (k : κ) (v : ν) :
    (s.send i k v).apply i = some { entries := s.entries.set k v } := by
  simp [apply, send, h]

end DelayedStore
