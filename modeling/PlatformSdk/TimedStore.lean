import PlatformSdk.Dict
import Mathlib.Algebra.Order.Ring.Rat

/-!
# A store whose entries expire

As in `DelayedStore`, a write is applied at some moment of the store's own, or
never. Here the store has a clock: a write says for how long its entry is to
be kept, that time runs from the moment the write is applied, and when it is
over the entry is gone.

So the age of what is read is bounded by what was asked for when it was
written, and by nothing else: `Every` says something of all entries and of all
writes on their way, and `get?_eq_some` that what is read has not expired.
-/

/-- **A write on its way**, with its writer and the time to keep it for. -/
structure TimedWrite (ι κ ν : Type*) where
  writer : ι
  key : κ
  value : ν
  ttl : ℚ

/-- **An entry**, with its writer, the moment it was stored and the moment it
expires. -/
structure TimedEntry (ι ν : Type*) where
  writer : ι
  value : ν
  storedAt : ℚ
  expiresAt : ℚ

/-- **A store with a clock**: its entries have an end, and its writes are
applied some time after they are sent. -/
structure TimedStore (ι κ ν : Type*) where
  /-- The entries; those that have expired do not count. -/
  entries : Dict κ (TimedEntry ι ν) := []
  /-- The writes sent and not yet applied. -/
  inFlight : List (TimedWrite ι κ ν) := []

/-- The entry a write makes when it is applied. -/
def TimedWrite.applied {ι κ ν : Type*} (w : TimedWrite ι κ ν) (now : ℚ) : TimedEntry ι ν :=
  ⟨w.writer, w.value, now, now + w.ttl⟩

namespace TimedStore

variable {ι κ ν : Type*} [DecidableEq ι] [DecidableEq κ]

/-- The entry at a key, if it has not expired. -/
def get? (s : TimedStore ι κ ν) (now : ℚ) (k : κ) : Option (TimedEntry ι ν) :=
  (s.entries.get? k).filter fun e => now < e.expiresAt

/-- A write is sent, and is on its way until it is applied or lost. -/
def send (s : TimedStore ι κ ν) (w : TimedWrite ι κ ν) : TimedStore ι κ ν :=
  { s with inFlight := s.inFlight ++ [w] }

/-- Whether a write of the writer is on its way. -/
def isPending (s : TimedStore ι κ ν) (i : ι) : Bool := s.inFlight.any fun w => w.writer = i

/-- The store applies the first write of a writer that is on its way. -/
def apply (s : TimedStore ι κ ν) (now : ℚ) (i : ι) : Option (TimedStore ι κ ν) :=
  (s.inFlight.find? fun w => w.writer = i).map fun w =>
    { entries := s.entries.set w.key (w.applied now)
      inFlight := s.inFlight.eraseP fun w => w.writer = i }

omit [DecidableEq ι] in
/-- **What is read has not expired**: its lifetime ends after the present. -/
theorem get?_eq_some {s : TimedStore ι κ ν} {now : ℚ} {k : κ} {e : TimedEntry ι ν} :
    s.get? now k = some e ↔ s.entries.get? k = some e ∧ now < e.expiresAt := by
  rw [get?, Option.filter_eq_some_iff, decide_eq_true_iff]

/-- **Every entry satisfies `P`, and every write on its way `Q`.** -/
structure Every (P : κ → TimedEntry ι ν → Prop) (Q : TimedWrite ι κ ν → Prop)
    (s : TimedStore ι κ ν) : Prop where
  entry : ∀ k e, s.entries.get? k = some e → P k e
  write : ∀ w ∈ s.inFlight, Q w

variable {P P' : κ → TimedEntry ι ν → Prop} {Q Q' : TimedWrite ι κ ν → Prop}
variable {s s' : TimedStore ι κ ν}

omit [DecidableEq ι] in
theorem every_empty : Every P Q ({} : TimedStore ι κ ν) :=
  ⟨fun _ _ h => absurd h (by simp), fun _ h => absurd h List.not_mem_nil⟩

omit [DecidableEq ι] in
theorem Every.mono (hs : s.Every P Q) (hP : ∀ k e, P k e → P' k e) (hQ : ∀ w, Q w → Q' w) :
    s.Every P' Q' :=
  ⟨fun k e he => hP k e (hs.entry k e he), fun w hw => hQ w (hs.write w hw)⟩

omit [DecidableEq ι] in
theorem Every.send (hs : s.Every P Q) {w : TimedWrite ι κ ν} (hw : Q w) :
    (s.send w).Every P Q := by
  refine ⟨hs.entry, fun w' hw' => ?_⟩
  rcases List.mem_append.mp hw' with hw' | hw'
  · exact hs.write w' hw'
  · rw [List.mem_singleton.mp hw']
    exact hw

/-- **A write that is applied turns into an entry** of this moment. -/
theorem Every.apply (hs : s.Every P Q) {now : ℚ} {i : ι} (h : s.apply now i = some s')
    (happly : ∀ w, Q w → w.writer = i → P w.key (w.applied now)) : s'.Every P Q := by
  obtain ⟨w, hw, rfl⟩ := Option.map_eq_some_iff.mp h
  have hwriter : w.writer = i := by simpa using List.find?_some hw
  have hnew : P w.key (w.applied now) :=
    happly w (hs.write w (List.mem_of_find?_eq_some hw)) hwriter
  refine ⟨fun k e he => ?_, fun w' hw' => hs.write w' (List.mem_of_mem_eraseP hw')⟩
  by_cases hk : k = w.key
  · subst hk
    rw [Dict.get?_set_self] at he
    exact Option.some.inj he ▸ hnew
  · rw [Dict.get?_set_of_ne _ _ hk] at he
    exact hs.entry k e he

end TimedStore
