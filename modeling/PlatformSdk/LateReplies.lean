import Mathlib.Data.Option.Basic
import Mathlib.Logic.Function.Basic
import Mathlib.Order.Basic

/-!
# Replies that arrive late

A source has a value that only moves forward. Readers ask for it: a request
is sent, the source serves it at some later moment, and the reply arrives
later still, in any order. So a reply is a value the source had at some moment
between the sending and the arrival.

That is all a reader can rely on. `Ordered` says it of every request on its
way, and each operation keeps it. Where requests never overlap, `Alone`, there
is at most one of them.
-/

/-- **A request on its way**: the value of the source when it was sent, and
the one it was served with. -/
structure Flight (ν : Type*) where
  sent : ν
  served : Option ν := none

/-- **A source and the requests on their way to it and back**, each with the
name `ι` of its reader. -/
structure LateReplies (ι ν : Type*) where
  current : ν
  flights : ι → Option (Flight ν) := fun _ => none

namespace LateReplies

variable {ι ν : Type*} [DecidableEq ι]

/-- The source moves on to another value, and what is in flight stays as it is.
-/
def advance (s : LateReplies ι ν) (v : ν) : LateReplies ι ν := { s with current := v }

/-- A reader sends a request, and the value current at that moment is noted. -/
def send (s : LateReplies ι ν) (i : ι) : LateReplies ι ν :=
  { s with flights := Function.update s.flights i (some { sent := s.current }) }

/-- The source serves the request of a reader. -/
def serve (s : LateReplies ι ν) (i : ι) : Option (LateReplies ι ν) :=
  match s.flights i with
  | some { sent, served := none } =>
    some { s with flights := Function.update s.flights i (some { sent, served := s.current }) }
  | _ => none

/-- The request of a reader is over. -/
def drop (s : LateReplies ι ν) (i : ι) : LateReplies ι ν :=
  { s with flights := Function.update s.flights i none }

variable {s s' : LateReplies ι ν} {i j : ι} {f : Flight ν}

/-- A request on its way after one was sent. -/
theorem flights_send (h : (s.send i).flights j = some f) :
    j = i ∧ f = { sent := s.current } ∨ s.flights j = some f := by
  by_cases hj : j = i
  · subst hj
    simp only [send, Function.update_self] at h
    exact .inl ⟨rfl, (Option.some.inj h).symm⟩
  · simp only [send, Function.update_of_ne hj] at h
    exact .inr h

theorem current_serve (hs : s.serve i = some s') : s'.current = s.current := by
  unfold serve at hs
  split at hs
  · exact Option.some.inj hs ▸ rfl
  · cases hs

/-- A request on its way after one was served was there before. -/
theorem flights_serve (hs : s.serve i = some s') (h : s'.flights j = some f) :
    ∃ g, s.flights j = some g ∧ f.sent = g.sent
      ∧ (f.served = g.served ∨ f.served = some s.current) := by
  unfold serve at hs
  split at hs
  · next sent hi =>
    obtain rfl := Option.some.inj hs
    by_cases hj : j = i
    · subst hj
      simp only [Function.update_self] at h
      obtain rfl := Option.some.inj h
      exact ⟨_, hi, rfl, .inr rfl⟩
    · simp only [Function.update_of_ne hj] at h
      exact ⟨f, h, rfl, .inl rfl⟩
  · cases hs

/-- A request on its way after one is over is another one. -/
theorem flights_drop (h : (s.drop i).flights j = some f) : j ≠ i ∧ s.flights j = some f := by
  by_cases hj : j = i
  · subst hj
    simp [drop] at h
  · simp only [drop, Function.update_of_ne hj] at h
    exact ⟨hj, h⟩

/-! ## A reply was current after its request was sent -/

section Ordered

variable [Preorder ν]

/-- **Every request was sent before it was served, and served before now.** -/
def Ordered (s : LateReplies ι ν) : Prop :=
  ∀ i f, s.flights i = some f → f.sent ≤ s.current ∧
    ∀ v, f.served = some v → f.sent ≤ v ∧ v ≤ s.current

omit [DecidableEq ι] in
theorem Ordered.advance (hs : s.Ordered) {v : ν} (h : s.current ≤ v) : (s.advance v).Ordered :=
  fun i f hf => ⟨(hs i f hf).1.trans h,
    fun u hu => ⟨((hs i f hf).2 u hu).1, ((hs i f hf).2 u hu).2.trans h⟩⟩

theorem Ordered.send (hs : s.Ordered) (i : ι) : (s.send i).Ordered := by
  intro j f hf
  rcases flights_send hf with ⟨-, rfl⟩ | hold
  · exact ⟨le_rfl, fun u hu => by cases hu⟩
  · exact hs j f hold

theorem Ordered.serve (hs : s.Ordered) (h : s.serve i = some s') : s'.Ordered := by
  intro j f hf
  obtain ⟨g, hg, hsent, hserved⟩ := flights_serve h hf
  obtain ⟨hle, hold⟩ := hs j g hg
  rw [current_serve h, hsent]
  refine ⟨hle, fun u hu => ?_⟩
  rcases hserved with hserved | hserved <;> rw [hserved] at hu
  · exact hold u hu
  · exact Option.some.inj hu ▸ ⟨hle, le_rfl⟩

theorem Ordered.drop (hs : s.Ordered) (i : ι) : (s.drop i).Ordered :=
  fun j f hf => hs j f (flights_drop hf).2

end Ordered

/-! ## Requests that do not overlap -/

/-- **At most one request is on its way.** -/
def Alone (s : LateReplies ι ν) : Prop :=
  ∀ i j f g, s.flights i = some f → s.flights j = some g → i = j

theorem Alone.send (h : ∀ j, s.flights j = none) (i : ι) : (s.send i).Alone := by
  have honly : ∀ {j : ι} {f : Flight ν}, (s.send i).flights j = some f → j = i := by
    intro j f hf
    rcases flights_send hf with ⟨hj, -⟩ | hold
    · exact hj
    · rw [h j] at hold
      cases hold
  intro j k f g hf hg
  rw [honly hf, honly hg]

theorem Alone.serve (hs : s.Alone) (h : s.serve i = some s') : s'.Alone := by
  intro j k f g hf hg
  obtain ⟨f', hf', -⟩ := flights_serve h hf
  obtain ⟨g', hg', -⟩ := flights_serve h hg
  exact hs j k f' g' hf' hg'

theorem Alone.drop (hs : s.Alone) (i : ι) : (s.drop i).Alone :=
  fun j k f g hf hg => hs j k f g (flights_drop hf).2 (flights_drop hg).2

end LateReplies
