import Mathlib.Logic.Function.Basic
import PlatformSdk.Run

/-!
# A variable every task has its own copy of

A context variable has one value in each task: a task gets a copy of the
context of the task that creates it, and what either binds afterwards the
other does not see. Binding gives back a token, the value there was before,
and resetting with the token puts that value back.

A server uses such a variable to tell the code that serves a request whose
request it is. It creates a task for each request; the handler of the task
binds what the request says, if it says anything, serves, and resets in a
`finally`. While it serves, its task may create others, and those others
again. All of these move in any order.

`value_of_run` says what the variable shows: to a task that serves a request,
and to every task that was created on its behalf, what that request binds –
whatever the others do in between, and also when the request is over; and to
every other task what the server itself has.
-/

namespace ContextVars

/-- **The values of a variable**, by the task in whose context they are. -/
abbrev Contexts (α : Type*) := ℕ → Option α

namespace Contexts

variable {α : Type*}

/-- `copy_context()` for a new task: it begins with what its parent has bound,
and binds apart from it from then on. -/
def copy (s : Contexts α) (parent child : ℕ) : Contexts α :=
  Function.update s child (s parent)

/-- `var.set(v)`: the contexts, and the token. -/
def set (s : Contexts α) (task : ℕ) (v : α) : Contexts α × Option α :=
  (Function.update s task (some v), s task)

/-- `var.reset(token)`. -/
def reset (s : Contexts α) (task : ℕ) (token : Option α) : Contexts α :=
  Function.update s task token

end Contexts

/-! ## The machine -/

/-- **Where a task stands**: waiting with a request, serving it, created while
one was served, or at its end. -/
inductive Stage (ρ α : Type*) where
  | absent
  /-- Created for a request, its handler not begun. -/
  | waiting (r : ρ)
  /-- Serving a request, with the token of its binding if it has bound the
  variable. -/
  | serving (r : ρ) (token : Option (Option α))
  /-- Created while a request was served, by its handler or by such a task. -/
  | child (r : ρ)
  | ended (r : ρ)

/-- **What can happen**: a request arrives in a task of its own, and a task
begins, creates a child, reads or ends. -/
inductive Event (ρ : Type*) where
  | arrive (task : ℕ) (r : ρ)
  | begin (task : ℕ)
  | spawn (parent child : ℕ)
  /-- Code in a task reads the variable. -/
  | read (task : ℕ)
  /-- The handler of a task is through, by return or by exception. -/
  | finish (task : ℕ)

/-- **The tasks of a server**, and what has been read on behalf of which
request. -/
structure State (ρ α : Type*) where
  contexts : Contexts α
  stage : ℕ → Stage ρ α := fun _ => .absent
  reads : List (ρ × Option α) := []

variable {ρ ε α : Type*}

/-- A server that has its own value, or none, and no task yet. -/
def start (root : Option α) : State ρ α := { contexts := fun _ => root }

/-- **What a request shows**: what it binds, and the server's own value where
it binds nothing. -/
def shown (bind : ρ → Except ε (Option α)) (root : Option α) (r : ρ) : Option α :=
  match bind r with
  | .ok (some v) => some v
  | _ => root

/-- The request a task works for. -/
def Stage.request? : Stage ρ α → Option ρ
  | .serving r _ | .child r => some r
  | _ => none

namespace State

/-- A task moves on, and no variable changes. -/
def goto (s : State ρ α) (task : ℕ) (p : Stage ρ α) : State ρ α :=
  { s with stage := Function.update s.stage task p }

/-- The handler begins: it binds what the request says. -/
def begin (bind : ρ → Except ε (Option α)) (s : State ρ α) (task : ℕ) (r : ρ) : State ρ α :=
  match bind r with
  | .error _ => s.goto task (.ended r)
  | .ok none => s.goto task (.serving r none)
  | .ok (some v) =>
    let (contexts, token) := s.contexts.set task v
    { s with contexts := contexts }.goto task (.serving r (some token))

/-- The handler is through: its `finally` resets. -/
def finish (s : State ρ α) (task : ℕ) (r : ρ) : Option (Option α) → State ρ α
  | none => s.goto task (.ended r)
  | some token => { s with contexts := s.contexts.reset task token }.goto task (.ended r)

end State

/-- **One step of the tasks.** The task of a request is created in the context
of the server, which has the server's value. -/
def step (bind : ρ → Except ε (Option α)) (root : Option α) (s : State ρ α) :
    Event ρ → Option (State ρ α)
  | .arrive task r =>
    match s.stage task with
    | .absent =>
      some ({ s with contexts := Function.update s.contexts task root }.goto task (.waiting r))
    | _ => none
  | .begin task =>
    match s.stage task with
    | .waiting r => some (s.begin bind task r)
    | _ => none
  | .spawn parent child =>
    match (s.stage parent).request?, s.stage child with
    | some r, .absent =>
      some ({ s with contexts := s.contexts.copy parent child }.goto child (.child r))
    | _, _ => none
  | .read task =>
    match (s.stage task).request? with
    | some r => some { s with reads := s.reads ++ [(r, s.contexts task)] }
    | none => none
  | .finish task =>
    match s.stage task with
    | .serving r token => some (s.finish task r token)
    | _ => none

/-- **The machine of the tasks of a server.** -/
def machine (bind : ρ → Except ε (Option α)) (root : Option α) :
    Machine (State ρ α) (Event ρ) := ⟨step bind root⟩

/-! ## What a task sees -/

section Sees

variable (bind : ρ → Except ε (Option α)) (root : Option α)

/-- **What a context should hold**, by where its task stands. The token of a
binding is the server's value. -/
def Holds (value : Option α) : Stage ρ α → Prop
  | .absent => True
  | .waiting _ | .ended _ => value = root
  | .serving r none => value = root ∧ shown bind root r = root
  | .serving r (some token) => value = shown bind root r ∧ token = root
  | .child r => value = shown bind root r

/-- **Every task sees its own request**, and nothing else has been read. -/
structure Isolated (s : State ρ α) : Prop where
  holds : ∀ task, Holds bind root (s.contexts task) (s.stage task)
  reads : ∀ e ∈ s.reads, e.2 = shown bind root e.1

variable {bind root} {s s' : State ρ α}

/-- A task that works for a request sees what the request shows. -/
theorem value_of_request? {value : Option α} {p : Stage ρ α} {r : ρ} (h : Holds bind root value p)
    (hr : p.request? = some r) : value = shown bind root r := by
  cases p with
  | serving r' token =>
    obtain rfl := Option.some.inj hr
    cases token with
    | none => exact h.1.trans h.2.symm
    | some token => exact h.1
  | child r' =>
    obtain rfl := Option.some.inj hr
    exact h
  | absent => cases hr
  | waiting r' => cases hr
  | ended r' => cases hr

/-- **A task moves, and writes to its own context only.** -/
theorem Isolated.move (h : Isolated bind root s) {task : ℕ} {value : Option α} {p : Stage ρ α}
    (hp : Holds bind root value p) :
    Isolated bind root
      ({ s with contexts := Function.update s.contexts task value }.goto task p) where
  holds other := by
    by_cases hother : other = task
    · subst hother
      show Holds bind root (Function.update s.contexts other value other)
        (Function.update s.stage other p other)
      rw [Function.update_self, Function.update_self]
      exact hp
    · show Holds bind root (Function.update s.contexts task value other)
        (Function.update s.stage task p other)
      rw [Function.update_of_ne hother, Function.update_of_ne hother]
      exact h.holds other
  reads := h.reads

/-- A task moves on without writing a variable, so what the tasks read stays
what it was. -/
theorem Isolated.goto (h : Isolated bind root s) {task : ℕ} {p : Stage ρ α}
    (hp : Holds bind root (s.contexts task) p) : Isolated bind root (s.goto task p) := by
  have hmove : Isolated bind root
      ({ s with contexts := Function.update s.contexts task (s.contexts task) }.goto task p) :=
    h.move hp
  rwa [Function.update_eq_self] at hmove

/-- The handler of a request begins: its task binds what the request carries, in
a context that is a copy of its own. -/
theorem Isolated.begin (h : Isolated bind root s) {task : ℕ} {r : ρ}
    (hstage : s.stage task = .waiting r) : Isolated bind root (s.begin bind task r) := by
  have hvalue : s.contexts task = root := by
    have hholds := h.holds task
    rwa [hstage] at hholds
  unfold State.begin
  split
  · exact h.goto hvalue
  · next hbind =>
    refine h.goto ⟨hvalue, ?_⟩
    rw [shown, hbind]
  · next v hbind =>
    refine h.move ⟨?_, hvalue⟩
    rw [shown, hbind]

/-- The handler is through: what was bound before is bound again. -/
theorem Isolated.finish (h : Isolated bind root s) {task : ℕ} {r : ρ} {token : Option (Option α)}
    (hstage : s.stage task = .serving r token) : Isolated bind root (s.finish task r token) := by
  have hholds := h.holds task
  rw [hstage] at hholds
  cases token with
  | none => exact h.goto hholds.1
  | some token => exact h.move hholds.2

/-- **No step lets one task see another one's request.** -/
theorem isolated_step {a : Event ρ} (h : Isolated bind root s)
    (hstep : step bind root s a = some s') : Isolated bind root s' := by
  cases a with
  | arrive task r =>
    simp only [step] at hstep
    split at hstep
    · exact Option.some.inj hstep ▸ h.move rfl
    · cases hstep
  | begin task =>
    simp only [step] at hstep
    split at hstep
    · next hstage => exact Option.some.inj hstep ▸ h.begin hstage
    · cases hstep
  | spawn parent child =>
    simp only [step] at hstep
    split at hstep
    · next hr _ =>
      exact Option.some.inj hstep ▸ h.move (value_of_request? (h.holds parent) hr)
    · cases hstep
  | read task =>
    simp only [step] at hstep
    split at hstep
    · next r hr =>
      obtain rfl := Option.some.inj hstep
      refine ⟨h.holds, fun e he => ?_⟩
      rcases List.mem_append.mp he with he | he
      · exact h.reads e he
      · rw [List.mem_singleton.mp he]
        exact value_of_request? (h.holds task) hr
    · cases hstep
  | finish task =>
    simp only [step] at hstep
    split at hstep
    · next hstage => exact Option.some.inj hstep ▸ h.finish hstage
    · cases hstep

/-- Every run keeps the tasks apart, by induction on its events. -/
theorem isolated_run {as : List (Event ρ)} {t : State ρ α}
    (hrun : (machine bind root).run (start root) as = some t) : Isolated bind root t := by
  have hstart : Isolated bind root (start root : State ρ α) :=
    ⟨fun _ => trivial, fun _ he => absurd he List.not_mem_nil⟩
  exact (machine bind root).run_invariant (fun _ _ _ h hstep => isolated_step h hstep) hstart hrun

/-- **What the variable shows, in every run**: to a task that works for a
request what that request shows, and to the task of a request before its
handler begins, and after it is through, the server's own value. -/
theorem value_of_run {as : List (Event ρ)} {t : State ρ α}
    (hrun : (machine bind root).run (start root) as = some t) (task : ℕ) :
    (∀ r, (t.stage task).request? = some r → t.contexts task = shown bind root r)
      ∧ ∀ r, t.stage task = .waiting r ∨ t.stage task = .ended r → t.contexts task = root := by
  have hholds := (isolated_run hrun).holds task
  refine ⟨fun r => value_of_request? hholds, fun r h => ?_⟩
  rcases h with h | h
  · rwa [h] at hholds
  · rwa [h] at hholds

end Sees

end ContextVars
