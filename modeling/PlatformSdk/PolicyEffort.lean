import Mathlib.Tactic.Linarith
import PlatformSdk.AuthorizedCalls
import PlatformSdk.Potential

/-!
# What a policy check may cost

A tool waits for its policy check, and the engine answers the checks of all
tools. How long one of them can take, and how often it can ask, is a matter of
`opa_max_retries` and `opa_retry_backoff` alone, whatever the other calls on the
client do meanwhile and whatever becomes of its breaker.

`effort_of_run` says so of a call from the moment on that it is made. It sends
no more requests than it may try; between two of them it sleeps at least for the
backoff; it takes no more than two turns for each attempt; and as long as it is
not over there is a turn it can take, unless it sleeps for ever. Each bound is a
potential that the turns of the call use up and that no other call touches.
-/

namespace PolicyCalls

/-- **A turn of a call**: what an event of its own makes of its phase. -/
inductive Turn (c : OpaClient) (now : ℚ) : Phase → Phase → Prop
  | begins {body : Json} (hretries : 0 < c.maxRetries) : Turn c now .idle (.posting body 0)
  /-- The body does not encode. -/
  | begunInVain {body : Except PyExc Json} (hretries : 1 < c.maxRetries) :
    Turn c now .idle (.sleeping body 0 now)
  | fails {body : Json} {body' : Except PyExc Json} {attempt : ℕ}
    (hretries : (attempt : ℤ) + 1 < c.maxRetries) :
    Turn c now (.posting body attempt) (.sleeping body' attempt now)
  | retries {body : Except PyExc Json} {body' : Json} {attempt : ℕ} {since : ℚ}
    (hover : c.retryBackoff.isAbove (now - since) = false) :
    Turn c now (.sleeping body attempt since) (.posting body' (attempt + 1))
  | retriesInVain {body body' : Except PyExc Json} {attempt : ℕ} {since : ℚ}
    (hretries : (attempt : ℤ) + 2 < c.maxRetries) :
    Turn c now (.sleeping body attempt since) (.sleeping body' (attempt + 1) now)
  | ends {p : Phase} {decision : Option Bool} (hp : ∀ d, p ≠ .ended d) :
    Turn c now p (.ended decision)

namespace State

variable (s : State) (i : ℕ)

/-- A failed attempt leaves the call asleep, or over. -/
theorem phase_failed (body : Except PyExc Json) (attempt : ℕ) (exc : PyExc) :
    (attempt : ℤ) + 1 < s.client.maxRetries
        ∧ (s.failed i body attempt exc).phase i = .sleeping body attempt s.now
      ∨ (s.failed i body attempt exc).phase i = .ended (some false) := by
  unfold failed
  split
  · exact Or.inr (phase_setPhase_self _ _ _)
  · split
    · next h => exact Or.inl ⟨by omega, phase_setPhase_self _ _ _⟩
    · exact Or.inr (phase_setPhase_self _ _ _)

theorem now_failed (body : Except PyExc Json) (attempt : ℕ) (exc : PyExc) :
    (s.failed i body attempt exc).now = s.now := by
  rcases s.failed_cases i body attempt exc with h | h <;> rw [h] <;> rfl

theorem now_startAttempt (body : Except PyExc Json) (attempt : ℕ) :
    (s.startAttempt i body attempt).now = s.now := by
  cases body with
  | ok b => rfl
  | error exc => exact s.now_failed i _ attempt exc

/-- **The settings of a client** that its calls never change. -/
def settings : ℤ × FloatValue := (s.client.maxRetries, s.client.retryBackoff)

theorem settings_failed (body : Except PyExc Json) (attempt : ℕ) (exc : PyExc) :
    (s.failed i body attempt exc).settings = s.settings := by
  rcases s.failed_cases i body attempt exc with h | h <;> rw [h] <;> rfl

theorem settings_startAttempt (body : Except PyExc Json) (attempt : ℕ) :
    (s.startAttempt i body attempt).settings = s.settings := by
  cases body with
  | ok b => rfl
  | error exc => exact s.settings_failed i _ attempt exc

end State

variable {s s' t : State} {e : Event} {i : ℕ}

theorem settings_of_step (h : step s e = some s') : s'.settings = s.settings := by
  cases took_of_step h with
  | attempt => exact s.settings_startAttempt _ _ _
  | failed => exact s.settings_failed _ _ _ _
  | wake => exact s.settings_startAttempt _ _ _
  | tick | refused | decided | cancel => rfl

/-- Time does not run backwards, and passes by itself alone. -/
theorem now_of_step (h : step s e = some s') :
    s.now ≤ s'.now ∧ (e.caller ≠ none → s'.now = s.now) := by
  cases took_of_step h with
  | tick hd => exact ⟨le_add_of_nonneg_right hd, fun hne => absurd rfl hne⟩
  | attempt => exact ⟨(s.now_startAttempt _ _ _).ge, fun _ => s.now_startAttempt _ _ _⟩
  | failed => exact ⟨(s.now_failed _ _ _ _).ge, fun _ => s.now_failed _ _ _ _⟩
  | wake => exact ⟨(s.now_startAttempt _ _ _).ge, fun _ => s.now_startAttempt _ _ _⟩
  | refused | decided | cancel => exact ⟨le_refl _, fun _ => rfl⟩

/-- A call that is over takes no turn. -/
theorem not_ended_of_step (h : step s e = some s') (hi : e.caller = some i)
    (decision : Option Bool) : s.phase i ≠ .ended decision := by
  intro hended
  cases e with
  | tick d => cases hi
  | call j | reply j | wake j | cancel j =>
    obtain rfl := Option.some.inj hi
    simp [step, hended] at h

/-- **An event of a call is a turn of it.** -/
theorem turn_of_step (h : step s e = some s') (hi : e.caller = some i) :
    Turn s.client s.now (s.phase i) (s'.phase i) := by
  have hends : ∀ {p : Phase} {decision : Option Bool}, p = .ended decision →
      Turn s.client s.now (s.phase i) p := fun hp => hp ▸ .ends (not_ended_of_step h hi)
  cases e with
  | tick d => cases hi
  | call j toolName payload =>
    obtain rfl := Option.some.inj hi
    cases took_of_step h with
    | refused => exact hends (State.phase_setPhase_self _ _ _)
    | attempt hidle _ hretries =>
      rw [hidle] at hends ⊢
      cases s.client.requestBody toolName payload with
      | ok body =>
        rw [State.startAttempt, State.phase_setPhase_self]
        exact .begins hretries
      | error exc =>
        rcases s.phase_failed j (.error exc) 0 exc with ⟨hmore, hp⟩ | hp
        · rw [State.startAttempt, hp]
          exact .begunInVain (by omega)
        · exact hends hp
  | reply j outcome =>
    obtain rfl := Option.some.inj hi
    cases took_of_step h with
    | decided => exact hends (State.phase_setPhase_self _ _ _)
    | @failed _ _ body attempt exc hposting =>
      rcases s.phase_failed j (.ok body) attempt exc with ⟨hmore, hp⟩ | hp
      · rw [hposting, hp]
        exact .fails hmore
      · exact hends hp
  | wake j =>
    obtain rfl := Option.some.inj hi
    cases took_of_step h with
    | @wake _ body attempt since hsleeping hover =>
      cases body with
      | ok body =>
        rw [hsleeping, State.startAttempt, State.phase_setPhase_self]
        exact .retries hover
      | error exc =>
        rcases s.phase_failed j (.error exc) (attempt + 1) exc with ⟨hmore, hp⟩ | hp
        · rw [hsleeping, State.startAttempt, hp]
          exact .retriesInVain (by push_cast at hmore; omega)
        · exact hends hp
  | cancel j =>
    obtain rfl := Option.some.inj hi
    cases took_of_step h with
    | cancel => exact hends (State.phase_setPhase_self _ _ _)

/-! ## The potentials -/

/-- The attempts a call may still make. -/
def attemptsLeft (retries : ℕ) : Phase → ℕ
  | .idle => retries
  | .posting _ attempt | .sleeping _ attempt _ => retries - (attempt + 1)
  | .ended _ => 0

/-- The turns it may still take. -/
def turnsLeft (retries : ℕ) : Phase → ℕ
  | .idle => max 1 (2 * retries)
  | .posting _ attempt => 2 * (retries - attempt) - 1
  | .sleeping _ attempt _ => 2 * (retries - attempt) - 2
  | .ended _ => 0

/-- The sleep it has behind it, up to a whole backoff, when it makes its next
attempt. -/
def slept (backoff now : ℚ) : Phase → ℚ
  | .idle => backoff
  | .sleeping _ _ since => cappedAge backoff since now
  | .posting _ _ | .ended _ => 0

/-- **The invariant of a call**: the attempt it is at is one it may make, and it
has not fallen asleep in the future. -/
def Phase.Within (retries : ℤ) (now : ℚ) : Phase → Prop
  | .posting _ attempt => (attempt : ℤ) < retries
  | .sleeping _ attempt since => (attempt : ℤ) + 1 < retries ∧ since ≤ now
  | .idle | .ended _ => True

theorem Phase.Within.later {retries : ℤ} {now later : ℚ} {p : Phase} (hp : p.Within retries now)
    (h : now ≤ later) : p.Within retries later := by
  cases p with
  | sleeping body attempt since => exact ⟨hp.1, hp.2.trans h⟩
  | idle | posting | ended => exact hp

theorem slept_nonneg {retries : ℤ} {backoff now : ℚ} (hbackoff : 0 ≤ backoff) {p : Phase}
    (hp : p.Within retries now) : 0 ≤ slept backoff now p := by
  cases p with
  | idle => exact hbackoff
  | sleeping body attempt since => exact cappedAge_nonneg hbackoff hp.2
  | posting | ended => exact le_refl _

/-- Sleep is no faster than the clock. -/
theorem slept_later (backoff : ℚ) (p : Phase) {now later : ℚ} (h : now ≤ later) :
    slept backoff later p ≤ slept backoff now p + (later - now) := by
  cases p with
  | idle | posting | ended => exact le_add_of_nonneg_right (sub_nonneg.mpr h)
  | sleeping body attempt since => exact cappedAge_le_add h

namespace Turn

variable {c : OpaClient} {now : ℚ} {p p' : Phase}

theorem not_posting_idle : ¬ Phase.idle.Posting := by
  rintro ⟨_, _, h⟩
  cases h

theorem not_posting_sleeping (body : Except PyExc Json) (attempt : ℕ) (since : ℚ) :
    ¬ (Phase.sleeping body attempt since).Posting := by
  rintro ⟨_, _, h⟩
  cases h

theorem not_posting_ended (decision : Option Bool) : ¬ (Phase.ended decision).Posting := by
  rintro ⟨_, _, h⟩
  cases h

theorem within (h : Turn c now p p') (hp : p.Within c.maxRetries now) :
    p'.Within c.maxRetries now := by
  cases h with
  | begins hretries => exact_mod_cast hretries
  | begunInVain hretries => exact ⟨by push_cast; omega, le_refl _⟩
  | fails hretries => exact ⟨hretries, le_refl _⟩
  | retries => exact_mod_cast hp.1
  | retriesInVain hretries => exact ⟨by push_cast; omega, le_refl _⟩
  | ends => exact trivial

/-- **An attempt is used up by the turn that sends a request.** -/
theorem attemptsLeft_add_le (h : Turn c now p p') (hp : p.Within c.maxRetries now) :
    attemptsLeft c.maxRetries.toNat p' + (if p'.Posting ∧ ¬ p.Posting then 1 else 0)
      ≤ attemptsLeft c.maxRetries.toNat p := by
  cases h with
  | begins hretries =>
    rw [if_pos ⟨⟨_, _, rfl⟩, not_posting_idle⟩]
    simp only [attemptsLeft]
    omega
  | retries =>
    have := hp.1
    rw [if_pos ⟨⟨_, _, rfl⟩, not_posting_sleeping _ _ _⟩]
    simp only [attemptsLeft]
    omega
  | begunInVain | fails | retriesInVain =>
    rw [if_neg (fun hsends => not_posting_sleeping _ _ _ hsends.1)]
    simp only [attemptsLeft]
    omega
  | ends =>
    rw [if_neg (fun hsends => not_posting_ended _ hsends.1)]
    exact Nat.zero_le _

/-- **Every turn is used up**: with each a call has one fewer left, so it comes
to its end after as many as it began with. -/
theorem turnsLeft_lt (h : Turn c now p p') (hp : p.Within c.maxRetries now) :
    turnsLeft c.maxRetries.toNat p' + 1 ≤ turnsLeft c.maxRetries.toNat p := by
  cases h with
  | begins hretries => simp only [turnsLeft]; omega
  | begunInVain hretries => simp only [turnsLeft]; omega
  | fails hretries => simp only [turnsLeft]; omega
  | retries => have := hp.1; simp only [turnsLeft]; omega
  | retriesInVain hretries => simp only [turnsLeft]; omega
  | ends hended =>
    cases p with
    | idle => simp only [turnsLeft]; omega
    | posting body attempt =>
      have : (attempt : ℤ) < c.maxRetries := hp
      simp only [turnsLeft]
      omega
    | sleeping body attempt since =>
      have := hp.1
      simp only [turnsLeft]
      omega
    | ended d => exact absurd rfl (hended d)

/-- **A request is paid for with sleep**, but for the first one. -/
theorem slept_add_le {backoff : ℚ} (hbackoff : 0 ≤ backoff)
    (hsleeps : ∀ d < backoff, c.retryBackoff.isAbove d = true) (h : Turn c now p p')
    (hp : p.Within c.maxRetries now) :
    slept backoff now p' + (if p'.Posting ∧ ¬ p.Posting then backoff else 0)
      ≤ slept backoff now p := by
  cases h with
  | begins =>
    rw [if_pos ⟨⟨_, _, rfl⟩, not_posting_idle⟩]
    exact (zero_add backoff).le
  | @retries _ _ _ since hover =>
    rw [if_pos ⟨⟨_, _, rfl⟩, not_posting_sleeping _ _ _⟩]
    have hslept : backoff ≤ now - since := le_of_not_gt (fun hlt => by
      rw [hsleeps _ hlt] at hover
      cases hover)
    exact (zero_add backoff).trans_le (cappedAge_of_le hslept).ge
  | begunInVain | fails | retriesInVain =>
    rw [if_neg (fun hsends => not_posting_sleeping _ _ _ hsends.1), add_zero]
    -- a call that has just fallen asleep has no sleep behind it
    exact (cappedAge_self hbackoff).trans_le (slept_nonneg hbackoff hp)
  | ends =>
    rw [if_neg (fun hsends => not_posting_ended _ hsends.1), add_zero]
    exact slept_nonneg hbackoff hp

end Turn

/-! ## Runs -/

/-- A call sends a request: it waits for one behind the step, and did not
before. -/
def sends (i : ℕ) (s : State) (_ : Event) (s' : State) : Bool :=
  decide ((s'.phase i).Posting ∧ ¬ (s.phase i).Posting)

/-- **The requests a call sends** in a run. -/
def requests (i : ℕ) (s : State) (es : List Event) : ℕ := machine.count (sends i) s es

/-- **The turns it takes**: the events of the run that are its own. -/
def turns (i : ℕ) (es : List Event) : ℕ := es.countP (fun e => decide (e.caller = some i))

/-- What the bounds rest on: the settings, and where the call is. -/
def State.Bounded (retries : ℤ) (backoff : FloatValue) (i : ℕ) (s : State) : Prop :=
  s.settings = (retries, backoff) ∧ (s.phase i).Within retries s.now

theorem bounded_of_step {retries : ℤ} {backoff : FloatValue} (hs : s.Bounded retries backoff i)
    (h : step s e = some s') : s'.Bounded retries backoff i := by
  obtain ⟨hsettings, hwithin⟩ := hs
  refine ⟨(settings_of_step h).trans hsettings, ?_⟩
  obtain ⟨rfl, -⟩ := Prod.mk.inj hsettings
  by_cases hi : e.caller = some i
  · have hnow : s'.now = s.now := (now_of_step h).2 (by rw [hi]; exact Option.some_ne_none i)
    rw [hnow]
    exact (turn_of_step h hi).within hwithin
  · rw [(frame_of_step h).2.2 i hi]
    exact hwithin.later (now_of_step h).1

/-- **A potential of the phase of a call** pays for a run when the turns of the
call pay, and the passing of time does. -/
theorem add_total_le {β : Type} [AddCommMonoid β] [Preorder β] [AddRightMono β] [AddLeftMono β]
    {retries : ℤ} {backoff : FloatValue} (φ : ℚ → Phase → β) (cost : State → Event → State → β)
    (hturn : ∀ s e s', s.Bounded retries backoff i → step s e = some s' → e.caller = some i →
      φ s.now (s'.phase i) + cost s e s' ≤ φ s.now (s.phase i))
    (hother : ∀ s e s', s.Bounded retries backoff i → step s e = some s' → e.caller ≠ some i →
      φ s'.now (s.phase i) + cost s e s' ≤ φ s.now (s.phase i))
    (hs : s.Bounded retries backoff i) {es : List Event} (hrun : machine.run s es = some t) :
    φ t.now (t.phase i) + machine.total cost s es ≤ φ s.now (s.phase i) := by
  refine machine.add_total_le cost (fun s : State => φ s.now (s.phase i))
    (fun _ _ _ => bounded_of_step) (fun s e s' hs h => ?_) hs hrun
  by_cases hi : e.caller = some i
  · rw [(now_of_step h).2 (by rw [hi]; exact Option.some_ne_none i)]
    exact hturn s e s' hs h hi
  · rw [(frame_of_step h).2.2 i hi]
    exact hother s e s' hs h hi

section Effort

variable {retries : ℤ} {backoff : FloatValue} {es : List Event}

/-- A step of another call sends no request of this one. -/
theorem sends_of_ne (h : step s e = some s') (hi : e.caller ≠ some i) : sends i s e s' = false := by
  rw [sends, (frame_of_step h).2.2 i hi]
  exact decide_eq_false (fun hsends => hsends.2 hsends.1)

theorem sends_eq_true_iff : sends i s e s' = true ↔ (s'.phase i).Posting ∧ ¬ (s.phase i).Posting :=
  decide_eq_true_iff

/-- **No more requests than attempts.** Of its attempts a call has left, each
request uses one up, and what the other calls do gives none back. -/
theorem requests_le (hs : s.Bounded retries backoff i) (hrun : machine.run s es = some t) :
    requests i s es ≤ attemptsLeft retries.toNat (s.phase i) := by
  have hle := add_total_le (fun _ => attemptsLeft retries.toNat)
    (fun s e s' => if sends i s e s' then 1 else 0) (fun s e s' hs h hi => ?_)
    (fun s e s' _ h hi => ?_) hs hrun
  · exact (Nat.le_add_left _ _).trans hle
  · obtain ⟨rfl, -⟩ := Prod.mk.inj hs.1
    simp only [sends_eq_true_iff]
    exact (turn_of_step h hi).attemptsLeft_add_le hs.2
  · rw [sends_of_ne h hi]
    exact le_refl _

/-- **No more turns than two for each attempt**: one in which its request comes
to something and one in which it wakes up. -/
theorem turns_le (hs : s.Bounded retries backoff i) (hrun : machine.run s es = some t) :
    turns i es ≤ turnsLeft retries.toNat (s.phase i) := by
  have hle := add_total_le (fun _ => turnsLeft retries.toNat)
    (fun _ e _ => if decide (e.caller = some i) then 1 else 0) (fun s e s' hs h hi => ?_)
    (fun s e s' _ h hi => ?_) hs hrun
  · rw [turns, ← machine.count_eq_countP _ hrun]
    exact (Nat.le_add_left _ _).trans hle
  · obtain ⟨rfl, -⟩ := Prod.mk.inj hs.1
    rw [decide_eq_true hi]
    exact (turn_of_step h hi).turnsLeft_lt hs.2
  · rw [decide_eq_false hi]
    exact le_refl _

/-- **Requests are a backoff apart.** Each request of a call but the first comes
behind a sleep, and no sleep is shorter than the backoff. -/
theorem requests_mul_le {b : ℚ} (hb : 0 ≤ b) (hsleeps : ∀ d < b, backoff.isAbove d = true)
    (hs : s.Bounded retries backoff i) (hrun : machine.run s es = some t) :
    requests i s es * b ≤ t.now - s.now + slept b s.now (s.phase i) := by
  have hle := add_total_le (fun now p => slept b now p - now)
    (fun s e s' => if sends i s e s' then b else 0) (fun s e s' hs h hi => ?_)
    (fun s e s' hs h hi => ?_) hs hrun
  · have hend : 0 ≤ slept b t.now (t.phase i) :=
      slept_nonneg hb (machine.run_invariant (fun _ _ _ => bounded_of_step) hs hrun).2
    rw [machine.total_price b (sends i)] at hle
    show (machine.count (sends i) s es : ℚ) * b ≤ _
    linarith
  · obtain ⟨rfl, rfl⟩ := Prod.mk.inj hs.1
    have hturn := (turn_of_step h hi).slept_add_le hb hsleeps hs.2
    simp only [sends_eq_true_iff]
    linarith
  · have hlater := slept_later b (s.phase i) (now_of_step h).1
    rw [sends_of_ne h hi]
    simp only [Bool.false_eq_true, if_false]
    linarith

end Effort

/-! ## The effort of a call -/

/-- **A call can go on**: whatever its request comes to it takes it in, and when
it sleeps it wakes after some time. -/
def State.GoesOn (i : ℕ) (s : State) : Prop :=
  match s.phase i with
  | .posting _ _ => ∀ outcome, ∃ s', step s (.reply i outcome) = some s'
  | .sleeping _ _ _ => ∃ d s', machine.run s [.tick d, .wake i] = some s'
  | .idle | .ended _ => True

/-- Sleep of a finite length is over some time. -/
theorem goesOn_of_ne_inf (i : ℕ) (s : State) (hinf : s.client.retryBackoff ≠ .inf) :
    s.GoesOn i := by
  unfold State.GoesOn
  cases hp : s.phase i with
  | idle | ended => exact trivial
  | posting body attempt =>
    intro outcome
    simp only [step, hp]
    cases outcome.response <;> exact ⟨_, rfl⟩
  | sleeping body attempt since =>
    obtain ⟨d, hd, hover⟩ : ∃ d, 0 ≤ d
        ∧ s.client.retryBackoff.isAbove (s.now + d - since) = false := by
      cases hb : s.client.retryBackoff with
      | inf => exact absurd hb hinf
      | finite q =>
        refine ⟨max 0 (q - (s.now - since)), le_max_left _ _, decide_eq_false (not_lt.mpr ?_)⟩
        have := le_max_right 0 (q - (s.now - since))
        linarith
      | negInf | nan => exact ⟨0, le_refl _, rfl⟩
    let later : State := { s with now := s.now + d }
    have htick : step s (.tick d) = some later := if_pos hd
    have hwakes : step later (.wake i) = some (later.startAttempt i body (attempt + 1)) := by
      have hsleeping : later.phase i = .sleeping body attempt since := hp
      have hover' : later.client.retryBackoff.isAbove (later.now - since) = false := hover
      simp only [step, hsleeping, hover', Bool.false_eq_true, if_false]
    exact ⟨d, _, (machine.run_cons_of_step htick _).trans (machine.run_singleton hwakes)⟩

/-- **What a run may cost a call** that is made in it. -/
structure Effort (i : ℕ) (s : State) (es : List Event) (t : State) : Prop where
  /-- It sends no more requests than it may try. -/
  requests_le : requests i s es ≤ s.client.maxRetries.toNat
  /-- It takes no more than two turns for each attempt. -/
  turns_le : turns i es ≤ max 1 (2 * s.client.maxRetries.toNat)
  /-- Its requests are a backoff apart. -/
  requests_mul_le : ∀ b, 0 ≤ b → (∀ d < b, s.client.retryBackoff.isAbove d = true) →
    requests i s es * b ≤ t.now - s.now + b
  /-- It can go on, unless it sleeps for ever. -/
  goesOn : s.client.retryBackoff ≠ .inf → t.GoesOn i

/-- **The effort of a call is bounded by the settings of its client**, whatever
the other calls do. The retries bound how many requests it sends and how many
turns it takes, the backoff how far apart they are; and unless the backoff is
infinite a call that is not over can go on. -/
theorem effort_of_run (hidle : s.phase i = .idle) {es : List Event}
    (hrun : machine.run s es = some t) : Effort i s es t := by
  have hs : s.Bounded s.client.maxRetries s.client.retryBackoff i := ⟨rfl, hidle ▸ trivial⟩
  have ht := machine.run_invariant (fun _ _ _ => bounded_of_step) hs hrun
  refine ⟨?_, ?_, fun b hb hsleeps => ?_, fun hinf => goesOn_of_ne_inf i t ?_⟩
  · have hle := requests_le hs hrun
    rwa [hidle] at hle
  · have hle := turns_le hs hrun
    rwa [hidle] at hle
  · have hle := requests_mul_le hb hsleeps hs hrun
    rwa [hidle] at hle
  · rwa [(Prod.mk.inj ht.1).2]

/-- Two calls, one of which is tried twice while the other is answered. -/
def twoCalls : List Event :=
  [.call 0 "query" [], .call 1 "fetch" [], .reply 0 (.raised .timeoutException), .tick (1 / 5),
    .reply 1 (.answered 200 (some (.map [("result", .leaf (.bool true))]))), .wake 0,
    .reply 0 (.raised .timeoutException)]

theorem effort_twoCalls :
    ∃ t, machine.run (start { environment := .dev } 0) twoCalls = some t
      ∧ Effort 0 (start { environment := .dev } 0) twoCalls t := by
  have hrun : (machine.run (start { environment := .dev } 0) twoCalls).isSome = true := by
    decide +kernel
  obtain ⟨t, ht⟩ := Option.isSome_iff_exists.mp hrun
  exact ⟨t, ht, effort_of_run rfl ht⟩

end PolicyCalls
