import PlatformSdk.BreakerProtocol
import PlatformSdk.Cache
import PlatformSdk.Registry

/-!
# The clients with a breaker follow the protocol

`BreakerProtocol` is about any callers of a breaker. Here are two: the lookups
of a registry client, whose guarded call is the `GET`, and the calls on a tool
cache, whose guarded calls are the `GET` and the `SETEX` of Redis. Every run of
either is a run of the callers of its breaker.
-/

open BreakerProtocol

/-! ## The registry client -/

namespace Registry

/-- Whether a call waits for its `GET`. -/
def CallPhase.isFetching : CallPhase → Bool
  | .fetching _ _ => true
  | _ => false

/-- The callers of the breaker of a registry client. -/
def State.callers (s : State) : BreakerProtocol.State where
  cb := s.client.cb
  now := s.now
  calling := fun i => (s.calls i).isFetching

theorem callers_goto (s : State) (i : ℕ) (p : CallPhase) :
    (s.goto i p).callers = s.callers.setCalling i p.isFetching := by
  have hcalling : (fun j => ((s.goto i p).calls j).isFetching)
      = Function.update (fun j => (s.calls j).isFetching) i p.isFetching :=
    Function.comp_update CallPhase.isFetching s.calls i p
  show BreakerProtocol.State.mk s.client.cb s.now (fun j => ((s.goto i p).calls j).isFetching)
    = s.callers.setCalling i p.isFetching
  rw [hcalling]
  rfl

theorem callers_calling {s : State} {i : ℕ} {p : CallPhase} (h : s.calls i = p) :
    s.callers.calling i = p.isFetching := congrArg CallPhase.isFetching h

/-- **A step of a registry client is a run of its callers.** -/
theorem callers_of_step {c : EntryCoercions} {cfg : Settings} {s s' : State} {a : Event}
    (h : step c cfg s a = some s') :
    ∃ bs, BreakerProtocol.machine.run s.callers bs = some s'.callers := by
  cases moves_of_step h with
  | tick hd => exact ⟨[.tick _], Machine.run_singleton _ (if_pos hd)⟩
  | answered hi hl =>
    rw [callers_goto]
    exact ⟨[], congrArg some (setCalling_eq_self (callers_calling hi)).symm⟩
  | asked hi hl =>
    rw [callers_goto]
    exact ⟨[.attempt _],
      Machine.run_singleton _ (step_attempt (callers_calling hi) (of_lookup_inr hl).1)⟩
  | received hi hf =>
    rw [callers_goto]
    exact ⟨[.record _ true], Machine.run_singleton _ (step_record (callers_calling hi) true)⟩
  | failed hi hf hc =>
    rw [callers_goto]
    exact ⟨[.record _ false], Machine.run_singleton _ (step_record (callers_calling hi) false)⟩
  | raised hi hf hc =>
    -- no outcome is recorded
    rw [callers_goto]
    exact ⟨[.leave _], Machine.run_singleton _ (step_leave (callers_calling hi))⟩
  | refreshed hr =>
    refine ⟨[], ?_⟩
    show _ = some (BreakerProtocol.State.mk (s.client.storeAll s.now _).cb s.now _)
    rw [cb_storeAll]
    rfl
  | startRefresh | alreadyStarted | wake | stopRefresh => exact ⟨[], rfl⟩

/-- **Every run of a registry client is a run of its callers.** -/
theorem callers_run {c : EntryCoercions} {cfg : Settings} {as : List Event} {s : State}
    (hrun : (machine c cfg).run {} as = some s) :
    ∃ bs, BreakerProtocol.machine.run (State.callers {}) bs = some s.callers := by
  obtain ⟨bs, u, hbs, rfl⟩ := (machine c cfg).run_simulated BreakerProtocol.machine
    (R := fun s u => s.callers = u) (fun s u a s' hu hstep => by
      obtain ⟨bs, hbs⟩ := callers_of_step hstep
      exact ⟨bs, _, hu ▸ hbs, rfl⟩) rfl hrun
  exact ⟨bs, hbs⟩

end Registry

/-! ## The tool cache -/

/-- Whether a call waits for Redis. -/
def Phase.awaitsRedis : Phase → Bool
  | .getting _ => true
  | .setting _ => true
  | _ => false

namespace CacheState

variable {τ ι : Type}

/-- The callers of the breaker of a cache. -/
def callers (s : CacheState τ ι) (cache : ToolResultCache) : BreakerProtocol.State where
  cb := cache.cb
  now := s.now
  calling := fun i => (s.phase i).awaitsRedis

/-- **These are the callers of a cache.** A call that has not been started
stands nowhere. -/
def Follows (s : CacheState τ ι) (u : BreakerProtocol.State) : Prop :=
  (∀ i, s.requests i = none → s.phase i = .idle)
    ∧ ∃ cache, s.cache = some cache ∧ s.callers cache = u

theorem callers_of_phase {s t : CacheState τ ι} (cache : ToolResultCache) {i : ℕ} {p : Phase}
    (hnow : t.now = s.now) (hphase : t.phase = Function.update s.phase i p) :
    t.callers cache = (s.callers cache).setCalling i p.awaitsRedis := by
  have hcalling : (fun j => (t.phase j).awaitsRedis)
      = Function.update (fun j => (s.phase j).awaitsRedis) i p.awaitsRedis := by
    rw [hphase]
    exact Function.comp_update Phase.awaitsRedis s.phase i p
  unfold callers BreakerProtocol.State.setCalling
  rw [hcalling, hnow]

/-- A call that stands somewhere has been started. -/
theorem started_of_phase {s : CacheState τ ι} (h : ∀ i, s.requests i = none → s.phase i = .idle)
    {i : ℕ} (hi : s.phase i ≠ .idle) (j : ℕ) (hj : s.requests j = none) :
    s.requests j = none ∧ j ≠ i :=
  ⟨hj, fun hji => hi (h i (hji ▸ hj))⟩

section Moves

variable {s t : CacheState τ ι} {i : ℕ} {p : Phase}
  (hidle : ∀ i, s.requests i = none → s.phase i = .idle)
  (hphase : t.phase = Function.update s.phase i p)
  (hrequests : ∀ j, t.requests j = none → s.requests j = none ∧ j ≠ i)

include hidle hphase hrequests

theorem idle_of_phase (j : ℕ) (hj : t.requests j = none) : t.phase j = .idle := by
  obtain ⟨hold, hji⟩ := hrequests j hj
  rw [hphase, Function.update_of_ne hji]
  exact hidle j hold

/-- A call that neither begins nor ends to wait for Redis is no step of the
callers. -/
theorem follows_of_stays {cache : ToolResultCache} (hcache : t.cache = some cache)
    (hnow : t.now = s.now) (hp : (s.phase i).awaitsRedis = p.awaitsRedis) :
    ∃ bs u, BreakerProtocol.machine.run (s.callers cache) bs = some u ∧ Follows t u := by
  refine ⟨[], s.callers cache, rfl, idle_of_phase hidle hphase hrequests, cache, hcache, ?_⟩
  rw [callers_of_phase cache hnow hphase]
  exact setCalling_eq_self hp

/-- A call that begins to wait for Redis has read that the circuit is not
open. -/
theorem follows_of_begins {cache : ToolResultCache} (hcache : t.cache = some cache)
    (hnow : t.now = s.now) (hi : (s.phase i).awaitsRedis = false) (hp : p.awaitsRedis = true)
    (hopen : cache.isBypassed s.now = false) :
    ∃ bs u, BreakerProtocol.machine.run (s.callers cache) bs = some u ∧ Follows t u := by
  have hclosed : cache.cb.isOpen s.now = false := (Bool.or_eq_false_iff.mp hopen).2
  refine ⟨[.attempt i], _, Machine.run_singleton _ (step_attempt hi hclosed),
    idle_of_phase hidle hphase hrequests, cache, hcache, ?_⟩
  rw [callers_of_phase cache hnow hphase, hp]

/-- A call that ends to wait for Redis records how that went. -/
theorem follows_of_records {cache : ToolResultCache} (ok : Bool)
    (hcache : t.cache = some
      { cache with cb := if ok then cache.cb.recordSuccess else cache.cb.recordFailure s.now })
    (hnow : t.now = s.now) (hi : (s.phase i).awaitsRedis = true) (hp : p.awaitsRedis = false) :
    ∃ bs u, BreakerProtocol.machine.run (s.callers cache) bs = some u ∧ Follows t u := by
  refine ⟨[.record i ok], _, Machine.run_singleton _ (step_record hi ok),
    idle_of_phase hidle hphase hrequests, _, hcache, ?_⟩
  rw [callers_of_phase _ hnow hphase, hp]
  rfl

end Moves

/-- A call that moves on without Redis, as the steps of the machine have it. -/
theorem follows_of_stays_goto {s : CacheState τ ι} {i : ℕ} {p : Phase} {cache : ToolResultCache}
    (hidle : ∀ i, s.requests i = none → s.phase i = .idle) (hcache : s.cache = some cache)
    (hnot : s.phase i ≠ .idle) (hp : (s.phase i).awaitsRedis = p.awaitsRedis) :
    ∃ bs u, BreakerProtocol.machine.run (s.callers cache) bs = some u ∧ Follows (s.goto i p) u :=
  have hphase : (s.goto i p).phase = Function.update s.phase i p := rfl
  follows_of_stays hidle hphase (started_of_phase hidle hnot) hcache rfl hp

/-- **A call resumes**: it waited for Redis, and goes on with the outcome
recorded. -/
def Resumes (s : CacheState τ ι) (i : ℕ) (ok : Bool) (s' : CacheState τ ι) : Prop :=
  (s.phase i).awaitsRedis = true ∧ ∃ p : Phase, p.awaitsRedis = false
    ∧ s' = (if ok then s.recordSuccess else s.recordFailure).goto i p

theorem resumes_of_resumeGet {tools : Tools τ ι} {sha256 : List UInt8 → List UInt8}
    {loads : String → Except PyExc Json} {s s' : CacheState τ ι} {i : ℕ} {ok : Bool}
    (h : step tools sha256 loads s (.resumeGet i ok) = some s') : Resumes s i ok s' := by
  simp only [step] at h
  split at h
  · next hp => exact ⟨congrArg Phase.awaitsRedis hp, _, rfl, (Option.some.inj h).symm⟩
  · next hp => exact ⟨congrArg Phase.awaitsRedis hp, _, rfl, (Option.some.inj h).symm⟩
  · next hp => exact ⟨congrArg Phase.awaitsRedis hp, _, rfl, (Option.some.inj h).symm⟩
  · cases h

theorem resumes_of_resumeSet {tools : Tools τ ι} {sha256 : List UInt8 → List UInt8}
    {loads : String → Except PyExc Json} {s s' : CacheState τ ι} {i : ℕ} {ok : Bool}
    (h : step tools sha256 loads s (.resumeSet i ok) = some s') : Resumes s i ok s' := by
  simp only [step] at h
  split at h
  · next hp =>
    obtain ⟨-, hs'⟩ := Option.ite_none_left_eq_some.mp h
    exact ⟨congrArg Phase.awaitsRedis hp, _, rfl, (Option.some.inj hs').symm⟩
  · next hp => exact ⟨congrArg Phase.awaitsRedis hp, _, rfl, (Option.some.inj h).symm⟩
  · cases h

/-- A call that ends to wait for Redis, as the steps of the machine have it. -/
theorem follows_of_resumes {s s' : CacheState τ ι} {i : ℕ} {ok : Bool} {cache : ToolResultCache}
    (hidle : ∀ i, s.requests i = none → s.phase i = .idle) (hcache : s.cache = some cache)
    (h : Resumes s i ok s') :
    ∃ bs u, BreakerProtocol.machine.run (s.callers cache) bs = some u ∧ Follows s' u := by
  obtain ⟨hi, p, hp, rfl⟩ := h
  have hnot : s.phase i ≠ .idle := fun hidle => by simp [hidle, Phase.awaitsRedis] at hi
  have hstarted := started_of_phase hidle hnot
  cases ok with
  | true =>
    have hcache' : (s.recordSuccess.goto i p).cache
        = some { cache with cb := cache.cb.recordSuccess } := by
      simp [goto, recordSuccess, hcache]
    have hphase : (s.recordSuccess.goto i p).phase = Function.update s.phase i p := rfl
    exact follows_of_records hidle hphase hstarted true hcache' rfl hi hp
  | false =>
    have hcache' : (s.recordFailure.goto i p).cache
        = some { cache with cb := cache.cb.recordFailure s.now } := by
      simp [goto, recordFailure, hcache]
    have hphase : (s.recordFailure.goto i p).phase = Function.update s.phase i p := rfl
    exact follows_of_records hidle hphase hstarted false hcache' rfl hi hp

/-- **A step of the calls on a cache is a run of its callers.** -/
theorem follows_of_step {tools : Tools τ ι} {sha256 : List UInt8 → List UInt8}
    {loads : String → Except PyExc Json} {s s' : CacheState τ ι} {u : BreakerProtocol.State}
    {a : CacheEvent τ ι} (h : Follows s u) (hstep : step tools sha256 loads s a = some s') :
    ∃ bs u', BreakerProtocol.machine.run u bs = some u' ∧ Follows s' u' := by
  obtain ⟨hidle, cache, hcache, rfl⟩ := h
  have hstarted : ∀ {i : ℕ}, s.phase i ≠ .idle → ∀ j, s.requests j = none →
      s.requests j = none ∧ j ≠ i := fun hi => started_of_phase hidle hi
  cases a with
  | tick d =>
    obtain ⟨hd, hs'⟩ := Option.ite_none_right_eq_some.mp hstep
    obtain rfl := Option.some.inj hs'
    exact ⟨[.tick d], _, Machine.run_singleton _ (if_pos hd), hidle, cache, hcache, rfl⟩
  | expire key => exact Option.some.inj hstep ▸ ⟨[], _, rfl, hidle, cache, hcache, rfl⟩
  | applySet i =>
    obtain ⟨redis, -, rfl⟩ := Option.map_eq_some_iff.mp hstep
    exact ⟨[], _, rfl, hidle, cache, hcache, rfl⟩
  | start i r =>
    simp only [step] at hstep
    split at hstep
    · cases hstep
    · next hi =>
      obtain rfl := Option.some.inj hstep
      have hrequests : ∀ j, (s.start tools sha256 i r).requests j = none →
          s.requests j = none ∧ j ≠ i := by
        intro j hj
        have hji : j ≠ i := by
          rintro rfl
          rw [start_requests_self] at hj
          cases hj
        exact ⟨(start_requests_of_ne tools sha256 s r hji).symm.trans hj, hji⟩
      have hnot : (s.phase i).awaitsRedis = false := by rw [hidle i hi]; rfl
      cases hkey : tools.makeKey sha256 r with
      | error exc =>
        have hphase : (s.start tools sha256 i r).phase
            = Function.update s.phase i (.raised exc) := by
          rw [start, firstPhase, hcache, hkey]
        exact follows_of_stays hidle hphase hrequests hcache rfl hnot
      | ok key =>
        cases hb : cache.isBypassed s.now with
        | true =>
          have hphase : (s.start tools sha256 i r).phase = Function.update s.phase i .running := by
            rw [start, firstPhase, hcache, hkey]
            simp only [hb, if_true]
          exact follows_of_stays hidle hphase hrequests hcache rfl hnot
        | false =>
          have hphase : (s.start tools sha256 i r).phase
              = Function.update s.phase i (.getting none) := by
            rw [start, firstPhase, hcache, hkey]
            simp only [hb, Bool.false_eq_true, if_false]
          exact follows_of_begins hidle hphase hrequests hcache rfl hnot rfl hb
  | serveGet i =>
    simp only [step] at hstep
    split at hstep
    · next hp =>
      obtain rfl := Option.some.inj hstep
      have hnot : s.phase i ≠ .idle := by simp [hp]
      have hawaits : (s.phase i).awaitsRedis = true := congrArg Phase.awaitsRedis hp
      exact follows_of_stays_goto hidle hcache hnot hawaits
    · cases hstep
  | resumeGet i ok => exact follows_of_resumes hidle hcache (resumes_of_resumeGet hstep)
  | finish i =>
    simp only [step] at hstep
    split at hstep
    · next r _ hp =>
      obtain rfl := Option.some.inj hstep
      have hnot : s.phase i ≠ .idle := by simp [hp]
      have hawaits : (s.phase i).awaitsRedis = false := congrArg Phase.awaitsRedis hp
      unfold finish
      rw [hcache]
      dsimp only
      split
      · exact follows_of_stays_goto hidle hcache hnot hawaits
      · exact follows_of_stays_goto hidle hcache hnot hawaits
      · cases hb : cache.isBypassed s.now with
        | true => exact follows_of_stays_goto hidle hcache hnot hawaits
        | false =>
          have hphase : (s.sendSet i (tools.key sha256 r) (tools.result r)).phase
              = Function.update s.phase i (.setting (tools.result r)) := rfl
          exact follows_of_begins hidle hphase (hstarted hnot) hcache rfl hawaits rfl hb
    · cases hstep
  | resumeSet i ok => exact follows_of_resumes hidle hcache (resumes_of_resumeSet hstep)

/-- **Every run of the calls on a cache is a run of its callers.** -/
theorem follows_run {tools : Tools τ ι} {sha256 : List UInt8 → List UInt8}
    {loads : String → Except PyExc Json} (cache : ToolResultCache) (now : ℚ)
    {as : List (CacheEvent τ ι)} {s : CacheState τ ι}
    (hrun : (machine tools sha256 loads).run { cache := some cache, now := now } as = some s) :
    ∃ bs u, BreakerProtocol.machine.run { cb := cache.cb, now := now } bs = some u
      ∧ Follows s u :=
  (machine tools sha256 loads).run_simulated BreakerProtocol.machine
    (fun _ _ _ _ h hstep => follows_of_step h hstep)
    ⟨fun _ _ => rfl, cache, rfl, rfl⟩ hrun

end CacheState
