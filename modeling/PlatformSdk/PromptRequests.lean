import Mathlib.Tactic.Linarith
import PlatformSdk.Potential
import PlatformSdk.PromptInvalidation

/-!
# How often Langfuse is asked

The cache of a `PromptManager` is there to reduce the load on Langfuse, and
whatever a call comes to is stored, a fallback too: Langfuse is not asked again
for a key while what is there is young. `asks_mul_le` puts a number to it. In
any stretch of a run, whatever is asked for and invalidated and however many of
the requests fail, the requests for one key take a lifetime each of the time
that passes, but for the first one and one for each invalidation of the key.
-/

namespace PromptRequests

/-- **A manager in use, and the clock.** -/
structure State where
  manager : FullPromptManager
  now : ℚ

/-- **One call.** The clock does not run backwards. -/
def step (s : State) : PromptCacheEvent → Option State
  | .getPrompt p fallback reply checked stored =>
    if s.now ≤ checked ∧ checked ≤ stored then
      some ⟨(s.manager.getPrompt p fallback reply checked stored).2, stored⟩
    else none
  | .getChatPrompt p fallback reply checked stored =>
    if s.now ≤ checked ∧ checked ≤ stored then
      some ⟨(s.manager.getChatPrompt p fallback reply checked stored).2, stored⟩
    else none
  | .invalidateCache name => some { s with manager := s.manager.invalidateCache name }

/-- **The machine of the calls on a manager**, in time. -/
def machine : Machine State PromptCacheEvent := ⟨step⟩

/-- The key a call looks up, and when. -/
def lookedUp : PromptCacheEvent → Option (String × ℚ)
  | .getPrompt p _ _ checked _ => some (p.keyOf .text, checked)
  | .getChatPrompt p _ _ checked _ => some (p.keyOf .chat, checked)
  | .invalidateCache _ => none

/-- **A call asks Langfuse for a key**: it looks it up and finds nothing young,
and there is a client. -/
def asksFor (key : String) (s : State) (e : PromptCacheEvent) (_ : State) : Bool :=
  match lookedUp e with
  | none => false
  | some (key', checked) =>
    decide (key' = key) && s.manager.hasLangfuse && (s.manager.cachedValid? key checked).isNone

/-- **A call that removes a key**, if it is there. -/
def removes (key : String) : PromptCacheEvent → Bool
  | .invalidateCache none => true
  | .invalidateCache (some name) => PromptManager.isKeyOf name key
  | .getPrompt .. | .getChatPrompt .. => false

/-- **How often Langfuse is asked for a key** in a run. -/
def asks (key : String) (s : State) (es : List PromptCacheEvent) : ℕ :=
  machine.count (asksFor key) s es

/-- **How often the key is invalidated.** -/
def removals (key : String) (es : List PromptCacheEvent) : ℕ := es.countP (removes key)

variable {s s' t : State} {e : PromptCacheEvent} {key : String}

/-- **What a step does**: an invalidation, or a call for some key. -/
theorem step_cases (h : step s e = some s') :
    (∃ name, e = .invalidateCache name
        ∧ s' = { s with manager := s.manager.invalidateCache name })
      ∨ ∃ key checked stored fetched, lookedUp e = some (key, checked) ∧ s.now ≤ checked
        ∧ checked ≤ stored ∧ s' = ⟨(s.manager.ask key fetched checked stored).2, stored⟩ := by
  cases e with
  | getPrompt p fallback reply checked stored =>
    obtain ⟨⟨hlater, hstored⟩, h⟩ := Option.ite_none_right_eq_some.mp h
    exact .inr ⟨_, checked, stored, _, rfl, hlater, hstored, (Option.some.inj h).symm⟩
  | getChatPrompt p fallback reply checked stored =>
    obtain ⟨⟨hlater, hstored⟩, h⟩ := Option.ite_none_right_eq_some.mp h
    exact .inr ⟨_, checked, stored, _, rfl, hlater, hstored, (Option.some.inj h).symm⟩
  | invalidateCache name => exact .inl ⟨name, rfl, (Option.some.inj h).symm⟩

/-- **The time that counts towards the next request for a key**: the age of what
is there, up to a whole lifetime. -/
def aged (key : String) (s : State) : ℚ :=
  match s.manager.cache.get? key with
  | none => s.manager.ttlSeconds
  | some (_, timestamp) => cappedAge s.manager.ttlSeconds timestamp s.now

/-- **The invariant**: the lifetime is what it was, and nothing is stored in the
future. -/
structure Inv (ttl : ℚ) (s : State) : Prop where
  ttlSeconds : s.manager.ttlSeconds = ttl
  stored : ∀ key content timestamp, s.manager.cache.get? key = some (content, timestamp) →
    timestamp ≤ s.now

/-- What a call leaves that looks a key up. -/
theorem ask_cases (pm : FullPromptManager) (key : String) (fetched : PromptContent)
    (checked stored : ℚ) :
    (∃ content, pm.cachedValid? key checked = some content)
        ∧ (pm.ask key fetched checked stored).2 = pm
      ∨ pm.cachedValid? key checked = none
        ∧ (pm.ask key fetched checked stored).2
          = { pm with cache := pm.cache.set key (fetched, stored) } := by
  cases h : pm.cachedValid? key checked with
  | some content => exact .inl ⟨⟨content, rfl⟩, by rw [FullPromptManager.ask, h]⟩
  | none => exact .inr ⟨rfl, by rw [FullPromptManager.ask, h]⟩

/-- What is not found young is not there, or has aged a lifetime. -/
theorem aged_of_cachedValid? {pm : FullPromptManager} {checked : ℚ}
    (h : pm.cachedValid? key checked = none) : aged key ⟨pm, checked⟩ = pm.ttlSeconds := by
  unfold FullPromptManager.cachedValid? at h
  unfold aged
  cases hget : pm.cache.get? key with
  | none => rfl
  | some entry =>
    obtain ⟨content, timestamp⟩ := entry
    simp only [hget] at h
    refine cappedAge_of_le (not_lt.mp (fun hyoung => ?_))
    rw [if_pos hyoung] at h
    cases h

/-- Nothing ages faster than time passes: the entry of a key is older by the
time that has gone by, at most. -/
theorem aged_later (key : String) (pm : FullPromptManager) {now later : ℚ} (h : now ≤ later) :
    aged key ⟨pm, later⟩ ≤ aged key ⟨pm, now⟩ + (later - now) := by
  unfold aged
  cases pm.cache.get? key with
  | none => exact le_add_of_nonneg_right (sub_nonneg.mpr h)
  | some entry => exact cappedAge_le_add h

variable {ttl : ℚ}

theorem Inv.aged_nonneg (hs : Inv ttl s) (httl : 0 ≤ ttl) (key : String) : 0 ≤ aged key s := by
  unfold aged
  rw [hs.ttlSeconds]
  cases hget : s.manager.cache.get? key with
  | none => exact httl
  | some entry => exact cappedAge_nonneg httl (hs.stored key _ _ hget)

theorem Inv.aged_le (hs : Inv ttl s) (key : String) : aged key s ≤ ttl := by
  unfold aged
  rw [hs.ttlSeconds]
  cases s.manager.cache.get? key with
  | none => exact le_rfl
  | some entry => exact min_le_right _ _

/-- **Every step keeps the invariant.** What is stored is stamped with the time,
so nothing in the cache is younger than the present. -/
theorem inv_of_step (hs : Inv ttl s) (h : step s e = some s') : Inv ttl s' := by
  rcases step_cases h with ⟨name, rfl, rfl⟩
    | ⟨key', checked, stored, fetched, -, hlater, hstored, rfl⟩
  · refine ⟨?_, fun key content timestamp hget => ?_⟩
    · cases name <;> exact hs.ttlSeconds
    · cases name with
      | none => cases hget
      | some name =>
        rw [FullPromptManager.get?_invalidateCache] at hget
        exact hs.stored key content timestamp (Option.ite_none_left_eq_some.mp hget).2
  · have hnow : s.now ≤ stored := hlater.trans hstored
    rcases ask_cases s.manager key' fetched checked stored with ⟨-, hpm⟩ | ⟨-, hpm⟩ <;> rw [hpm]
    · exact ⟨hs.ttlSeconds, fun key content timestamp hget =>
        (hs.stored key content timestamp hget).trans hnow⟩
    · refine ⟨hs.ttlSeconds, fun key content timestamp hget => ?_⟩
      by_cases hkey : key = key'
      · rw [hkey, Dict.get?_set_self] at hget
        exact (congrArg Prod.snd (Option.some.inj hget)).ge
      · rw [Dict.get?_set_of_ne _ _ hkey] at hget
        exact (hs.stored key content timestamp hget).trans hnow

/-- A key that is not written ages as before. -/
theorem aged_congr {pm pm' : FullPromptManager} (now : ℚ)
    (httl : pm'.ttlSeconds = pm.ttlSeconds) (hget : pm'.cache.get? key = pm.cache.get? key) :
    aged key ⟨pm', now⟩ = aged key ⟨pm, now⟩ := by
  unfold aged
  simp only [hget, httl]

theorem removes_of_lookedUp {lookup : String × ℚ} (h : lookedUp e = some lookup) :
    removes key e = false := by
  cases e with
  | invalidateCache name => cases h
  | getPrompt | getChatPrompt => rfl

/-- An invalidation gives a lifetime back where it removes the key. -/
theorem aged_invalidateCache (httl : 0 ≤ ttl) (hs : Inv ttl s) (key : String)
    (name : Option String) :
    aged key { s with manager := s.manager.invalidateCache name }
        - (if removes key (.invalidateCache name) then ttl else 0) ≤ aged key s := by
  have hgone : ∀ pm : FullPromptManager, pm.ttlSeconds = ttl → pm.cache.get? key = none →
      aged key ⟨pm, s.now⟩ - ttl ≤ aged key s := by
    intro pm hpm hnone
    have hwhole : aged key ⟨pm, s.now⟩ = ttl := by
      unfold aged
      simp only [hnone, hpm]
    rw [hwhole, sub_self]
    exact hs.aged_nonneg httl key
  cases name with
  | none => exact hgone _ hs.ttlSeconds rfl
  | some name =>
    have hget := s.manager.get?_invalidateCache name key
    cases hkey : PromptManager.isKeyOf name key with
    | true =>
      rw [hkey, if_pos rfl] at hget
      rw [removes, hkey, if_pos rfl]
      exact hgone _ hs.ttlSeconds hget
    | false =>
      rw [hkey] at hget
      have hsame : aged key { s with manager := s.manager.invalidateCache (some name) }
          = aged key s := aged_congr s.now rfl hget
      rw [removes, hkey, hsame]
      exact (sub_zero _).le

/-- **A request is paid for with the time since the last one.** -/
theorem aged_ask (httl : 0 ≤ ttl) (hs : Inv ttl s) (key : String) (s' : State)
    {key' : String} {checked stored : ℚ}
    (hlater : s.now ≤ checked) (hstored : checked ≤ stored) (fetched : PromptContent)
    (hlooked : lookedUp e = some (key', checked)) :
    aged key ⟨(s.manager.ask key' fetched checked stored).2, stored⟩
        + (if asksFor key s e s' then ttl else 0) ≤ aged key s + (stored - s.now) := by
  have hasks : asksFor key s e s'
      = (decide (key' = key) && s.manager.hasLangfuse
        && (s.manager.cachedValid? key checked).isNone) := by
    rw [asksFor, hlooked]
  have hsame := aged_later key s.manager (hlater.trans hstored)
  rw [hasks]
  rcases ask_cases s.manager key' fetched checked stored with
    ⟨⟨content, hvalid⟩, hpm⟩ | ⟨hvalid, hpm⟩
  · -- a call that finds what it looks up asks for nothing
    have hfound : (decide (key' = key) && s.manager.hasLangfuse
        && (s.manager.cachedValid? key checked).isNone) = false := by
      by_cases hkey : key' = key
      · rw [← hkey, hvalid, Option.isNone_some, Bool.and_false]
      · rw [decide_eq_false hkey, Bool.false_and, Bool.false_and]
    rw [hfound, hpm]
    simpa using hsame
  · by_cases hkey : key' = key
    · have hwhole : ttl ≤ aged key s + (checked - s.now) := by
        rw [← hs.ttlSeconds, ← aged_of_cachedValid? (hkey ▸ hvalid)]
        exact aged_later key s.manager hlater
      have hfresh : aged key ⟨(s.manager.ask key' fetched checked stored).2, stored⟩ = 0 := by
        rw [hpm, ← hkey, aged]
        simp only [Dict.get?_set_self, hs.ttlSeconds]
        exact cappedAge_self httl
      have hprice : ∀ b : Bool, (if b then ttl else 0) ≤ ttl := fun b => by
        cases b <;> simp [httl]
      rw [hfresh, zero_add]
      exact (hprice _).trans (by linarith)
    · have hother : aged key ⟨(s.manager.ask key' fetched checked stored).2, stored⟩
          = aged key ⟨s.manager, stored⟩ := by
        rw [hpm]
        exact aged_congr stored rfl (Dict.get?_set_of_ne _ _ (Ne.symm hkey))
      rw [hother, decide_eq_false hkey]
      simpa using hsame

/-- **Every step pays for itself.** A request is made only when the entry is a
lifetime old or gone, and sets its age back to zero; an invalidation sets the
age to a lifetime. -/
theorem aged_add_le (httl : 0 ≤ ttl) (hs : Inv ttl s) (h : step s e = some s') :
    aged key s' - s'.now
        + ((if asksFor key s e s' then ttl else 0) - (if removes key e then ttl else 0))
      ≤ aged key s - s.now := by
  rcases step_cases h with ⟨name, rfl, rfl⟩
    | ⟨key', checked, stored, fetched, hlooked, hlater, hstored, rfl⟩
  · have hpays := aged_invalidateCache httl hs key name
    show _ - s.now + ((if false = true then ttl else 0) - _) ≤ _
    rw [if_neg Bool.false_ne_true]
    linarith
  · have hpays := aged_ask httl hs key ⟨(s.manager.ask key' fetched checked stored).2, stored⟩
      hlater hstored fetched hlooked
    rw [removes_of_lookedUp hlooked, if_neg Bool.false_ne_true]
    linarith

/-- **How often Langfuse is asked for a key**: in any stretch of a run, each
request takes a lifetime of the time that passes, but for the first one and one
for each time the key is invalidated. -/
theorem asks_mul_le {s₀ : State} (hfresh : s₀.manager.cache = [])
    (httl : 0 ≤ s₀.manager.ttlSeconds) {before es : List PromptCacheEvent}
    (hbefore : machine.run s₀ before = some s) (hrun : machine.run s es = some t) (key : String) :
    asks key s es * s₀.manager.ttlSeconds
      ≤ t.now - s.now + (1 + removals key es) * s₀.manager.ttlSeconds := by
  have hstart : Inv s₀.manager.ttlSeconds s₀ := ⟨rfl, fun key content timestamp hget => by
    rw [hfresh] at hget
    cases hget⟩
  have hs := machine.run_invariant (fun _ _ _ => inv_of_step) hstart hbefore
  have ht := machine.run_invariant (fun _ _ _ => inv_of_step) hs hrun
  have hle := machine.add_total_le _ (fun s => aged key s - s.now)
    (fun _ _ _ => inv_of_step) (fun _ _ _ => aged_add_le httl) hs hrun
  rw [machine.total_sub, machine.total_price, machine.total_price,
    machine.count_eq_countP _ hrun] at hle
  have hmost := hs.aged_le key
  have hleast := ht.aged_nonneg httl key
  show (machine.count (asksFor key) s es : ℚ) * _ ≤ _ + (1 + (es.countP (removes key) : ℚ)) * _
  linarith

/-- A manager whose entries live for five minutes, before its first call. -/
def unused : State := ⟨{ ttlSeconds := 300, hasLangfuse := true }, 0⟩

/-- A text is asked for when it is new, again while it is young, and once more
after the name is invalidated; the second of the three needs no request. -/
def threeCalls : List PromptCacheEvent :=
  let crm : PromptRef := ⟨"crm_specialist", none, some "production"⟩
  [.getPrompt crm (some "Help.") none 1 2, .getPrompt crm none (some "You help.") 200 200,
    .invalidateCache (some "crm_specialist"), .getPrompt crm none (some "You help.") 250 251]

theorem asks_mul_le_threeCalls :
    ∃ t, machine.run unused threeCalls = some t
      ∧ asks "text:crm_specialist:None:production" unused threeCalls * 300
        ≤ t.now - 0
          + (1 + removals "text:crm_specialist:None:production" threeCalls) * (300 : ℚ) := by
  have hrun : (machine.run unused threeCalls).isSome = true := by
    decide +kernel
  obtain ⟨t, ht⟩ := Option.isSome_iff_exists.mp hrun
  have hfresh : unused.manager.cache = [] := rfl
  have hstart : machine.run unused [] = some unused := rfl
  exact ⟨t, ht, asks_mul_le hfresh (by decide) hstart ht _⟩

end PromptRequests
