import PlatformSdk.Dict
import PlatformSdk.Python
import PlatformSdk.Run

/-!
# Prompts, their cache and their fallbacks

`PromptManager.get_prompt` returns a prompt's text as Langfuse has it, a copy
of that text that is not older than `ttl_seconds`, or, when Langfuse cannot be
asked, the fallback the caller brought along – `Answers`.

Calls share one cache. Its key joins the name, the version and the label with
colons, so that `a:None` with label `b` has the key of `a` with label
`None:b`; and what a failed call returns, its own fallback, is stored as any
other text and served to the next caller. So a call is answered as it should
be as long as what it finds was stored for the same prompt by a call that
reached Langfuse – `FindsOwn` – and `along_answers` carries this over whole
runs. `not_along_answers` has a run for each of the two ways it fails.
-/

/-- What is asked of Langfuse: a name, and perhaps a version and a label. -/
structure PromptRef where
  name : String
  version : Option ℤ
  label : Option String
  deriving DecidableEq

/-- `f"text:{name}:{version}:{label}"`. -/
def PromptRef.cacheKey (p : PromptRef) : String :=
  "text:" ++ p.name ++ ":" ++ (p.version.map Int.repr).getD "None" ++ ":" ++ p.label.getD "None"

/-- A call of `get_prompt`, by what it asks for and what it falls back to. -/
structure PromptCall where
  prompt : PromptRef
  fallback : Option String
  deriving DecidableEq

/-- `fallback or ""`. -/
def PromptCall.ownFallback (c : PromptCall) : String := c.fallback.getD ""

/-- **A `PromptManager`**: its lifetime for a text, whether it has a Langfuse
client, and the texts it holds with the time each was stored. -/
structure PromptManager where
  ttlSeconds : ℚ
  hasLangfuse : Bool
  cache : Dict String (String × ℚ) := []

namespace PromptManager

/-- `_is_cached_valid`, at `now`. -/
def isCachedValid (pm : PromptManager) (key : String) (now : ℚ) : Bool :=
  match pm.cache.get? key with
  | none => false
  | some (_, timestamp) => decide (now - timestamp < pm.ttlSeconds)

/-- What a call that finds nothing returns: the text of Langfuse, or the
fallback when there is no client or the client raises, `none`. -/
def fetched (pm : PromptManager) (c : PromptCall) (reply : Option String) : String :=
  if pm.hasLangfuse then reply.getD c.ownFallback else c.ownFallback

/-- **`get_prompt`**: its result and the manager it leaves. The clock is read
at `checked`, and at `stored` where a result is stored. -/
def getPrompt (pm : PromptManager) (c : PromptCall) (reply : Option String) (checked stored : ℚ) :
    String × PromptManager :=
  if pm.isCachedValid c.prompt.cacheKey checked then
    (((pm.cache.get? c.prompt.cacheKey).map Prod.fst).getD "", pm)
  else
    (pm.fetched c reply,
      { pm with cache := pm.cache.set c.prompt.cacheKey (pm.fetched c reply, stored) })

/-- Whether a key is one of a name, as `str.startswith` sees it. -/
def isKeyOf (name key : String) : Bool :=
  ("text:" ++ name ++ ":").toList.isPrefixOf key.toList
    || ("chat:" ++ name ++ ":").toList.isPrefixOf key.toList

/-- **`invalidate_cache`**: everything, or the entries whose keys begin as those
of a name do. -/
def invalidateCache (pm : PromptManager) : Option String → PromptManager
  | none => { pm with cache := [] }
  | some name => { pm with cache := pm.cache.filter (fun e => !isKeyOf name e.1) }

/-- The call asks Langfuse: it has a client, and no entry that is valid. -/
def Asks (pm : PromptManager) (c : PromptCall) (checked : ℚ) : Prop :=
  pm.hasLangfuse = true ∧ pm.isCachedValid c.prompt.cacheKey checked = false

end PromptManager

/-! ## The calls on one manager -/

/-- **What was stored**: for which prompt, when, and whether it is a text of
Langfuse and not a fallback. -/
structure PromptStore where
  prompt : PromptRef
  text : String
  time : ℚ
  ofLangfuse : Bool
  deriving DecidableEq

/-- A manager in use: the clock, and what has been stored so far. -/
structure PromptState where
  manager : PromptManager
  now : ℚ
  log : List PromptStore := []

/-- **The calls**, with what Langfuse would reply and the readings of the
clock. -/
inductive PromptEvent where
  | getPrompt (c : PromptCall) (reply : Option String) (checked stored : ℚ)
  | invalidateCache (name : Option String)

namespace PromptState

/-- What a call adds to the log. -/
def stores (s : PromptState) (c : PromptCall) (reply : Option String) (checked stored : ℚ) :
    List PromptStore :=
  if s.manager.isCachedValid c.prompt.cacheKey checked then []
  else
    [{ prompt := c.prompt, text := s.manager.fetched c reply, time := stored
       ofLangfuse := s.manager.hasLangfuse && reply.isSome }]

/-- One call. The clock does not run backwards. -/
def step (s : PromptState) : PromptEvent → Option PromptState
  | .getPrompt c reply checked stored =>
    if s.now ≤ checked ∧ checked ≤ stored then
      some
        { manager := (s.manager.getPrompt c reply checked stored).2
          now := stored
          log := s.log ++ s.stores c reply checked stored }
    else none
  | .invalidateCache name => some { s with manager := s.manager.invalidateCache name }

/-- **The machine of the calls on a manager.** -/
def machine : Machine PromptState PromptEvent := ⟨step⟩

/-- What was last stored under a key. -/
def lastStore (s : PromptState) (key : String) : Option PromptStore :=
  s.log.reverse.find? (fun e => decide (e.prompt.cacheKey = key))

/-- **How a call is to be answered**: with a text Langfuse returned for the
very prompt less than `ttl_seconds` ago, or returns now, or with the call's own
fallback if there is no Langfuse or it fails in this call. -/
def Answers (s : PromptState) : PromptEvent → Prop
  | .getPrompt c reply checked stored =>
    let result := (s.manager.getPrompt c reply checked stored).1
    (∃ e ∈ s.log, e.ofLangfuse = true ∧ e.prompt = c.prompt ∧ e.text = result
        ∧ checked - e.time < s.manager.ttlSeconds)
      ∨ s.manager.Asks c checked ∧ reply = some result
      ∨ (s.manager.hasLangfuse = false ∨ s.manager.Asks c checked ∧ reply = none)
        ∧ result = c.ownFallback
  | .invalidateCache _ => True

/-- **What a call may find**: a text stored for the same prompt by a call that
reached Langfuse or, where there is no Langfuse, its own fallback. -/
def FindsOwn (s : PromptState) : PromptEvent → Prop
  | .getPrompt c _ checked _ =>
    s.manager.isCachedValid c.prompt.cacheKey checked = true →
      ∃ e, s.lastStore c.prompt.cacheKey = some e
        ∧ (e.ofLangfuse = true ∧ e.prompt = c.prompt
          ∨ s.manager.hasLangfuse = false ∧ e.text = c.ownFallback)
  | .invalidateCache _ => True

/-- **The invariant**: what the cache holds under a key is what was last
stored under it. -/
def Inv (s : PromptState) : Prop :=
  ∀ key text time, s.manager.cache.get? key = some (text, time) →
    ∃ e, s.lastStore key = some e ∧ e.text = text ∧ e.time = time

variable {s s' : PromptState}

theorem inv_init (ttlSeconds : ℚ) (hasLangfuse : Bool) (now : ℚ) :
    Inv { manager := { ttlSeconds := ttlSeconds, hasLangfuse := hasLangfuse }, now := now } :=
  fun _ _ _ h => by cases h

/-- What is stored now is what was last stored. -/
theorem find?_reverse_concat (log : List PromptStore) (e : PromptStore) (key : String) :
    (log ++ [e]).reverse.find? (fun e => decide (e.prompt.cacheKey = key))
      = if e.prompt.cacheKey = key then some e
        else log.reverse.find? (fun e => decide (e.prompt.cacheKey = key)) := by
  rw [List.reverse_append, List.reverse_singleton, List.singleton_append, List.find?_cons]
  by_cases h : e.prompt.cacheKey = key <;> simp [h]

/-- **Every call keeps the invariant.** A call that asks stores what it returns
under its own key, with the time. -/
theorem inv_step {a : PromptEvent} (h : s.Inv) (hstep : step s a = some s') : s'.Inv := by
  cases a with
  | invalidateCache name =>
    obtain rfl := Option.some.inj hstep
    intro key text time hget
    cases name with
    | none => cases hget
    | some name =>
      rw [show Dict.get? (s.manager.invalidateCache (some name)).cache key = _ from
        Dict.get?_filter s.manager.cache (fun k => !PromptManager.isKeyOf name k) key] at hget
      obtain ⟨-, hget⟩ := Option.ite_none_right_eq_some.mp hget
      exact h key text time hget
  | getPrompt c reply checked stored =>
    obtain ⟨-, hs'⟩ := Option.ite_none_right_eq_some.mp hstep
    obtain rfl := Option.some.inj hs'
    intro key text time hget
    cases hvalid : s.manager.isCachedValid c.prompt.cacheKey checked with
    | true =>
      simp only [PromptManager.getPrompt, hvalid, if_true] at hget
      simp only [stores, hvalid, if_true, List.append_nil]
      exact h key text time hget
    | false =>
      simp only [PromptManager.getPrompt, hvalid, Bool.false_eq_true, if_false] at hget
      simp only [lastStore, stores, hvalid, Bool.false_eq_true, if_false, find?_reverse_concat]
      by_cases hkey : c.prompt.cacheKey = key
      · rw [hkey, Dict.get?_set_self] at hget
        obtain ⟨rfl, rfl⟩ := Prod.mk.inj (Option.some.inj hget)
        rw [if_pos hkey]
        exact ⟨_, rfl, rfl, rfl⟩
      · rw [Dict.get?_set_of_ne _ _ (Ne.symm hkey)] at hget
        rw [if_neg hkey]
        exact h key text time hget

/-- A live text under a key, read back. -/
theorem exists_of_isCachedValid {pm : PromptManager} {key : String} {now : ℚ}
    (h : pm.isCachedValid key now = true) :
    ∃ text time, pm.cache.get? key = some (text, time) ∧ now - time < pm.ttlSeconds := by
  rw [PromptManager.isCachedValid] at h
  split at h
  · cases h
  · next text time hget => exact ⟨text, time, hget, of_decide_eq_true h⟩

/-- **A call that finds its own is answered as it should be**, and so is one
that finds nothing. -/
theorem answers_of_findsOwn {a : PromptEvent} (h : s.Inv) (ha : s.FindsOwn a) : s.Answers a := by
  cases a with
  | invalidateCache name => exact trivial
  | getPrompt c reply checked stored =>
    cases hvalid : s.manager.isCachedValid c.prompt.cacheKey checked with
    | false =>
      -- Langfuse is asked, or there is none
      have hresult :
          (s.manager.getPrompt c reply checked stored).1 = s.manager.fetched c reply := by
        rw [PromptManager.getPrompt, hvalid]
        rfl
      rw [Answers, hresult, PromptManager.fetched]
      cases hl : s.manager.hasLangfuse with
      | false => exact Or.inr (Or.inr ⟨Or.inl rfl, rfl⟩)
      | true =>
        cases reply with
        | none => exact Or.inr (Or.inr ⟨Or.inr ⟨⟨hl, hvalid⟩, rfl⟩, rfl⟩)
        | some text => exact Or.inr (Or.inl ⟨⟨hl, hvalid⟩, rfl⟩)
    | true =>
      obtain ⟨text, time, hget, hlive⟩ := exists_of_isCachedValid hvalid
      have hresult : (s.manager.getPrompt c reply checked stored).1 = text := by
        rw [PromptManager.getPrompt, hvalid, if_pos rfl, hget]
        rfl
      obtain ⟨e, he, rfl, rfl⟩ := h _ _ _ hget
      obtain ⟨e', he', hown⟩ := ha hvalid
      obtain rfl := Option.some.inj (he.symm.trans he')
      rw [Answers, hresult]
      rcases hown with ⟨hof, hprompt⟩ | ⟨hnone, htext⟩
      · have hmem := List.mem_reverse.mp (List.mem_of_find?_eq_some he)
        exact Or.inl ⟨e, hmem, hof, hprompt, rfl, hlive⟩
      · exact Or.inr (Or.inr ⟨Or.inl hnone, htext⟩)

/-- **Every run of calls that find their own is answered as it should be.** What
goes wrong otherwise is stored: a fallback is, and so is a text under the key
that another name and label have as well. So the condition is on the entry a
call finds, before it does. -/
theorem along_answers {ttlSeconds : ℚ} {hasLangfuse : Bool} {now : ℚ} {as : List PromptEvent}
    (h : machine.Along FindsOwn
      { manager := { ttlSeconds := ttlSeconds, hasLangfuse := hasLangfuse }, now := now } as) :
    machine.Along Answers
      { manager := { ttlSeconds := ttlSeconds, hasLangfuse := hasLangfuse }, now := now } as :=
  machine.along_of_invariant (fun _ _ _ hI _ hstep => inv_step hI hstep)
    (fun _ _ hI ha => answers_of_findsOwn hI ha) (inv_init ttlSeconds hasLangfuse now) h

/-- A live text that Langfuse did not return for the prompt answers nobody. -/
theorem not_answers_of_found {c : PromptCall} {reply : Option String} {checked stored : ℚ}
    {text : String} {time : ℚ} (hl : s.manager.hasLangfuse = true)
    (hget : s.manager.cache.get? c.prompt.cacheKey = some (text, time))
    (hlive : checked - time < s.manager.ttlSeconds)
    (hlog : ∀ e ∈ s.log, e.ofLangfuse = true → e.prompt = c.prompt → e.text ≠ text) :
    ¬ s.Answers (.getPrompt c reply checked stored) := by
  have hvalid : s.manager.isCachedValid c.prompt.cacheKey checked = true := by
    rw [PromptManager.isCachedValid, hget]
    exact decide_eq_true hlive
  have hresult : (s.manager.getPrompt c reply checked stored).1 = text := by
    rw [PromptManager.getPrompt, hvalid, if_pos rfl, hget]
    rfl
  have hasks : ¬ s.manager.Asks c checked := fun h => by
    rw [PromptManager.Asks, hvalid] at h
    exact Bool.noConfusion h.2
  rw [Answers, hresult]
  rintro (⟨e, he, hof, hprompt, htext, -⟩ | ⟨h, -⟩ | ⟨h | ⟨h, -⟩, -⟩)
  · exact hlog e he hof hprompt htext
  · exact hasks h
  · rw [hl] at h
    cases h
  · exact hasks h

theorem step_getPrompt {c : PromptCall} {reply : Option String} {checked stored : ℚ}
    (h₁ : s.now ≤ checked) (h₂ : checked ≤ stored) :
    step s (.getPrompt c reply checked stored) = some
      { manager := (s.manager.getPrompt c reply checked stored).2
        now := stored
        log := s.log ++ s.stores c reply checked stored } := if_pos ⟨h₁, h₂⟩

/-- A manager that has just been built. -/
def freshState : PromptState :=
  { manager := { ttlSeconds := 300, hasLangfuse := true }, now := 0 }

/-- A call for a name alone. -/
def callFor (name : String) (fallback : Option String) : PromptCall :=
  { prompt := { name := name, version := none, label := none }, fallback := fallback }

/-- A text that is fetched, and served again two seconds later. -/
def fetchThenAsk : List PromptEvent :=
  [.getPrompt (callFor "p" (some "x")) (some "A") 0 1, .getPrompt (callFor "p" none) none 3 3]

theorem along_answers_fetchThenAsk : machine.Along Answers freshState fetchThenAsk := by
  have hfinds : machine.Along FindsOwn freshState fetchThenAsk := by
    refine ⟨fun h => Bool.noConfusion h, fun s' hs' => ⟨fun _ => ?_, fun _ _ => trivial⟩⟩
    have hstep : step freshState (.getPrompt (callFor "p" (some "x")) (some "A") 0 1) = some _ :=
      step_getPrompt (le_refl (0 : ℚ)) (show (0 : ℚ) ≤ 1 by decide +kernel)
    obtain rfl := Option.some.inj (hstep.symm.trans hs')
    exact ⟨{ prompt := (callFor "p" none).prompt, text := "A", time := 1, ofLangfuse := true },
      rfl, Or.inl ⟨rfl, rfl⟩⟩
  exact along_answers hfinds

/-- Langfuse fails, and is back for the next call, which brings along another
fallback. -/
def failThenAsk : List PromptEvent :=
  [.getPrompt (callFor "p" (some "x")) none 0 0,
    .getPrompt (callFor "p" (some "y")) (some "A") 10 10]

/-- Two prompts with one key, since name and label are joined by colons. -/
def collidingCalls : List PromptEvent :=
  [.getPrompt { prompt := ⟨"a", none, some "None:b"⟩, fallback := none } (some "A") 0 0,
    .getPrompt { prompt := ⟨"a:None", none, some "b"⟩, fallback := none } (some "B") 10 10]

/-- **The fallback of another call, the text of another prompt.** -/
theorem not_along_answers :
    ¬ machine.Along Answers freshState failThenAsk
      ∧ ¬ machine.Along Answers freshState collidingCalls := by
  refine ⟨fun h => ?_, fun h => ?_⟩
  · have hstep : step freshState (.getPrompt (callFor "p" (some "x")) none 0 0) = some _ :=
      step_getPrompt (le_refl (0 : ℚ)) (le_refl (0 : ℚ))
    refine @not_answers_of_found _ _ _ _ _ "x" 0 rfl rfl ?_ ?_ (h.2 _ hstep).1
    · decide +kernel
    · intro e he hof
      obtain rfl := List.mem_singleton.mp he
      cases hof
  · have hstep : step freshState
        (.getPrompt { prompt := ⟨"a", none, some "None:b"⟩, fallback := none } (some "A") 0 0)
          = some _ := step_getPrompt (le_refl (0 : ℚ)) (le_refl (0 : ℚ))
    refine @not_answers_of_found _ _ _ _ _ "A" 0 rfl rfl ?_ ?_ (h.2 _ hstep).1
    · decide +kernel
    · intro e he _ hprompt
      obtain rfl := List.mem_singleton.mp he
      exact absurd hprompt (by decide)

end PromptState
