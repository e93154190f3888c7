import PlatformSdk.PromptManager

/-!
# Which entries an invalidation removes

Text prompts and chat prompts share one cache, under keys
`text:{name}:{version}:{label}` and `chat:{name}:{version}:{label}`, and
`invalidate_cache(name)` removes the keys that start with `text:{name}:` or
`chat:{name}:`. So it removes whatever was stored for the name, and it removes
too what was stored for another prompt whose key goes on with a colon where
the name ends.

`Shadows` says which prompts these are, in terms of the fields alone, and
`invalidatesOwn_iff` that there are no others.
-/

/-! ## Texts with a separator behind them -/

/-- **Where a text and its separator may end** in two texts with that separator
between them: with the first, inside it, or inside the second. -/
theorem concat_prefix_append_cons_iff {α : Type*} (c : α) (n m t : List α) :
    n ++ [c] <+: m ++ c :: t
      ↔ n = m ∨ n ++ [c] <+: m ∨ ∃ r, n = m ++ c :: r ∧ r ++ [c] <+: t := by
  induction n generalizing m with
  | nil => cases m <;> simp [List.cons_prefix_cons, eq_comm]
  | cons a n ih =>
    cases m with
    | nil =>
      simp only [List.nil_append, List.cons_append, List.cons_prefix_cons, List.cons.injEq,
        List.prefix_nil, reduceCtorEq, false_or]
      constructor
      · rintro ⟨rfl, h⟩
        exact ⟨n, ⟨rfl, rfl⟩, h⟩
      · rintro ⟨r, ⟨rfl, rfl⟩, h⟩
        exact ⟨rfl, h⟩
    | cons x m =>
      simp only [List.cons_append, List.cons_prefix_cons, List.cons.injEq, ih m]
      constructor
      · rintro ⟨rfl, h | h | ⟨r, h, hr⟩⟩
        · exact .inl ⟨rfl, h⟩
        · exact .inr (.inl ⟨rfl, h⟩)
        · exact .inr (.inr ⟨r, ⟨rfl, h⟩, hr⟩)
      · rintro (⟨rfl, h⟩ | ⟨rfl, h⟩ | ⟨r, ⟨rfl, h⟩, hr⟩)
        · exact ⟨rfl, .inl h⟩
        · exact ⟨rfl, .inr (.inl h)⟩
        · exact ⟨rfl, .inr (.inr ⟨r, h, hr⟩)⟩

/-! ## Both kinds of prompts -/

/-- The messages of a chat prompt, each a mapping of texts. -/
abbrev ChatMessages := List (Dict String String)

/-- A text prompt or a chat prompt, which have keys of their own. -/
inductive PromptKind where
  | text
  | chat
  deriving DecidableEq

/-- What the keys of a kind start with, before the first colon. -/
def PromptKind.tag : PromptKind → String
  | .text => "text:"
  | .chat => "chat:"

/-- What is cached: a text or messages, by the kind of the prompt. -/
inductive PromptContent where
  | text (s : String)
  | messages (ms : ChatMessages)
  deriving DecidableEq

namespace PromptRef

/-- `str(version)`, which is `None` where there is none. -/
def versionText (p : PromptRef) : String := (p.version.map Int.repr).getD "None"

/-- `str(label)`, which is `None` where there is none. -/
def labelText (p : PromptRef) : String := p.label.getD "None"

/-- **The cache key**, `f"text:{name}:{version}:{label}"` or
`f"chat:{name}:{version}:{label}"`. -/
def keyOf (kind : PromptKind) (p : PromptRef) : String :=
  kind.tag ++ p.name ++ ":" ++ p.versionText ++ ":" ++ p.labelText

theorem keyOf_text (p : PromptRef) : p.keyOf .text = p.cacheKey := rfl

/-- A version has no colon, being the digits of a number or the word for none.
-/
theorem colon_notMem_versionText (p : PromptRef) : ':' ∉ p.versionText.toList := by
  unfold versionText
  cases p.version with
  | none => decide
  | some i => exact fun h => absurd (Json.int_repr_chars i ':' h) (by decide)

/-- **A name that shadows a prompt of another name**: the other name goes on
with a colon where the name ends, or the name is the other one with the
version behind it, and perhaps some of the label up to a colon. -/
def Shadows (name : String) (p : PromptRef) : Prop :=
  name.toList ++ [':'] <+: p.name.toList
    ∨ name.toList = p.name.toList ++ ':' :: p.versionText.toList
    ∨ ∃ r, name.toList = p.name.toList ++ ':' :: (p.versionText.toList ++ ':' :: r)
      ∧ r ++ [':'] <+: p.labelText.toList

/-- A name does not shadow its own prompts, so invalidating it is no surprise to
them. -/
theorem not_shadows_self (p : PromptRef) : ¬ Shadows p.name p := by
  have hlength : ∀ t : List Char, p.name.toList ≠ p.name.toList ++ ':' :: t := fun t h => by
    have := congrArg List.length h
    rw [List.length_append, List.length_cons] at this
    omega
  rintro (h | h | ⟨r, h, -⟩)
  · have := h.length_le
    rw [List.length_append, List.length_singleton] at this
    omega
  · exact hlength _ h
  · exact hlength _ h

/-- **Which keys are those of a name**: of either kind, for the name itself and
for what it shadows. -/
theorem isKeyOf_keyOf_iff (name : String) (kind : PromptKind) (p : PromptRef) :
    PromptManager.isKeyOf name (p.keyOf kind) = true ↔ p.name = name ∨ Shadows name p := by
  have hkey : ∀ kind : PromptKind, (p.keyOf kind).toList = kind.tag.toList
      ++ (p.name.toList ++ ':' :: (p.versionText.toList ++ ':' :: p.labelText.toList)) := by
    intro kind
    simp [keyOf, String.toList_append, List.append_assoc]
  have hcolon : ":".toList = [':'] := by decide
  have hsame : ∀ tag : String, ((tag ++ name ++ ":").toList.isPrefixOf (tag.toList
        ++ (p.name.toList ++ ':' :: (p.versionText.toList ++ ':' :: p.labelText.toList))) = true
      ↔ p.name = name ∨ Shadows name p) := by
    intro tag
    rw [List.isPrefixOf_iff_prefix, String.toList_append, String.toList_append, hcolon,
      List.append_assoc, List.prefix_append_right_inj, concat_prefix_append_cons_iff,
      String.toList_inj, eq_comm]
    refine or_congr Iff.rfl (or_congr Iff.rfl ⟨?_, ?_⟩)
    · rintro ⟨r, hr, hpre⟩
      rcases (concat_prefix_append_cons_iff ':' r _ _).mp hpre with rfl | hin | ⟨r', rfl, hpre'⟩
      · exact .inl hr
      · exact absurd (hin.subset (by simp)) p.colon_notMem_versionText
      · exact .inr ⟨r', hr, hpre'⟩
    · rintro (h | ⟨r, h, hpre⟩)
      · exact ⟨_, h, (concat_prefix_append_cons_iff ':' _ _ _).mpr (.inl rfl)⟩
      · exact ⟨_, h, (concat_prefix_append_cons_iff ':' _ _ _).mpr (.inr (.inr ⟨r, rfl, hpre⟩))⟩
  rw [PromptManager.isKeyOf, Bool.or_eq_true, hkey]
  cases kind with
  | text =>
    rw [show PromptKind.text.tag = "text:" from rfl, hsame, or_iff_left]
    rw [List.isPrefixOf_iff_prefix, String.toList_append, String.toList_append]
    exact fun h => absurd (List.cons_prefix_cons.mp h).1 (by decide)
  | chat =>
    rw [show PromptKind.chat.tag = "chat:" from rfl, hsame, or_iff_right]
    rw [List.isPrefixOf_iff_prefix, String.toList_append, String.toList_append]
    exact fun h => absurd (List.cons_prefix_cons.mp h).1 (by decide)

end PromptRef

/-! ## The manager -/

/-- **A `PromptManager` with prompts of both kinds**, in one cache. -/
structure FullPromptManager where
  ttlSeconds : ℚ
  hasLangfuse : Bool
  cache : Dict String (PromptContent × ℚ) := []

namespace FullPromptManager

/-- `_is_cached_valid`, and what is read of the cache when it is so. -/
def cachedValid? (pm : FullPromptManager) (key : String) (now : ℚ) : Option PromptContent :=
  match pm.cache.get? key with
  | none => none
  | some (content, timestamp) => if now - timestamp < pm.ttlSeconds then some content else none

/-- **What `get_prompt` and `get_chat_prompt` have in common**: a live entry is
returned as it is, and nothing is stored; otherwise `fetched` is. -/
def ask (pm : FullPromptManager) (key : String) (fetched : PromptContent) (checked stored : ℚ) :
    PromptContent × FullPromptManager :=
  match pm.cachedValid? key checked with
  | some content => (content, pm)
  | none => (fetched, { pm with cache := pm.cache.set key (fetched, stored) })

/-- `get_prompt`. The reply is `none` when the client raises. -/
def getPrompt (pm : FullPromptManager) (p : PromptRef) (fallback reply : Option String)
    (checked stored : ℚ) : PromptContent × FullPromptManager :=
  pm.ask (p.keyOf .text)
    (.text (if pm.hasLangfuse then reply.getD (fallback.getD "") else fallback.getD ""))
    checked stored

/-- `get_chat_prompt`. The reply is `none` when the client raises, or returns
what has no `compile`. -/
def getChatPrompt (pm : FullPromptManager) (p : PromptRef) (fallback reply : Option ChatMessages)
    (checked stored : ℚ) : PromptContent × FullPromptManager :=
  pm.ask (p.keyOf .chat)
    (.messages (if pm.hasLangfuse then reply.getD (fallback.getD []) else fallback.getD []))
    checked stored

/-- **`invalidate_cache`**: everything, or the entries whose keys begin as those
of a name do. -/
def invalidateCache (pm : FullPromptManager) : Option String → FullPromptManager
  | none => { pm with cache := [] }
  | some name => { pm with cache := pm.cache.filter (fun e => !PromptManager.isKeyOf name e.1) }

/-- What an invalidation of a name leaves: every entry whose key does not begin
as the keys of that name do. -/
theorem get?_invalidateCache (pm : FullPromptManager) (name key : String) :
    (pm.invalidateCache (some name)).cache.get? key
      = if PromptManager.isKeyOf name key then none else pm.cache.get? key := by
  show Dict.get? (pm.cache.filter (fun e => !PromptManager.isKeyOf name e.1)) key = _
  rw [show Dict.get? (pm.cache.filter (fun e => !PromptManager.isKeyOf name e.1)) key = _ from
    Dict.get?_filter pm.cache (fun k => !PromptManager.isKeyOf name k) key]
  cases PromptManager.isKeyOf name key <;> rfl

end FullPromptManager

/-! ## With text prompts alone -/

/-- A manager of text prompts, as one of both kinds. -/
def PromptManager.toFull (pm : PromptManager) : FullPromptManager where
  ttlSeconds := pm.ttlSeconds
  hasLangfuse := pm.hasLangfuse
  cache := pm.cache.map (fun e => (e.1, (.text e.2.1, e.2.2)))

/-- A reading of the cache, and of its image. -/
theorem PromptManager.get?_cache_toFull (pm : PromptManager) (key : String) :
    pm.toFull.cache.get? key = (pm.cache.get? key).map (fun e => (.text e.1, e.2)) := by
  show Dict.get? (pm.cache.map (fun e => (e.1, (PromptContent.text e.2.1, e.2.2)))) key = _
  induction pm.cache with
  | nil => rfl
  | cons e d ih =>
    rw [List.map_cons, Dict.get?_cons, Dict.get?_cons, ih]
    split <;> rfl

/-- What is written into the cache, and into its image. -/
theorem PromptManager.map_set_cache (d : Dict String (String × ℚ)) (key text : String) (t : ℚ) :
    (d.set key (text, t)).map (fun e => (e.1, (PromptContent.text e.2.1, e.2.2)))
      = Dict.set (d.map (fun e => (e.1, (PromptContent.text e.2.1, e.2.2)))) key
        (.text text, t) := by
  induction d with
  | nil => rfl
  | cons e d ih =>
    by_cases h : e.1 = key
    · simp [Dict.set, h]
    · simp [Dict.set, h, ih]

/-- **The manager of text prompts is this one, as long as only texts are asked
for.** -/
theorem PromptManager.getPrompt_toFull (pm : PromptManager) (c : PromptCall)
    (reply : Option String) (checked stored : ℚ) :
    pm.toFull.getPrompt c.prompt c.fallback reply checked stored
      = (.text (pm.getPrompt c reply checked stored).1,
        (pm.getPrompt c reply checked stored).2.toFull) := by
  have hget := pm.get?_cache_toFull c.prompt.cacheKey
  have hfetched : (if pm.toFull.hasLangfuse then reply.getD (c.fallback.getD "")
      else c.fallback.getD "") = pm.fetched c reply := rfl
  have hstored : ∀ text, { pm.toFull with
        cache := pm.toFull.cache.set c.prompt.cacheKey (.text text, stored) }
      = ({ pm with
          cache := pm.cache.set c.prompt.cacheKey (text, stored) } : PromptManager).toFull :=
    fun text => congrArg (fun d => { pm.toFull with cache := d })
      (PromptManager.map_set_cache pm.cache c.prompt.cacheKey text stored).symm
  have httl : pm.toFull.ttlSeconds = pm.ttlSeconds := rfl
  rw [FullPromptManager.getPrompt, PromptRef.keyOf_text, hfetched, FullPromptManager.ask,
    FullPromptManager.cachedValid?, PromptManager.getPrompt, PromptManager.isCachedValid, hget]
  cases pm.cache.get? c.prompt.cacheKey with
  | none => exact congrArg (Prod.mk _) (hstored _)
  | some e =>
    by_cases hlive : checked - e.2 < pm.ttlSeconds
    · simp [httl, hlive]
    · simp only [Option.map_some, httl, hlive, if_false, decide_false, Bool.false_eq_true]
      exact congrArg (Prod.mk _) (hstored _)

/-! ## The calls on one manager -/

/-- A manager in use, with the call that stored what is under each key. -/
structure PromptCacheState where
  manager : FullPromptManager
  storedBy : Dict String (PromptKind × PromptRef) := []

/-- **The calls**, with what Langfuse would reply and the readings of the
clock. -/
inductive PromptCacheEvent where
  | getPrompt (p : PromptRef) (fallback reply : Option String) (checked stored : ℚ)
  | getChatPrompt (p : PromptRef) (fallback reply : Option ChatMessages) (checked stored : ℚ)
  | invalidateCache (name : Option String)

namespace PromptCacheState

/-- Who has stored what after a call for a prompt. -/
def record (s : PromptCacheState) (kind : PromptKind) (p : PromptRef) (checked : ℚ) :
    Dict String (PromptKind × PromptRef) :=
  match s.manager.cachedValid? (p.keyOf kind) checked with
  | some _ => s.storedBy
  | none => s.storedBy.set (p.keyOf kind) (kind, p)

/-- One call, which cannot be refused, since the manager waits for nobody. -/
def step (s : PromptCacheState) : PromptCacheEvent → PromptCacheState
  | .getPrompt p fallback reply checked stored =>
    { manager := (s.manager.getPrompt p fallback reply checked stored).2
      storedBy := s.record .text p checked }
  | .getChatPrompt p fallback reply checked stored =>
    { manager := (s.manager.getChatPrompt p fallback reply checked stored).2
      storedBy := s.record .chat p checked }
  | .invalidateCache name => { s with manager := s.manager.invalidateCache name }

/-- **The machine of the calls on a manager**, one after the other. -/
def machine : Machine PromptCacheState PromptCacheEvent := ⟨fun s a => some (step s a)⟩

/-- A manager that has just been built, with nothing in its cache. -/
def fresh (ttlSeconds : ℚ) (hasLangfuse : Bool) : PromptCacheState :=
  { manager := { ttlSeconds := ttlSeconds, hasLangfuse := hasLangfuse } }

/-- The name an entry was stored for, which its key alone does not always tell.
-/
def storedFor (s : PromptCacheState) (key : String) : Option String :=
  (s.storedBy.get? key).map (fun call => call.2.name)

/-- **What `invalidate_cache(name)` is to do**: what was stored for the name is
gone, and every other entry is as before. -/
def InvalidatesOwn (s : PromptCacheState) (name : String) : Prop :=
  ∀ key, (s.manager.invalidateCache (some name)).cache.get? key
    = if s.storedFor key = some name then none else s.manager.cache.get? key

/-- The cache has an entry that was stored for a prompt. -/
def Holds (s : PromptCacheState) (p : PromptRef) : Prop :=
  ∃ key entry kind, s.manager.cache.get? key = some entry ∧ s.storedBy.get? key = some (kind, p)

/-- **The invariant**: what is in the cache was stored by a call, and is under
the key of that call. -/
def Inv (s : PromptCacheState) : Prop :=
  ∀ key entry, s.manager.cache.get? key = some entry →
    ∃ kind p, s.storedBy.get? key = some (kind, p) ∧ p.keyOf kind = key

variable {s s' : PromptCacheState}

theorem inv_fresh (ttlSeconds : ℚ) (hasLangfuse : Bool) : (fresh ttlSeconds hasLangfuse).Inv :=
  fun _ _ h => by cases h

/-- Asking for a prompt of either kind keeps the invariant. -/
theorem inv_ask (h : s.Inv) (kind : PromptKind) (p : PromptRef) (fetched : PromptContent)
    (checked stored : ℚ) :
    Inv { manager := (s.manager.ask (p.keyOf kind) fetched checked stored).2
          storedBy := s.record kind p checked } := by
  intro key entry hget
  cases hvalid : s.manager.cachedValid? (p.keyOf kind) checked with
  | some content =>
    simp only [FullPromptManager.ask, hvalid] at hget
    simp only [record, hvalid]
    exact h key entry hget
  | none =>
    simp only [FullPromptManager.ask, hvalid] at hget
    simp only [record, hvalid]
    by_cases hkey : key = p.keyOf kind
    · exact ⟨kind, p, hkey ▸ Dict.get?_set_self _ _ _, hkey.symm⟩
    · rw [Dict.get?_set_of_ne _ _ hkey] at hget ⊢
      exact h key entry hget

/-- **Every call keeps the invariant.** Entries are stored under the key of the
prompt they are for, and removing some leaves the others. -/
theorem inv_step (h : s.Inv) (a : PromptCacheEvent) : (step s a).Inv := by
  cases a with
  | getPrompt p fallback reply checked stored => exact inv_ask h .text p _ checked stored
  | getChatPrompt p fallback reply checked stored => exact inv_ask h .chat p _ checked stored
  | invalidateCache name =>
    intro key entry hget
    cases name with
    | none => cases hget
    | some name =>
      rw [show (step s (.invalidateCache (some name))).manager.cache.get? key = _ from
        s.manager.get?_invalidateCache name key] at hget
      exact h key entry (Option.ite_none_left_eq_some.mp hget).2

/-- **Every run does**, from a manager that has stored nothing. -/
theorem inv_of_run {ttlSeconds : ℚ} {hasLangfuse : Bool} {as : List PromptCacheEvent}
    (h : machine.run (fresh ttlSeconds hasLangfuse) as = some s) : s.Inv :=
  machine.run_invariant
    (fun s a s' hI hstep => by
      obtain rfl := Option.some.inj hstep
      exact inv_step hI a)
    (inv_fresh ttlSeconds hasLangfuse) h

/-- What is removed of an entry: what was stored for the name, and for what it
shadows. -/
theorem isKeyOf_iff_of_inv {name key : String} {kind : PromptKind} {p : PromptRef}
    (hp : s.storedBy.get? key = some (kind, p)) (hkey : p.keyOf kind = key) :
    PromptManager.isKeyOf name key = true
      ↔ s.storedFor key = some name ∨ PromptRef.Shadows name p := by
  have hfor : s.storedFor key = some p.name := by rw [storedFor, hp]; rfl
  rw [← hkey, PromptRef.isKeyOf_keyOf_iff, hkey, hfor, Option.some_inj]

/-- **What is stored for the name is removed**, in any case. -/
theorem get?_invalidateCache_of_storedFor (h : s.Inv) {name key : String}
    (hfor : s.storedFor key = some name) :
    (s.manager.invalidateCache (some name)).cache.get? key = none := by
  rw [FullPromptManager.get?_invalidateCache]
  cases hget : s.manager.cache.get? key with
  | none => exact ite_self none
  | some entry =>
    obtain ⟨kind, p, hp, hkey⟩ := h key entry hget
    rw [if_pos ((isKeyOf_iff_of_inv hp hkey).mpr (.inl hfor))]

/-- **When an invalidation removes what it is to remove, and no more.** In
every cache that calls can build it does so exactly when the name shadows no
prompt the cache has an entry of. -/
theorem invalidatesOwn_iff {ttlSeconds : ℚ} {hasLangfuse : Bool} {as : List PromptCacheEvent}
    {s : PromptCacheState} (hrun : machine.run (fresh ttlSeconds hasLangfuse) as = some s)
    (name : String) :
    s.InvalidatesOwn name ↔ ∀ p, s.Holds p → ¬ PromptRef.Shadows name p := by
  have hinv : s.Inv := inv_of_run hrun
  constructor
  · rintro h p ⟨key, entry, kind, hget, hp⟩ hshadows
    obtain ⟨kind', p', hp', hkey⟩ := hinv key entry hget
    obtain ⟨rfl, rfl⟩ := Prod.mk.inj (Option.some.inj (hp.symm.trans hp'))
    have hother : s.storedFor key ≠ some name := fun hfor => by
      rw [storedFor, hp, Option.map_some, Option.some_inj] at hfor
      exact p.not_shadows_self (hfor ▸ hshadows)
    have hkeep := h key
    rw [FullPromptManager.get?_invalidateCache, if_neg hother,
      if_pos ((isKeyOf_iff_of_inv hp hkey).mpr (.inr hshadows)), hget] at hkeep
    cases hkeep
  · intro h key
    by_cases hfor : s.storedFor key = some name
    · rw [if_pos hfor, get?_invalidateCache_of_storedFor hinv hfor]
    · rw [if_neg hfor, FullPromptManager.get?_invalidateCache]
      cases hget : s.manager.cache.get? key with
      | none => exact ite_self none
      | some entry =>
        obtain ⟨kind, p, hp, hkey⟩ := hinv key entry hget
        refine if_neg (fun hkeyOf => ?_)
        rcases (isKeyOf_iff_of_inv hp hkey).mp hkeyOf with hown | hshadows
        · exact hfor hown
        · exact h p ⟨key, entry, kind, hget, hp⟩ hshadows

/-- A prompt of a name, with no version and no label. -/
def plain (name : String) : PromptRef := ⟨name, none, none⟩

/-- Two prompts are stored, one a text and the other messages. -/
def storeBoth (name name' : String) : List PromptCacheEvent :=
  [.getPrompt (plain name) none (some "A") 0 0, .getChatPrompt (plain name') none (some []) 1 1]

/-- **A prompt in a namespace goes with the prompt the namespace is called
after.** -/
theorem not_invalidatesOwn_support :
    ∃ s, machine.run (fresh 300 true) (storeBoth "support" "support:eu") = some s
      ∧ ¬ s.InvalidatesOwn "support" := by
  refine ⟨_, rfl, fun h => ?_⟩
  have hkeep := h "chat:support:eu:None:None"
  revert hkeep
  decide +kernel

/-- Two names that have nothing to do with each other. -/
theorem invalidatesOwn_support :
    ∃ s, machine.run (fresh 300 true) (storeBoth "support" "sales") = some s
      ∧ s.InvalidatesOwn "support" := by
  refine ⟨_, rfl, (invalidatesOwn_iff (show machine.run (fresh 300 true)
    (storeBoth "support" "sales") = some _ from rfl) "support").mpr ?_⟩
  rintro p ⟨key, entry, kind, -, hp⟩
  have hmem : (kind, p) ∈ [(PromptKind.text, plain "support"), (.chat, plain "sales")] :=
    List.mem_map_of_mem (f := Prod.snd) (Dict.mem_of_get? hp)
  rcases List.mem_pair.mp hmem with h | h <;> obtain ⟨-, rfl⟩ := Prod.mk.inj h
  · exact (plain "support").not_shadows_self
  · rintro (hpre | heq | ⟨r, heq, -⟩)
    · exact absurd hpre (by decide)
    · exact absurd (congrArg (fun cs => cs[1]?) heq) (by decide)
    · exact absurd (congrArg (fun cs => cs[1]?) heq) (by simp [plain])

end PromptCacheState
