import PlatformSdk.Cache

/-!
# A cached tool is the tool

For tools that read no identity, a call of the wrapped tool should be a call
of the tool: the same value, whatever the other calls do, whatever Redis
loses, delays or refuses, and whenever the circuit opens. `cachedTool_refines`
proves it for the runs in which no call passes an argument named `fn` or one
that has no text, and in which `is_error_response` can read what the tools
return – and that each call comes to its end, from whatever state the others
have left it in.

All three conditions are needed. Without the first two tools get one key for
the arguments `{"fn": ...}`, and `not_transparent_fn` is a run in which one
tool answers with the value of another. Without the second `make_cache_key`
raises before the cache is asked (`not_transparent_tooManyDigits`), and
without the third `is_error_response` raises after the tool has returned
(`not_transparent_raises`); with either of them raises the call.
-/

/-- A call that has started and not raised. -/
def Phase.isLive : Phase → Bool
  | .idle | .raised _ => false
  | _ => true

namespace CacheState

variable {τ : Type}

/-- **Transparency**: what a call has returned is what the unwrapped tool
returns, and no call has raised. -/
def Transparent (tools : Tools τ Unit) (t : CacheState τ Unit) : Prop :=
  ∀ i r, t.requests i = some r →
    (∀ v, t.phase i = .returned v → v = tools.result r) ∧ ∀ exc, t.phase i ≠ .raised exc

/-- **The calls that keep clear of the three defects**: no argument is named
`fn`, none holds an integer of more than 4300 digits, and `is_error_response`
does not raise on the result of the tool. -/
def Regular (tools : Tools τ Unit) (loads : String → Except PyExc Json) (r : Request τ Unit) :
    Prop :=
  "fn" ∉ r.kwargs.names ∧ Json.isTooLong (.map r.kwargs.entries) = false
    ∧ ∃ b, isErrorResponse loads (tools.result r) = .ok b

/-- Every call of the run that starts is regular. -/
def RegularRun (tools : Tools τ Unit) (loads : String → Except PyExc Json)
    (as : List (CacheEvent τ Unit)) : Prop :=
  ∀ i r, .start i r ∈ as → Regular tools loads r

section Calls

variable {tools : Tools τ Unit} {sha256 : List UInt8 → List UInt8}
variable {loads : String → Except PyExc Json} {s s' : CacheState τ Unit}

/-! ## No call raises -/

/-- **The second invariant**: `is_error_response` can read what the calls
compute, and every call that has started is live. -/
structure Quiet (tools : Tools τ Unit) (loads : String → Except PyExc Json)
    (s : CacheState τ Unit) : Prop where
  checked : ∀ i r, s.requests i = some r → ∃ b, isErrorResponse loads (tools.result r) = .ok b
  live : ∀ i r, s.requests i = some r → (s.phase i).isLive = true

/-- A call may move on to any live phase. -/
theorem Quiet.goto (h : Quiet tools loads s) {i : ℕ} {p : Phase} (hp : p.isLive = true) :
    Quiet tools loads (s.goto i p) := by
  exact ⟨h.checked, forall_calls_goto (P := fun _ p => p.isLive = true) h.live fun _ _ => hp⟩

/-- The breaker has no part in it. -/
theorem Quiet.recordSuccess (h : Quiet tools loads s) : Quiet tools loads s.recordSuccess :=
  ⟨h.checked, h.live⟩

theorem Quiet.recordFailure (h : Quiet tools loads s) : Quiet tools loads s.recordFailure :=
  ⟨h.checked, h.live⟩

/-- A call with a key starts alive. -/
theorem isLive_firstPhase (sha256 : List UInt8 → List UInt8) (s : CacheState τ Unit)
    {r : Request τ Unit} (hr : Regular tools loads r) :
    (s.firstPhase tools sha256 r).isLive = true := by
  have hkey : tools.makeKey sha256 r = .ok (tools.key sha256 r) :=
    makeCacheKey_eq_ok hr.1 hr.2.1 _
  rcases firstPhase_of_key tools sha256 s hkey with h | h <;> rw [h] <;> rfl

/-- A regular call starts quietly: it can be given a key, and its tool returns
what `is_error_response` can read. -/
theorem Quiet.start (h : Quiet tools loads s) {i : ℕ} {r : Request τ Unit}
    (hr : Regular tools loads r) : Quiet tools loads (s.start tools sha256 i r) := by
  exact
    { checked := forall_calls_start
        (P := fun r' _ => ∃ b, isErrorResponse loads (tools.result r') = .ok b) h.checked hr.2.2
      live := forall_calls_start (P := fun _ p => p.isLive = true) h.live
        (isLive_firstPhase sha256 s hr) }

/-- **What comes after the tool**: the call returns its result, or sends it to
Redis first. -/
theorem finish_cases (sha256 : List UInt8 → List UInt8) (s : CacheState τ Unit) {b : Bool}
    {r : Request τ Unit}
    (hb : isErrorResponse loads (tools.result r) = .ok b) (i : ℕ) :
    s.finish tools sha256 loads i r = s.goto i (.returned (tools.result r))
      ∨ s.finish tools sha256 loads i r
        = s.sendSet i (tools.key sha256 r) (tools.result r) := by
  unfold CacheState.finish
  rw [hb]
  split
  · exact .inl rfl
  · cases b with
    | true => exact .inl rfl
    | false =>
      show (if _ then _ else _) = _ ∨ (if _ then _ else _) = _
      split
      · exact .inl rfl
      · exact .inr rfl

/-- The result of a regular call raises nothing. -/
theorem Quiet.finish (h : Quiet tools loads s) {i : ℕ} {r : Request τ Unit}
    (hr : s.requests i = some r) : Quiet tools loads (s.finish tools sha256 loads i r) := by
  obtain ⟨b, hb⟩ := h.checked i r hr
  rcases finish_cases sha256 s hb i with hf | hf
  · rw [hf]
    exact h.goto rfl
  · rw [hf]
    have hgoto : Quiet tools loads (s.goto i (.setting (tools.result r))) := h.goto rfl
    exact ⟨hgoto.checked, hgoto.live⟩

/-- Every step of a regular run is quiet: the calls that start are regular, and
no step makes one raise. -/
theorem quiet_step {a : CacheEvent τ Unit} (h : Quiet tools loads s)
    (ha : ∀ i r, a = .start i r → Regular tools loads r)
    (hstep : step tools sha256 loads s a = some s') : Quiet tools loads s' := by
  cases moves_of_step hstep with
  | tick d => exact ⟨h.checked, h.live⟩
  | expire key => exact ⟨h.checked, h.live⟩
  | start hi => exact h.start (ha _ _ rfl)
  | serveGet hr => exact h.goto rfl
  | hit hp => exact h.recordSuccess.goto rfl
  | miss => exact h.recordSuccess.goto rfl
  | getFailed => exact h.recordFailure.goto rfl
  | finish hr => exact h.finish hr
  | applySet hredis => exact ⟨h.checked, h.live⟩
  | stored hp => exact h.recordSuccess.goto rfl
  | setFailed hp => exact h.recordFailure.goto rfl

theorem quiet_run {cache : Option ToolResultCache} {now : ℚ} {as : List (CacheEvent τ Unit)}
    (has : RegularRun tools loads as) {t : CacheState τ Unit}
    (hrun : (machine tools sha256 loads).run { cache := cache, now := now } as = some t) :
    Quiet tools loads t := by
  have hinit : Quiet tools loads ({ cache := cache, now := now } : CacheState τ Unit) :=
    { checked := fun _ _ h => by cases h
      live := fun _ _ h => by cases h }
  exact (machine tools sha256 loads).run_invariant_of_forall
    (fun _ _ _ h ha hstep => quiet_step h ha hstep) hinit
    (fun _ ha i r hstart => has i r (hstart ▸ ha)) hrun

/-! ## Every call comes to its end -/

/-- **The call can come to its end**: some events, none of them a new call,
take it to its return. -/
def CanReturn (tools : Tools τ Unit) (sha256 : List UInt8 → List UInt8)
    (loads : String → Except PyExc Json) (s : CacheState τ Unit) (i : ℕ) : Prop :=
  ∃ bs t v, (∀ j r, .start j r ∉ bs) ∧ (machine tools sha256 loads).run s bs = some t
    ∧ t.requests = s.requests ∧ t.phase i = .returned v

/-- One more event in front of those with which a call comes to its end. It
starts no call, and leaves the requests as they are. -/
theorem CanReturn.cons {a : CacheEvent τ Unit} {i : ℕ} (ha : ∀ j r, a ≠ .start j r)
    (hstep : step tools sha256 loads s a = some s') (hreq : s'.requests = s.requests)
    (h : CanReturn tools sha256 loads s' i) : CanReturn tools sha256 loads s i := by
  obtain ⟨bs, t, v, hbs, hrun, hreq', hv⟩ := h
  refine ⟨a :: bs, t, v, fun j r hmem => ?_, ?_, hreq'.trans hreq, hv⟩
  · rcases List.mem_cons.mp hmem with heq | hmem
    · exact ha j r heq.symm
    · exact hbs j r hmem
  · exact (machine tools sha256 loads).run_cons_eq_some.mpr ⟨s', hstep, hrun⟩

/-- A call that has returned is at its end. -/
theorem canReturn_of_returned {i : ℕ} {v : String} (h : s.phase i = .returned v) :
    CanReturn tools sha256 loads s i :=
  ⟨[], s, v, fun _ _ => List.not_mem_nil, rfl, rfl, h⟩

/-- A failing `SETEX` is no obstacle, since `set` logs what Redis raises and the
call returns the result it has. -/
theorem canReturn_of_setting {i : ℕ} {result : String} (h : s.phase i = .setting result) :
    CanReturn tools sha256 loads s i := by
  have hstep : step tools sha256 loads s (.resumeSet i false)
      = some (s.recordFailure.goto i (.returned result)) := by
    simp only [step, h]
  exact .cons (fun _ _ h => by cases h) hstep rfl (canReturn_of_returned (goto_phase_self ..))

/-- Neither is the tool, which is a function of its arguments and has its result
as soon as it is asked. -/
theorem canReturn_of_running (hq : Quiet tools loads s) {i : ℕ} {r : Request τ Unit}
    (hr : s.requests i = some r) (h : s.phase i = .running) :
    CanReturn tools sha256 loads s i := by
  have hstep : step tools sha256 loads s (.finish i)
      = some (s.finish tools sha256 loads i r) := by
    simp only [step, hr, h]
  obtain ⟨b, hb⟩ := hq.checked i r hr
  rcases finish_cases sha256 s hb i with hf | hf
  · rw [hf] at hstep
    exact .cons (fun _ _ h => by cases h) hstep rfl
      (canReturn_of_returned (goto_phase_self ..))
  · rw [hf] at hstep
    exact .cons (fun _ _ h => by cases h) hstep rfl
      (canReturn_of_setting (Function.update_self ..))

/-- **No call is ever stuck**: whatever Redis does to it, it can come to its
end. -/
theorem canReturn (sha256 : List UInt8 → List UInt8) (hq : Quiet tools loads s) {i : ℕ}
    {r : Request τ Unit} (hr : s.requests i = some r) : CanReturn tools sha256 loads s i := by
  have hlive : (s.phase i).isLive = true := hq.live i r hr
  cases hp : s.phase i with
  | idle =>
    rw [hp] at hlive
    cases hlive
  | getting reply =>
    have hstep : step tools sha256 loads s (.resumeGet i false)
        = some (s.recordFailure.goto i .running) := by
      simp only [step, hp]
    have hq' : Quiet tools loads (s.recordFailure.goto i .running) := hq.recordFailure.goto rfl
    exact .cons (fun _ _ h => by cases h) hstep rfl
      (canReturn_of_running hq' hr (goto_phase_self ..))
  | running => exact canReturn_of_running hq hr hp
  | setting result => exact canReturn_of_setting hp
  | returned v => exact canReturn_of_returned hp
  | raised exc =>
    rw [hp] at hlive
    cases hlive

/-! ## Transparency -/

/-- A regular run is transparent: what a hit returns was stored under the key of
the call, and one key is one tool and one mapping of arguments. -/
theorem transparent_run (hsha : Function.Injective sha256) {cache : Option ToolResultCache}
    {now : ℚ} {as : List (CacheEvent τ Unit)} (has : RegularRun tools loads as)
    {t : CacheState τ Unit}
    (hrun : (machine tools sha256 loads).run { cache := cache, now := now } as = some t) :
    Transparent tools t := by
  have hinv : Inv tools sha256 t := inv_run hsha (fun i r h => (has i r h).1) hrun
  have hquiet : Quiet tools loads t := quiet_run has hrun
  refine fun i r hr => ⟨fun v hv => ?_, fun exc hexc => ?_⟩
  · have hvalue : (t.phase i).value? = some v := by rw [hv]; rfl
    obtain ⟨j, r', -, -, -, rfl⟩ := hinv.produced hr hvalue
    -- there is one identity, so that the value another call produced is this call's own
    rfl
  · have hlive : (t.phase i).isLive = true := hquiet.live i r hr
    rw [hexc] at hlive
    cases hlive

/-- **A cached tool is the tool.** In every run of regular calls on one cache,
whatever becomes of their `GET`s and `SETEX`s, every call that has ended has
returned what the unwrapped tool returns, and every other call can still come
to its end, with that value. -/
theorem cachedTool_refines (tools : Tools τ Unit) (hsha : Function.Injective sha256)
    (loads : String → Except PyExc Json) (cache : Option ToolResultCache) (now : ℚ)
    (as : List (CacheEvent τ Unit)) (has : RegularRun tools loads as) (t : CacheState τ Unit)
    (hrun : (machine tools sha256 loads).run { cache := cache, now := now } as = some t) :
    Transparent tools t
      ∧ ∀ i r, t.requests i = some r →
        ∃ bs t', (∀ j r', .start j r' ∉ bs) ∧ (machine tools sha256 loads).run t bs = some t'
          ∧ t'.phase i = .returned (tools.result r) := by
  refine ⟨transparent_run hsha has hrun, fun i r hr => ?_⟩
  obtain ⟨bs, t', v, hbs, hrun', hreq, hv⟩ :=
    canReturn sha256 (quiet_run has hrun) hr
  have hall : (machine tools sha256 loads).run { cache := cache, now := now } (as ++ bs)
      = some t' := by
    rw [Machine.run_append, hrun]
    exact hrun'
  have hreg : RegularRun tools loads (as ++ bs) := fun j r' hmem =>
    (List.mem_append.mp hmem).elim (has j r') fun h => absurd h (hbs j r')
  have hv' : v = tools.result r :=
    (transparent_run hsha hreg hall i r (hreq ▸ hr)).1 v hv
  exact ⟨bs, t', hbs, hrun', hv' ▸ hv⟩

end Calls

/-! ## Two tools -/

/-- Two tools, each telling its name and its arguments. -/
def twoTools : Tools Bool Unit where
  name t := if t then "search" else "lookup"
  fn t _ k := (if t then "search " else "lookup ") ++ Json.dumpsSorted (.map k.entries)
  name_injective := by
    intro t₁ t₂
    cases t₁ <;> cases t₂ <;> decide
  fn_congr t _ k₁ k₂ h := congrArg (_ ++ ·) (congrArg Json.dumps h)

/-- The arguments `{name: value}`. -/
def oneArgument (name value : String) : Kwargs where
  entries := [(name, Json.str value)]
  nodup := List.nodup_singleton _

/-- A call of one of the tools. -/
def callOf (t : Bool) (name value : String) : Request Bool Unit :=
  ⟨t, (), oneArgument name value⟩

/-- **A tool asked twice for the same** answers the second time from the
cache, with its own value. -/
theorem cachedTool_refines_twice :
    ∃ t, (machine twoTools id findsNoJson).run { cache := some freshCache, now := 0 }
        (missThenAsk (callOf true "query" "q") (callOf true "query" "q")) = some t
      ∧ Transparent twoTools t := by
  have hok : isErrorResponse findsNoJson (twoTools.result (callOf true "query" "q"))
      = .ok false := by decide +kernel
  have hreg : RegularRun twoTools findsNoJson
      (missThenAsk (callOf true "query" "q") (callOf true "query" "q")) := by
    intro i r h
    have hr : r = callOf true "query" "q" := by
      simp [missThenAsk] at h
      rcases h with ⟨-, h⟩ | ⟨-, h⟩ <;> exact h
    subst hr
    exact ⟨by decide, by decide, false, hok⟩
  have hkey : twoTools.makeKey id (callOf true "query" "q")
      = .ok (twoTools.key id (callOf true "query" "q")) := rfl
  obtain ⟨t, hrun, -⟩ := run_missThenAsk id hkey hkey hok
  exact ⟨t, hrun, (cachedTool_refines twoTools Function.injective_id findsNoJson _ _ _ hreg t
    hrun).1⟩

/-- **An argument named `fn` lets one tool answer for another**: `search`
called with `{"fn": "q"}` returns what `lookup` returned for it. -/
theorem not_transparent_fn :
    ∃ t, (machine twoTools id findsNoJson).run { cache := some freshCache, now := 0 }
        (missThenAsk (callOf false "fn" "q") (callOf true "fn" "q")) = some t
      ∧ ¬ Transparent twoTools t := by
  have hkey : twoTools.makeKey id (callOf true "fn" "q")
      = .ok (twoTools.key id (callOf false "fn" "q")) :=
    congrArg Except.ok (cacheKey_of_fn (by decide) "search" "lookup")
  have hok : isErrorResponse findsNoJson (twoTools.result (callOf false "fn" "q"))
      = .ok false := by decide +kernel
  obtain ⟨t, hrun, hreq, hphase⟩ := run_missThenAsk id rfl hkey hok
  refine ⟨t, hrun, fun h => ?_⟩
  have hne : twoTools.result (callOf false "fn" "q") ≠ twoTools.result (callOf true "fn" "q") := by
    decide +kernel
  exact hne ((h 1 _ hreq).1 _ hphase)

/-- **A result `is_error_response` cannot read raises**, where the tool would
have returned it. -/
theorem not_transparent_raises {τ : Type} {tools : Tools τ Unit}
    {sha256 : List UInt8 → List UInt8} {loads : String → Except PyExc Json} {r : Request τ Unit}
    {exc : PyExc} {key : String} (hkey : tools.makeKey sha256 r = .ok key)
    (h : isErrorResponse loads (tools.result r) = .error exc) :
    ∃ t, (machine tools sha256 loads).run { cache := some { redis := false }, now := 0 }
        [.start 0 r, .finish 0] = some t ∧ ¬ Transparent tools t := by
  let t : CacheState τ Unit :=
    (CacheState.start tools sha256 { cache := some { redis := false }, now := 0 } 0 r).goto 0
      (.raised exc)
  refine ⟨t, ?_, fun ht => ?_⟩
  · simp [t, machine, step, start, firstPhase, finish, ToolResultCache.isBypassed, hkey, h]
  · have hreq : t.requests 0 = some r := rfl
    exact (ht 0 r hreq).2 exc (goto_phase_self ..)

/-- **An integer of too many digits raises** before the cache is asked: `search`
called with `{"n": 10**4300}`. -/
theorem not_transparent_tooManyDigits :
    ∃ t, (machine twoTools id findsNoJson).run { cache := some freshCache, now := 0 }
        [.start 0 ⟨true, (), ⟨[("n", Json.int (10 ^ 4300))], List.nodup_singleton _⟩⟩] = some t
      ∧ t.phase 0 = .raised .tooManyDigits ∧ ¬ Transparent twoTools t := by
  let r : Request Bool Unit :=
    ⟨true, (), ⟨[("n", Json.int (10 ^ 4300))], List.nodup_singleton _⟩⟩
  have hlong : (keyPayload (twoTools.name r.tool) r.kwargs).isTooLong = true := by decide +kernel
  have hkey : twoTools.makeKey id r = .error .tooManyDigits := by
    rw [Tools.makeKey, makeCacheKey, hlong, if_pos rfl]
  let t : CacheState Bool Unit :=
    CacheState.start twoTools id { cache := some freshCache, now := 0 } 0 r
  have hphase : t.phase 0 = .raised .tooManyDigits := by
    show (CacheState.start twoTools id _ 0 r).phase 0 = _
    rw [start_phase_self, firstPhase, hkey]
  have hreq : t.requests 0 = some r := rfl
  exact ⟨t, rfl, hphase, fun h => (h 0 r hreq).2 _ hphase⟩

end CacheState
