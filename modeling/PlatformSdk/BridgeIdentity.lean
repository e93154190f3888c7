import PlatformSdk.BridgeLoop
import PlatformSdk.JwtIdentity

/-!
# Whose calls a bridge makes

A bridge signs the context of its agent for the server, and the server reads it
back from the `X-Agent-Context` header of every request. The header is made
once, where `_reconnect_loop` begins, and every connection of that loop sends it
again. The secrets are rotated meanwhile, on either side.

`identity_of_run` follows the header through a run. However often a loop has
lost its connection and opened another, the server sees the agent as long as it
accepts the secret the loop *began* with, which is the one of its own
generation or of the one before; and from then on it sees nobody, until the
bridge is connected anew.

That `sse_client` sends the headers it is given with every request of its
session is part of the MCP client and not of this repository.
-/

namespace BridgeLoop

/-- A loop that has begun and is not over. -/
def Phase.running : Phase → Bool
  | .absent | .pending | .done _ => false
  | _ => true

theorem running_of_inSession {p : Phase} (h : p.inSession = true) : p.running = true := by
  cases p <;> first | rfl | cases h

/-- An event of the bridge itself moves no loop, but for the one it makes. -/
theorem loop_of_step {s s' : State} {e : Event} (he : e.loop? = none)
    (hstep : step s e = some s') (k : ℕ) : s'.loop k = s.loop k ∨ (s'.loop k).phase = .pending := by
  cases e with
  | tick d =>
    obtain ⟨-, h⟩ := Option.ite_none_right_eq_some.mp hstep
    exact .inl (by rw [← Option.some.inj h])
  | connect timeout =>
    obtain rfl := Option.some.inj hstep
    by_cases hk : k = s.connects
    · exact .inr (by simp [State.spawn, hk])
    · exact .inl (Function.update_of_ne hk _ _)
  | connectReturns j =>
    simp only [step] at hstep
    split at hstep
    · obtain ⟨-, h⟩ := Option.ite_none_right_eq_some.mp hstep
      exact .inl (by rw [← Option.some.inj h])
    · cases hstep
  | disconnect j =>
    obtain ⟨-, h⟩ := Option.ite_none_right_eq_some.mp hstep
    have hloop : (s.stop j).loop = s.loop := by
      rcases s.stop_cases j with ⟨-, hstop⟩ | ⟨t, -, hstop⟩
      · rw [hstop]
        exact s.requestStop_loop
      · rw [hstop]
        exact s.requestStop_loop
    exact .inl (by rw [← Option.some.inj h, hloop])
  | disconnectResumes j =>
    simp only [step] at hstep
    split at hstep
    · split at hstep
      · exact .inl (by rw [← Option.some.inj hstep]; rfl)
      · exact .inl (by rw [← Option.some.inj hstep])
      · cases hstep
    · cases hstep
  | invoke => exact .inl (by rw [Option.some.inj hstep])
  | begins j | opened j | entered j | initialized j | stopSeen j | closed j r | slept j
  | interrupted j r => cases he

/-- **A loop is running because it was, or because it begins.** -/
theorem running_of_step {s s' : State} {e : Event} {k : ℕ} (hs : s.SessionOwned)
    (hstep : step s e = some s') (hk : (s'.loop k).phase.running = true) :
    (s.loop k).phase.running = true ∨ e = .begins k := by
  have hother {j : ℕ} (hj : e.loop? = some j) (hne : k ≠ j) :
      (s.loop k).phase.running = true :=
    (moves_of_step hs hj hstep).loop_eq k hne ▸ hk
  have hguard {j : ℕ} {p : Phase} (hj : e.loop? = some j) (hp : (s.loop j).phase = p)
      (hrunning : p.running = true) : (s.loop k).phase.running = true := by
    by_cases hne : k = j
    · rw [hne, hp, hrunning]
    · exact hother hj hne
  cases e with
  | tick d | connect timeout | connectReturns j | disconnect j | disconnectResumes j | invoke =>
    rcases loop_of_step rfl hstep k with hloop | hpending
    · exact .inl (hloop ▸ hk)
    · rw [hpending] at hk
      cases hk
  | begins j =>
    by_cases hne : k = j
    · exact .inr (by rw [hne])
    · exact .inl (hother rfl hne)
  | opened j | entered j | initialized j | closed j r =>
    exact .inl (hguard rfl (Option.ite_none_right_eq_some.mp hstep).1 rfl)
  | stopSeen j =>
    simp only [step] at hstep
    split at hstep
    · next stop hp => exact .inl (hguard rfl hp rfl)
    · cases hstep
  | slept j =>
    simp only [step] at hstep
    split at hstep
    · next delay elapsed since hp => exact .inl (hguard rfl hp rfl)
    · cases hstep
  | interrupted j r =>
    simp only [step] at hstep
    split at hstep
    · next hp =>
      -- a task that is cancelled before it begins does not run
      by_cases hne : k = j
      · rw [← Option.some.inj hstep, hne, State.phase_setPhase_self] at hk
        cases hk
      · exact .inl (hother rfl hne)
    · next hp => exact .inl (hguard rfl hp rfl)
    · next hp => exact .inl (hguard rfl hp rfl)
    · next hp => exact .inl (hguard rfl hp rfl)
    · next hp => exact .inl (hguard rfl hp rfl)
    · next hp => exact .inl (hguard rfl hp rfl)
    · next hp => exact .inl (hguard rfl hp rfl)
    · cases hstep

end BridgeLoop

/-! ## The header through a run -/

namespace BridgeIdentity

/-- **`_build_auth_headers`**: the value of the `X-Agent-Context` header, if one
is sent. A context that cannot be signed is not sent. -/
def buildAuthHeaders (toHeaderValue : AgentContext Json → Except PyExc String) :
    Option (AgentContext Json) → Option String
  | none => none
  | some c =>
    match toHeaderValue c with
    | .ok value => some value
    | .error _ => none

/-- **A bridge between two services**, each in a generation of the secrets. -/
structure State where
  bridge : BridgeLoop.State
  agentGeneration : ℕ
  serverGeneration : ℕ
  /-- `auth_headers`, of the loop of a number. -/
  authHeaders : ℕ → Option String := fun _ => none

/-- **What can happen**: something on the bridge, or a rotation. -/
inductive Event where
  | bridge (e : BridgeLoop.Event)
  | rotateAgent
  | rotateServer

section Machine

variable (hmac : List UInt8 → List UInt8 → List UInt8) (decode : String → Except PyExc Json)
  (schedule : Schedule) (agentContext : Option (AgentContext String))

/-- The header a loop makes that begins in a generation. -/
def headerOf (generation : ℕ) : Option String :=
  buildAuthHeaders
    (fun c => .ok (AgentContext.toHeaderValue hmac (schedule.environ generation) c))
    (agentContext.map fun c => (AgentContext.new c).toJson)

namespace State

/-- The headers after an event on the bridge: a loop makes its own where it
begins. -/
def headersAfter (s : State) : BridgeLoop.Event → ℕ → Option String
  | .begins k =>
    Function.update s.authHeaders k (headerOf hmac schedule agentContext s.agentGeneration)
  | _ => s.authHeaders

/-- **What `get_agent_context` returns** on the server in a request of a loop. -/
def identity (s : State) (k : ℕ) : Option (AgentContext Json) :=
  getAgentContext hmac decode (schedule.environ s.serverGeneration) ((s.authHeaders k).getD "")

/-- The requests of a loop: it opens its stream, or a tool is called over its
session. -/
def Requests (s : State) (k : ℕ) : Prop :=
  (s.bridge.loop k).phase = .opening ∨ s.bridge.session = some k

end State

/-- **One step**: of the bridge, which may sign a header as it begins a loop, or
of the schedule of the secrets. -/
def step (s : State) : Event → Option State
  | .bridge e =>
    (BridgeLoop.step s.bridge e).map fun bridge =>
      { s with bridge, authHeaders := s.headersAfter hmac schedule agentContext e }
  | .rotateAgent => some { s with agentGeneration := s.agentGeneration + 1 }
  | .rotateServer => some { s with serverGeneration := s.serverGeneration + 1 }

/-- **The machine** of a bridge between two services whose secrets are rotated.
-/
abbrev machine : Machine State Event := ⟨step hmac schedule agentContext⟩

/-- A new bridge, between services of any generations. -/
def start (now : ℚ) (agentGeneration serverGeneration : ℕ) : State where
  bridge := BridgeLoop.start now
  agentGeneration := agentGeneration
  serverGeneration := serverGeneration

end Machine

section Runs

variable {hmac : List UInt8 → List UInt8 → List UInt8} {decode : String → Except PyExc Json}
  {schedule : Schedule} {agentContext : Option (AgentContext String)}

/-- **Where a loop has its header from**: it began behind some part of the run,
and not since. -/
def BeganIn (hmac : List UInt8 → List UInt8 → List UInt8) (schedule : Schedule)
    (agentContext : Option (AgentContext String)) (s : State) (as : List Event) (k : ℕ)
    (u : State) : Prop :=
  ∃ bs cs, as = bs ++ .bridge (.begins k) :: cs ∧ .bridge (.begins k) ∉ cs
    ∧ (machine hmac schedule agentContext).run s bs = some u

/-- The history of a run: the bridge is sound, and every loop that is running
has the header of the generation it began in. -/
structure Recorded (hmac : List UInt8 → List UInt8 → List UInt8) (schedule : Schedule)
    (agentContext : Option (AgentContext String)) (s : State) (as : List Event) (t : State) :
    Prop where
  sound : t.bridge.Sound
  header : ∀ k, (t.bridge.loop k).phase.running = true →
    ∃ u, BeganIn hmac schedule agentContext s as k u
      ∧ t.authHeaders k = headerOf hmac schedule agentContext u.agentGeneration

/-- What happens besides the beginning of a loop leaves its record alone. -/
theorem BeganIn.concat {s u : State} {as : List Event} {a : Event} {k : ℕ}
    (h : BeganIn hmac schedule agentContext s as k u) (ha : a ≠ .bridge (.begins k)) :
    BeganIn hmac schedule agentContext s (as ++ [a]) k u := by
  obtain ⟨bs, cs, rfl, hcs, hbs⟩ := h
  refine ⟨bs, cs ++ [a], by rw [List.append_assoc, List.cons_append], fun hmem => ?_, hbs⟩
  rcases List.mem_append.mp hmem with hmem | hmem
  · exact hcs hmem
  · exact ha (List.mem_singleton.mp hmem).symm

/-- **Every step keeps the record.** A loop signs its header in the step it
begins with, and no later step of its own or of another loop signs it anew. -/
theorem recorded_of_step {s t t' : State} {as : List Event} {a : Event}
    (hrun : (machine hmac schedule agentContext).run s as = some t)
    (h : Recorded hmac schedule agentContext s as t)
    (hstep : step hmac schedule agentContext t a = some t') :
    Recorded hmac schedule agentContext s (as ++ [a]) t' := by
  cases a with
  | rotateAgent =>
    obtain rfl := Option.some.inj hstep
    refine ⟨h.sound, fun k hk => ?_⟩
    obtain ⟨u, hu, hheader⟩ := h.header k hk
    exact ⟨u, hu.concat (by simp), hheader⟩
  | rotateServer =>
    obtain rfl := Option.some.inj hstep
    refine ⟨h.sound, fun k hk => ?_⟩
    obtain ⟨u, hu, hheader⟩ := h.header k hk
    exact ⟨u, hu.concat (by simp), hheader⟩
  | bridge e =>
    obtain ⟨bridge, hbridge, rfl⟩ := Option.map_eq_some_iff.mp hstep
    refine ⟨BridgeLoop.sound_of_step h.sound hbridge, fun k hk => ?_⟩
    by_cases he : e = .begins k
    · subst he
      exact ⟨t, ⟨as, [], rfl, List.not_mem_nil, hrun⟩, Function.update_self _ _ _⟩
    · have hwas := (BridgeLoop.running_of_step h.sound.session hbridge hk).resolve_right he
      obtain ⟨u, hu, hheader⟩ := h.header k hwas
      refine ⟨u, hu.concat fun heq => he (Event.bridge.inj heq), ?_⟩
      rw [← hheader]
      show t.headersAfter hmac schedule agentContext e k = t.authHeaders k
      unfold State.headersAfter
      split
      · next j => exact Function.update_of_ne (fun hne => he (by rw [hne])) _ _
      · rfl

/-- What the server sees of a header that was signed in a generation. -/
theorem getAgentContext_headerOf (hdecode : DecodesContexts decode)
    (hsep : ∀ k₁ k₂ msg, hmac k₁ msg = hmac k₂ msg → k₁ = k₂) (signer server : ℕ) :
    getAgentContext hmac decode (schedule.environ server)
        ((headerOf hmac schedule agentContext signer).getD "")
      = if Schedule.Within signer server then
          agentContext.map fun c => (AgentContext.new c).toJson
        else none := by
  cases agentContext with
  | none => exact (ite_self none).symm
  | some c =>
    show getAgentContext hmac decode (schedule.environ server)
      (AgentContext.toHeaderValue hmac (schedule.environ signer) (AgentContext.new c).toJson) = _
    by_cases hwithin : Schedule.Within signer server
    · rw [if_pos hwithin, Option.map_some]
      exact getAgentContext_toHeaderValue hdecode (schedule.getHmacSecret_mem_iff.mpr hwithin) c
    · rw [if_neg hwithin]
      have hkey :
          getHmacSecret (schedule.environ signer) ∉ acceptedKeys (schedule.environ server) :=
        fun h => hwithin (schedule.getHmacSecret_mem_iff.mp h)
      obtain ⟨exc, hexc⟩ : ∃ exc, AgentContext.fromHeader hmac decode (schedule.environ server)
          (signed hmac (getHmacSecret (schedule.environ signer))
            (AgentContext.new c).toJson.payload) = .error exc :=
        fromHeader_signed_error hsep hkey _
      rw [AgentContext.toHeaderValue, getAgentContext, if_neg isBlank_signed.1, hexc]

/-- A loop began in one state of a run: it begins where its number is given out,
and no number is given out twice. -/
theorem BeganIn.unique {s u u' : State} {as : List Event} {k : ℕ}
    (h : BeganIn hmac schedule agentContext s as k u)
    (h' : BeganIn hmac schedule agentContext s as k u') : u = u' := by
  obtain ⟨bs, cs, has, hcs, hbs⟩ := h
  obtain ⟨bs', cs', has', hcs', hbs'⟩ := h'
  have hsame : bs = bs' := by
    rcases List.append_eq_append_iff.mp (has.symm.trans has') with ⟨d, hd, hrest⟩ | ⟨d, hd, hrest⟩
    · cases d with
      | nil => rw [hd, List.append_nil]
      | cons x d =>
        rw [(List.cons.inj hrest).2] at hcs
        exact absurd (List.mem_append_right d List.mem_cons_self) hcs
    · cases d with
      | nil => rw [hd, List.append_nil]
      | cons x d =>
        rw [(List.cons.inj hrest).2] at hcs'
        exact absurd (List.mem_append_right d List.mem_cons_self) hcs'
  rw [hsame] at hbs
  exact Option.some.inj (hbs.symm.trans hbs')

/-- **Whose calls a bridge makes.** In every run of a bridge, among connects and
disconnects, connections lost and opened again, and rotations of the secrets of
either service, a loop that makes a request began in one state of the run, and
the server sees the agent in the window of the secret of *that* state, and
nobody out of it. -/
theorem identity_of_run (hdecode : DecodesContexts decode)
    (hsep : ∀ k₁ k₂ msg, hmac k₁ msg = hmac k₂ msg → k₁ = k₂) {now : ℚ} {agent server : ℕ}
    {as : List Event} {t : State}
    (hrun : (machine hmac schedule agentContext).run (start now agent server) as = some t) {k : ℕ}
    (hk : t.Requests k) :
    (∃ u, BeganIn hmac schedule agentContext (start now agent server) as k u)
      ∧ ∀ u, BeganIn hmac schedule agentContext (start now agent server) as k u →
        t.identity hmac decode schedule k
          = if Schedule.Within u.agentGeneration t.serverGeneration then
              agentContext.map fun c => (AgentContext.new c).toJson
            else none := by
  have hrecorded : Recorded hmac schedule agentContext (start now agent server) as t := by
    refine (machine hmac schedule agentContext).run_history
      ⟨BridgeLoop.sound_start now, fun k hk => ?_⟩
      (fun as t a t' h₁ h h₂ => recorded_of_step h₁ h h₂) hrun
    cases hk
  have hrunning : (t.bridge.loop k).phase.running = true := by
    rcases hk with hopening | hsession
    · rw [hopening]
      rfl
    · exact BridgeLoop.running_of_inSession (hrecorded.sound.session k hsession)
  obtain ⟨u, hu, hheader⟩ := hrecorded.header k hrunning
  refine ⟨⟨u, hu⟩, fun u' hu' => ?_⟩
  rw [hu'.unique hu, State.identity, hheader]
  exact getAgentContext_headerOf hdecode hsep _ _

end Runs

/-- A loop that connects, loses its connection and opens another, while the
server rotates its secrets twice and the agent once. -/
def lostBetweenRotations : List Event :=
  [.bridge (.connect (.finite 30)), .bridge (.begins 0), .bridge (.opened 0), .bridge (.entered 0),
    .bridge (.initialized 0), .rotateServer, .rotateAgent, .bridge (.interrupted 0 .exception),
    .rotateServer, .bridge (.closed 0 (some .exception)), .bridge (.tick 1), .bridge (.slept 0),
    .bridge (.tick 1), .bridge (.slept 0)]

/-- **A connection opened anew is signed as the first one was.** The services are
in one window again, and the server sees nobody. -/
theorem identity_of_run_lost :
    ∃ t, (machine keyedDigest numberedSecrets (some managerContext)).run (start 0 0 0)
        lostBetweenRotations = some t
      ∧ t.Requests 0 ∧ Schedule.Within t.agentGeneration t.serverGeneration
      ∧ t.identity keyedDigest decodeEncoded numberedSecrets 0 = none := by
  have hany : ((machine keyedDigest numberedSecrets (some managerContext)).run (start 0 0 0)
      lostBetweenRotations).any (fun t => decide ((t.bridge.loop 0).phase = .opening
        ∧ t.agentGeneration = 1 ∧ t.serverGeneration = 2)) = true := by
    decide +kernel
  obtain ⟨t, hrun, ht⟩ := (Option.any_eq_true _ _).mp hany
  obtain ⟨hopening, hagent, hserver⟩ := of_decide_eq_true ht
  have hbegan : ∃ u, BeganIn keyedDigest numberedSecrets (some managerContext) (start 0 0 0)
      lostBetweenRotations 0 u ∧ u.agentGeneration = 0 :=
    ⟨_, ⟨[.bridge (.connect (.finite 30))], _, rfl, by simp, rfl⟩, rfl⟩
  obtain ⟨u, hu, hgeneration⟩ := hbegan
  have hidentity := (identity_of_run decodesContexts_decodeEncoded keyedDigest_separates hrun
    (.inl hopening)).2 u hu
  rw [hgeneration, hserver] at hidentity
  refine ⟨t, hrun, .inl hopening, ?_, hidentity.trans (if_neg (by decide))⟩
  rw [hagent, hserver]
  decide

end BridgeIdentity
