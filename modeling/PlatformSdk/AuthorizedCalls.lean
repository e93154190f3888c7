import PlatformSdk.AuthorizedTool
import PlatformSdk.PolicyCalls

/-!
# What was authorised is what runs

The tools of a server share one policy client. Each call of a tool strips and
cuts the argument that is required, asks the policy engine about what is left,
and runs on exactly that. Its question goes out from the middle of a crowd:
other calls ask at the same time, a failed question is put again after a
pause, and the circuit may open or close in between.

`granted_of_run` says that none of this separates a tool from its permission.
A tool only ever runs on arguments about which the engine was asked, in a
request of that very call, and granted them. In that request the name of the
tool, the environment and the role of the agent are those of the server,
whatever arguments the caller passes under these names (`Asks`); every other
argument is there as the tool receives it.
-/

/-! ## The question -/

/-- A keyword argument as a value of a payload. -/
def PyValue.ofJson (v : Json) : PyValue := v.translate id PyScalar.json

mutual

theorem toJson_ofJson : ∀ v : Json, toJson (PyValue.ofJson v) = .ok v
  | .leaf _ => rfl
  | .list xs => by
    show (toJsonList (DocTree.translateList id PyScalar.json xs)).map DocTree.list = _
    rw [toJsonList_ofJson xs]
    rfl
  | .map d => by
    show (toJsonMap (DocTree.translateMap id PyScalar.json d)).map DocTree.map = _
    rw [toJsonMap_ofJson d]
    rfl

theorem toJsonList_ofJson :
    ∀ xs : List Json, toJsonList (DocTree.translateList id PyScalar.json xs) = .ok xs
  | [] => rfl
  | x :: xs => by
    have hx : toJson (DocTree.translate id PyScalar.json x) = .ok x := toJson_ofJson x
    rw [DocTree.translateList, toJsonList, hx, toJsonList_ofJson xs]

theorem toJsonMap_ofJson : ∀ d : List (String × Json),
    toJsonMap (DocTree.translateMap id PyScalar.json d) = .ok d
  | [] => rfl
  | (k, x) :: d => by
    have hx : toJson (DocTree.translate id PyScalar.json x) = .ok x := toJson_ofJson x
    rw [DocTree.translateMap, toJsonMap, hx, toJsonMap_ofJson d]
    rfl

end

/-- **The encoder keeps every entry at its key**, so what is asked about an
argument is found under its name. -/
theorem get?_of_toJsonMap {d : Dict String PyValue} {e : Dict String Json}
    (h : toJsonMap d = .ok e) (k : String) :
    (e.get? k).map Except.ok = (d.get? k).map toJson := by
  induction d generalizing e with
  | nil =>
    obtain rfl : [] = e := Except.ok.inj h
    rfl
  | cons entry d ih =>
    obtain ⟨k', x⟩ := entry
    rw [toJsonMap] at h
    split at h
    · next y ys hy hys =>
      obtain rfl := Except.ok.inj h
      rw [Dict.get?_cons, Dict.get?_cons]
      by_cases hk : k' = k
      · rw [if_pos hk, if_pos hk, Option.map_some, Option.map_some, hy]
      · rw [if_neg hk, if_neg hk, ih hys]
    · cases h
    · cases h

/-- An entry that encodes is read as its encoding. -/
theorem get?_eq_of_toJsonMap {d : Dict String PyValue} {e : Dict String Json}
    (h : toJsonMap d = .ok e) {k : String} {v : Option Json}
    (hv : (d.get? k).map toJson = v.map Except.ok) : e.get? k = v :=
  Option.map_injective (fun _ _ => Except.ok.inj) ((get?_of_toJsonMap h k).trans hv)

/-- The arguments as a payload, every value of which is one of JSON. -/
def Kwargs.payload (k : Kwargs) : Dict String PyValue :=
  k.entries.map fun e => (e.1, PyValue.ofJson e.2)

/-- The entries of the server in a request, written over those of the arguments.
-/
def stampedNames : List String := ["tool", "environment", "agent_role"]

/-- **A request asks about a tool and its arguments**: three entries are the
server's, and the others are the arguments. -/
def Asks (config : MCPConfig) (tool : AuthorizedTool) (args : Kwargs) (body : Json) : Prop :=
  ∃ input : Dict String Json, body = .map [("input", .map input)]
    ∧ input.get? "tool" = some (Json.str tool.toolName)
    ∧ input.get? "environment" = some (Json.str config.environment.toString)
    ∧ input.get? "agent_role" = some (Json.str config.agentRole)
    ∧ ∀ name, name ∉ stampedNames → input.get? name = args.entries.get? name

/-- What a call asks the policy engine: its arguments, with the name of the tool
and the entries of the server written over them. -/
def AuthorizedTool.question (tool : AuthorizedTool) (c : OpaClient) (args : Kwargs) :
    Except PyExc Json :=
  c.requestBody tool.toolName args.payload

/-- **Every request asks about the tool and the arguments of its call.** -/
theorem asks_of_question {config : MCPConfig} {tool : AuthorizedTool} {args : Kwargs}
    {body : Json} (h : tool.question (OpaClient.ofConfig config) args = .ok body) :
    Asks config tool args body := by
  rw [AuthorizedTool.question, OpaClient.requestBody] at h
  generalize hd : (OpaClient.ofConfig config).inputData tool.toolName args.payload = d at h
  cases hinput : toJsonMap d with
  | error exc =>
    simp [toJson, toJsonMap, hinput, Except.map] at h
  | ok input =>
    have hbody : body = .map [("input", .map input)] := by
      simpa [toJson, toJsonMap, hinput, Except.map] using h.symm
    have hother : ∀ {name}, name ∉ stampedNames → d.get? name = args.payload.get? name := by
      intro name hname
      simp only [stampedNames, List.mem_cons, List.not_mem_nil, or_false, not_or] at hname
      rw [← hd, OpaClient.inputData, Dict.get?_set_of_ne _ _ hname.2.2,
        Dict.get?_set_of_ne _ _ hname.2.1, Dict.get?_set_of_ne _ _ hname.1]
    refine ⟨input, hbody, ?_, ?_, ?_, fun name hname => get?_eq_of_toJsonMap hinput ?_⟩
    · refine get?_eq_of_toJsonMap hinput ?_
      rw [← hd, OpaClient.inputData, Dict.get?_set_of_ne _ _ (by decide),
        Dict.get?_set_of_ne _ _ (by decide), Dict.get?_set_self]
      rfl
    · refine get?_eq_of_toJsonMap hinput ?_
      rw [← hd, OpaClient.inputData, Dict.get?_set_of_ne _ _ (by decide), Dict.get?_set_self]
      rfl
    · refine get?_eq_of_toJsonMap hinput ?_
      rw [← hd, OpaClient.inputData, Dict.get?_set_self]
      rfl
    · have hpayload : args.payload.get? name = (args.entries.get? name).map PyValue.ofJson :=
        Dict.get?_map args.entries (fun e => PyValue.ofJson e.2) name
      rw [hother hname, hpayload, Option.map_map]
      exact congrArg (fun f => (args.entries.get? name).map f) (funext toJson_ofJson)

/-- It is the same for every client with the settings of the server. -/
theorem question_eq {tool : AuthorizedTool} {c c' : OpaClient} {args : Kwargs}
    (henvironment : c.environment = c'.environment) (hrole : c.agentRole = c'.agentRole) :
    tool.question c args = tool.question c' args := by
  rw [AuthorizedTool.question, AuthorizedTool.question, OpaClient.requestBody,
    OpaClient.requestBody, OpaClient.inputData, OpaClient.inputData, henvironment, hrole]

/-! ## One call of the policy client -/

namespace PolicyCalls

/-- **The call asks a question**, or waits to ask it again. -/
def Phase.Asking (question : Except PyExc Json) : Phase → Prop
  | .posting body _ => question = .ok body
  | .sleeping body _ _ => question = body
  | _ => False

/-- The call that takes a step, where the event is the step of one. -/
def Event.caller : Event → Option ℕ
  | .tick _ => none
  | .call i _ _ | .reply i _ | .wake i | .cancel i => some i

variable {s s' : State} {i : ℕ}

/-- An attempt asks its question, or is denied where the question has no JSON
and no attempt is left. -/
theorem phase_startAttempt (s : State) (i : ℕ) (question : Except PyExc Json) (attempt : ℕ) :
    ((s.startAttempt i question attempt).phase i).Asking question
      ∨ (s.startAttempt i question attempt).phase i = .ended (some false) := by
  cases question with
  | ok body =>
    left
    show ((s.setPhase i (.posting body attempt)).phase i).Asking _
    rw [State.phase_setPhase_self]
    rfl
  | error exc =>
    show ((s.failed i (.error exc) attempt exc).phase i).Asking _
      ∨ (s.failed i (.error exc) attempt exc).phase i = _
    rcases s.failed_cases i (.error exc) attempt exc with h | h <;>
      rw [h, State.phase_setPhase_self]
    · exact .inr rfl
    · exact .inl rfl

/-- A call asks about what it was made with, or is denied. -/
theorem phase_of_call {toolName : String} {payload : Dict String PyValue}
    (h : step s (.call i toolName payload) = some s') :
    (s'.phase i).Asking (s.client.requestBody toolName payload)
      ∨ s'.phase i = .ended (some false) := by
  cases took_of_step h with
  | refused => exact .inr (State.phase_setPhase_self ..)
  | attempt => exact phase_startAttempt ..

/-- **A call that asks goes on asking the same question**, is denied, or is
granted it by the reply to its own request. -/
theorem phase_of_reply {question : Except PyExc Json} {outcome : PostOutcome}
    (hi : (s.phase i).Asking question) (h : step s (.reply i outcome) = some s') :
    (s'.phase i).Asking question ∨ s'.phase i = .ended (some false)
      ∨ s'.phase i = .ended (some true) ∧ outcome.response = .ok true
        ∧ ∃ body attempt, s.phase i = .posting body attempt ∧ question = .ok body := by
  cases took_of_step h with
  | @decided _ _ decision hposting hresponse =>
    right
    rw [State.phase_setPhase_self]
    cases decision with
    | false => exact .inl rfl
    | true =>
      obtain ⟨body, attempt, hp⟩ := hposting
      rw [hp] at hi
      exact .inr ⟨rfl, hresponse, body, attempt, hp, hi⟩
  | @failed _ _ body attempt exc hp =>
    rw [hp] at hi
    rcases s.failed_cases i (.ok body) attempt exc with hfailed | hfailed <;>
      rw [hfailed, State.phase_setPhase_self]
    · exact .inr (.inl rfl)
    · exact .inl hi

theorem phase_of_wake {question : Except PyExc Json} (hi : (s.phase i).Asking question)
    (h : step s (.wake i) = some s') :
    (s'.phase i).Asking question ∨ s'.phase i = .ended (some false) := by
  cases took_of_step h with
  | wake hp =>
    rw [hp] at hi
    obtain rfl : question = _ := hi
    exact phase_startAttempt ..

theorem phase_of_cancel (h : step s (.cancel i) = some s') : s'.phase i = .ended none := by
  cases took_of_step h with
  | cancel => exact State.phase_setPhase_self ..

/-- **A step is of one call**, and leaves the settings of the client. -/
theorem frame_of_step {e : Event} (h : step s e = some s') :
    s'.client.environment = s.client.environment ∧ s'.client.agentRole = s.client.agentRole
      ∧ ∀ j, e.caller ≠ some j → s'.phase j = s.phase j := by
  have hfailed : ∀ i body attempt exc,
      (s.failed i body attempt exc).client.environment = s.client.environment
        ∧ (s.failed i body attempt exc).client.agentRole = s.client.agentRole := by
    intro i body attempt exc
    rcases s.failed_cases i body attempt exc with h | h <;> rw [h] <;> exact ⟨rfl, rfl⟩
  have hstart : ∀ i question attempt,
      (s.startAttempt i question attempt).client.environment = s.client.environment
        ∧ (s.startAttempt i question attempt).client.agentRole = s.client.agentRole := by
    intro i question attempt
    cases question with
    | ok body => exact ⟨rfl, rfl⟩
    | error exc => exact hfailed i _ attempt exc
  have hne : ∀ {i j : ℕ}, some i ≠ some j → j ≠ i := fun h hji => h (congrArg some hji.symm)
  cases took_of_step h with
  | tick => exact ⟨rfl, rfl, fun _ _ => rfl⟩
  | refused => exact ⟨rfl, rfl, fun j hj => State.phase_setPhase_of_ne _ _ _ (hne hj)⟩
  | attempt =>
    exact ⟨(hstart _ _ _).1, (hstart _ _ _).2,
      fun j hj => s.phase_startAttempt_of_ne _ (hne hj) _ _⟩
  | decided => exact ⟨rfl, rfl, fun j hj => State.phase_setPhase_of_ne _ _ _ (hne hj)⟩
  | failed =>
    exact ⟨(hfailed _ _ _ _).1, (hfailed _ _ _ _).2,
      fun j hj => s.phase_failed_of_ne _ (hne hj) _ _ _⟩
  | wake =>
    exact ⟨(hstart _ _ _).1, (hstart _ _ _).2,
      fun j hj => s.phase_startAttempt_of_ne _ (hne hj) _ _⟩
  | cancel => exact ⟨rfl, rfl, fun j hj => State.phase_setPhase_of_ne _ _ _ (hne hj)⟩

end PolicyCalls

/-! ## The tools of a server -/

namespace AuthorizedCalls

/-- **Where a call of a tool stands**, with the tool and the arguments it goes
on with. -/
inductive Stage (τ : Type) where
  /-- Not made yet. -/
  | idle
  /-- In `authorize`. -/
  | authorizing (tool : τ) (args : Kwargs)
  /-- In the tool. -/
  | running (tool : τ) (args : Kwargs)
  | answered (response : String)
  | raised (exc : PyExc)
  | cancelled

/-- **The state**: the client, and its calls, by their numbers in both. -/
structure State (τ : Type) where
  policy : PolicyCalls.State
  stage : ℕ → Stage τ := fun _ => .idle

/-- **What can happen**: time passes, a tool is called, a request comes to
something or a backoff is over, a tool is through, or a call is cancelled. -/
inductive Event (τ : Type) where
  | tick (d : ℚ)
  /-- A tool is called; `opa_ref()` returns the client, or `None`. -/
  | invoke (i : ℕ) (tool : τ) (ready : Bool) (kwargs : Kwargs)
  /-- The POST of a call comes to something. -/
  | reply (i : ℕ) (outcome : PostOutcome)
  /-- The backoff of a call is over. -/
  | wake (i : ℕ)
  /-- A tool returns or raises. -/
  | finish (i : ℕ) (outcome : Except PyExc String)
  /-- The task of a call is cancelled at its `await`. -/
  | cancel (i : ℕ)

variable {τ : Type}

/-- What the wrapper does when `authorize` is over: it runs the tool, or returns
an error response. -/
def Stage.settle (p : PolicyCalls.Phase) : Stage τ → Stage τ
  | .authorizing tool args =>
    match p with
    | .ended (some true) => .running tool args
    | .ended (some false) => .answered AuthorizedTool.unauthorized
    | .ended none => .cancelled
    | _ => .authorizing tool args
  | stage => stage

namespace State

/-- A call moves on, and all others stay where they are. -/
def goto (s : State τ) (i : ℕ) (stage : Stage τ) : State τ :=
  { s with stage := Function.update s.stage i stage }

@[simp] theorem goto_stage_self (s : State τ) (i : ℕ) (stage : Stage τ) :
    (s.goto i stage).stage i = stage := Function.update_self ..

theorem goto_stage_of_ne (s : State τ) {i j : ℕ} (stage : Stage τ) (h : j ≠ i) :
    (s.goto i stage).stage j = s.stage j := Function.update_of_ne h ..

/-- A call takes a step in `authorize`, and goes on from there if that is its
end. -/
def resume (s : State τ) (i : ℕ) (e : PolicyCalls.Event) : Option (State τ) :=
  (PolicyCalls.step s.policy e).map fun p =>
    ({ s with policy := p } : State τ).goto i ((s.stage i).settle (p.phase i))

end State

section Step

variable (tools : τ → AuthorizedTool) (isPrintable : Char → Bool)

/-- **One step of the calls**, where the event can happen. The part of a call
that is one of `authorize` moves as the client has it. -/
def step (s : State τ) : Event τ → Option (State τ)
  | .tick d => (PolicyCalls.step s.policy (.tick d)).map fun p => { s with policy := p }
  | .invoke i tool ready kwargs =>
    match s.stage i with
    | .idle =>
      if ready then
        match (tools tool).validate isPrintable kwargs with
        | .error exc => some (s.goto i (.raised exc))
        | .ok (.error response) => some (s.goto i (.answered response))
        | .ok (.ok args) =>
          (s.goto i (.authorizing tool args)).resume i
            (.call i (tools tool).toolName args.payload)
      else some (s.goto i (.answered AuthorizedTool.notInitialised))
    | _ => none
  | .reply i outcome => s.resume i (.reply i outcome)
  | .wake i => s.resume i (.wake i)
  | .finish i outcome =>
    match s.stage i, outcome with
    | .running _ _, .ok value => some (s.goto i (.answered value))
    | .running _ _, .error _ => some (s.goto i (.answered AuthorizedTool.databaseError))
    | _, _ => none
  | .cancel i =>
    match s.stage i with
    | .running _ _ => some (s.goto i .cancelled)
    | _ => s.resume i (.cancel i)

/-- **The machine of the calls** of all tools of a server, through its one
client. -/
def machine : Machine (State τ) (Event τ) := ⟨step tools isPrintable⟩

end Step

/-- A server with a client that has just been made. -/
def start (config : MCPConfig) (now : ℚ) : State τ := { policy := PolicyCalls.start config now }

/-! ## Every run -/

/-- A call that asks stays where it is, until its `authorize` is over. -/
theorem Stage.settle_of_asking {p : PolicyCalls.Phase} {question : Except PyExc Json}
    (hp : p.Asking question) (tool : τ) (args : Kwargs) :
    (Stage.authorizing tool args).settle p = .authorizing tool args := by
  cases p with
  | posting body attempt => rfl
  | sleeping body attempt since => rfl
  | idle => exact hp.elim
  | ended decision => exact hp.elim

theorem State.exists_of_resume {s s' : State τ} {i : ℕ} {e : PolicyCalls.Event}
    (h : s.resume i e = some s') :
    ∃ p, PolicyCalls.step s.policy e = some p
      ∧ s' = ({ s with policy := p } : State τ).goto i ((s.stage i).settle (p.phase i)) := by
  obtain ⟨p, hp, rfl⟩ := Option.map_eq_some_iff.mp h
  exact ⟨p, hp, rfl⟩

section Run

variable (tools : τ → AuthorizedTool) (isPrintable : Char → Bool) (config : MCPConfig) (now : ℚ)

/-- **The call was made with arguments that come to these.** -/
def Invoked (es : List (Event τ)) (i : ℕ) (tool : τ) (args : Kwargs) : Prop :=
  ∃ kwargs, .invoke i tool true kwargs ∈ es
    ∧ (tools tool).validate isPrintable kwargs = .ok (.ok args)

/-- **The reply to a request of the call grants it.** -/
def Grants (i : ℕ) (body : Json) (s : State τ) (e : Event τ) : Prop :=
  ∃ attempt outcome, s.policy.phase i = .posting body attempt ∧ e = .reply i outcome
    ∧ outcome.response = .ok true

/-- What holds of a call: it asks about its tool and its arguments, and it runs
the tool when that was granted. -/
def StageInv (es : List (Event τ)) (i : ℕ) : Stage τ → PolicyCalls.Phase → Prop
  | .authorizing tool args, p =>
    Invoked tools isPrintable es i tool args
      ∧ p.Asking ((tools tool).question (OpaClient.ofConfig config) args)
  | .running tool args, _ =>
    Invoked tools isPrintable es i tool args
      ∧ ∃ body, (tools tool).question (OpaClient.ofConfig config) args = .ok body
        ∧ (machine tools isPrintable).Happened (Grants i body) (start config now) es
  | _, _ => True

/-- **The invariant**: a call that waits for the policy engine has asked about
its own arguments, and one that runs was granted. -/
structure Inv (es : List (Event τ)) (s : State τ) : Prop where
  environment : s.policy.client.environment = (OpaClient.ofConfig config).environment
  agentRole : s.policy.client.agentRole = (OpaClient.ofConfig config).agentRole
  calls : ∀ i, StageInv tools isPrintable config now es i (s.stage i) (s.policy.phase i)

variable {tools} {isPrintable} {config} {now} {es : List (Event τ)} {s s' : State τ}
  {a : Event τ} {i : ℕ}

/-- What holds of a call goes on to hold while others move. -/
theorem StageInv.append
    (hrun : (machine tools isPrintable).run (start config now) es = some s) (stage : Stage τ)
    {p : PolicyCalls.Phase} (h : StageInv tools isPrintable config now es i stage p)
    (a : Event τ) : StageInv tools isPrintable config now (es ++ [a]) i stage p := by
  have hinvoked : ∀ {tool args}, Invoked tools isPrintable es i tool args →
      Invoked tools isPrintable (es ++ [a]) i tool args :=
    fun ⟨kwargs, hmem, hvalid⟩ => ⟨kwargs, List.mem_append_left _ hmem, hvalid⟩
  cases stage with
  | authorizing tool args => exact ⟨hinvoked h.1, h.2⟩
  | running tool args =>
    obtain ⟨hi, body, hbody, hgranted⟩ := h
    exact ⟨hinvoked hi, body, hbody, ((machine tools isPrintable).happened_concat hrun).mpr
      (.inl hgranted)⟩
  | _ => trivial

/-- A step of one call keeps the invariant if it does for that call. -/
theorem Inv.of_call (h : Inv tools isPrintable config now es s)
    (hrun : (machine tools isPrintable).run (start config now) es = some s)
    (henvironment : s'.policy.client.environment = s.policy.client.environment)
    (hrole : s'.policy.client.agentRole = s.policy.client.agentRole)
    (hframe : ∀ j, j ≠ i → s'.stage j = s.stage j ∧ s'.policy.phase j = s.policy.phase j)
    (hi : StageInv tools isPrintable config now (es ++ [a]) i (s'.stage i) (s'.policy.phase i)) :
    Inv tools isPrintable config now (es ++ [a]) s' := by
  refine ⟨henvironment.trans h.environment, hrole.trans h.agentRole, fun j => ?_⟩
  by_cases hj : j = i
  · exact hj ▸ hi
  · rw [(hframe j hj).1, (hframe j hj).2]
    exact (h.calls j).append hrun _ a

/-- A call that moves on outside `authorize`, to a stage of which nothing is
said. -/
theorem Inv.goto (h : Inv tools isPrintable config now es s)
    (hrun : (machine tools isPrintable).run (start config now) es = some s) {stage : Stage τ}
    (hstage : ∀ p, StageInv tools isPrintable config now (es ++ [a]) i stage p) :
    Inv tools isPrintable config now (es ++ [a]) (s.goto i stage) := by
  refine h.of_call (i := i) hrun rfl rfl (fun j hj => ⟨s.goto_stage_of_ne stage hj, rfl⟩) ?_
  rw [State.goto_stage_self]
  exact hstage _

/-- A call that takes a step in `authorize` goes on asking, or is answered as
the client was. -/
theorem Inv.resume (h : Inv tools isPrintable config now es s)
    (hrun : (machine tools isPrintable).run (start config now) es = some s) {s₁ : State τ}
    {e : PolicyCalls.Event} (hstep : s₁.resume i e = some s') (he : e.caller = some i)
    (hpolicy : s₁.policy = s.policy) (hstage : ∀ j, j ≠ i → s₁.stage j = s.stage j)
    (hi : ∀ p, PolicyCalls.step s.policy e = some p →
      StageInv tools isPrintable config now (es ++ [a]) i ((s₁.stage i).settle (p.phase i))
        (p.phase i)) :
    Inv tools isPrintable config now (es ++ [a]) s' := by
  obtain ⟨p, hp, rfl⟩ := State.exists_of_resume hstep
  rw [hpolicy] at hp
  obtain ⟨henvironment, hrole, hphase⟩ := PolicyCalls.frame_of_step hp
  refine h.of_call (i := i) hrun henvironment hrole (fun j hj => ⟨?_, ?_⟩) ?_
  · rw [State.goto_stage_of_ne _ _ hj]
    exact hstage j hj
  · exact hphase j fun hji => hj (Option.some.inj (he.symm.trans hji)).symm
  · rw [State.goto_stage_self]
    exact hi p hp

/-- **Every step keeps the invariant.** Only the step that comes back from the
policy engine with a grant lets a tool run, and it does so on the arguments that
were asked about. -/
theorem inv_step (h : Inv tools isPrintable config now es s)
    (hrun : (machine tools isPrintable).run (start config now) es = some s)
    (hstep : step tools isPrintable s a = some s') :
    Inv tools isPrintable config now (es ++ [a]) s' := by
  cases a with
  | tick d =>
    obtain ⟨p, hp, rfl⟩ := Option.map_eq_some_iff.mp hstep
    obtain ⟨henvironment, hrole, hphase⟩ := PolicyCalls.frame_of_step hp
    refine ⟨henvironment.trans h.environment, hrole.trans h.agentRole, fun j => ?_⟩
    show StageInv _ _ _ _ _ j (s.stage j) (p.phase j)
    rw [hphase j (Option.some_ne_none j ∘ Eq.symm)]
    exact (h.calls j).append hrun _ _
  | invoke i tool ready kwargs =>
    simp only [step] at hstep
    split at hstep
    · split at hstep
      · next hready =>
        subst hready
        split at hstep
        · obtain rfl := Option.some.inj hstep
          exact h.goto hrun fun _ => trivial
        · obtain rfl := Option.some.inj hstep
          exact h.goto hrun fun _ => trivial
        · next args hvalid =>
          have hinvoked : Invoked tools isPrintable (es ++ [.invoke i tool true kwargs]) i tool
              args := ⟨kwargs, List.mem_concat_self, hvalid⟩
          refine h.resume hrun hstep rfl rfl (fun j hj => s.goto_stage_of_ne _ hj) fun p hp => ?_
          rw [State.goto_stage_self]
          rcases PolicyCalls.phase_of_call hp with hasks | hdenied
          · rw [Stage.settle_of_asking hasks]
            refine ⟨hinvoked, ?_⟩
            rw [← question_eq h.environment h.agentRole]
            exact hasks
          · rw [hdenied]
            trivial
      · obtain rfl := Option.some.inj hstep
        exact h.goto hrun fun _ => trivial
    · cases hstep
  | reply i outcome =>
    refine h.resume hrun hstep rfl rfl (fun _ _ => rfl) fun p hp => ?_
    have hi := h.calls i
    cases hstage : s.stage i with
    | authorizing tool args =>
      rw [hstage] at hi
      rcases PolicyCalls.phase_of_reply hi.2 hp with
        hasks | hdenied | ⟨hgranted, hresponse, body, attempt, hposting, hquestion⟩
      · rw [Stage.settle_of_asking hasks]
        exact StageInv.append hrun (.authorizing tool args) ⟨hi.1, hasks⟩ _
      · rw [hdenied]
        trivial
      · rw [hgranted]
        obtain ⟨kwargs, hmem, hvalid⟩ := hi.1
        exact ⟨⟨kwargs, List.mem_append_left _ hmem, hvalid⟩, body, hquestion,
          ((machine tools isPrintable).happened_concat hrun).mpr
            (.inr ⟨attempt, outcome, hposting, rfl, hresponse⟩)⟩
    | running tool args =>
      rw [hstage] at hi
      exact StageInv.append hrun (.running tool args) (p := p.phase i) hi _
    | _ => trivial
  | wake i =>
    refine h.resume hrun hstep rfl rfl (fun _ _ => rfl) fun p hp => ?_
    have hi := h.calls i
    cases hstage : s.stage i with
    | authorizing tool args =>
      rw [hstage] at hi
      rcases PolicyCalls.phase_of_wake hi.2 hp with hasks | hdenied
      · rw [Stage.settle_of_asking hasks]
        exact StageInv.append hrun (.authorizing tool args) ⟨hi.1, hasks⟩ _
      · rw [hdenied]
        trivial
    | running tool args =>
      rw [hstage] at hi
      exact StageInv.append hrun (.running tool args) (p := p.phase i) hi _
    | _ => trivial
  | finish i outcome =>
    simp only [step] at hstep
    split at hstep
    · obtain rfl := Option.some.inj hstep
      exact h.goto hrun fun _ => trivial
    · obtain rfl := Option.some.inj hstep
      exact h.goto hrun fun _ => trivial
    · cases hstep
  | cancel i =>
    simp only [step] at hstep
    split at hstep
    · obtain rfl := Option.some.inj hstep
      exact h.goto hrun fun _ => trivial
    · next hrunning =>
      refine h.resume hrun hstep rfl rfl (fun _ _ => rfl) fun p hp => ?_
      rw [PolicyCalls.phase_of_cancel hp]
      cases hstage : s.stage i with
      | running tool args => exact absurd hstage (hrunning tool args)
      | _ => trivial

/-- **What was authorised is what runs.** Whenever a tool runs, it runs on what
the arguments of its own call come to, and the policy engine granted a request
of that call which asked about just these: with the name of the tool, the
environment and the role of the server, whatever the caller passed in their
place, and every other argument as the tool receives it. -/
theorem granted_of_run {t : State τ}
    (hrun : (machine tools isPrintable).run (start config now) es = some t) {tool : τ}
    {args : Kwargs} (hi : t.stage i = .running tool args) :
    Invoked tools isPrintable es i tool args
      ∧ ∃ body, Asks config (tools tool) args body
        ∧ (machine tools isPrintable).Happened (Grants i body) (start config now) es := by
  have hinit : Inv tools isPrintable config now [] (start config now) :=
    ⟨rfl, rfl, fun _ => trivial⟩
  have hinv : Inv tools isPrintable config now es t :=
    (machine tools isPrintable).run_history hinit
      (fun _ _ _ _ hrun h hstep => inv_step h hrun hstep) hrun
  have hcall := hinv.calls i
  rw [hi] at hcall
  obtain ⟨hinvoked, body, hquestion, hgranted⟩ := hcall
  exact ⟨hinvoked, body, asks_of_question hquestion, hgranted⟩

end Run

/-- A tool with a required argument, as the services of a bank have them. -/
def summaryTool : AuthorizedTool where
  toolName := "get_payment_summary"
  requireInput := some "client_name"
  fnName := "get_payment_summary"

/-- A caller who passes an environment of his own. -/
def localBypass : Kwargs :=
  ⟨[("client_name", Json.str " Acme "), ("environment", Json.str "local")], by decide⟩

/-- What the tool runs on: the name stripped of its blanks, and the
`environment` the caller has chosen as it is. -/
def localArgs : Kwargs :=
  ⟨[("client_name", Json.str "Acme"), ("environment", Json.str "local")], by decide⟩

/-- The tool is called with an argument that names an environment, and the
engine grants what it is asked. -/
def askAndGrant : List (Event Unit) :=
  [.invoke 0 () true localBypass,
    .reply 0 (.answered 200 (some (.map [("result", Json.bool true)])))]

/-- **The environment of the caller was not asked about.** -/
theorem granted_of_run_localBypass :
    Invoked (fun _ => summaryTool) (fun _ => true) askAndGrant 0 () localArgs
      ∧ ∃ body, Asks { environment := .prod } summaryTool localArgs body
        ∧ (machine (fun _ => summaryTool) (fun _ => true)).Happened (Grants 0 body)
          (start { environment := .prod } 0) askAndGrant := by
  obtain ⟨t, hrun, hstage⟩ : ∃ t, (machine (fun _ => summaryTool) (fun _ => true)).run
      (start { environment := .prod } 0) askAndGrant = some t
      ∧ t.stage 0 = .running () localArgs := ⟨_, rfl, rfl⟩
  exact granted_of_run hrun hstage

end AuthorizedCalls
