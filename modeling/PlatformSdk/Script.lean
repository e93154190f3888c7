import Mathlib.Data.List.Count

/-!
# Programs that make calls, any of which may raise

A **script** is a program whose calls can fail: given which calls raise, and
what, it makes some calls and ends with a value or an exception. What it reads
of the world otherwise is an argument, so that one script is one control flow,
with `raise` and `finally`, and nothing else.

Code that sets something up, serves, and tears it down again comes to a
`Plan`: calls in a row, a body in a `try`, and in its `finally` calls in a row
with a `try`/`finally` of their own among them. `Plan.mem_log_script` says which
calls such a script makes: one that stands behind others is made when they
have all succeeded, except that a `finally` is reached either way.
`Plan.wayTo` lists the acts a call stands behind, and whether something
acquired is released is then a question about two such lists
(`Plan.PlacedBy.mem_log_iff_clear`).
-/

/-- **A script** with calls in `γ`, exceptions in `ε` and a value in `α`: the
calls it makes and how it ends, given which calls raise. -/
def Script (γ ε α : Type) := (γ → Option ε) → List γ × Except ε α

namespace Script

variable {γ ε α β : Type}

/-- The calls made, in order, up to the one that raises. -/
def log (p : Script γ ε α) (raises : γ → Option ε) : List γ := (p raises).1

/-- How the script ends: with a value, or with what is raised. -/
def result (p : Script γ ε α) (raises : γ → Option ε) : Except ε α := (p raises).2

instance : Monad (Script γ ε) where
  pure a := fun _ => ([], .ok a)
  bind p f := fun raises =>
    match p raises with
    | (cs, .ok a) => (cs ++ (f a raises).1, (f a raises).2)
    | (cs, .error e) => (cs, .error e)

theorem bind_ok {p : Script γ ε α} {f : α → Script γ ε β} {raises : γ → Option ε} {cs : List γ}
    {a : α} (h : p raises = (cs, .ok a)) :
    (p >>= f) raises = (cs ++ (f a raises).1, (f a raises).2) := by
  show (match p raises with
    | (cs, .ok a) => (cs ++ (f a raises).1, (f a raises).2)
    | (cs, .error e) => (cs, .error e)) = _
  rw [h]

theorem bind_error {p : Script γ ε α} {f : α → Script γ ε β} {raises : γ → Option ε} {cs : List γ}
    {e : ε} (h : p raises = (cs, .error e)) : (p >>= f) raises = (cs, .error e) := by
  show (match p raises with
    | (cs, .ok a) => (cs ++ (f a raises).1, (f a raises).2)
    | (cs, .error e) => (cs, .error e)) = _
  rw [h]

instance : LawfulMonad (Script γ ε) := by
  refine LawfulMonad.mk' _ (fun p => ?_) (fun a f => rfl) (fun p f g => ?_)
  · funext raises
    show (p >>= pure) raises = p raises
    rcases h : p raises with ⟨cs, e | a⟩
    · exact bind_error h
    · rw [bind_ok h]
      exact Prod.ext (List.append_nil cs) rfl
  · funext raises
    rcases h : p raises with ⟨cs, e | a⟩
    · rw [bind_error h, bind_error (bind_error h)]
    · rcases h' : f a raises with ⟨ds, e | b⟩
      · have hp : (p >>= f) raises = (cs ++ ds, .error e) := by rw [bind_ok h, h']
        rw [bind_error hp, bind_ok h, bind_error h']
      · have hp : (p >>= f) raises = (cs ++ ds, .ok b) := by rw [bind_ok h, h']
        rw [bind_ok hp, bind_ok h, bind_ok h']
        exact Prod.ext (List.append_assoc _ _ _) rfl

/-- A call that may raise, after which nothing else is made if it does. -/
def call (c : γ) : Script γ ε Unit := fun raises =>
  ([c], match raises c with | none => .ok () | some e => .error e)

/-- A call that raises nothing here: its exception, if any, is kept, or caught,
or the script has what comes of it as an argument. -/
def start (c : γ) : Script γ ε Unit := fun _ => ([c], .ok ())

/-- A call under a condition, and nothing where it does not hold. -/
def callIf (b : Bool) (c : γ) : Script γ ε Unit := if b then call c else pure ()

/-- `raise`. -/
def throw (e : ε) : Script γ ε α := fun _ => ([], .error e)

/-- **`try: p finally: q`**: the exception of `q` wins over that of `p`. -/
def tryFinally (p q : Script γ ε Unit) : Script γ ε Unit := fun raises =>
  match q raises with
  | (ds, .ok _) => ((p raises).1 ++ ds, (p raises).2)
  | (ds, .error e) => ((p raises).1 ++ ds, .error e)

/-- What follows is made where the first part ends normally. -/
theorem mem_log_bind {p q : Script γ ε Unit} {raises : γ → Option ε} {c : γ} :
    c ∈ (p >>= fun _ => q).log raises
      ↔ c ∈ p.log raises ∨ p.result raises = .ok () ∧ c ∈ q.log raises := by
  rcases h : p raises with ⟨cs, e | a⟩
  · rw [log, bind_error h, log, h, result, h]
    simp
  · rw [log, bind_ok h, log, h, result, h]
    simp [log]

theorem result_bind_eq_ok_iff {p q : Script γ ε Unit} {raises : γ → Option ε} :
    (p >>= fun _ => q).result raises = .ok ()
      ↔ p.result raises = .ok () ∧ q.result raises = .ok () := by
  rcases h : p raises with ⟨cs, e | a⟩
  · rw [result, bind_error h, result, h]
    simp
  · rw [result, bind_ok h, result, h]
    simp [result]

/-- A `finally` is reached either way, so its calls stand behind those of the
`try`, raised or not. -/
theorem log_tryFinally (p q : Script γ ε Unit) (raises : γ → Option ε) :
    (tryFinally p q).log raises = p.log raises ++ q.log raises := by
  unfold log tryFinally
  split <;> simp_all

theorem result_tryFinally_eq_ok_iff {p q : Script γ ε Unit} {raises : γ → Option ε} :
    (tryFinally p q).result raises = .ok ()
      ↔ p.result raises = .ok () ∧ q.result raises = .ok () := by
  unfold result tryFinally
  split <;> simp_all

/-- What is made at most so often in either part. -/
theorem count_log_bind_le [DecidableEq γ] {p q : Script γ ε Unit} {raises : γ → Option ε} {c : γ} :
    ((p >>= fun _ => q).log raises).count c
      ≤ (p.log raises).count c + (q.log raises).count c := by
  rcases h : p raises with ⟨cs, e | a⟩
  · rw [log, bind_error h, log, h]
    exact Nat.le_add_right _ _
  · rw [log, bind_ok h, log, h, List.count_append]
    exact Nat.le_refl _

end Script

/-! ## Calls in a row -/

/-- **One act of a script that goes straight on**: a call that may raise, a call
that does not, or an exception of its own. -/
inductive Act (γ ε : Type) where
  | call (c : γ)
  | start (c : γ)
  | fail (e : ε)

namespace Act

variable {γ ε : Type}

/-- An act as a script. -/
def script : Act γ ε → Script γ ε Unit
  | .call c => Script.call c
  | .start c => Script.start c
  | .fail e => Script.throw e

/-- The call an act makes. -/
def calls : Act γ ε → List γ
  | .call c | .start c => [c]
  | .fail _ => []

/-- Whether the script goes on behind an act. -/
def Succeeds (raises : γ → Option ε) : Act γ ε → Prop
  | .call c => raises c = none
  | .start _ => True
  | .fail _ => False

theorem log_script (a : Act γ ε) (raises : γ → Option ε) : a.script.log raises = a.calls := by
  cases a <;> rfl

theorem result_script_eq_ok_iff (a : Act γ ε) (raises : γ → Option ε) :
    a.script.result raises = .ok () ↔ a.Succeeds raises := by
  cases a with
  | call c =>
    show (match raises c with | none => Except.ok () | some e => Except.error e) = _ ↔ _
    rw [Succeeds]
    cases raises c <;> simp
  | start c => exact iff_of_true rfl trivial
  | fail e => exact iff_of_false nofun id

end Act

/-- The acts all succeed, so that a script goes on behind them. -/
def Clear {γ ε : Type} (raises : γ → Option ε) (acts : List (Act γ ε)) : Prop :=
  ∀ a ∈ acts, a.Succeeds raises

namespace Script

variable {γ ε : Type} {raises : γ → Option ε}

/-- **The acts one after the other**, up to the first that does not
succeed. -/
def perform : List (Act γ ε) → Script γ ε Unit
  | [] => pure ()
  | a :: acts => do
    a.script
    perform acts

@[simp] theorem perform_nil : perform ([] : List (Act γ ε)) = pure () := rfl

theorem perform_append (acts acts' : List (Act γ ε)) :
    perform (acts ++ acts') = (perform acts >>= fun _ => perform acts') := by
  induction acts with
  | nil => rw [List.nil_append, perform_nil, pure_bind]
  | cons a acts ih => rw [List.cons_append, perform, perform, ih, bind_assoc]

@[simp] theorem perform_singleton (a : Act γ ε) : perform [a] = a.script := bind_pure _

theorem clear_nil : Clear raises [] := fun _ h => absurd h List.not_mem_nil

theorem clear_append_iff {acts acts' : List (Act γ ε)} :
    Clear raises (acts ++ acts') ↔ Clear raises acts ∧ Clear raises acts' :=
  List.forall_mem_append

theorem clear_cons_iff {a : Act γ ε} {acts : List (Act γ ε)} :
    Clear raises (a :: acts) ↔ a.Succeeds raises ∧ Clear raises acts := List.forall_mem_cons

/-- Which exceptions the calls raise does not matter to this, only which of them
raise one. -/
theorem clear_congr {raises' : γ → Option ε} {acts : List (Act γ ε)}
    (h : ∀ c ∈ acts.flatMap Act.calls, raises c = none ↔ raises' c = none) :
    Clear raises acts ↔ Clear raises' acts := by
  refine forall₂_congr fun a ha => ?_
  cases a with
  | call c => exact h c (List.mem_flatMap.mpr ⟨_, ha, List.mem_singleton_self c⟩)
  | start c | fail e => exact Iff.rfl

/-- They are through when all of them succeed. -/
theorem result_perform_eq_ok_iff {acts : List (Act γ ε)} :
    (perform acts).result raises = .ok () ↔ Clear raises acts := by
  induction acts with
  | nil => exact iff_of_true rfl clear_nil
  | cons a acts ih =>
    rw [perform, result_bind_eq_ok_iff, a.result_script_eq_ok_iff, ih, clear_cons_iff]

/-- Only the calls of the acts are made. -/
theorem mem_of_mem_log_perform {acts : List (Act γ ε)} {c : γ}
    (h : c ∈ (perform acts).log raises) : c ∈ acts.flatMap Act.calls := by
  induction acts with
  | nil => exact absurd h List.not_mem_nil
  | cons a acts ih =>
    rw [List.flatMap_cons]
    rcases mem_log_bind.mp h with h | ⟨-, h⟩
    · exact List.mem_append_left _ (a.log_script raises ▸ h)
    · exact List.mem_append_right _ (ih h)

/-- **A call is made when the acts before it succeed.** -/
theorem mem_log_perform_iff {pre post : List (Act γ ε)} {a : Act γ ε} {c : γ} (hc : c ∈ a.calls)
    (hpre : c ∉ pre.flatMap Act.calls) :
    c ∈ (perform (pre ++ a :: post)).log raises ↔ Clear raises pre := by
  have hcall : c ∈ (perform (a :: post)).log raises :=
    mem_log_bind.mpr (Or.inl ((a.log_script raises).symm ▸ hc))
  rw [perform_append, mem_log_bind, result_perform_eq_ok_iff]
  exact ⟨fun h => h.elim (fun h => absurd (mem_of_mem_log_perform h) hpre) And.left,
    fun h => Or.inr ⟨h, hcall⟩⟩

/-- No call is made more often than it stands there. -/
theorem count_log_perform_le [DecidableEq γ] (acts : List (Act γ ε)) (c : γ) :
    ((perform acts).log raises).count c ≤ (acts.flatMap Act.calls).count c := by
  induction acts with
  | nil => exact Nat.le_refl _
  | cons a acts ih =>
    rw [List.flatMap_cons, List.count_append, ← a.log_script raises]
    exact Nat.le_trans count_log_bind_le (Nat.add_le_add_left ih _)

/-- A loop of acts is the acts in a row, the first that raises ending it. -/
theorem forM_script {β : Type} (f : β → Act γ ε) (xs : List β) :
    xs.forM (fun x => (f x).script) = perform (xs.map f) := by
  induction xs with
  | nil => rfl
  | cons x xs ih =>
    show ((f x).script >>= fun _ => xs.forM fun x => (f x).script) = _
    rw [ih, List.map_cons, perform]

/-- A call under a condition, as acts. -/
def actIf (b : Bool) (c : γ) : List (Act γ ε) := if b then [.call c] else []

theorem callIf_eq (b : Bool) (c : γ) : (callIf b c : Script γ ε Unit) = perform (actIf b c) := by
  cases b with
  | false => rfl
  | true => exact (perform_singleton (.call c)).symm

@[simp] theorem mem_calls_actIf {b : Bool} {c d : γ} :
    d ∈ (actIf b c : List (Act γ ε)).flatMap Act.calls ↔ b = true ∧ d = c := by
  cases b <;> simp [actIf, Act.calls]

@[simp] theorem clear_actIf_iff {b : Bool} {c : γ} :
    Clear raises (actIf b c) ↔ (b = true → raises c = none) := by
  cases b <;> simp [actIf, Clear, Act.Succeeds]

theorem count_calls_actIf_le [DecidableEq γ] (b : Bool) (c d : γ) :
    ((actIf b c : List (Act γ ε)).flatMap Act.calls).count d ≤ if c = d then 1 else 0 := by
  cases b with
  | false => exact Nat.zero_le _
  | true =>
    show [c].count d ≤ _
    rw [List.count_singleton]
    simp only [beq_iff_eq, Nat.le_refl]

end Script

/-! ## Set up, serve, tear down -/

/-- **What a lifespan does**: acts in a row; a body; and in its `finally` acts
in a row, among them a `try` with a `finally` of its own. -/
structure Plan (γ ε : Type) where
  startup : List (Act γ ε)
  body : γ
  before : List (Act γ ε)
  guarded : List (Act γ ε)
  final : List (Act γ ε)
  after : List (Act γ ε)

namespace Plan

open Script

variable {γ ε : Type} {raises : γ → Option ε}

/-- The plan as a script. -/
def script (p : Plan γ ε) : Script γ ε Unit := do
  perform p.startup
  tryFinally (call p.body) (do
    perform p.before
    tryFinally (perform p.guarded) (perform p.final)
    perform p.after)

/-- The parts of a plan, by where they stand around the body. -/
inductive Place where
  | startup
  | body
  | before
  | guarded
  | final
  | after
  deriving DecidableEq

/-- The acts of a part. -/
def acts (p : Plan γ ε) : Place → List (Act γ ε)
  | .startup => p.startup
  | .body => [.call p.body]
  | .before => p.before
  | .guarded => p.guarded
  | .final => p.final
  | .after => p.after

/-- **The acts a part stands behind**: all before it, but for the body, and but
for the inner `try` where the part is its `finally`. -/
def entry (p : Plan γ ε) : Place → List (Act γ ε)
  | .startup => []
  | .body => p.startup
  | .before => p.startup
  | .guarded => p.startup ++ p.before
  | .final => p.startup ++ p.before
  | .after => p.startup ++ p.before ++ (p.guarded ++ p.final)

/-- The startup succeeds, and so does what the `finally` begins with. -/
def StartsAndStops (p : Plan γ ε) (raises : γ → Option ε) : Prop :=
  Clear raises p.startup ∧ Clear raises p.before

/-- **Which calls a plan makes**: those of the parts it enters, as far as it
gets in them. -/
theorem mem_log_script {p : Plan γ ε} {c : γ} :
    c ∈ p.script.log raises
      ↔ ∃ x, Clear raises (p.entry x) ∧ c ∈ (perform (p.acts x)).log raises := by
  have hplaces : ∀ P : Place → Prop, (∃ x, P x)
      ↔ P .startup ∨ P .body ∨ P .before ∨ (P .guarded ∨ P .final) ∨ P .after := by
    refine fun P => ⟨?_, ?_⟩
    · rintro ⟨x, hx⟩
      cases x <;> simp [hx]
    · rintro (h | h | h | (h | h) | h) <;> exact ⟨_, h⟩
  rw [script, mem_log_bind, result_perform_eq_ok_iff, log_tryFinally, List.mem_append,
    mem_log_bind, result_perform_eq_ok_iff, mem_log_bind, log_tryFinally, List.mem_append,
    result_tryFinally_eq_ok_iff, result_perform_eq_ok_iff, result_perform_eq_ok_iff, hplaces]
  simp only [entry, acts, perform_singleton, Act.script, clear_append_iff, clear_nil, true_and]
  tauto

/-- The calls of a part. -/
def part (p : Plan γ ε) (x : Place) : List γ := (p.acts x).flatMap Act.calls

/-- **Every call has its place**, so that none stands in two parts of the
plan. -/
def PlacedBy (p : Plan γ ε) (place : γ → Place) : Prop := ∀ x, ∀ c ∈ p.part x, place c = x

/-- **The call is made exactly when these acts succeed.** -/
def Behind (p : Plan γ ε) (c : γ) (way : List (Act γ ε)) : Prop :=
  ∀ raises, c ∈ p.script.log raises ↔ Clear raises way

/-- A call is made in the part where its place is, which is entered then. -/
theorem PlacedBy.mem_log_iff {p : Plan γ ε} {place : γ → Place} (hp : p.PlacedBy place) {c : γ} :
    c ∈ p.script.log raises
      ↔ Clear raises (p.entry (place c)) ∧ c ∈ (perform (p.acts (place c))).log raises := by
  rw [mem_log_script]
  constructor
  · rintro ⟨x, hentry, hmem⟩
    have hx : place c = x := hp x c (mem_of_mem_log_perform hmem)
    exact hx.symm ▸ ⟨hentry, hmem⟩
  · exact fun h => ⟨place c, h⟩

/-- The body is run behind the startup, and so exactly when nothing in it
raises. -/
theorem PlacedBy.body_mem_log_iff {p : Plan γ ε} {place : γ → Place} (hp : p.PlacedBy place) :
    p.body ∈ p.script.log raises ↔ Clear raises p.startup := by
  have hplace : place p.body = .body := hp .body p.body (List.mem_singleton_self _)
  have hcall : p.body ∈ (perform (p.acts .body)).log raises :=
    (mem_log_perform_iff (List.mem_singleton_self _) List.not_mem_nil).mpr clear_nil
  rw [hp.mem_log_iff, hplace]
  exact and_iff_left hcall

/-- **A call stands behind what its part stands behind, and behind the acts of
that part before its own.** -/
theorem PlacedBy.behind {p : Plan γ ε} {place : γ → Place} (hp : p.PlacedBy place) {c : γ}
    {pre post : List (Act γ ε)} {a : Act γ ε} (hacts : p.acts (place c) = pre ++ a :: post)
    (hc : c ∈ a.calls) (hpre : c ∉ pre.flatMap Act.calls) :
    p.Behind c (p.entry (place c) ++ pre) := by
  intro raises
  rw [hp.mem_log_iff, hacts, mem_log_perform_iff hc hpre, clear_append_iff]

/-! ### The way to a call -/

section WayTo

variable [DecidableEq γ] {p : Plan γ ε} {place : γ → Place} {c : γ}

/-- The acts before a call, which are what has to succeed for it to be made. -/
def upTo (c : γ) (acts : List (Act γ ε)) : List (Act γ ε) :=
  acts.takeWhile (fun a => decide (c ∉ a.calls))

/-- The acts a call stands behind. -/
def wayTo (p : Plan γ ε) (place : γ → Place) (c : γ) : List (Act γ ε) :=
  p.entry (place c) ++ upTo c (p.acts (place c))

/-- The acts up to a call, the act that makes it, and the rest. -/
theorem exists_eq_upTo {acts : List (Act γ ε)} (h : c ∈ acts.flatMap Act.calls) :
    ∃ a post, acts = upTo c acts ++ a :: post ∧ c ∈ a.calls
      ∧ c ∉ (upTo c acts).flatMap Act.calls := by
  induction acts with
  | nil => exact absurd h List.not_mem_nil
  | cons a acts ih =>
    by_cases hc : c ∈ a.calls
    · have hup : upTo c (a :: acts) = [] := by simp [upTo, hc]
      exact ⟨a, acts, by rw [hup, List.nil_append], hc, by rw [hup]; exact List.not_mem_nil⟩
    · have hup : upTo c (a :: acts) = a :: upTo c acts := by simp [upTo, hc]
      rw [List.flatMap_cons, List.mem_append] at h
      obtain ⟨b, post, hacts, hb, hpre⟩ := ih (h.resolve_left hc)
      refine ⟨b, post, by rw [hup, List.cons_append, ← hacts], hb, ?_⟩
      rw [hup, List.flatMap_cons, List.mem_append]
      exact fun h' => h'.elim hc hpre

/-- **A call of a plan is made exactly when the acts it stands behind
succeed.** -/
theorem PlacedBy.mem_log_iff_clear (hp : p.PlacedBy place) :
    c ∈ p.script.log raises ↔ c ∈ p.part (place c) ∧ Clear raises (p.wayTo place c) := by
  constructor
  · intro h
    have hmem : c ∈ p.part (place c) := mem_of_mem_log_perform (hp.mem_log_iff.mp h).2
    obtain ⟨a, post, hacts, hc, hpre⟩ := exists_eq_upTo hmem
    exact ⟨hmem, (hp.behind hacts hc hpre raises).mp h⟩
  · rintro ⟨hmem, hclear⟩
    obtain ⟨a, post, hacts, hc, hpre⟩ := exists_eq_upTo hmem
    exact (hp.behind hacts hc hpre raises).mpr hclear

/-- A call of the startup is made behind the acts before it. -/
theorem PlacedBy.mem_log_startup_iff (hp : p.PlacedBy place) (hplace : place c = .startup) :
    c ∈ p.script.log raises
      ↔ c ∈ p.part .startup ∧ Clear raises (upTo c p.startup) := by
  rw [hp.mem_log_iff_clear, wayTo, hplace]
  exact Iff.rfl

/-- A call of the last part is made behind everything but the body. -/
theorem PlacedBy.mem_log_after_iff (hp : p.PlacedBy place) (hplace : place c = .after) :
    c ∈ p.script.log raises
      ↔ c ∈ p.part .after ∧ p.StartsAndStops raises ∧ Clear raises (p.guarded ++ p.final)
        ∧ Clear raises (upTo c p.after) := by
  rw [hp.mem_log_iff_clear, wayTo, hplace, clear_append_iff, entry, clear_append_iff,
    clear_append_iff, and_assoc]
  exact Iff.rfl

end WayTo

/-! ### How often a call is made -/

section Count

variable [DecidableEq γ]

/-- No call is made more often than it stands in the plan. -/
theorem count_log_script_le (p : Plan γ ε) (c : γ) :
    (p.script.log raises).count c
      ≤ (p.part .startup).count c + ((p.part .body).count c + ((p.part .before).count c
        + ((p.part .guarded).count c + (p.part .final).count c + (p.part .after).count c))) := by
  have hinner : ((tryFinally (perform p.guarded) (perform p.final) >>= fun _ =>
        perform p.after).log raises).count c
      ≤ (p.part .guarded).count c + (p.part .final).count c + (p.part .after).count c := by
    refine Nat.le_trans count_log_bind_le (Nat.add_le_add ?_ (count_log_perform_le p.after c))
    rw [log_tryFinally, List.count_append]
    exact Nat.add_le_add (count_log_perform_le p.guarded c) (count_log_perform_le p.final c)
  have hfinally : ((perform p.before >>= fun _ => tryFinally (perform p.guarded) (perform p.final)
        >>= fun _ => perform p.after).log raises).count c
      ≤ (p.part .before).count c
        + ((p.part .guarded).count c + (p.part .final).count c + (p.part .after).count c) :=
    Nat.le_trans count_log_bind_le (Nat.add_le_add (count_log_perform_le p.before c) hinner)
  refine Nat.le_trans count_log_bind_le (Nat.add_le_add (count_log_perform_le p.startup c) ?_)
  rw [log_tryFinally, List.count_append]
  exact Nat.add_le_add (Nat.le_refl _) hfinally

/-- No call is made more often than it stands in its part. -/
theorem PlacedBy.count_log_le {p : Plan γ ε} {place : γ → Place} (hp : p.PlacedBy place) (c : γ) :
    (p.script.log raises).count c ≤ (p.part (place c)).count c := by
  have hzero : ∀ x, place c ≠ x → (p.part x).count c = 0 :=
    fun x hne => List.count_eq_zero.mpr fun hmem => hne (hp x c hmem)
  refine Nat.le_trans (p.count_log_script_le c) ?_
  cases hplace : place c <;> simp [hzero, hplace]

/-- A call that is made, and stands once in its part, is made once. -/
theorem PlacedBy.count_log_eq_one {p : Plan γ ε} {place : γ → Place} (hp : p.PlacedBy place) {c : γ}
    (hpart : (p.part (place c)).count c ≤ 1) (hmem : c ∈ p.script.log raises) :
    (p.script.log raises).count c = 1 :=
  Nat.le_antisymm (Nat.le_trans (hp.count_log_le c) hpart) (List.count_pos_iff.mpr hmem)

end Count

end Plan
