import Mathlib.Data.List.Induction

/-!
# Runs of a machine whose events carry their outcomes

A program that waits on the outside world – a coroutine awaiting a reply, a
server answering requests – is read here as a **machine**: a partial step
function `step s a`, where the event `a` names who moves *and* what the
outside world answered, so that the step itself is deterministic and an
interleaving is nothing but a list of events. `step s a = none` says that
the event is not possible in `s`.

What holds in every state a machine reaches is proved in one way
throughout: a step lemma, and `Machine.run_invariant` for the whole run.
When the step lemma needs to know something about the step taken,
`Machine.Along` says that every step of a run satisfies a condition, and
`Machine.run_invariant_along` is the rule for it. Where a state is to be
explained by what happened before, `Machine.Happened` says that some step of
the run satisfies a condition, and `Machine.run_history` is the rule for an
invariant that speaks of the run so far.
-/

variable {σ α : Type*}

/-- **A machine**: the state after an event, `none` where the event cannot
happen. -/
structure Machine (σ α : Type*) where
  /-- The state after the event. -/
  step : σ → α → Option σ

namespace Machine

variable (M : Machine σ α)

/-- The state after a list of events, `none` as soon as one of them cannot
happen. -/
def run : σ → List α → Option σ
  | s, [] => some s
  | s, a :: as => (M.step s a).bind (fun s' => run s' as)

@[simp] theorem run_nil (s : σ) : M.run s [] = some s := rfl

@[simp] theorem run_cons (s : σ) (a : α) (as : List α) :
    M.run s (a :: as) = (M.step s a).bind (fun s' => M.run s' as) := rfl

/-- A run that starts with `a` takes a step and then runs on. -/
theorem run_cons_eq_some {s t : σ} {a : α} {as : List α} :
    M.run s (a :: as) = some t ↔ ∃ s', M.step s a = some s' ∧ M.run s' as = some t := by
  rw [run_cons, Option.bind_eq_some_iff]

/-- After a first step the run goes on from there. -/
theorem run_cons_of_step {s s' : σ} {a : α} (h : M.step s a = some s') (as : List α) :
    M.run s (a :: as) = M.run s' as := by
  rw [run_cons, h, Option.bind_some]

theorem run_singleton {s s' : σ} {a : α} (h : M.step s a = some s') :
    M.run s [a] = some s' := M.run_cons_of_step h []

/-- A run in two parts is the second part run from where the first ends. -/
theorem run_append (s : σ) (as bs : List α) :
    M.run s (as ++ bs) = (M.run s as).bind (fun s' => M.run s' bs) := by
  induction as generalizing s with
  | nil => rfl
  | cons a as ih =>
    rw [List.cons_append, run_cons, run_cons, Option.bind_assoc]
    exact congrArg _ (funext fun s' => ih s')

/-- **Every step of the run from `s` satisfies `C`**: the condition is on
the state a step is taken in and on the event. -/
def Along (C : σ → α → Prop) : σ → List α → Prop
  | _, [] => True
  | s, a :: as => C s a ∧ ∀ s', M.step s a = some s' → Along C s' as

/-- A condition on the event alone holds along every run of such events. -/
theorem along_of_forall {C : σ → α → Prop} {as : List α}
    (h : ∀ a ∈ as, ∀ s, C s a) (s : σ) : M.Along C s as := by
  induction as generalizing s with
  | nil => exact trivial
  | cons a as ih =>
    exact ⟨h a List.mem_cons_self s,
      fun s' _ => ih (fun b hb => h b (List.mem_cons_of_mem a hb)) s'⟩

/-- **The invariant rule under a condition on the steps.** What every step
satisfying `C` preserves, every run of such steps preserves. -/
theorem run_invariant_along {Inv : σ → Prop} {C : σ → α → Prop}
    (hstep : ∀ s a s', Inv s → C s a → M.step s a = some s' → Inv s')
    {s t : σ} {as : List α} (hs : Inv s) (hC : M.Along C s as)
    (hrun : M.run s as = some t) : Inv t := by
  induction as generalizing s with
  | nil => exact Option.some.inj hrun ▸ hs
  | cons a as ih =>
    obtain ⟨s', h₁, h₂⟩ := M.run_cons_eq_some.mp hrun
    exact ih (hstep s a s' hs hC.1 h₁) (hC.2 s' h₁) h₂

/-- **The invariant rule.** What every step preserves, every run
preserves. -/
theorem run_invariant {Inv : σ → Prop}
    (hstep : ∀ s a s', Inv s → M.step s a = some s' → Inv s')
    {s t : σ} {as : List α} (hs : Inv s) (hrun : M.run s as = some t) : Inv t :=
  M.run_invariant_along (C := fun _ _ => True) (fun s a s' h _ hs' => hstep s a s' h hs') hs
    (M.along_of_forall (fun _ _ _ => trivial) s) hrun

/-- **The invariant rule under a condition on the events.** What every step of
an event satisfying `C` preserves, every run of such events preserves. -/
theorem run_invariant_of_forall {Inv : σ → Prop} {C : α → Prop}
    (hstep : ∀ s a s', Inv s → C a → M.step s a = some s' → Inv s')
    {s t : σ} {as : List α} (hs : Inv s) (hC : ∀ a ∈ as, C a)
    (hrun : M.run s as = some t) : Inv t :=
  M.run_invariant_along hstep hs (M.along_of_forall (fun a ha _ => hC a ha) s) hrun

/-- **A condition along a run from an invariant**: what every step satisfying
`C` from a state of the invariant also satisfies holds along a run of such
steps. -/
theorem along_of_invariant {I : σ → Prop} {C D : σ → α → Prop}
    (hstep : ∀ s a s', I s → C s a → M.step s a = some s' → I s')
    (himp : ∀ s a, I s → C s a → D s a) {s : σ} {as : List α} (hs : I s)
    (hC : M.Along C s as) : M.Along D s as := by
  induction as generalizing s with
  | nil => exact trivial
  | cons a as ih =>
    exact ⟨himp s a hs hC.1, fun s' h => ih (hstep s a s' hs hC.1 h) (hC.2 s' h)⟩

/-- A weaker condition holds along the same run. -/
theorem along_mono {C D : σ → α → Prop} (h : ∀ s a, C s a → D s a) {s : σ} {as : List α}
    (hC : M.Along C s as) : M.Along D s as :=
  M.along_of_invariant (I := fun _ => True) (fun _ _ _ _ _ _ => trivial)
    (fun s a _ => h s a) trivial hC

/-- Two conditions hold along a run when both do. -/
theorem along_and {C D : σ → α → Prop} {s : σ} {as : List α} (hC : M.Along C s as)
    (hD : M.Along D s as) : M.Along (fun s a => C s a ∧ D s a) s as := by
  induction as generalizing s with
  | nil => exact trivial
  | cons a as ih => exact ⟨⟨hC.1, hD.1⟩, fun s' h => ih (hC.2 s' h) (hD.2 s' h)⟩

/-- **The exact condition along a run**, with an invariant of its own. Where a
property survives a step if and only if the step satisfies `C`, as long as `J`
holds, and such a step keeps `J`, the property holds in every state a run comes
through if and only if `C` holds along the run. -/
theorem forall_prefix_iff_along_of {Inv J : σ → Prop} {C : σ → α → Prop}
    (hstep : ∀ s a s', J s → Inv s → M.step s a = some s' → (Inv s' ↔ C s a))
    (hkeep : ∀ s a s', J s → C s a → M.step s a = some s' → J s') {s t : σ}
    {as : List α} (hJ : J s) (hs : Inv s) (hrun : M.run s as = some t) :
    (∀ bs u, bs <+: as → M.run s bs = some u → Inv u) ↔ M.Along C s as := by
  induction as generalizing s with
  | nil =>
    refine ⟨fun _ => trivial, fun _ bs u hbs hu => ?_⟩
    rw [List.prefix_nil.mp hbs] at hu
    exact Option.some.inj hu ▸ hs
  | cons a as ih =>
    obtain ⟨s', h₁, h₂⟩ := M.run_cons_eq_some.mp hrun
    constructor
    · intro h
      have hs' : Inv s' :=
        h [a] s' (List.cons_prefix_cons.mpr ⟨rfl, List.nil_prefix⟩) (M.run_singleton h₁)
      have ha : C s a := (hstep s a s' hJ hs h₁).mp hs'
      refine ⟨ha, fun u hu => ?_⟩
      obtain rfl := Option.some.inj (h₁.symm.trans hu)
      refine (ih (hkeep s a s' hJ ha h₁) hs' h₂).mp fun bs u hbs hrun' => ?_
      exact h (a :: bs) u (List.cons_prefix_cons.mpr ⟨rfl, hbs⟩)
        ((M.run_cons_of_step h₁ bs).trans hrun')
    · rintro ⟨ha, has⟩ bs u hbs hu
      have hs' : Inv s' := (hstep s a s' hJ hs h₁).mpr ha
      rcases List.prefix_cons_iff.mp hbs with rfl | ⟨cs, rfl, hcs⟩
      · exact Option.some.inj hu ▸ hs
      · rw [M.run_cons_of_step h₁] at hu
        exact (ih (hkeep s a s' hJ ha h₁) hs' h₂).mpr (has s' h₁) cs u hcs hu

/-- **The exact condition along a run.** Where an invariant survives a step if
and only if the step satisfies `C`, it holds in every state a run comes
through if and only if `C` holds along the run. -/
theorem forall_prefix_iff_along {Inv : σ → Prop} {C : σ → α → Prop}
    (hstep : ∀ s a s', Inv s → M.step s a = some s' → (Inv s' ↔ C s a)) {s t : σ}
    {as : List α} (hs : Inv s) (hrun : M.run s as = some t) :
    (∀ bs u, bs <+: as → M.run s bs = some u → Inv u) ↔ M.Along C s as :=
  M.forall_prefix_iff_along_of (J := fun _ => True) (fun s a s' _ => hstep s a s')
    (fun _ _ _ _ _ _ => trivial) trivial hs hrun

/-! ## Histories -/

/-- A run that ends with `a` runs and then takes a step. -/
theorem run_concat_eq_some {s t : σ} {a : α} {as : List α} :
    M.run s (as ++ [a]) = some t ↔ ∃ s', M.run s as = some s' ∧ M.step s' a = some t := by
  rw [run_append, Option.bind_eq_some_iff]
  refine exists_congr fun s' => and_congr_right fun _ => ?_
  rw [run_cons, Option.bind_eq_some_iff]
  exact ⟨fun ⟨u, hu, hut⟩ => Option.some.inj hut ▸ hu, fun h => ⟨t, h, rfl⟩⟩

/-- A condition along a run in two parts holds along each. -/
theorem along_append {C : σ → α → Prop} {s t : σ} {as bs : List α}
    (hrun : M.run s as = some t) :
    M.Along C s (as ++ bs) ↔ M.Along C s as ∧ M.Along C t bs := by
  induction as generalizing s with
  | nil =>
    obtain rfl := Option.some.inj hrun
    exact iff_of_eq (true_and _).symm
  | cons a as ih =>
    obtain ⟨s', h₁, h₂⟩ := M.run_cons_eq_some.mp hrun
    have hs' : ∀ {D : σ → Prop}, (∀ u, M.step s a = some u → D u) ↔ D s' :=
      fun {D} => ⟨fun h => h s' h₁, fun h u hu => Option.some.inj (h₁.symm.trans hu) ▸ h⟩
    rw [List.cons_append, Along, Along, hs', hs', ih h₂, and_assoc]

/-- A condition that fails in the last step fails along the run. -/
theorem not_along_concat {C : σ → α → Prop} {s t : σ} {as : List α} {a : α}
    (hrun : M.run s as = some t) (h : ¬ C t a) : ¬ M.Along C s (as ++ [a]) :=
  fun hC => h ((M.along_append hrun).mp hC).2.1

/-- **Some step of the run from `s` satisfies `P`.** -/
def Happened (P : σ → α → Prop) : σ → List α → Prop
  | _, [] => False
  | s, a :: as => P s a ∨ ∃ s', M.step s a = some s' ∧ Happened P s' as

/-- What happened in a run in two parts happened in one of them. -/
theorem happened_append {P : σ → α → Prop} {s t : σ} {as bs : List α}
    (hrun : M.run s as = some t) :
    M.Happened P s (as ++ bs) ↔ M.Happened P s as ∨ M.Happened P t bs := by
  induction as generalizing s with
  | nil =>
    obtain rfl := Option.some.inj hrun
    exact iff_of_eq (false_or _).symm
  | cons a as ih =>
    obtain ⟨s', h₁, h₂⟩ := M.run_cons_eq_some.mp hrun
    have hs' : ∀ {D : σ → Prop}, (∃ u, M.step s a = some u ∧ D u) ↔ D s' :=
      fun {D} => ⟨fun ⟨u, hu, h⟩ => Option.some.inj (hu.symm.trans h₁) ▸ h, fun h => ⟨s', h₁, h⟩⟩
    rw [List.cons_append, Happened, Happened, hs', hs', ih h₂, or_assoc]

/-- What happened up to the last step, or in it. -/
theorem happened_concat {P : σ → α → Prop} {s t : σ} {as : List α} {a : α}
    (hrun : M.run s as = some t) :
    M.Happened P s (as ++ [a]) ↔ M.Happened P s as ∨ P t a := by
  rw [M.happened_append hrun]
  exact or_congr_right ⟨fun h => h.resolve_right (fun ⟨_, _, hnil⟩ => hnil), Or.inl⟩

/-- What never happened does not explain anything. -/
theorem not_happened_of_along {P : σ → α → Prop} {s : σ} {as : List α}
    (h : M.Along (fun t a => ¬ P t a) s as) : ¬ M.Happened P s as := by
  induction as generalizing s with
  | nil => exact id
  | cons a as ih =>
    rintro (hP | ⟨s', hs', hP⟩)
    · exact h.1 hP
    · exact ih (h.2 s' hs') hP

/-- **The rule for an invariant that speaks of the run so far**, under a
condition on the steps. -/
theorem run_history_along {I : List α → σ → Prop} {C : σ → α → Prop} {s t : σ}
    {as : List α} (hs : I [] s)
    (hstep : ∀ as t a t', M.run s as = some t → I as t → C t a → M.step t a = some t' →
      I (as ++ [a]) t')
    (hC : M.Along C s as) (hrun : M.run s as = some t) : I as t := by
  induction as using List.reverseRecOn generalizing t with
  | nil => exact Option.some.inj hrun ▸ hs
  | append_singleton as a ih =>
    obtain ⟨t', h₁, h₂⟩ := M.run_concat_eq_some.mp hrun
    obtain ⟨hC₁, hC₂⟩ := (M.along_append h₁).mp hC
    exact hstep as t' a t h₁ (ih hC₁ h₁) hC₂.1 h₂

/-- The same for every run: what holds of the start and is kept by each step
holds of the events so far and the state they lead to. -/
theorem run_history {I : List α → σ → Prop} {s t : σ} {as : List α} (hs : I [] s)
    (hstep : ∀ as t a t', M.run s as = some t → I as t → M.step t a = some t' →
      I (as ++ [a]) t')
    (hrun : M.run s as = some t) : I as t :=
  M.run_history_along (C := fun _ _ => True) hs
    (fun as t a t' h₁ h _ h₂ => hstep as t a t' h₁ h h₂)
    (M.along_of_forall (fun _ _ _ => trivial) s) hrun

/-! ## Simulations -/

/-- **The simulation rule between two kinds of runs.** Where every step of an
event satisfying `C` is matched by a run of events satisfying `D`, so is every
run of such events. -/
theorem run_simulated_of_forall {τ β : Type*} (N : Machine τ β) {R : σ → τ → Prop}
    {C : α → Prop} {D : β → Prop}
    (hstep : ∀ s u a s', R s u → C a → M.step s a = some s' →
      ∃ bs u', (∀ b ∈ bs, D b) ∧ N.run u bs = some u' ∧ R s' u')
    {s t : σ} {u : τ} {as : List α} (hR : R s u) (hC : ∀ a ∈ as, C a)
    (hrun : M.run s as = some t) : ∃ bs v, (∀ b ∈ bs, D b) ∧ N.run u bs = some v ∧ R t v := by
  induction as generalizing s u with
  | nil => exact ⟨[], u, fun _ h => absurd h List.not_mem_nil, rfl, Option.some.inj hrun ▸ hR⟩
  | cons a as ih =>
    obtain ⟨s', h₁, h₂⟩ := M.run_cons_eq_some.mp hrun
    obtain ⟨bs, u', hD, hbs, hR'⟩ := hstep s u a s' hR (hC a List.mem_cons_self) h₁
    obtain ⟨cs, v, hD', hcs, hv⟩ := ih hR' (fun b hb => hC b (List.mem_cons_of_mem a hb)) h₂
    refine ⟨bs ++ cs, v, List.forall_mem_append.mpr ⟨hD, hD'⟩, ?_, hv⟩
    rw [run_append, hbs, Option.bind_some, hcs]

/-- **The simulation rule.** Where every step of a machine is matched by a run
of another one, so is every run. -/
theorem run_simulated {τ β : Type*} (N : Machine τ β) {R : σ → τ → Prop}
    (hstep : ∀ s u a s', R s u → M.step s a = some s' → ∃ bs u', N.run u bs = some u' ∧ R s' u')
    {s t : σ} {u : τ} {as : List α} (hR : R s u) (hrun : M.run s as = some t) :
    ∃ bs v, N.run u bs = some v ∧ R t v := by
  obtain ⟨bs, v, -, hbs, hv⟩ :=
    M.run_simulated_of_forall N (C := fun _ => True) (D := fun _ => True)
      (fun s u a s' h _ hs' =>
        let ⟨bs, u', hbs, hR'⟩ := hstep s u a s' h hs'
        ⟨bs, u', fun _ _ => trivial, hbs, hR'⟩)
      hR (fun _ _ => trivial) hrun
  exact ⟨bs, v, hbs, hv⟩

end Machine
