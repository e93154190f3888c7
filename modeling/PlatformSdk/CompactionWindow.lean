import PlatformSdk.CompactionSafety

/-!
# Compaction along a growing history

The modifier is called before every step of an agent, each time on the whole
history, which has grown since. What it returned before plays no part: it cuts
the history anew. So it could show the model a message again that it had left
out a step earlier.

It does not, `compaction_forgets`: of all that is no system message, what is
shown of the grown history is a suffix of what was shown before and of what has
been added. And what is shown keeps to the limit unless the guard runs. System
messages are another matter, the guard bringing back every one of them.
-/

section Suffixes

variable {α : Type*} {p q : List α → Prop} {l e s u : List α}

/-- A suffix of two lists is one of the second, or all of it behind a suffix of
the first. -/
theorem suffix_append_cases (h : u <:+ l ++ e) :
    u <:+ e ∨ ∃ t, t <:+ l ∧ t ≠ [] ∧ u = t ++ e := by
  rcases List.suffix_or_suffix_of_suffix h (List.suffix_append l e) with hsub | ⟨t, rfl⟩
  · exact Or.inl hsub
  · by_cases hne : t = []
    · rw [hne]
      exact Or.inl List.suffix_rfl
    · obtain ⟨pre, hpre⟩ := h
      rw [← List.append_assoc] at hpre
      exact Or.inr ⟨t, ⟨pre, List.append_cancel_right hpre⟩, hne, rfl⟩

/-- One list behind two suffixes leaves them suffixes of each other, as they
were. -/
theorem suffix_append_right (h : s <:+ u) (e : List α) : s ++ e <:+ u ++ e := by
  obtain ⟨pre, rfl⟩ := h
  rw [List.append_assoc]
  exact List.suffix_append pre (s ++ e)

/-- **A list that grows is cut no earlier.** Where what fits of the longer list
fits without the new members, the longer list keeps nothing the shorter one does
not. -/
theorem IsLongestFit.append_suffix (hs : IsLongestFit p l s) (hu : IsLongestFit q (l ++ e) u)
    (h : ∀ t, q (t ++ e) → p t) : u <:+ s ++ e := by
  rcases suffix_append_cases hu.suffix with hsub | ⟨t, ht, hne, rfl⟩
  · exact hsub.trans (List.suffix_append s e)
  · have hq : q (t ++ e) := hu.fits.resolve_left (by simp [hne])
    exact suffix_append_right (hs.longest t ht (h t hq)) e

/-- The last member of a list, or nothing where it is empty, is a suffix of it.
-/
theorem toList_getLast?_suffix (l : List α) : l.getLast?.toList <:+ l := by
  rcases List.eq_nil_or_concat l with rfl | ⟨l', x, rfl⟩
  · exact List.suffix_rfl
  · rw [List.concat_eq_append, List.getLast?_append_of_ne_nil _ (List.cons_ne_nil x [])]
    exact List.suffix_append l' [x]

end Suffixes

/-! ## What is said -/

/-- **The messages that are no system messages.** -/
def spoken (messages : List BaseMessage) : List BaseMessage :=
  messages.filter fun m => !m.isSystem

theorem spoken_append (xs ys : List BaseMessage) : spoken (xs ++ ys) = spoken xs ++ spoken ys :=
  List.filter_append xs ys

theorem spoken_suffix {t u : List BaseMessage} (h : t <:+ u) : spoken t <:+ spoken u :=
  h.filter _

/-- Nothing is said in the leading system message. -/
theorem spoken_leadingSystem (messages : List BaseMessage) :
    spoken (leadingSystem messages) = [] := by
  rw [spoken, List.filter_eq_nil_iff]
  intro m hm
  rw [isSystem_of_mem_leadingSystem hm]
  decide

theorem spoken_afterSystem (messages : List BaseMessage) :
    spoken (afterSystem messages) = spoken messages := by
  conv_rhs => rw [← leadingSystem_append_afterSystem messages]
  rw [spoken_append, spoken_leadingSystem, List.nil_append]

/-- The guard keeps the last that was said, and nothing else of it. -/
theorem spoken_guarded (messages : List BaseMessage) :
    spoken (guarded messages) = (spoken messages).getLast?.toList := by
  have hsystem : spoken (messages.filter BaseMessage.isSystem) = [] := by
    rw [spoken, List.filter_eq_nil_iff]
    intro m hm
    rw [(List.mem_filter.mp hm).2]
    decide
  show spoken (messages.filter _ ++ (spoken messages).getLast?.toList) = _
  rw [spoken_append, hsystem, List.nil_append, spoken, List.filter_eq_self]
  intro m hm
  have hlast : (spoken messages).getLast? = some m := Option.mem_toList.mp hm
  exact (List.mem_filter.mp (List.mem_of_getLast? hlast)).2

section Compact

variable {trim : TrimMessages} {cost : BaseMessage → ℕ} {limit : ℤ}
  {messages added : List BaseMessage}

/-- A history that has a first message keeps its head when it grows. -/
theorem leadingSystem_append (h : messages ≠ []) (added : List BaseMessage) :
    leadingSystem (messages ++ added) = leadingSystem messages
      ∧ afterSystem (messages ++ added) = afterSystem messages ++ added := by
  cases messages with
  | nil => exact absurd rfl h
  | cons m messages =>
    rw [List.cons_append, leadingSystem, leadingSystem, afterSystem, afterSystem]
    by_cases hm : m.isSystem = true
    · simp only [hm, if_true, and_self]
    · simp only [hm, if_false, Bool.false_eq_true, List.cons_append, and_self]

/-- What is shown of a history has been said in it, up to its end. -/
theorem spoken_compact_suffix (htrim : KeepsLatest trim) :
    spoken (compact trim (countWith cost) limit messages) <:+ spoken messages := by
  by_cases hguard : GuardRuns (countWith cost) limit messages
  · rw [compact_of_guardRuns htrim hguard, spoken_guarded]
    exact toList_getLast?_suffix _
  · obtain ⟨s, hs, heq⟩ := compact_of_not_guardRuns htrim hguard
    rw [heq, spoken_append, spoken_leadingSystem, List.nil_append, ← spoken_afterSystem messages]
    exact spoken_suffix hs.suffix

/-- Where the guard runs, what fits beside the leading system message is no
more than the last message. -/
theorem spoken_suffix_guarded (hguard : GuardRuns (countWith cost) limit messages)
    {t : List BaseMessage} (ht : t <:+ afterSystem messages)
    (hfit : FitsBeside (countWith cost) limit messages t) :
    spoken t <:+ spoken (guarded messages) := by
  have hlength := length_lt_of_guardRuns hguard ht hfit
  rw [List.length_append] at hlength
  rw [spoken_guarded, ← spoken_afterSystem messages]
  cases t with
  | nil => exact List.nil_suffix
  | cons m t =>
    have hnil : t = [] := List.eq_nil_of_length_eq_zero (by
      rw [List.length_cons] at hlength
      omega)
    subst hnil
    obtain ⟨pre, hpre⟩ := ht
    rw [← hpre, spoken_append]
    by_cases hm : m.isSystem = true
    · have hsaid : spoken [m] = [] := by simp [spoken, hm]
      rw [hsaid]
      exact List.nil_suffix
    · have hsaid : spoken [m] = [m] := by simp [spoken, hm]
      rw [hsaid, List.getLast?_append_of_ne_nil _ (List.cons_ne_nil m [])]
      exact List.suffix_rfl

/-- **Compaction forgets**, and does not remember: what is shown of a history in
which something more has been said. -/
theorem spoken_compact_append_suffix (htrim : KeepsLatest trim) (hadded : spoken added ≠ []) :
    spoken (compact trim (countWith cost) limit (messages ++ added))
      <:+ spoken (compact trim (countWith cost) limit messages) ++ spoken added := by
  by_cases hempty : messages = []
  · subst hempty
    exact (spoken_compact_suffix htrim).trans (List.suffix_append _ _)
  obtain ⟨hlead, hafter⟩ := leadingSystem_append hempty added
  by_cases hguard' : GuardRuns (countWith cost) limit (messages ++ added)
  · rw [compact_of_guardRuns htrim hguard', spoken_guarded, spoken_append,
      List.getLast?_append_of_ne_nil _ hadded]
    exact (toList_getLast?_suffix _).trans (List.suffix_append _ _)
  obtain ⟨u, hu, heq⟩ := compact_of_not_guardRuns htrim hguard'
  have hfits : ∀ t, FitsBeside (countWith cost) limit (messages ++ added) (t ++ added) →
      FitsBeside (countWith cost) limit messages t := by
    intro t ht
    rw [FitsBeside, hlead, ← List.append_assoc, countWith_append] at ht
    rw [FitsBeside]
    omega
  rw [hafter] at hu
  rw [heq, spoken_append, spoken_leadingSystem, List.nil_append]
  by_cases hguard : GuardRuns (countWith cost) limit messages
  · rw [compact_of_guardRuns htrim hguard]
    rcases suffix_append_cases hu.suffix with hsub | ⟨t, ht, hne, rfl⟩
    · exact (spoken_suffix hsub).trans (List.suffix_append _ _)
    · have hfit := hfits t (hu.fits.resolve_left (by simp [hne]))
      rw [spoken_append]
      exact suffix_append_right (spoken_suffix_guarded hguard ht hfit) (spoken added)
  · obtain ⟨s, hs, heq'⟩ := compact_of_not_guardRuns htrim hguard
    rw [heq', spoken_append, spoken_leadingSystem, List.nil_append, ← spoken_append]
    exact spoken_suffix (hs.append_suffix hu hfits)

/-- **What is shown keeps to the limit**, unless the guard runs. -/
theorem countWith_compact_le (htrim : KeepsLatest trim) (hlength : 2 ≤ messages.length)
    (hguard : ¬ GuardRuns (countWith cost) limit messages) :
    (countWith cost (compact trim (countWith cost) limit messages) : ℤ) ≤ limit := by
  obtain ⟨s, hs, heq⟩ := compact_of_not_guardRuns htrim hguard
  rw [heq]
  rcases hs.fits with rfl | hfit
  · -- one message at most would have been kept, and the guard would have run
    refine absurd ((guardRuns_iff hs).mpr ⟨?_, hlength⟩) hguard
    have hle := length_leadingSystem_le messages
    rw [List.append_nil]
    omega
  · exact hfit

end Compact

/-- **What an agent's model is shown, step after step.** The history an agent
hands its modifier grows by messages of which one at least is no system
message. Of what is no system message, what the modifier returns for the grown
history is a suffix of what it returned for the one before, followed by what has
been added: a message it has left out does not come back. And where compaction is
enabled it keeps to the limit for every history of two messages or more unless
the guard runs. The class does the same as the factory. -/
theorem compaction_forgets {trim : TrimMessages} (htrim : KeepsLatest trim)
    (backend : TokenBackend) (config : AgentConfig) {state state' : AgentState}
    {added : List BaseMessage} (hgrown : state'.messages = state.messages ++ added)
    (hadded : spoken added ≠ []) :
    (spoken (makeCompactionModifier trim backend config state')
        <:+ spoken (makeCompactionModifier trim backend config state) ++ spoken added)
      ∧ (config.enableCompaction = true → 2 ≤ state.messages.length →
        ¬ GuardRuns (makeTokenCounter backend) config.contextTokenLimit state.messages →
          (makeTokenCounter backend (makeCompactionModifier trim backend config state) : ℤ)
            ≤ config.contextTokenLimit)
      ∧ (config.enableCompaction = true →
        TokenAwareCompactionModifier.apply ⟨config.contextTokenLimit⟩ trim backend state.messages
          = makeCompactionModifier trim backend config state) := by
  obtain ⟨cost, hcost⟩ := exists_makeTokenCounter_eq backend
  refine ⟨?_, fun hon hlength hguard => ?_, fun hon => ?_⟩
  · rw [makeCompactionModifier, makeCompactionModifier, hgrown, hcost]
    by_cases hoff : config.enableCompaction = false
    · rw [if_pos hoff, if_pos hoff]
      exact spoken_append state.messages added ▸ List.suffix_rfl
    · rw [if_neg hoff, if_neg hoff]
      exact spoken_compact_append_suffix htrim hadded
  · rw [makeCompactionModifier, if_neg (by simp [hon])]
    rw [hcost] at hguard ⊢
    exact countWith_compact_le htrim hlength hguard
  · rw [apply_eq_compact htrim, makeCompactionModifier, if_neg (by simp [hon])]

/-- A conversation that goes on after a long response. -/
theorem compaction_forgets_response :
    spoken (makeCompactionModifier trimLast heuristicBackend leastLimit
        (.list (toolHistory 400 ++ [textMessage .human 8])))
      <:+ spoken (makeCompactionModifier trimLast heuristicBackend leastLimit
        (.list (toolHistory 400))) ++ spoken [textMessage .human 8] := by
  have hgrown : (AgentState.list (toolHistory 400 ++ [textMessage .human 8])).messages
      = (AgentState.list (toolHistory 400)).messages ++ [textMessage .human 8] := rfl
  have hadded : spoken [textMessage .human 8] ≠ [] := by simp [spoken]
  exact (compaction_forgets keepsLatest_trimLast heuristicBackend leastLimit hgrown hadded).1
