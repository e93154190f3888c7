import PlatformSdk.CompactionSafety

/-!
# The prompt and the compaction

Two places of the source build an agent, and each puts the system prompt and
the compaction together by hand: `build_agent` adds the prompt and compacts,
`AgentBuilder` compacts and adds the prompt. The results are compared here.

The prompt is at the head of both, so that what has to be compared is what
comes after it: the cut that was made without the prompt and the one that was
made beside it. `combinedModifiers_agree_iff` says when they are one.
-/

/-- `SystemMessage(content=prompt)`. -/
def systemMessage (prompt : String) : BaseMessage where
  kind := .system
  content := Json.str prompt

/-- The prompt before the messages, unless it is empty or a system message
leads them already. -/
def prependPrompt (prompt : String) (messages : List BaseMessage) : List BaseMessage :=
  if prompt = "" then messages
  else if messages.head?.any BaseMessage.isSystem then messages
  else systemMessage prompt :: messages

/-- **`AgentBuilder.build`'s `_combined_modifier`**: compaction, then the
prompt. -/
def AgentBuilder.combinedModifier (trim : TrimMessages) (backend : TokenBackend)
    (config : AgentConfig) (prompt : String) (state : AgentState) : List BaseMessage :=
  prependPrompt prompt (makeCompactionModifier trim backend config state)

/-- **`build_agent`'s `_combined_modifier`**: the prompt, then compaction. -/
def BuildAgent.combinedModifier (trim : TrimMessages) (backend : TokenBackend)
    (config : AgentConfig) (prompt : String) (state : AgentState) : List BaseMessage :=
  makeCompactionModifier trim backend config (.list (prependPrompt prompt state.messages))

/-! ## Adding the prompt -/

@[simp] theorem isSystem_systemMessage (prompt : String) :
    (systemMessage prompt).isSystem = true := rfl

@[simp] theorem prependPrompt_empty (messages : List BaseMessage) :
    prependPrompt "" messages = messages := if_pos rfl

theorem leadingSystem_eq_nil_iff {messages : List BaseMessage} :
    leadingSystem messages = [] ↔ messages.head?.any BaseMessage.isSystem = false := by
  cases messages with
  | nil => exact iff_of_true rfl rfl
  | cons m messages =>
    rw [leadingSystem, List.head?_cons, Option.any_some]
    split
    · next h => exact iff_of_false (List.cons_ne_nil m []) (by rw [h]; decide)
    · next h => exact iff_of_true rfl (Bool.eq_false_of_not_eq_true h)

/-- A history that a system message leads is left alone. -/
theorem prependPrompt_of_leadingSystem {prompt : String} {messages : List BaseMessage}
    (h : leadingSystem messages ≠ []) : prependPrompt prompt messages = messages := by
  have hlead : messages.head?.any BaseMessage.isSystem = true :=
    Bool.eq_true_of_not_eq_false fun hno => h (leadingSystem_eq_nil_iff.mpr hno)
  rw [prependPrompt, if_pos hlead, ite_self]

/-- Any other one gets the prompt at its head. -/
theorem prependPrompt_of_leadingSystem_nil {prompt : String} (hp : prompt ≠ "")
    {messages : List BaseMessage} (h : leadingSystem messages = []) :
    prependPrompt prompt messages = systemMessage prompt :: messages := by
  rw [prependPrompt, if_neg hp, leadingSystem_eq_nil_iff.mp h]
  rfl

theorem leadingSystem_cons {m : BaseMessage} (h : m.isSystem = true) (messages : List BaseMessage) :
    leadingSystem (m :: messages) = [m] := if_pos h

theorem afterSystem_cons {m : BaseMessage} (h : m.isSystem = true) (messages : List BaseMessage) :
    afterSystem (m :: messages) = messages := if_pos h

theorem afterSystem_of_leadingSystem_nil {messages : List BaseMessage}
    (h : leadingSystem messages = []) : afterSystem messages = messages := by
  have := leadingSystem_append_afterSystem messages
  rwa [h, List.nil_append] at this

/-- **When adding the prompt gives a list that starts with it**: the rest was
there without it, or all of it was. -/
theorem prependPrompt_eq_cons_iff {prompt : String} (hp : prompt ≠ "")
    {xs ys : List BaseMessage} :
    prependPrompt prompt xs = systemMessage prompt :: ys
      ↔ (xs = ys ∧ leadingSystem xs = []) ∨ xs = systemMessage prompt :: ys := by
  by_cases h : leadingSystem xs = []
  · rw [prependPrompt_of_leadingSystem_nil hp h, List.cons.injEq, and_iff_right rfl,
      and_iff_left h]
    refine (or_iff_left fun hxs => ?_).symm
    rw [hxs, leadingSystem_cons (isSystem_systemMessage prompt)] at h
    cases h
  · rw [prependPrompt_of_leadingSystem h]
    exact (or_iff_right fun hxs => h hxs.2).symm

/-! ## When the two orders agree -/

/-- **One cut without the prompt and beside it**: what fits the limit fits it
beside the prompt, and the cut does not start with a system message. -/
structure SameCut (counter : List BaseMessage → ℕ) (limit : ℤ) (p : BaseMessage)
    (messages : List BaseMessage) : Prop where
  /-- What fits, fits beside the prompt. -/
  fitsBeside : ∀ t, t <:+ messages → t ≠ [] → (counter t : ℤ) ≤ limit →
    (counter (p :: t) : ℤ) ≤ limit
  /-- A system message that fits is not the first message that does. -/
  start : ∀ m t, m :: t <:+ messages → (counter (m :: t) : ℤ) ≤ limit → m.isSystem = true →
    ∃ y, y :: m :: t <:+ messages ∧ (counter (y :: m :: t) : ℤ) ≤ limit

/-- **A copy of the prompt in the history, just after the cut.** -/
def CutAtPrompt (counter : List BaseMessage → ℕ) (limit : ℤ) (p : BaseMessage)
    (messages : List BaseMessage) : Prop :=
  ∃ t, t ≠ [] ∧ p :: t <:+ messages ∧ (counter (p :: t) : ℤ) ≤ limit
    ∧ limit < counter (p :: p :: t)
    ∧ ∀ y, y :: p :: t <:+ messages → limit < counter (y :: p :: t)

/-- **What the guard makes of both is one list**: no message is a system message,
or the only one is a copy of the prompt, and the last message is no system
message and fits beside the prompt. -/
def SameGuard (counter : List BaseMessage → ℕ) (limit : ℤ) (p : BaseMessage)
    (messages : List BaseMessage) : Prop :=
  messages.filter BaseMessage.isSystem = []
    ∨ (messages.filter BaseMessage.isSystem = [p]
      ∧ lastNonSystem messages = messages.getLast?
      ∧ (counter (p :: messages.rtake 1) : ℤ) ≤ limit)

/-- **When the two orders agree** on a history that no system message leads, for
a prompt message `p`. -/
def OrdersAgree (counter : List BaseMessage → ℕ) (limit : ℤ) (p : BaseMessage)
    (messages : List BaseMessage) : Prop :=
  messages = []
    ∨ (messages.length = 1 ∧ (counter messages : ℤ) ≤ limit)
    ∨ (2 ≤ messages.length ∧ limit < counter (messages.rtake 2)
      ∧ SameGuard counter limit p messages)
    ∨ (2 ≤ messages.length ∧ (counter (messages.rtake 2) : ℤ) ≤ limit
      ∧ (SameCut counter limit p messages ∨ CutAtPrompt counter limit p messages))

section Orders

variable {trim : TrimMessages} {cost : BaseMessage → ℕ} {limit : ℤ} {p : BaseMessage}
  {messages : List BaseMessage}

/-- Without a leading system message the whole limit is there for the rest. -/
theorem fitsBeside_of_leadingSystem_nil (h : leadingSystem messages = []) :
    FitsBeside (countWith cost) limit messages = fun t => (countWith cost t : ℤ) ≤ limit := by
  funext t
  rw [FitsBeside, h, List.nil_append]

/-- With a leading system message, what fits is what fits the limit together
with it. -/
theorem fitsBeside_cons (hp : p.isSystem = true) :
    FitsBeside (countWith cost) limit (p :: messages)
      = fun t => (countWith cost (p :: t) : ℤ) ≤ limit := by
  funext t
  rw [FitsBeside, leadingSystem_cons hp, List.singleton_append]

/-- The guard keeps a leading system message where it is. -/
theorem guarded_cons (hp : p.isSystem = true) (messages : List BaseMessage) :
    guarded (p :: messages) = p :: guarded messages := by
  have hlast : lastNonSystem (p :: messages) = lastNonSystem messages := by
    rw [lastNonSystem, List.filter_cons, hp]
    rfl
  show (p :: messages).filter _ ++ (lastNonSystem (p :: messages)).toList = _
  rw [List.filter_cons_of_pos hp, hlast]
  rfl

/-- What the guard keeps starts with a system message when there is one. -/
theorem leadingSystem_guarded_eq_nil_iff :
    leadingSystem (guarded messages) = [] ↔ messages.filter BaseMessage.isSystem = [] := by
  show leadingSystem (messages.filter BaseMessage.isSystem
    ++ (lastNonSystem messages).toList) = [] ↔ _
  cases hsys : messages.filter BaseMessage.isSystem with
  | nil =>
    refine iff_of_true ?_ rfl
    cases hlast : lastNonSystem messages with
    | none => rfl
    | some x =>
      refine if_neg fun hx => ?_
      rw [isSystem_of_lastNonSystem hlast] at hx
      cases hx
  | cons m systems =>
    have hm : m.isSystem = true := by
      have hmem : m ∈ messages.filter BaseMessage.isSystem := hsys ▸ List.mem_cons_self
      exact (List.mem_filter.mp hmem).2
    rw [List.cons_append, leadingSystem_cons hm]
    exact iff_of_false (List.cons_ne_nil _ _) (List.cons_ne_nil _ _)

/-- A history that no system message leads ends, system messages apart, with
some message. -/
theorem exists_lastNonSystem (hne : messages ≠ []) (hlead : leadingSystem messages = []) :
    ∃ x, lastNonSystem messages = some x := by
  cases messages with
  | nil => exact absurd rfl hne
  | cons m messages =>
    have hm : m.isSystem = false := by
      by_contra hno
      rw [leadingSystem_cons (Bool.eq_true_of_not_eq_false hno)] at hlead
      cases hlead
    rw [lastNonSystem, List.filter_cons, hm]
    exact ⟨_, List.getLast?_eq_some_getLast (List.cons_ne_nil _ _)⟩

/-- **What follows the prompt** where it was there before compaction. -/
theorem compact_cons (cost : BaseMessage → ℕ) (limit : ℤ) (htrim : KeepsLatest trim)
    (hp : p.isSystem = true) (messages : List BaseMessage) :
    ∃ ys, compact trim (countWith cost) limit (p :: messages) = p :: ys
      ∧ (GuardRuns (countWith cost) limit (p :: messages) → ys = guarded messages)
      ∧ (¬ GuardRuns (countWith cost) limit (p :: messages) →
        IsLongestFit (fun t => (countWith cost (p :: t) : ℤ) ≤ limit) messages ys) := by
  by_cases hg : GuardRuns (countWith cost) limit (p :: messages)
  · refine ⟨guarded messages, ?_, fun _ => rfl, fun hno => absurd hg hno⟩
    rw [compact_of_guardRuns htrim hg, guarded_cons hp]
  · obtain ⟨s, hs, heq⟩ := compact_of_not_guardRuns htrim hg
    rw [fitsBeside_cons hp, afterSystem_cons hp] at hs
    rw [leadingSystem_cons hp, List.singleton_append] at heq
    exact ⟨s, heq, fun hg' => absurd hg' hg, fun _ => hs⟩

/-- When the guard runs with the prompt there: the prompt and the last message
alone are too much already. -/
theorem guardRuns_cons_iff (hp : p.isSystem = true) :
    GuardRuns (countWith cost) limit (p :: messages)
      ↔ messages ≠ [] ∧ ¬ (countWith cost (p :: messages.rtake 1) : ℤ) ≤ limit := by
  rw [GuardRuns, fitsBeside_cons hp, afterSystem_cons hp, leadingSystem_cons hp]
  refine and_congr_left fun _ => ?_
  rw [List.length_cons, ← List.length_pos_iff]
  omega

/-- When the guard runs on a history without a leading system message: there are
two messages at least, and the last two do not fit. -/
theorem guardRuns_iff_of_leadingSystem_nil (cost : BaseMessage → ℕ) (limit : ℤ)
    (hlead : leadingSystem messages = []) :
    GuardRuns (countWith cost) limit messages
      ↔ 2 ≤ messages.length ∧ ¬ (countWith cost (messages.rtake 2) : ℤ) ≤ limit := by
  rw [GuardRuns, fitsBeside_of_leadingSystem_nil hlead, afterSystem_of_leadingSystem_nil hlead,
    hlead]
  rfl

/-- What fits the limit passes to shorter suffixes. -/
theorem suffixClosed_count (cost : BaseMessage → ℕ) (limit : ℤ) :
    SuffixClosed fun t => (countWith cost t : ℤ) ≤ limit := by
  intro t u htu hu
  have := countWith_le_of_suffix cost htu
  show (countWith cost t : ℤ) ≤ limit
  exact le_trans (Int.ofNat_le.mpr this) hu

theorem suffixClosed_count_cons (cost : BaseMessage → ℕ) (limit : ℤ) (p : BaseMessage) :
    SuffixClosed fun t => (countWith cost (p :: t) : ℤ) ≤ limit := by
  intro t u htu hu
  have := countWith_le_of_suffix cost htu
  show (countWith cost (p :: t) : ℤ) ≤ limit
  have hu' : (countWith cost (p :: u) : ℤ) ≤ limit := hu
  rw [countWith_cons] at hu' ⊢
  omega

/-- The prompt takes nothing from what it is added to. -/
theorem count_le_of_count_cons_le {t : List BaseMessage}
    (h : (countWith cost (p :: t) : ℤ) ≤ limit) : (countWith cost t : ℤ) ≤ limit := by
  rw [countWith_cons] at h
  omega

/-- **Where the guard runs without the prompt**, both orders keep the same
messages exactly when `SameGuard` says. -/
theorem sameGuard_iff (hp : p.isSystem = true) (hlead : leadingSystem messages = [])
    (hg : GuardRuns (countWith cost) limit messages) {ys : List BaseMessage}
    (hguard : GuardRuns (countWith cost) limit (p :: messages) → ys = guarded messages)
    (hcut : ¬ GuardRuns (countWith cost) limit (p :: messages) →
      IsLongestFit (fun t => (countWith cost (p :: t) : ℤ) ≤ limit) messages ys) :
    ((guarded messages = ys ∧ leadingSystem (guarded messages) = [])
        ∨ guarded messages = p :: ys)
      ↔ SameGuard (countWith cost) limit p messages := by
  have hne : messages ≠ [] := fun h => by rw [h] at hg; exact absurd hg.1 (by decide)
  rw [leadingSystem_guarded_eq_nil_iff, SameGuard]
  by_cases hgp : GuardRuns (countWith cost) limit (p :: messages)
  · -- the guard runs in both orders
    have hover := ((guardRuns_cons_iff hp).mp hgp).2
    rw [hguard hgp, and_iff_right rfl, or_iff_left (List.cons_ne_self _ _).symm,
      or_iff_left fun h => hover h.2.2]
  · -- beside the prompt, the last message fits
    obtain ⟨init, x, rfl⟩ := (List.eq_nil_or_concat messages).resolve_left hne
    rw [List.concat_eq_append] at *
    have hx : (init ++ [x]).rtake 1 = [x] := by
      rw [show 1 = 0 + 1 from rfl, List.rtake_concat_succ, List.rtake_zero, List.nil_append]
    have hfit : (countWith cost (p :: [x]) : ℤ) ≤ limit := by
      by_contra hno
      exact hgp ((guardRuns_cons_iff hp).mpr ⟨hne, by rwa [hx]⟩)
    have hys : ys = [x] := by
      have hs := hcut hgp
      have hxs : [x] <:+ ys := hs.longest [x] (List.suffix_append _ _) hfit
      have hyfit : (countWith cost ys : ℤ) ≤ limit := by
        rcases hs.fits with rfl | h
        · exact suffixClosed_count cost limit _ _ List.nil_suffix (count_le_of_count_cons_le hfit)
        · exact count_le_of_count_cons_le h
      have hlen := length_lt_of_guardRuns hg
        (t := ys) (by rw [afterSystem_of_leadingSystem_nil hlead]; exact hs.suffix)
        (by rw [fitsBeside_of_leadingSystem_nil hlead]; exact hyfit)
      rw [hlead, List.nil_append] at hlen
      exact (hxs.eq_of_length_le (by rw [List.length_singleton]; omega)).symm
    obtain ⟨l, hl⟩ := exists_lastNonSystem hne hlead
    have hguarded : guarded (init ++ [x]) = (init ++ [x]).filter BaseMessage.isSystem ++ [l] := by
      show _ ++ (lastNonSystem (init ++ [x])).toList = _
      rw [hl]
      rfl
    rw [hys, hguarded, hl, hx, List.getLast?_append, List.getLast?_singleton, Option.some_or,
      Option.some.injEq, and_iff_left hfit]
    constructor
    · rintro (⟨-, hnil⟩ | heq)
      · exact .inl hnil
      · obtain ⟨hsys, hlx⟩ := List.append_inj' (show _ ++ [l] = [p] ++ [x] from heq) rfl
        exact .inr ⟨hsys, List.singleton_inj.mp hlx⟩
    · rintro (hnil | ⟨hsys, rfl⟩)
      · -- no message is a system message, so the last one is kept
        refine .inl ⟨?_, hnil⟩
        have hxs : x.isSystem = false := by
          by_contra hno
          have := List.filter_eq_nil_iff.mp hnil x (by simp)
          exact this (Bool.eq_true_of_not_eq_false hno)
        have hlast : lastNonSystem (init ++ x :: []) = some x :=
          lastNonSystem_append hxs (by simp)
        rw [hnil, List.nil_append, Option.some.inj (hl.symm.trans hlast)]
      · exact .inr (by rw [hsys]; rfl)

/-- What the guard keeps has every system message in it. -/
theorem length_filter_guarded (messages : List BaseMessage) :
    (messages.filter BaseMessage.isSystem).length
      ≤ ((guarded messages).filter BaseMessage.isSystem).length := by
  show _ ≤ ((messages.filter BaseMessage.isSystem
    ++ (lastNonSystem messages).toList).filter BaseMessage.isSystem).length
  rw [List.filter_append, List.filter_filter, List.length_append]
  simp only [Bool.and_self]
  exact Nat.le_add_right _ _

/-- **A cut of two or more messages is not what the guard keeps**: either has a
system message the other has not, or the guard keeps one message. -/
theorem cut_ne_guarded {s : List BaseMessage} (hp : p.isSystem = true) (hlen : 2 ≤ s.length)
    (hsub : s <:+ messages) :
    ¬ ((s = guarded messages ∧ leadingSystem s = []) ∨ s = p :: guarded messages) := by
  rintro (⟨rfl, hlead⟩ | rfl)
  · have hnil := leadingSystem_guarded_eq_nil_iff.mp hlead
    have hone : (guarded messages).length ≤ 1 := by
      show (messages.filter BaseMessage.isSystem ++ (lastNonSystem messages).toList).length ≤ 1
      rw [hnil, List.nil_append, Option.length_toList]
      split <;> decide
    omega
  · have hle := (hsub.sublist.filter BaseMessage.isSystem).length_le
    rw [List.filter_cons_of_pos hp, List.length_cons] at hle
    have := length_filter_guarded messages
    omega

/-- **Where the cut does not start with a system message**, every system message
that fits has a message before it that does. -/
theorem leadingSystem_cut_eq_nil_iff {s : List BaseMessage}
    (hs : IsLongestFit (fun t => (countWith cost t : ℤ) ≤ limit) messages s) :
    leadingSystem s = [] ↔ ∀ m t, m :: t <:+ messages →
      (countWith cost (m :: t) : ℤ) ≤ limit → m.isSystem = true →
      ∃ y, y :: m :: t <:+ messages ∧ (countWith cost (y :: m :: t) : ℤ) ≤ limit := by
  have hclosed := suffixClosed_count cost limit
  constructor
  · intro hlead m t hsuf hfit hm
    by_contra hno
    have hcut : s = m :: t :=
      (hs.eq_cons_iff hclosed).mpr ⟨hsuf, hfit, fun y hy hfit' => hno ⟨y, hy, hfit'⟩⟩
    rw [hcut, leadingSystem_cons hm] at hlead
    cases hlead
  · intro h
    cases s with
    | nil => rfl
    | cons m t =>
      refine if_neg fun hm => ?_
      obtain ⟨hsuf, hfit, hmax⟩ := (hs.eq_cons_iff hclosed).mp rfl
      obtain ⟨y, hy, hfit'⟩ := h m t hsuf hfit hm
      exact hmax y hy hfit'

/-- **The cut without the prompt is the prompt and the cut beside it** where a
copy of the prompt comes just after the cut. -/
theorem cut_eq_cons_cut_iff {s ys : List BaseMessage} (hlen : 2 ≤ s.length)
    (hs : IsLongestFit (fun t => (countWith cost t : ℤ) ≤ limit) messages s)
    (hys : IsLongestFit (fun t => (countWith cost (p :: t) : ℤ) ≤ limit) messages ys) :
    s = p :: ys ↔ CutAtPrompt (countWith cost) limit p messages := by
  have hclosed := suffixClosed_count cost limit
  constructor
  · rintro rfl
    obtain ⟨hsuf, hfit, hmax⟩ := (hs.eq_cons_iff hclosed).mp rfl
    have hne : ys ≠ [] := fun h => by
      rw [h] at hlen
      exact absurd hlen (show ¬ 2 ≤ 1 by decide)
    refine ⟨ys, hne, hsuf, hfit, ?_, fun y hy => not_le.mp (hmax y hy)⟩
    by_contra hle
    -- a copy that fits beside the prompt would not have been cut off
    have hlonger := (hys.longest (p :: ys) hsuf (not_lt.mp hle)).length_le
    rw [List.length_cons] at hlonger
    omega
  · rintro ⟨t, -, hsuf, hfit, hover, hmax⟩
    have hcut : s = p :: t :=
      (hs.eq_cons_iff hclosed).mpr ⟨hsuf, hfit, fun y hy => not_le.mpr (hmax y hy)⟩
    have ht : IsLongestFit (fun t => (countWith cost (p :: t) : ℤ) ≤ limit) messages t := by
      refine ⟨(List.suffix_cons p t).trans hsuf, .inr hfit, fun u hu hfit' => ?_⟩
      have hus : u <:+ p :: t := hcut ▸ hs.longest u hu (count_le_of_count_cons_le hfit')
      rcases List.suffix_cons_iff.mp hus with rfl | hut
      · exact absurd hfit' (not_le.mpr hover)
      · exact hut
    rw [hcut, hys.unique ht]

/-- **Where it does not**, they do exactly when the cut is one, or stands before a
copy of the prompt. -/
theorem sameCut_iff (hp : p.isSystem = true) {s ys : List BaseMessage} (hlen : 2 ≤ s.length)
    (hs : IsLongestFit (fun t => (countWith cost t : ℤ) ≤ limit) messages s)
    (hguard : GuardRuns (countWith cost) limit (p :: messages) → ys = guarded messages)
    (hcut : ¬ GuardRuns (countWith cost) limit (p :: messages) →
      IsLongestFit (fun t => (countWith cost (p :: t) : ℤ) ≤ limit) messages ys) :
    ((s = ys ∧ leadingSystem s = []) ∨ s = p :: ys)
      ↔ SameCut (countWith cost) limit p messages
        ∨ CutAtPrompt (countWith cost) limit p messages := by
  by_cases hgp : GuardRuns (countWith cost) limit (p :: messages)
  · -- beside the prompt not even the last message fits
    obtain ⟨-, hover⟩ := (guardRuns_cons_iff hp).mp hgp
    have hlast : messages.rtake 1 <:+ messages := List.drop_suffix _ _
    have hone : (messages.rtake 1).length = 1 := by
      have := hs.suffix.length_le
      rw [List.rtake, List.length_drop]
      omega
    rw [hguard hgp]
    refine iff_of_false (cut_ne_guarded hp hlen hs.suffix) ?_
    rintro (h | ⟨t, hne, hsuf, hfit, -⟩)
    · have hls : messages.rtake 1 <:+ s :=
        List.suffix_of_suffix_length_le hlast hs.suffix (by omega)
      have hsfit := hs.fits.resolve_left (List.ne_nil_of_length_pos (by omega))
      exact hover (h.fitsBeside _ hlast (List.ne_nil_of_length_pos (by omega))
        (suffixClosed_count cost limit _ _ hls hsfit))
    · have hlt : messages.rtake 1 <:+ t := by
        refine List.suffix_of_suffix_length_le hlast ((List.suffix_cons p t).trans hsuf) ?_
        rw [hone]
        exact List.length_pos_iff.mpr hne
      exact hover (suffixClosed_count_cons cost limit p _ _ hlt hfit)
  · have hys := hcut hgp
    have hsame : s = ys ↔ ∀ t, t <:+ messages → t ≠ [] → (countWith cost t : ℤ) ≤ limit →
        (countWith cost (p :: t) : ℤ) ≤ limit := by
      rw [hs.eq_iff hys (suffixClosed_count cost limit) (suffixClosed_count_cons cost limit p)]
      exact forall₃_congr fun t _ _ => ⟨fun h => h.mp, fun h => ⟨h, count_le_of_count_cons_le⟩⟩
    rw [hsame, leadingSystem_cut_eq_nil_iff hs, cut_eq_cons_cut_iff hlen hs hys]
    exact or_congr_left ⟨fun h => ⟨h.1, h.2⟩, fun h => ⟨h.fitsBeside, h.start⟩⟩

/-- **A single message** has the prompt before it in either order, unless it is
too long without the prompt: then the one order loses it. -/
theorem single_iff {x : BaseMessage} (hp : p.isSystem = true) (hx : x.isSystem = false)
    {s ys : List BaseMessage}
    (hs : IsLongestFit (fun t => (countWith cost t : ℤ) ≤ limit) [x] s)
    (hguard : GuardRuns (countWith cost) limit [p, x] → ys = guarded [x])
    (hcut : ¬ GuardRuns (countWith cost) limit [p, x] →
      IsLongestFit (fun t => (countWith cost (p :: t) : ℤ) ≤ limit) [x] ys) :
    ((s = ys ∧ leadingSystem s = []) ∨ s = p :: ys) ↔ (countWith cost [x] : ℤ) ≤ limit := by
  have hys : ys = [x] := by
    by_cases hgp : GuardRuns (countWith cost) limit [p, x]
    · have hlast : lastNonSystem ([] ++ x :: []) = some x :=
        lastNonSystem_append hx (by simp)
      rw [hguard hgp]
      show [x].filter BaseMessage.isSystem ++ (lastNonSystem [x]).toList = [x]
      rw [show lastNonSystem [x] = some x from hlast, List.filter_cons, hx]
      rfl
    · refine (hcut hgp).eq_self ?_
      by_contra hno
      exact hgp ((guardRuns_cons_iff hp).mpr ⟨List.cons_ne_nil x [], hno⟩)
  have hlead : leadingSystem [x] = [] := if_neg (by rw [hx]; decide)
  rw [hys]
  constructor
  · rintro (⟨rfl, -⟩ | rfl)
    · exact hs.fits.resolve_left (List.cons_ne_nil x [])
    · exact absurd hs.suffix.length_le (by simp)
  · exact fun hfit => .inl ⟨hs.eq_self hfit, hs.eq_self hfit ▸ hlead⟩

/-- Of two or more messages, the last two decide which condition is meant. -/
theorem ordersAgree_of_two_le {counter : List BaseMessage → ℕ} (h : 2 ≤ messages.length) :
    OrdersAgree counter limit p messages
      ↔ (limit < counter (messages.rtake 2) ∧ SameGuard counter limit p messages)
        ∨ ((counter (messages.rtake 2) : ℤ) ≤ limit
          ∧ (SameCut counter limit p messages ∨ CutAtPrompt counter limit p messages)) := by
  have hne : messages ≠ [] := List.ne_nil_of_length_pos (by omega)
  have hone : ¬ (messages.length = 1 ∧ (counter messages : ℤ) ≤ limit) := by
    rintro ⟨h₁, -⟩
    omega
  rw [OrdersAgree, or_iff_right hne, or_iff_right hone, and_iff_right h, and_iff_right h]

/-- **The two orders on a history that no system message leads.** -/
theorem prependPrompt_compact_eq_iff (htrim : KeepsLatest trim) {prompt : String}
    (hprompt : prompt ≠ "") (hlead : leadingSystem messages = []) :
    prependPrompt prompt (compact trim (countWith cost) limit messages)
        = compact trim (countWith cost) limit (prependPrompt prompt messages)
      ↔ OrdersAgree (countWith cost) limit (systemMessage prompt) messages := by
  have hp := isSystem_systemMessage prompt
  obtain ⟨ys, hys, hguard, hcut⟩ := compact_cons cost limit htrim hp messages
  have hkept : ¬ GuardRuns (countWith cost) limit messages →
      IsLongestFit (fun t => (countWith cost t : ℤ) ≤ limit) messages
        (compact trim (countWith cost) limit messages) := by
    intro hno
    obtain ⟨s, hs, hcompact⟩ := compact_of_not_guardRuns htrim hno
    rw [fitsBeside_of_leadingSystem_nil hlead, afterSystem_of_leadingSystem_nil hlead] at hs
    rwa [hcompact, hlead, List.nil_append]
  have hg := guardRuns_iff_of_leadingSystem_nil cost limit hlead
  rw [prependPrompt_of_leadingSystem_nil hprompt hlead, hys, prependPrompt_eq_cons_iff hprompt]
  rcases Nat.lt_or_ge messages.length 2 with hshort | hlong
  · have hs := hkept fun h => absurd h.1 (not_le.mpr hshort)
    cases messages with
    | nil =>
      have hnil := hcut fun h => absurd rfl ((guardRuns_cons_iff hp).mp h).1
      rw [List.suffix_nil.mp hs.suffix, List.suffix_nil.mp hnil.suffix]
      exact iff_of_true (.inl ⟨rfl, rfl⟩) (.inl rfl)
    | cons x rest =>
      obtain rfl : rest = [] := List.eq_nil_of_length_eq_zero (by
        rw [List.length_cons] at hshort
        omega)
      have hx : x.isSystem = false := by
        by_contra hno
        rw [leadingSystem_cons (Bool.eq_true_of_not_eq_false hno)] at hlead
        cases hlead
      rw [single_iff hp hx hs hguard hcut, OrdersAgree, or_iff_right (List.cons_ne_nil x []),
        and_iff_right (show [x].length = 1 from rfl)]
      refine (or_iff_left ?_).symm
      rintro (⟨hlen, -⟩ | ⟨hlen, -⟩)
      · exact absurd hlen (show ¬ 2 ≤ 1 by decide)
      · exact absurd hlen (show ¬ 2 ≤ 1 by decide)
  · rw [and_iff_right hlong] at hg
    rw [ordersAgree_of_two_le hlong]
    by_cases hfit : (countWith cost (messages.rtake 2) : ℤ) ≤ limit
    · have hs := hkept fun h => hg.mp h hfit
      have hlen : 2 ≤ (compact trim (countWith cost) limit messages).length := by
        by_contra hlt
        exact (hs.length_lt_iff (suffixClosed_count cost limit) two_pos hlong).mp
          (not_le.mp hlt) hfit
      have hover : ¬ (limit < countWith cost (messages.rtake 2)
          ∧ SameGuard (countWith cost) limit (systemMessage prompt) messages) :=
        fun h => not_le.mpr h.1 hfit
      rw [sameCut_iff hp hlen hs hguard hcut, or_iff_right hover, and_iff_right hfit]
    · rw [compact_of_guardRuns htrim (hg.mpr hfit),
        sameGuard_iff hp hlead (hg.mpr hfit) hguard hcut, and_iff_right (not_le.mp hfit),
        or_iff_left (fun h => hfit h.1)]

/-- **What a system message leads, one leads after compaction.** -/
theorem leadingSystem_compact_ne_nil (htrim : KeepsLatest trim)
    (hlead : leadingSystem messages ≠ []) :
    leadingSystem (compact trim (countWith cost) limit messages) ≠ [] := by
  by_cases hg : GuardRuns (countWith cost) limit messages
  · rw [compact_of_guardRuns htrim hg, Ne, leadingSystem_guarded_eq_nil_iff,
      List.filter_eq_nil_iff]
    obtain ⟨m, hm⟩ := List.exists_mem_of_ne_nil _ hlead
    exact fun h => h m (mem_of_mem_leadingSystem hm) (isSystem_of_mem_leadingSystem hm)
  · obtain ⟨s, -, hcompact⟩ := compact_of_not_guardRuns htrim hg
    rw [hcompact]
    obtain ⟨m, rest, hm⟩ := List.exists_cons_of_ne_nil hlead
    have hsys : m.isSystem = true := isSystem_of_mem_leadingSystem (hm ▸ List.mem_cons_self)
    rw [hm, List.cons_append, leadingSystem_cons hsys]
    exact List.cons_ne_nil m []

end Orders

/-- **The two ways to build an agent agree exactly** when compaction is
disabled, the prompt is empty, a system message leads the history already, or
the compaction cuts what follows the prompt at one place in either order. The
one puts the prompt on top before it compacts and the other after, so that the
prompt counts against the limit in the one only. -/
theorem combinedModifiers_agree_iff {trim : TrimMessages} (htrim : KeepsLatest trim)
    (backend : TokenBackend) (config : AgentConfig) (prompt : String) (state : AgentState) :
    AgentBuilder.combinedModifier trim backend config prompt state
        = BuildAgent.combinedModifier trim backend config prompt state
      ↔ config.enableCompaction = false ∨ prompt = "" ∨ leadingSystem state.messages ≠ []
        ∨ OrdersAgree (makeTokenCounter backend) config.contextTokenLimit (systemMessage prompt)
          state.messages := by
  obtain ⟨cost, hcost⟩ := exists_makeTokenCounter_eq backend
  rw [AgentBuilder.combinedModifier, BuildAgent.combinedModifier, makeCompactionModifier,
    makeCompactionModifier, hcost]
  show prependPrompt prompt (if _ then state.messages else _)
    = (if _ then prependPrompt prompt state.messages
      else compact trim (countWith cost) config.contextTokenLimit
        (prependPrompt prompt state.messages)) ↔ _
  by_cases hoff : config.enableCompaction = false
  · rw [if_pos hoff, if_pos hoff]
    exact iff_of_true rfl (.inl hoff)
  rw [if_neg hoff, if_neg hoff, or_iff_right hoff]
  by_cases hprompt : prompt = ""
  · rw [hprompt, prependPrompt_empty, prependPrompt_empty]
    exact iff_of_true rfl (.inl rfl)
  rw [or_iff_right hprompt]
  by_cases hlead : leadingSystem state.messages = []
  · rw [prependPrompt_compact_eq_iff htrim hprompt hlead, or_iff_right (not_not.mpr hlead)]
  · rw [prependPrompt_of_leadingSystem hlead,
      prependPrompt_of_leadingSystem (leadingSystem_compact_ne_nil htrim hlead)]
    exact iff_of_true rfl (.inl hlead)

@[simp] theorem heuristicBackend_cons_systemMessage (messages : List BaseMessage) :
    makeTokenCounter heuristicBackend (systemMessage "Be brief." :: messages)
      = 2 + makeTokenCounter heuristicBackend messages := by
  show countWith _ _ = _
  rw [countWith_cons]
  rfl

theorem combinedModifiers_agree_guarded :
    AgentBuilder.combinedModifier trimLast heuristicBackend leastLimit "Be brief."
        (.list (toolHistory 400))
      = BuildAgent.combinedModifier trimLast heuristicBackend leastLimit "Be brief."
        (.list (toolHistory 400)) :=
  (combinedModifiers_agree_iff keepsLatest_trimLast heuristicBackend leastLimit "Be brief."
    (.list (toolHistory 400))).mpr (.inr (.inr (.inr (.inr (.inr (.inl
      ⟨by simp [AgentState.messages, toolHistory],
        by simp [AgentState.messages, toolHistory, List.rtake, leastLimit],
        .inl (by simp [AgentState.messages, toolHistory])⟩))))))

/-- A conversation of exactly a hundred tokens. -/
def fullHistory : List BaseMessage :=
  [textMessage .human 200, textMessage (.ai []) 160, textMessage .human 40]

/-- **Compacting before the prompt is there leaves it out of the count**: a
conversation that takes the whole limit is sent with the prompt on top of it by
the one, and cut by the other. -/
theorem combinedModifiers_differ :
    makeTokenCounter heuristicBackend fullHistory = 100
      ∧ AgentBuilder.combinedModifier trimLast heuristicBackend leastLimit "Be brief."
        (.list fullHistory) = systemMessage "Be brief." :: fullHistory
      ∧ BuildAgent.combinedModifier trimLast heuristicBackend leastLimit "Be brief."
        (.list fullHistory) = systemMessage "Be brief." :: fullHistory.tail
      ∧ AgentBuilder.combinedModifier trimLast heuristicBackend leastLimit "Be brief."
          (.list fullHistory)
        ≠ BuildAgent.combinedModifier trimLast heuristicBackend leastLimit "Be brief."
          (.list fullHistory) := by
  have hlead : leadingSystem fullHistory = [] := by simp [fullHistory, leadingSystem]
  have hbuilder : AgentBuilder.combinedModifier trimLast heuristicBackend leastLimit "Be brief."
      (.list fullHistory) = systemMessage "Be brief." :: fullHistory := by
    rw [AgentBuilder.combinedModifier, makeCompactionModifier_leastLimit, compact,
      if_pos (by simp [fullHistory])]
    exact prependPrompt_of_leadingSystem_nil (by decide) hlead
  have hbuild : BuildAgent.combinedModifier trimLast heuristicBackend leastLimit "Be brief."
      (.list fullHistory) = systemMessage "Be brief." :: fullHistory.tail := by
    rw [BuildAgent.combinedModifier, makeCompactionModifier_leastLimit]
    show compact _ _ _ (prependPrompt "Be brief." fullHistory) = _
    rw [prependPrompt_of_leadingSystem_nil (by decide) hlead]
    simp [compact, trimLast, leadingSystem, afterSystem, longestFit, fullHistory]
  refine ⟨by simp [fullHistory], hbuilder, hbuild, fun h => ?_⟩
  rw [hbuilder, hbuild] at h
  exact absurd (congrArg List.length h) (by simp [fullHistory])
