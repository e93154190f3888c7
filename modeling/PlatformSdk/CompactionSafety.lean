import PlatformSdk.Compaction

/-!
# What compaction may not lose

Two things a model needs of the messages it is sent: the request it is to
answer, and, before every tool message, the message whose call it answers.
Compaction promises the first in a comment and the second nowhere. Both hang
on the cut, and on the guard, which keeps the last message whatever it is.

`compaction_keeps_request_iff` says when the most recent human message
survives, `compaction_wellFormed_iff` when the result is well-formed. Either
condition is on what fits the limit, one tail of the history at a time.
-/

section Guarded

variable {messages : List BaseMessage} {m : BaseMessage}

/-- The last message that is no system message. -/
def lastNonSystem (messages : List BaseMessage) : Option BaseMessage :=
  (messages.filter fun m => !m.isSystem).getLast?

/-- **What the guard keeps**: every system message, wherever it stands, and the
last of the other messages, whatever its class. -/
theorem mem_guarded_iff :
    m ∈ guarded messages
      ↔ (m ∈ messages ∧ m.isSystem = true) ∨ lastNonSystem messages = some m := by
  show m ∈ messages.filter _ ++ (lastNonSystem messages).toList ↔ _
  rw [List.mem_append, List.mem_filter, Option.mem_toList]

theorem isSystem_of_lastNonSystem (h : lastNonSystem messages = some m) :
    m.isSystem = false := by
  have hm := List.mem_of_getLast? h
  rw [List.mem_filter, Bool.not_eq_true'] at hm
  exact hm.2

/-- A message is the last one that is no system message where only system
messages follow it. -/
theorem lastNonSystem_append {before after : List BaseMessage} (hm : m.isSystem = false)
    (hafter : ∀ x ∈ after, x.isSystem = true) :
    lastNonSystem (before ++ m :: after) = some m := by
  have hnil : after.filter (fun x => !x.isSystem) = [] := by
    rw [List.filter_eq_nil_iff]
    intro x hx
    rw [hafter x hx]
    decide
  have hlast : (m :: after).filter (fun x => !x.isSystem) = [m] := by
    rw [List.filter_cons, hm, hnil]
    rfl
  rw [lastNonSystem, List.filter_append, hlast, List.getLast?_append, List.getLast?_singleton,
    Option.some_or]

/-- Where something else follows, the last one comes from there. -/
theorem lastNonSystem_mem_of_exists {before after : List BaseMessage} {x : BaseMessage}
    (hx : x ∈ after) (hs : x.isSystem = false)
    (h : lastNonSystem (before ++ after) = some m) : m ∈ after := by
  have hmem : x ∈ after.filter (fun x => !x.isSystem) := by
    rw [List.mem_filter, hs]
    exact ⟨hx, rfl⟩
  have hsome : ∃ y, (after.filter fun x => !x.isSystem).getLast? = some y :=
    ⟨_, List.getLast?_eq_some_getLast (List.ne_nil_of_mem hmem)⟩
  obtain ⟨y, hy⟩ := hsome
  rw [lastNonSystem, List.filter_append, List.getLast?_append, hy, Option.some_or] at h
  exact Option.some.inj h ▸ List.mem_of_mem_filter (List.mem_of_getLast? hy)

end Guarded

/-! ## The request -/

/-- **What is to be kept**: the most recent human message `h`, and the leading
system message if there was one. -/
def KeepsRequest (messages : List BaseMessage) (h : BaseMessage) (result : List BaseMessage) :
    Prop :=
  h ∈ result ∧ ∀ m ∈ leadingSystem messages, m ∈ result

/-- **When it is kept.** Either what follows the leading system message fits
from the human message on, or the guard runs and nothing but system messages
follow the human message. -/
def RequestFits (counter : List BaseMessage → ℕ) (limit : ℤ) (messages : List BaseMessage)
    (h : BaseMessage) (after : List BaseMessage) : Prop :=
  FitsBeside counter limit messages (h :: after)
    ∨ (GuardRuns counter limit messages ∧ ∀ m ∈ after, m.isSystem = true)

section Request

variable {trim : TrimMessages} {cost : BaseMessage → ℕ} {limit : ℤ}
  {before after : List BaseMessage} {h : BaseMessage}

/-- The guard keeps the human message where only system messages follow. -/
theorem mem_guarded_request_iff (hh : h.isHuman = true)
    (hafter : ∀ m ∈ after, m.isHuman = false) :
    h ∈ guarded (before ++ h :: after) ↔ ∀ m ∈ after, m.isSystem = true := by
  have hsys := BaseMessage.isSystem_of_isHuman hh
  rw [mem_guarded_iff]
  constructor
  · rintro (⟨-, hs⟩ | hlast)
    · rw [hsys] at hs
      cases hs
    · by_contra hex
      push Not at hex
      obtain ⟨x, hx, hxs⟩ := hex
      have hsplit : before ++ h :: after = (before ++ [h]) ++ after := by simp
      rw [hsplit] at hlast
      have := hafter h (lastNonSystem_mem_of_exists hx (Bool.eq_false_of_not_eq_true hxs) hlast)
      rw [hh] at this
      cases this
  · exact fun hall => .inr (lastNonSystem_append hsys hall)

/-- A suffix has the human message in it exactly when it has all that follows
it. -/
theorem mem_suffix_request_iff {s : List BaseMessage} (hh : h.isHuman = true)
    (hafter : ∀ m ∈ after, m.isHuman = false) (hs : s <:+ before ++ h :: after) :
    h ∈ s ↔ h :: after <:+ s := by
  refine ⟨fun hmem => ?_, fun hsuf => hsuf.mem List.mem_cons_self⟩
  have hreq : h :: after <:+ before ++ h :: after := List.suffix_append _ _
  rcases List.suffix_or_suffix_of_suffix hs hreq with hsub | hsub
  · rcases List.suffix_cons_iff.mp hsub with rfl | hsub'
    · exact List.suffix_rfl
    · have := hafter h (hsub'.mem hmem)
      rw [hh] at this
      cases this
  · exact hsub

/-- **Compaction keeps the request** exactly when it fits. The cut keeps the
longest suffix that does, and the guard keeps the last message that is no system
message. -/
theorem compact_keeps_request_iff (htrim : KeepsLatest trim) (hh : h.isHuman = true)
    (hafter : ∀ m ∈ after, m.isHuman = false) :
    KeepsRequest (before ++ h :: after) h
        (compact trim (countWith cost) limit (before ++ h :: after))
      ↔ RequestFits (countWith cost) limit (before ++ h :: after) h after := by
  have hsys := BaseMessage.isSystem_of_isHuman hh
  have hsuf : h :: after <:+ afterSystem (before ++ h :: after) := suffix_afterSystem hsys
  have hclosed := suffixClosed_fitsBeside cost limit (before ++ h :: after)
  by_cases hg : GuardRuns (countWith cost) limit (before ++ h :: after)
  · have hlead : ∀ m ∈ leadingSystem (before ++ h :: after), m ∈ guarded (before ++ h :: after) :=
      fun m hm => mem_guarded_iff.mpr
        (.inl ⟨mem_of_mem_leadingSystem hm, isSystem_of_mem_leadingSystem hm⟩)
    rw [compact_of_guardRuns htrim hg, KeepsRequest, mem_guarded_request_iff hh hafter,
      RequestFits]
    constructor
    · exact fun hk => .inr ⟨hg, hk.1⟩
    · rintro (hfit | ⟨-, hall⟩)
      · -- two messages that fit would have kept the guard from running
        have hlen := length_lt_of_guardRuns hg hsuf hfit
        rw [List.length_append, List.length_cons] at hlen
        have hnil : after = [] := List.eq_nil_of_length_eq_zero (by omega)
        exact ⟨fun m hm => absurd (hnil ▸ hm) List.not_mem_nil, hlead⟩
      · exact ⟨hall, hlead⟩
  · obtain ⟨s, hs, heq⟩ := compact_of_not_guardRuns htrim hg
    have hmem : h ∈ leadingSystem (before ++ h :: after) ++ s ↔ h ∈ s := by
      rw [List.mem_append]
      refine or_iff_right fun hl => ?_
      rw [isSystem_of_mem_leadingSystem hl] at hsys
      cases hsys
    have hsub : s <:+ before ++ h :: after := by
      refine hs.suffix.trans ?_
      conv_rhs => rw [← leadingSystem_append_afterSystem (before ++ h :: after)]
      exact List.suffix_append _ _
    rw [heq, KeepsRequest, hmem, mem_suffix_request_iff hh hafter hsub,
      hs.suffix_iff hclosed hsuf (List.cons_ne_nil _ _), RequestFits]
    constructor
    · exact fun hk => .inl hk.1
    · rintro (hfit | ⟨hg', -⟩)
      · exact ⟨hfit, fun m hm => List.mem_append_left _ hm⟩
      · exact absurd hg' hg

end Request

/-- **The current request survives exactly when it fits.** Of a history whose
most recent human message is `h`, the factory's modifier keeps `h` and the
leading system message if and only if compaction is disabled or the request
fits, and the class does if and only if it fits. -/
theorem compaction_keeps_request_iff {trim : TrimMessages} (htrim : KeepsLatest trim)
    (backend : TokenBackend) (config : AgentConfig) (limit : ℤ) {state : AgentState}
    {before after : List BaseMessage} {h : BaseMessage}
    (hstate : state.messages = before ++ h :: after) (hh : h.isHuman = true)
    (hafter : ∀ m ∈ after, m.isHuman = false) :
    (KeepsRequest state.messages h (makeCompactionModifier trim backend config state)
        ↔ config.enableCompaction = false
          ∨ RequestFits (makeTokenCounter backend) config.contextTokenLimit state.messages h after)
      ∧ (KeepsRequest state.messages h
          (TokenAwareCompactionModifier.apply ⟨limit⟩ trim backend state.messages)
        ↔ RequestFits (makeTokenCounter backend) limit state.messages h after) := by
  rw [apply_eq_compact htrim, makeCompactionModifier, hstate]
  obtain ⟨cost, hcost⟩ := exists_makeTokenCounter_eq backend
  rw [hcost]
  refine ⟨?_, compact_keeps_request_iff htrim hh hafter⟩
  split
  · next hoff =>
    refine iff_of_true ⟨List.mem_append_right _ List.mem_cons_self, fun m hm => ?_⟩ (.inl hoff)
    exact mem_of_mem_leadingSystem hm
  · next hon => rw [compact_keeps_request_iff htrim hh hafter, or_iff_right hon]

/-- A text message of `n` characters. -/
def textMessage (kind : MessageKind) (n : ℕ) : BaseMessage where
  kind := kind
  content := Json.str (String.ofList (List.replicate n 'a'))

@[simp] theorem isSystem_textMessage (kind : MessageKind) (n : ℕ) :
    (textMessage kind n).isSystem = decide (kind = .system) := rfl

@[simp] theorem isHuman_textMessage (kind : MessageKind) (n : ℕ) :
    (textMessage kind n).isHuman = decide (kind = .human) := rfl

/-- Where `tiktoken` is not installed, and every character can be printed. -/
def heuristicBackend : TokenBackend := ⟨fun _ => true, none⟩

@[simp] theorem heuristicBackend_nil : makeTokenCounter heuristicBackend [] = 0 := rfl

/-- A token for every four characters, and one at least for every message. -/
@[simp] theorem heuristicBackend_cons (kind : MessageKind) (n : ℕ) (messages : List BaseMessage) :
    makeTokenCounter heuristicBackend (textMessage kind n :: messages)
      = max 1 (n / 4) + makeTokenCounter heuristicBackend messages := by
  show countWith _ _ = _
  rw [countWith_cons]
  show max 1 ((String.ofList (List.replicate n 'a')).toList.length / 4) + _ = _
  rw [String.toList_ofList, List.length_replicate]
  rfl

/-- The least limit the configuration accepts. -/
def leastLimit : AgentConfig := { environment := .dev, contextTokenLimit := 100 }

theorem makeCompactionModifier_leastLimit (trim : TrimMessages) (backend : TokenBackend)
    (messages : List BaseMessage) :
    makeCompactionModifier trim backend leastLimit (.list messages)
      = compact trim (makeTokenCounter backend) 100 messages := rfl

/-- A request, the tool call it led to and the response, of `n` characters. -/
def toolHistory (n : ℕ) : List BaseMessage :=
  [textMessage .human 4, textMessage (.ai ["call"]) 4, textMessage (.tool "call") n]

/-- A request too long to keep, the answer to it, and a request with its tool
call. -/
def longHistory : List BaseMessage :=
  textMessage .human 400 :: textMessage (.ai []) 4 :: toolHistory 40

/-- All but the first request fits, and that one is cut off. -/
theorem compact_longHistory :
    compact trimLast (makeTokenCounter heuristicBackend) 100 longHistory
      = textMessage (.ai []) 4 :: toolHistory 40 := by
  simp [compact, trimLast, longHistory, toolHistory, leadingSystem, afterSystem, longestFit]

/-- An older request is dropped, and the current one kept. -/
theorem compaction_keeps_request_long :
    makeCompactionModifier trimLast heuristicBackend leastLimit (.list longHistory)
        = textMessage (.ai []) 4 :: toolHistory 40
      ∧ KeepsRequest longHistory (textMessage .human 4)
        (makeCompactionModifier trimLast heuristicBackend leastLimit (.list longHistory)) := by
  have hstate : (AgentState.list longHistory).messages
      = [textMessage .human 400, textMessage (.ai []) 4] ++ textMessage .human 4
        :: [textMessage (.ai ["call"]) 4, textMessage (.tool "call") 40] := rfl
  refine ⟨(makeCompactionModifier_leastLimit ..).trans compact_longHistory,
    (compaction_keeps_request_iff keepsLatest_trimLast heuristicBackend leastLimit 100 hstate rfl
      (by simp)).1.mpr (.inr (.inl ?_))⟩
  simp [FitsBeside, AgentState.messages, longHistory, toolHistory, leadingSystem, leastLimit]

/-- A long response is all the guard keeps, which drops the request that led to
it. -/
theorem compact_toolHistory :
    compact trimLast (makeTokenCounter heuristicBackend) 100 (toolHistory 400)
      = [textMessage (.tool "call") 400] := by
  have hg : GuardRuns (makeTokenCounter heuristicBackend) 100 (toolHistory 400) := by
    simp [GuardRuns, FitsBeside, toolHistory, leadingSystem, afterSystem, List.rtake]
  exact compact_of_guardRuns keepsLatest_trimLast hg

/-- **A long response evicts the request.** The guard keeps the tool message
it was written for, and nothing else. -/
theorem compaction_loses_request :
    (toolHistory 400).filter BaseMessage.isHuman = [textMessage .human 4]
      ∧ ¬ KeepsRequest (toolHistory 400) (textMessage .human 4)
        (makeCompactionModifier trimLast heuristicBackend leastLimit (.list (toolHistory 400)))
      ∧ ¬ KeepsRequest (toolHistory 400) (textMessage .human 4)
        (TokenAwareCompactionModifier.apply ⟨100⟩ trimLast heuristicBackend
          (toolHistory 400)) := by
  have hlost : ¬ KeepsRequest (toolHistory 400) (textMessage .human 4)
      (compact trimLast (makeTokenCounter heuristicBackend) 100 (toolHistory 400)) := by
    rw [compact_toolHistory]
    intro h
    have hkind : MessageKind.human = .tool "call" :=
      congrArg BaseMessage.kind (List.mem_singleton.mp h.1)
    cases hkind
  rw [apply_eq_compact keepsLatest_trimLast, makeCompactionModifier_leastLimit]
  exact ⟨by simp [toolHistory], hlost, hlost⟩

/-! ## Tool calls and their responses -/

/-- **A well-formed history**: every tool message comes after a message that
made its call. -/
def WellFormed (messages : List BaseMessage) : Prop :=
  ∀ before t after c, messages = before ++ t :: after → t.kind = .tool c →
    ∃ a ∈ before, c ∈ a.toolCalls

/-- Whether a message answers no call, or one of those `seen` makes. -/
def answers (seen : List BaseMessage) (m : BaseMessage) : Bool :=
  match m.kind with
  | .tool c => seen.any fun a => c ∈ a.toolCalls
  | _ => true

theorem answers_iff {seen : List BaseMessage} {m : BaseMessage} :
    answers seen m = true ↔ ∀ c, m.kind = .tool c → ∃ a ∈ seen, c ∈ a.toolCalls := by
  rw [answers]
  split
  · next c hc =>
    rw [List.any_eq_true, hc]
    constructor
    · rintro ⟨a, ha, hca⟩ c' hc'
      obtain rfl := MessageKind.tool.inj hc'
      exact ⟨a, ha, of_decide_eq_true hca⟩
    · exact fun h => (h c rfl).imp fun a ha => ⟨ha.1, decide_eq_true ha.2⟩
  · next hno => exact iff_of_true rfl fun c hc => absurd hc (hno c)

/-- The check of `WellFormed`, with the messages already seen. -/
def wellFormedFrom : List BaseMessage → List BaseMessage → Bool
  | _, [] => true
  | seen, m :: messages => answers seen m && wellFormedFrom (seen ++ [m]) messages

theorem wellFormedFrom_iff (seen messages : List BaseMessage) :
    wellFormedFrom seen messages = true
      ↔ ∀ before t after c, messages = before ++ t :: after → t.kind = .tool c →
        ∃ a ∈ seen ++ before, c ∈ a.toolCalls := by
  induction messages generalizing seen with
  | nil => exact iff_of_true rfl fun before t after c heq => absurd heq (by simp)
  | cons m messages ih =>
    rw [wellFormedFrom, Bool.and_eq_true, answers_iff, ih]
    constructor
    · rintro ⟨hm, hrest⟩ before t after c heq hc
      cases before with
      | nil =>
        obtain ⟨rfl, -⟩ := List.cons.inj heq
        rw [List.append_nil]
        exact hm c hc
      | cons x before =>
        obtain ⟨rfl, hmessages⟩ := List.cons.inj heq
        rw [List.append_cons]
        exact hrest before t after c hmessages hc
    · intro h
      refine ⟨fun c hc => ?_, fun before t after c heq hc => ?_⟩
      · have := h [] m messages c rfl hc
        rwa [List.append_nil] at this
      · rw [← List.append_cons]
        exact h (m :: before) t after c (congrArg (m :: ·) heq) hc

instance (messages : List BaseMessage) : Decidable (WellFormed messages) :=
  decidable_of_iff _ (wellFormedFrom_iff [] messages)

/-- **No group is cut in two**: with a tool message that fits, its call
fits. -/
def GroupsFit (counter : List BaseMessage → ℕ) (limit : ℤ) (messages : List BaseMessage) : Prop :=
  ∀ before t after c, afterSystem messages = before ++ t :: after → t.kind = .tool c →
    FitsBeside counter limit messages (t :: after) →
    ∃ p a q, before = p ++ a :: q ∧ c ∈ a.toolCalls
      ∧ FitsBeside counter limit messages (a :: q ++ t :: after)

/-- **When a history stays well-formed.** Where the guard runs, the last message
that is no system message is no tool message; elsewhere no group is cut in
two. -/
def StaysWellFormed (counter : List BaseMessage → ℕ) (limit : ℤ) (messages : List BaseMessage) :
    Prop :=
  (GuardRuns counter limit messages →
      ∀ m, lastNonSystem messages = some m → m.isTool = false)
    ∧ (¬ GuardRuns counter limit messages → GroupsFit counter limit messages)

theorem isTool_iff {m : BaseMessage} : m.isTool = true ↔ ∃ c, m.kind = .tool c := by
  rw [BaseMessage.isTool]
  split
  · next c hc => exact iff_of_true rfl ⟨c, hc⟩
  · next hno => exact iff_of_false Bool.false_ne_true fun h => h.elim hno

/-- A system message is no part of any group. -/
theorem wellFormed_append_iff {systems rest : List BaseMessage}
    (hs : ∀ m ∈ systems, m.isSystem = true) :
    WellFormed (systems ++ rest) ↔ WellFormed rest := by
  constructor
  · intro h before t after c heq hc
    obtain ⟨a, ha, hca⟩ := h (systems ++ before) t after c (by rw [heq, List.append_assoc]) hc
    rcases List.mem_append.mp ha with ha | ha
    · rw [(BaseMessage.of_isSystem (hs a ha)).2] at hca
      exact absurd hca List.not_mem_nil
    · exact ⟨a, ha, hca⟩
  · intro h before t after c heq hc
    rcases List.append_eq_append_iff.mp heq with ⟨mid, rfl, hrest⟩ | ⟨mid, rfl, hmid⟩
    · obtain ⟨a, ha, hca⟩ := h mid t after c hrest hc
      exact ⟨a, List.mem_append_right _ ha, hca⟩
    · cases mid with
      | nil =>
        obtain ⟨a, ha, hca⟩ := h [] t after c (by simpa using hmid.symm) hc
        exact absurd ha List.not_mem_nil
      | cons x mid =>
        -- the tool message would be one of the system messages
        obtain ⟨rfl, -⟩ := List.cons.inj hmid
        have ht := (BaseMessage.of_isSystem (hs t (by simp))).1
        rw [isTool_iff.mpr ⟨c, hc⟩] at ht
        cases ht

section Groups

variable {trim : TrimMessages} {cost : BaseMessage → ℕ} {limit : ℤ} {messages : List BaseMessage}

/-- What the guard keeps is well-formed unless it keeps a tool message. -/
theorem wellFormed_guarded_iff :
    WellFormed (guarded messages)
      ↔ ∀ m, lastNonSystem messages = some m → m.isTool = false := by
  show WellFormed (messages.filter _ ++ (lastNonSystem messages).toList) ↔ _
  rw [wellFormed_append_iff (fun m hm => (List.mem_filter.mp hm).2)]
  cases lastNonSystem messages with
  | none =>
    refine iff_of_true (fun before t after c heq _ => ?_) (fun m hm => absurd hm (by simp))
    exact absurd heq (by simp)
  | some x =>
    constructor
    · intro h m hm
      obtain rfl := Option.some.inj hm
      by_contra hne
      obtain ⟨c, hc⟩ := isTool_iff.mp (Bool.eq_true_of_not_eq_false hne)
      obtain ⟨a, ha, -⟩ := h [] x [] c rfl hc
      exact List.not_mem_nil ha
    · intro h before t after c heq hc
      have hmem : t ∈ (some x).toList := by
        rw [heq]
        exact List.mem_append_right _ List.mem_cons_self
      have ht : t = x := List.mem_singleton.mp hmem
      have := h x rfl
      rw [← ht, isTool_iff.mpr ⟨c, hc⟩] at this
      cases this

/-- What the cut keeps is well-formed exactly when it cuts no group in two. -/
theorem wellFormed_cut_iff {s : List BaseMessage}
    (hs : IsLongestFit (FitsBeside (countWith cost) limit messages) (afterSystem messages) s) :
    WellFormed s ↔ GroupsFit (countWith cost) limit messages := by
  have hclosed := suffixClosed_fitsBeside cost limit messages
  obtain ⟨w, hw⟩ := hs.suffix
  constructor
  · intro h before t after c heq hc hfit
    have ht : t :: after <:+ afterSystem messages := heq ▸ List.suffix_append _ _
    obtain ⟨b, rfl⟩ := (hs.suffix_iff hclosed ht (List.cons_ne_nil _ _)).mpr hfit
    obtain ⟨a, ha, hca⟩ := h b t after c rfl hc
    obtain ⟨p, q, rfl⟩ := List.append_of_mem ha
    rw [← hw, ← List.append_assoc] at heq
    refine ⟨w ++ p, a, q, ?_, hca, ?_⟩
    · rw [← List.append_cancel_right heq, List.append_assoc]
    · have hsuf : a :: q ++ t :: after <:+ p ++ a :: q ++ t :: after := by
        rw [List.append_assoc]
        exact List.suffix_append _ _
      exact (hs.suffix_iff hclosed (hsuf.trans hs.suffix) (List.cons_ne_nil _ _)).mp hsuf
  · rintro h before t after c rfl hc
    have ht : t :: after <:+ before ++ t :: after := List.suffix_append _ _
    have hfit := (hs.suffix_iff hclosed (ht.trans hs.suffix) (List.cons_ne_nil _ _)).mp ht
    obtain ⟨p, a, q, hsplit, hca, hfit'⟩ :=
      h (w ++ before) t after c (by rw [← hw, List.append_assoc]) hc hfit
    have hq : a :: q ++ t :: after <:+ afterSystem messages := by
      rw [← hw, ← List.append_assoc, hsplit, List.append_assoc]
      exact List.suffix_append _ _
    have hkept := (hs.suffix_iff hclosed hq (List.cons_ne_nil _ _)).mpr hfit'
    exact ⟨a, (List.suffix_append_self_iff.mp hkept).mem List.mem_cons_self, hca⟩

/-- **Compaction keeps a history well-formed** exactly when the condition
says. -/
theorem wellFormed_compact_iff (htrim : KeepsLatest trim) :
    WellFormed (compact trim (countWith cost) limit messages)
      ↔ StaysWellFormed (countWith cost) limit messages := by
  by_cases hg : GuardRuns (countWith cost) limit messages
  · rw [compact_of_guardRuns htrim hg, wellFormed_guarded_iff, StaysWellFormed]
    exact ⟨fun h => ⟨fun _ => h, fun hn => absurd hg hn⟩, fun h => h.1 hg⟩
  · obtain ⟨s, hs, heq⟩ := compact_of_not_guardRuns htrim hg
    rw [heq, wellFormed_append_iff (fun m => isSystem_of_mem_leadingSystem),
      wellFormed_cut_iff hs, StaysWellFormed]
    exact ⟨fun h => ⟨fun hg' => absurd hg' hg, fun _ => h⟩, fun h => h.2 hg⟩

end Groups

/-- **Groups of calls and responses survive exactly when none is cut in
two.** Of a well-formed history the factory's modifier makes a well-formed one
if and only if compaction is disabled or the condition holds, and the class
does if and only if the condition holds. -/
theorem compaction_wellFormed_iff {trim : TrimMessages} (htrim : KeepsLatest trim)
    (backend : TokenBackend) (config : AgentConfig) (limit : ℤ) {state : AgentState}
    (hwf : WellFormed state.messages) :
    (WellFormed (makeCompactionModifier trim backend config state)
        ↔ config.enableCompaction = false
          ∨ StaysWellFormed (makeTokenCounter backend) config.contextTokenLimit state.messages)
      ∧ (WellFormed (TokenAwareCompactionModifier.apply ⟨limit⟩ trim backend state.messages)
        ↔ StaysWellFormed (makeTokenCounter backend) limit state.messages) := by
  rw [apply_eq_compact htrim, makeCompactionModifier]
  obtain ⟨cost, hcost⟩ := exists_makeTokenCounter_eq backend
  rw [hcost]
  refine ⟨?_, wellFormed_compact_iff htrim⟩
  split
  · next hoff => exact iff_of_true hwf (.inl hoff)
  · next hon => rw [wellFormed_compact_iff htrim, or_iff_right hon]

/-- A tool call of `n` characters, between a request and the next one. -/
def callHistory (n : ℕ) : List BaseMessage :=
  [textMessage .human 4, textMessage (.ai ["call"]) n, textMessage (.tool "call") 4,
    textMessage .human 8]

/-- The one tool message of the history fits with its call. -/
theorem groupsFit_longHistory :
    GroupsFit (makeTokenCounter heuristicBackend) 100 longHistory := by
  intro before t after c heq hc _
  have hlist : afterSystem longHistory
      = [textMessage .human 400, textMessage (.ai []) 4, textMessage .human 4,
        textMessage (.ai ["call"]) 4, textMessage (.tool "call") 40] := rfl
  rw [hlist] at heq
  rcases before with _ | ⟨x₁, _ | ⟨x₂, _ | ⟨x₃, _ | ⟨x₄, before⟩⟩⟩⟩
    <;> simp only [List.cons_append, List.nil_append, List.cons.injEq] at heq
  · rw [← heq.1] at hc
    cases hc
  · rw [← heq.2.1] at hc
    cases hc
  · rw [← heq.2.2.1] at hc
    cases hc
  · rw [← heq.2.2.2.1] at hc
    cases hc
  · obtain ⟨rfl, rfl, rfl, rfl, hrest⟩ := heq
    rcases before with _ | ⟨x₅, before⟩
    · obtain ⟨rfl, rfl⟩ := List.cons.inj hrest
      obtain rfl := MessageKind.tool.inj hc
      refine ⟨[_, _, _], textMessage (.ai ["call"]) 4, [], rfl, List.mem_singleton_self _, ?_⟩
      simp [FitsBeside, longHistory, leadingSystem]
    · exact absurd hrest (by simp)

theorem compaction_wellFormed_long :
    makeCompactionModifier trimLast heuristicBackend leastLimit (.list longHistory)
        = textMessage (.ai []) 4 :: toolHistory 40
      ∧ WellFormed
        (makeCompactionModifier trimLast heuristicBackend leastLimit (.list longHistory)) := by
  have hwf : WellFormed (AgentState.list longHistory).messages := by decide
  have hguard : ¬ GuardRuns (makeTokenCounter heuristicBackend) 100 longHistory := by
    simp [GuardRuns, FitsBeside, longHistory, toolHistory, leadingSystem, afterSystem, List.rtake]
  exact ⟨(makeCompactionModifier_leastLimit ..).trans compact_longHistory,
    (compaction_wellFormed_iff keepsLatest_trimLast heuristicBackend leastLimit 100 hwf).1.mpr
      (.inr ⟨fun hg => absurd hg hguard, fun _ => groupsFit_longHistory⟩)⟩

/-- A call too long to keep is cut off, the response to it is not. -/
theorem compact_callHistory :
    compact trimLast (makeTokenCounter heuristicBackend) 100 (callHistory 400)
      = [textMessage (.tool "call") 4, textMessage .human 8] := by
  simp [compact, trimLast, callHistory, leadingSystem, afterSystem, longestFit]

theorem not_wellFormed_tool_cons {c : String} {n : ℕ} {messages : List BaseMessage} :
    ¬ WellFormed (textMessage (.tool c) n :: messages) := by
  intro h
  obtain ⟨a, ha, -⟩ := h [] _ messages c rfl rfl
  exact List.not_mem_nil ha

/-- **A response without its call**: after the guard, where a long response
comes last, and after trimming, where a long call does not fit and the response
to it does. -/
theorem compaction_orphans_response :
    WellFormed (toolHistory 400) ∧ WellFormed (callHistory 400)
      ∧ ¬ WellFormed (makeCompactionModifier trimLast heuristicBackend leastLimit
        (.list (toolHistory 400)))
      ∧ ¬ WellFormed (makeCompactionModifier trimLast heuristicBackend leastLimit
        (.list (callHistory 400)))
      ∧ ¬ WellFormed (TokenAwareCompactionModifier.apply ⟨100⟩ trimLast heuristicBackend
        (callHistory 400)) := by
  have hcall : ¬ WellFormed (compact trimLast (makeTokenCounter heuristicBackend) 100
      (callHistory 400)) := by
    rw [compact_callHistory]
    exact not_wellFormed_tool_cons
  have htool : ¬ WellFormed (compact trimLast (makeTokenCounter heuristicBackend) 100
      (toolHistory 400)) := by
    rw [compact_toolHistory]
    exact not_wellFormed_tool_cons
  rw [apply_eq_compact keepsLatest_trimLast, makeCompactionModifier_leastLimit,
    makeCompactionModifier_leastLimit]
  exact ⟨by decide, by decide, htool, hcall, hcall⟩
