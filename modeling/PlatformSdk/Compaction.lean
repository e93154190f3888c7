import PlatformSdk.AuthorizedTool
import PlatformSdk.ConfigModels
import PlatformSdk.LongestSuffix

/-!
# Context compaction

Before every step of an agent its messages are cut to the token limit: a
history that fits is left alone, any other one goes to `trim_messages`, and
when fewer than two messages come back, a guard keeps the system messages and
the last message that is none. `compact` is that body, which the class and the
factory of the source both have.

`trim_messages` is a parameter. What the code relies on is `KeepsLatest`: it
keeps the leading system message and the longest suffix of the rest that fits
beside it. Under it `compact` is one of two things, `compact_of_guardRuns` and
`compact_of_not_guardRuns`, and which one can be read off the last two
messages.
-/

/-! ## Messages -/

/-- The class of a message, with what the code or the protocol of the model
reads of it. -/
inductive MessageKind where
  | system
  | human
  /-- The ids of the tool calls it makes. -/
  | ai (toolCalls : List String)
  /-- The id of the call it answers. -/
  | tool (toolCallId : String)
  | other (type : String)
  deriving DecidableEq

/-- **A `BaseMessage`**: its class, its content, and the other fields. -/
structure BaseMessage where
  kind : MessageKind
  /-- A text, or a list of blocks. -/
  content : Json
  /-- The other fields that were set, the `id` among them. -/
  fields : Dict String Json := []
  deriving DecidableEq

namespace BaseMessage

/-- `isinstance(m, SystemMessage)`, told by the kind of the message. -/
def isSystem (m : BaseMessage) : Bool := m.kind = .system

/-- `isinstance(m, HumanMessage)`, told by the kind of the message. -/
def isHuman (m : BaseMessage) : Bool := m.kind = .human

/-- `isinstance(m, ToolMessage)`, whichever call the message answers. -/
def isTool (m : BaseMessage) : Bool :=
  match m.kind with
  | .tool _ => true
  | _ => false

/-- The ids of the tool calls a message makes. -/
def toolCalls (m : BaseMessage) : List String :=
  match m.kind with
  | .ai calls => calls
  | _ => []

/-- A human message is no system message, so that it is kept apart from the
prompt. -/
theorem isSystem_of_isHuman {m : BaseMessage} (h : m.isHuman = true) : m.isSystem = false := by
  have hk : m.kind = .human := of_decide_eq_true h
  rw [isSystem, hk]
  rfl

/-- A system message answers no tool call and makes none. -/
theorem of_isSystem {m : BaseMessage} (h : m.isSystem = true) :
    m.isTool = false ∧ m.toolCalls = [] := by
  have hk : m.kind = .system := of_decide_eq_true h
  rw [isTool, toolCalls, hk]
  exact ⟨rfl, rfl⟩

end BaseMessage

/-! ## Token counters -/

/-- `total += …` over the messages, the count being a sum of the costs of each.
-/
def countWith (cost : BaseMessage → ℕ) (messages : List BaseMessage) : ℕ :=
  messages.foldl (fun total m => total + cost m) 0

@[simp] theorem countWith_nil (cost : BaseMessage → ℕ) : countWith cost [] = 0 := rfl

theorem countWith_eq_sum (cost : BaseMessage → ℕ) (messages : List BaseMessage) :
    countWith cost messages = (messages.map cost).sum := by
  rw [countWith, List.sum_eq_foldl, List.foldl_map]

@[simp] theorem countWith_cons (cost : BaseMessage → ℕ) (m : BaseMessage)
    (messages : List BaseMessage) :
    countWith cost (m :: messages) = cost m + countWith cost messages := by
  simp only [countWith_eq_sum, List.map_cons, List.sum_cons]

@[simp] theorem countWith_append (cost : BaseMessage → ℕ) (xs ys : List BaseMessage) :
    countWith cost (xs ++ ys) = countWith cost xs + countWith cost ys := by
  simp only [countWith_eq_sum, List.map_append, List.sum_append]

/-- A suffix costs no more than the whole, every message costing something or
nothing. -/
theorem countWith_le_of_suffix (cost : BaseMessage → ℕ) {t u : List BaseMessage} (h : t <:+ u) :
    countWith cost t ≤ countWith cost u := by
  obtain ⟨pre, rfl⟩ := h
  rw [countWith_append]
  exact Nat.le_add_left _ _

/-- **What a token counter depends on**: the printable characters, which the
`repr` of a list of blocks asks for, and `enc.encode`, where `tiktoken` is
installed.

`encode` is total here. The real one raises `ValueError` on a text in which one
of the special tokens of the encoding stands, such as `<|endoftext|>`; a
modifier whose counter raises returns no list at all, and of such messages the
results below say nothing. -/
structure TokenBackend where
  isPrintable : Char → Bool
  encode : Option (String → List ℕ)

/-- `m.content if isinstance(m.content, str) else str(m.content)`, the text that
is counted. -/
def BaseMessage.text (isPrintable : Char → Bool) (m : BaseMessage) : String :=
  m.content.pyStr isPrintable

/-- `_tiktoken_count`: the tokens of the text of each message, added up. -/
def tiktokenCount (isPrintable : Char → Bool) (encode : String → List ℕ) :
    List BaseMessage → ℕ :=
  countWith fun m => (encode (m.text isPrintable)).length

/-- `_heuristic_count`: a quarter of the length of each text, and one at least.
-/
def heuristicCount (isPrintable : Char → Bool) : List BaseMessage → ℕ :=
  countWith fun m => max 1 ((m.text isPrintable).toList.length / 4)

/-- **`_make_token_counter`**, whose counter `_get_token_counter` keeps. -/
def makeTokenCounter (backend : TokenBackend) : List BaseMessage → ℕ :=
  match backend.encode with
  | some encode => tiktokenCount backend.isPrintable encode
  | none => heuristicCount backend.isPrintable

/-- **Every counter adds up** what the messages cost one by one. -/
theorem exists_makeTokenCounter_eq (backend : TokenBackend) :
    ∃ cost, makeTokenCounter backend = countWith cost := by
  unfold makeTokenCounter
  split
  · exact ⟨_, rfl⟩
  · exact ⟨_, rfl⟩

/-! ## Trimming -/

/-- `trim_messages` under `strategy="last"`, `include_system=True` and
`allow_partial=False`: the messages, `max_tokens` and the counter. -/
abbrev TrimMessages := List BaseMessage → ℤ → (List BaseMessage → ℕ) → List BaseMessage

/-- The leading system message, if there is one, which `include_system` keeps.
-/
def leadingSystem : List BaseMessage → List BaseMessage
  | [] => []
  | m :: _ => if m.isSystem then [m] else []

/-- The messages after it, or all of them where none leads. -/
def afterSystem : List BaseMessage → List BaseMessage
  | [] => []
  | m :: messages => if m.isSystem then messages else m :: messages

@[simp] theorem leadingSystem_append_afterSystem (messages : List BaseMessage) :
    leadingSystem messages ++ afterSystem messages = messages := by
  cases messages with
  | nil => rfl
  | cons m messages =>
    rw [leadingSystem, afterSystem]
    split <;> rfl

theorem isSystem_of_mem_leadingSystem {messages : List BaseMessage} {m : BaseMessage}
    (h : m ∈ leadingSystem messages) : m.isSystem = true := by
  cases messages with
  | nil => exact absurd h List.not_mem_nil
  | cons x messages =>
    rw [leadingSystem] at h
    split at h
    · next hx => exact List.mem_singleton.mp h ▸ hx
    · exact absurd h List.not_mem_nil

theorem mem_of_mem_leadingSystem {messages : List BaseMessage} {m : BaseMessage}
    (h : m ∈ leadingSystem messages) : m ∈ messages := by
  rw [← leadingSystem_append_afterSystem messages]
  exact List.mem_append_left _ h

theorem length_leadingSystem_le (messages : List BaseMessage) :
    (leadingSystem messages).length ≤ 1 := by
  cases messages with
  | nil => exact Nat.zero_le 1
  | cons m messages =>
    rw [leadingSystem]
    split
    · exact le_rfl
    · exact Nat.zero_le 1

/-- A history that ends with a message that is no system message has it after
the leading one. -/
theorem suffix_afterSystem {before after : List BaseMessage} {m : BaseMessage}
    (h : m.isSystem = false) : m :: after <:+ afterSystem (before ++ m :: after) := by
  cases before with
  | nil =>
    rw [List.nil_append, afterSystem, h]
    exact List.suffix_rfl
  | cons x before =>
    rw [List.cons_append, afterSystem]
    split
    · exact List.suffix_append _ _
    · exact (List.suffix_append _ _).trans (List.suffix_cons x _)

/-- **What fits the limit** beside the leading system message. -/
def FitsBeside (counter : List BaseMessage → ℕ) (limit : ℤ) (messages t : List BaseMessage) :
    Prop :=
  (counter (leadingSystem messages ++ t) : ℤ) ≤ limit

instance (counter : List BaseMessage → ℕ) (limit : ℤ) (messages : List BaseMessage) :
    DecidablePred (FitsBeside counter limit messages) := fun t =>
  inferInstanceAs (Decidable ((counter (leadingSystem messages ++ t) : ℤ) ≤ limit))

/-- What fits passes to shorter suffixes, so there is a longest suffix that fits
and every other one that does is a part of it. -/
theorem suffixClosed_fitsBeside (cost : BaseMessage → ℕ) (limit : ℤ)
    (messages : List BaseMessage) : SuffixClosed (FitsBeside (countWith cost) limit messages) := by
  intro t u htu hu
  rw [FitsBeside, countWith_append] at hu ⊢
  have := countWith_le_of_suffix cost htu
  omega

/-- **What the code relies on in `trim_messages`**: the leading system message
and the longest suffix of the rest that fits beside it, no message split. -/
def KeepsLatest (trim : TrimMessages) : Prop :=
  ∀ (messages : List BaseMessage) (limit : ℤ) (cost : BaseMessage → ℕ), ∃ s,
    IsLongestFit (FitsBeside (countWith cost) limit messages) (afterSystem messages) s
      ∧ trim messages limit (countWith cost) = leadingSystem messages ++ s

/-- A `trim_messages` that does so, by trying every suffix. -/
def trimLast : TrimMessages := fun messages limit counter =>
  leadingSystem messages
    ++ longestFit (fun t => (counter (leadingSystem messages ++ t) : ℤ) ≤ limit)
      (afterSystem messages)

theorem keepsLatest_trimLast : KeepsLatest trimLast := fun messages limit cost =>
  ⟨_, isLongestFit_longestFit (FitsBeside (countWith cost) limit messages) _, rfl⟩

/-! ## The modifiers -/

/-- The system messages, and the last message that is none. -/
def guarded (messages : List BaseMessage) : List BaseMessage :=
  let systemMsgs := messages.filter BaseMessage.isSystem
  let nonSystem := messages.filter fun m => !m.isSystem
  systemMsgs ++ nonSystem.getLast?.toList

/-- **The compaction of a message list**, the body `_modifier` and `apply`
have in common. -/
def compact (trim : TrimMessages) (counter : List BaseMessage → ℕ) (limit : ℤ)
    (messages : List BaseMessage) : List BaseMessage :=
  if (counter messages : ℤ) ≤ limit then messages
  else
    let trimmed := trim messages limit counter
    if trimmed.length < 2 ∧ 2 ≤ messages.length then guarded messages else trimmed

/-- **`TokenAwareCompactionModifier`**, of which `apply` reads the limit. -/
structure TokenAwareCompactionModifier where
  tokenLimit : ℤ

/-- **`TokenAwareCompactionModifier.apply`**, which leaves an empty history
alone. -/
def TokenAwareCompactionModifier.apply (self : TokenAwareCompactionModifier) (trim : TrimMessages)
    (backend : TokenBackend) (messages : List BaseMessage) : List BaseMessage :=
  if messages = [] then messages
  else compact trim (makeTokenCounter backend) self.tokenLimit messages

/-- **The state an agent hands its modifier**: a list of messages, or a
dictionary that has one under `"messages"` or has none. -/
inductive AgentState where
  | list (messages : List BaseMessage)
  | dict (messages : Option (List BaseMessage))

/-- `state if isinstance(state, list) else state.get("messages", [])`, for the
two shapes LangGraph hands over. -/
def AgentState.messages : AgentState → List BaseMessage
  | .list messages => messages
  | .dict messages => messages.getD []

/-- **`make_compaction_modifier`.** -/
def makeCompactionModifier (trim : TrimMessages) (backend : TokenBackend) (config : AgentConfig)
    (state : AgentState) : List BaseMessage :=
  if config.enableCompaction = false then state.messages
  else compact trim (makeTokenCounter backend) config.contextTokenLimit state.messages

/-! ## What compaction does -/

section Compact

variable {trim : TrimMessages} {cost : BaseMessage → ℕ} {limit : ℤ} {messages : List BaseMessage}

/-- **When the guard runs**: there are two messages to keep, and the last two
– the leading system message and the last one, where there is one – do not
fit. -/
def GuardRuns (counter : List BaseMessage → ℕ) (limit : ℤ) (messages : List BaseMessage) :
    Prop :=
  2 ≤ messages.length
    ∧ ¬ FitsBeside counter limit messages
      ((afterSystem messages).rtake (2 - (leadingSystem messages).length))

instance (counter : List BaseMessage → ℕ) : Decidable (GuardRuns counter limit messages) :=
  inferInstanceAs (Decidable (_ ∧ ¬ _))

/-- The guard runs when the cut leaves fewer than two messages of two or
more. -/
theorem guardRuns_iff {s : List BaseMessage}
    (hs : IsLongestFit (FitsBeside (countWith cost) limit messages) (afterSystem messages) s) :
    GuardRuns (countWith cost) limit messages
      ↔ (leadingSystem messages ++ s).length < 2 ∧ 2 ≤ messages.length := by
  rw [GuardRuns, and_comm]
  refine and_congr_left fun hlen => ?_
  have hl := length_leadingSystem_le messages
  have hsum : (leadingSystem messages).length + (afterSystem messages).length
      = messages.length := by
    rw [← List.length_append, leadingSystem_append_afterSystem]
  rw [← hs.length_lt_iff (suffixClosed_fitsBeside cost limit messages) (by omega) (by omega),
    List.length_append]
  omega

/-- Where the guard runs, whatever fits is shorter than two messages. -/
theorem length_lt_of_guardRuns (h : GuardRuns (countWith cost) limit messages)
    {t : List BaseMessage} (ht : t <:+ afterSystem messages)
    (hfit : FitsBeside (countWith cost) limit messages t) :
    (leadingSystem messages ++ t).length < 2 := by
  have hs := isLongestFit_longestFit (FitsBeside (countWith cost) limit messages)
    (afterSystem messages)
  have hlen := ((guardRuns_iff hs).mp h).1
  have hle := (hs.longest t ht hfit).length_le
  rw [List.length_append] at hlen ⊢
  omega

/-- A history that fits is left alone, and the guard does not run. -/
theorem not_guardRuns_of_le (h : (countWith cost messages : ℤ) ≤ limit) :
    ¬ GuardRuns (countWith cost) limit messages := by
  rintro ⟨-, hfit⟩
  have hall : FitsBeside (countWith cost) limit messages (afterSystem messages) := by
    rw [FitsBeside, leadingSystem_append_afterSystem]
    exact h
  exact hfit (suffixClosed_fitsBeside cost limit messages _ _ (List.drop_suffix _ _) hall)

/-- **Where the guard runs**, it decides what is kept. -/
theorem compact_of_guardRuns (htrim : KeepsLatest trim)
    (h : GuardRuns (countWith cost) limit messages) :
    compact trim (countWith cost) limit messages = guarded messages := by
  obtain ⟨s, hs, heq⟩ := htrim messages limit cost
  have hover : ¬ (countWith cost messages : ℤ) ≤ limit := fun hle => not_guardRuns_of_le hle h
  rw [compact, if_neg hover]
  show (if _ then _ else _) = _
  rw [heq, if_pos ((guardRuns_iff hs).mp h)]

/-- **Where it does not**, the leading system message is kept, and the longest
suffix of the rest that fits beside it. -/
theorem compact_of_not_guardRuns (htrim : KeepsLatest trim)
    (h : ¬ GuardRuns (countWith cost) limit messages) :
    ∃ s, IsLongestFit (FitsBeside (countWith cost) limit messages) (afterSystem messages) s
      ∧ compact trim (countWith cost) limit messages = leadingSystem messages ++ s := by
  obtain ⟨s, hs, heq⟩ := htrim messages limit cost
  refine ⟨s, hs, ?_⟩
  rw [compact]
  split
  · next hle =>
    -- everything fits, so the longest suffix is the whole
    have hall : FitsBeside (countWith cost) limit messages (afterSystem messages) := by
      rw [FitsBeside, leadingSystem_append_afterSystem]
      exact hle
    rw [hs.eq_self hall, leadingSystem_append_afterSystem]
  · show (if _ then _ else _) = _
    rw [heq, if_neg (fun hc => h ((guardRuns_iff hs).mpr hc))]

/-- Nothing is made of nothing, at any limit, even one that is negative. -/
theorem compact_nil (htrim : KeepsLatest trim) :
    compact trim (countWith cost) limit [] = [] := by
  have hno : ¬ GuardRuns (countWith cost) limit [] := fun h => absurd h.1 (by decide)
  obtain ⟨s, hs, heq⟩ := compact_of_not_guardRuns htrim hno
  rw [heq, List.suffix_nil.mp hs.suffix]
  rfl

/-- **The class and the factory compact alike**, so what is shown of the one
holds of both. -/
theorem apply_eq_compact (htrim : KeepsLatest trim) (backend : TokenBackend) (limit : ℤ)
    (messages : List BaseMessage) :
    TokenAwareCompactionModifier.apply ⟨limit⟩ trim backend messages
      = compact trim (makeTokenCounter backend) limit messages := by
  obtain ⟨cost, hcost⟩ := exists_makeTokenCounter_eq backend
  rw [TokenAwareCompactionModifier.apply]
  split
  · next h => rw [h, hcost, compact_nil htrim]
  · rfl

end Compact
