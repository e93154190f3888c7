import PlatformSdk.RegistryLookup

/-!
# What the breaker of the registry counts

The breaker of a client should open when the registry cannot be reached five
times in a row. It counts every `GET` that fails, but of the `GET`s that are
answered only those that bring an entry set the count back: a 404, and a body
that is no entry, leave it where it is. So failures with answers between them
add up, and the circuit opens (`not_countsUnreachable`).

As long as such answers only come while the count is at zero, the count is
the number of unreachable `GET`s in a row (`countsUnreachable_of_run`).
-/

namespace Registry

/-- One more event: a `GET` of a lookup that is not answered is counted, one
that is answered starts the count again. -/
def countUnreachable (n : ℕ) : Event → ℕ
  | .reply _ reply => if reply.isAnswered then 0 else n + 1
  | _ => n

/-- **How many `GET`s in a row**, up to now, the registry has not answered. -/
def unreachableInRow (as : List Event) : ℕ := as.foldl countUnreachable 0

theorem unreachableInRow_concat (as : List Event) (a : Event) :
    unreachableInRow (as ++ [a]) = countUnreachable (unreachableInRow as) a := by
  show (as ++ [a]).foldl countUnreachable 0 = _
  rw [List.foldl_append]
  rfl

/-- **The breaker counts what is unreachable**: it is open only after at least
as many `GET`s in a row as its threshold, and an answer brings the count back
to zero. -/
def CountsUnreachable (as : List Event) (s : State) : Prop :=
  (s.client.cb.isOpen s.now = true → s.client.cb.failureThreshold ≤ unreachableInRow as)
    ∧ ∀ bs i reply, as = bs ++ [.reply i reply] → reply.isAnswered = true →
      s.client.cb.consecutiveFailures = 0

/-- A `GET` that is answered without an entry finds the count at zero. -/
def AnsweredAtZero (c : EntryCoercions) (s : State) (a : Event) : Prop :=
  ∀ i reply, a = .reply i reply → reply.isAnswered = true → ¬ reply.IsEntry c →
    s.client.cb.consecutiveFailures = 0

variable {c : EntryCoercions} {cfg : Settings}

/-- **What a step does to the breaker**: nothing, unless a lookup resumes.
Then it counts a reply that is no answer, starts again with an entry, and does
nothing about any other answer. -/
theorem cb_of_step {s s' : State} {a : Event} (h : step c cfg s a = some s') :
    (s'.client.cb = s.client.cb ∧ ∀ i reply, a ≠ .reply i reply)
      ∨ ∃ i reply, a = .reply i reply
        ∧ (reply.isAnswered = false ∧ s'.client.cb = s.client.cb.recordFailure s.now
          ∨ reply.IsEntry c ∧ s'.client.cb = s.client.cb.recordSuccess
          ∨ reply.isAnswered = true ∧ ¬ reply.IsEntry c ∧ s'.client.cb = s.client.cb) := by
  cases moves_of_step h with
  | received hi hf =>
    exact .inr ⟨_, _, rfl, .inr (.inl ⟨fetch_eq_ok_iff.mp ⟨_, hf⟩, rfl⟩)⟩
  | failed hi hf hc => exact .inr ⟨_, _, rfl, .inl ⟨(isCaught_iff hf).mp hc, rfl⟩⟩
  | raised hi hf hc =>
    refine .inr ⟨_, _, rfl, .inr (.inr ⟨?_, fun he => ?_, rfl⟩)⟩
    · simpa [hc] using (isCaught_iff hf).symm
    · obtain ⟨entry, hok⟩ := fetch_eq_ok_iff.mpr he
      rw [hf] at hok
      cases hok
  | refreshed => exact .inl ⟨cb_storeAll _ _ _, fun _ _ ha => (by cases ha)⟩
  | tick | answered | asked | startRefresh | alreadyStarted | wake | stopRefresh =>
    exact .inl ⟨rfl, fun _ _ ha => (by cases ha)⟩

/-- The count is the number of unreachable `GET`s in a row. -/
def Counts (as : List Event) (s : State) : Prop :=
  s.client.cb.failureThreshold = 5 ∧ s.client.cb.failures = unreachableInRow as

/-- A step keeps it so: an entry sets both counts back, and an answer without
one is taken at zero only. -/
theorem counts_of_step {as : List Event} {s s' : State} {a : Event} (h : Counts as s)
    (hzero : AnsweredAtZero c s a) (hstep : step c cfg s a = some s') :
    Counts (as ++ [a]) s' := by
  obtain ⟨hthreshold, hfailures⟩ := h
  rw [Counts, unreachableInRow_concat]
  rcases cb_of_step hstep with
    ⟨hcb, ha⟩ | ⟨i, reply, rfl, ⟨hr, hcb⟩ | ⟨he, hcb⟩ | ⟨hr, hno, hcb⟩⟩ <;> rw [hcb]
  · refine ⟨hthreshold, hfailures.trans ?_⟩
    cases a with
    | reply i reply => exact absurd rfl (ha i reply)
    | _ => rfl
  · simp [countUnreachable, hr, hthreshold, hfailures]
  · exact ⟨hthreshold, by simp [countUnreachable, he.isAnswered]⟩
  · have hz : s.client.cb.failures = 0 := hzero i reply rfl hr hno
    exact ⟨hthreshold, by simp [countUnreachable, hr, hz]⟩

/-- **When the breaker counts what is unreachable**: in every run in which each
answer without an entry finds the count at zero. Such an answer leaves `_fetch`
by an exception and so does not come by `record_success`, which would set the
count back. -/
theorem countsUnreachable_of_run {as : List Event} {s : State}
    (hzero : (machine c cfg).Along (AnsweredAtZero c) {} as)
    (hrun : (machine c cfg).run {} as = some s) : CountsUnreachable as s := by
  have hcounts : Counts as s :=
    (machine c cfg).run_history_along (I := Counts) ⟨rfl, rfl⟩
      (fun _ _ _ _ _ h hz hstep => counts_of_step h hz hstep) hzero hrun
  obtain ⟨-, hfailures⟩ := hcounts
  rw [CountsUnreachable, ← hfailures]
  refine ⟨fun hopen => ((CircuitBreaker.isOpen_iff _ _).mp hopen).1, ?_⟩
  rintro bs i reply rfl hr
  show s.client.cb.failures = 0
  rw [hfailures, unreachableInRow_concat]
  exact if_pos hr

/-- Lookups one after the other that cannot reach the registry. -/
def failingLookups (is : List ℕ) : List Event :=
  is.flatMap fun i => [.lookup i "ai-mcp-data", .reply i (.requestError "connection refused")]

theorem not_isAnswered_of_mem {is : List ℕ} {i : ℕ} {reply : Reply}
    (h : .reply i reply ∈ failingLookups is) : reply.isAnswered = false := by
  obtain ⟨j, -, hmem⟩ := List.mem_flatMap.mp h
  rcases List.mem_cons.mp hmem with hlookup | hreply
  · cases hlookup
  · obtain ⟨-, rfl⟩ := Event.reply.inj (List.mem_singleton.mp hreply)
    rfl

/-- Five lookups in a row that cannot reach the registry open the circuit, and
are counted as five. -/
theorem countsUnreachable_failingLookups :
    ∃ s, (machine EntryCoercions.exact {}).run {} (failingLookups [0, 1, 2, 3, 4]) = some s
      ∧ s.client.cb.isOpen s.now = true ∧ CountsUnreachable (failingLookups [0, 1, 2, 3, 4]) s := by
  have hopen : ((machine EntryCoercions.exact {}).run {} (failingLookups [0, 1, 2, 3, 4])).map
      (fun s => s.client.cb.isOpen s.now) = some true := by decide +kernel
  obtain ⟨s, hrun, hs⟩ := Option.map_eq_some_iff.mp hopen
  refine ⟨s, hrun, hs, countsUnreachable_of_run (Machine.along_of_forall _ ?_ _) hrun⟩
  rintro a ha s i reply rfl hr -
  rw [not_isAnswered_of_mem ha] at hr
  cases hr

/-- Four lookups that cannot reach the registry, one that it answers with a
404, and one more. -/
def answeredBetween : List Event :=
  failingLookups [0, 1, 2, 3] ++ [.lookup 4 "ai-mcp-data", .reply 4 (.response 404 none)]
    ++ failingLookups [5]

/-- **The circuit is open after one failure in a row.** -/
theorem not_countsUnreachable :
    ∃ s, (machine EntryCoercions.exact {}).run {} answeredBetween = some s
      ∧ ¬ CountsUnreachable answeredBetween s := by
  have hopen : ((machine EntryCoercions.exact {}).run {} answeredBetween).map
      (fun s => (s.client.cb.isOpen s.now, s.client.cb.failureThreshold)) = some (true, 5) := by
    decide +kernel
  obtain ⟨s, hrun, hs⟩ := Option.map_eq_some_iff.mp hopen
  obtain ⟨hs, hthreshold⟩ := Prod.mk.inj hs
  refine ⟨s, hrun, fun h => ?_⟩
  have hle : s.client.cb.failureThreshold ≤ unreachableInRow answeredBetween := h.1 hs
  rw [hthreshold] at hle
  exact absurd hle (by decide)

end Registry
