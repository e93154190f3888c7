import PlatformSdk.RegistryLookup

/-!
# Where a returned entry comes from

An entry a lookup returns was received at some time of the run: in the reply
to that very call, or earlier, in a reply to a lookup of the same name or in a
list under it. `Explained` is the invariant behind it. Every cell in the cache
and every cell a waiting call has read stands for such a reception, at the
time the cell carries.

Two results are read off from it. `received_of_returns` bounds the age of what is
returned by the two settings. `returned_of_notFoundSince` is about a service
the registry no longer knows: a 404 leaves the cell in the cache, and until
the cell is too old an outage or an open circuit still brings it back.
-/

namespace Registry

variable (c : EntryCoercions) (cfg : Settings)

/-- An entry is received under a name at a given time. -/
def ReceivedAt (name : String) (entry : RegistryEntry) (r : ℚ) (s : State) (a : Event) : Prop :=
  Received c name entry s a ∧ s.now = r

/-- A cell is held for a name: in the cache, or by a call that waits. -/
def Holds (s : State) (name : String) (cell : CacheEntry) : Prop :=
  s.client.cache.get? name = some cell ∨ ∃ i, s.calls i = .fetching name (some cell)

/-- **Every cell stands for a reception**, at the time it carries. -/
def Explained (as : List Event) (s : State) : Prop :=
  ∀ name cell, Holds s name cell →
    (machine c cfg).Happened (ReceivedAt c name cell.entry cell.fetchedAt) {} as

/-- The reply to a call is the entry it returns. -/
def OwnReply (s : State) (a : Event) (i : ℕ) (name : String) (entry : RegistryEntry) : Prop :=
  ∃ cached reply, a = .reply i reply ∧ s.calls i = .fetching name cached
    ∧ fetch c name reply = .ok entry

/-- A call has contacted the registry in vain, or found the circuit open. -/
def InVain (s : State) (a : Event) (i : ℕ) (name : String) : Prop :=
  (a = .lookup i name ∧ s.client.cb.isOpen s.now = true)
    ∨ ∃ reply, a = .reply i reply ∧ reply.isAnswered = false

variable {c cfg}

theorem now_le_of_step {s s' : State} {a : Event} (h : step c cfg s a = some s') :
    s.now ≤ s'.now := by
  cases moves_of_step h with
  | tick hd => exact le_add_of_nonneg_right hd
  | answered | asked | received | failed | raised | startRefresh | alreadyStarted | wake
  | refreshed | stopRefresh => exact le_rfl

/-- What was received in a run was received by now. -/
theorem le_now_of_happened {as : List Event} {s : State} (hrun : (machine c cfg).run {} as = some s)
    {name : String} {entry : RegistryEntry} {r : ℚ}
    (h : (machine c cfg).Happened (ReceivedAt c name entry r) {} as) : r ≤ s.now := by
  refine (machine c cfg).run_history
    (I := fun as t => (machine c cfg).Happened (ReceivedAt c name entry r) {} as → r ≤ t.now)
    (fun hnil => hnil.elim) (fun as t a t' ht ih hstep hhap => ?_) hrun h
  rcases ((machine c cfg).happened_concat ht).mp hhap with hold | ⟨-, rfl⟩
  · exact (ih hold).trans (now_le_of_step hstep)
  · exact now_le_of_step hstep

/-- A cell that is held was held before, or has just been received. -/
theorem holds_of_step {s s' : State} {a : Event} (h : step c cfg s a = some s') {name : String}
    {cell : CacheEntry} (hcell : Holds s' name cell) :
    Holds s name cell ∨ ReceivedAt c name cell.entry cell.fetchedAt s a := by
  rcases hcell with hcache | ⟨i, hi⟩
  · rcases cell_of_step h hcache with ⟨-, hold⟩ | ⟨hrec, hat⟩
    · exact .inl (.inl hold)
    · exact .inr ⟨hrec, hat.symm⟩
  · rcases fetching_of_step h hi with hold | ⟨-, hcached⟩
    · exact .inl (.inr ⟨i, hold⟩)
    · exact .inl (.inl hcached.symm)

/-- **In every run every cell stands for a reception.** -/
theorem explained_run {as : List Event} {s : State}
    (hrun : (machine c cfg).run {} as = some s) : Explained c cfg as s := by
  refine (machine c cfg).run_history (I := Explained c cfg) ?_ ?_ hrun
  · rintro name cell (hcache | ⟨i, hi⟩)
    · cases hcache
    · cases hi
  · intro as t a t' ht ih hstep name cell hcell
    refine ((machine c cfg).happened_concat ht).mpr ?_
    rcases holds_of_step hstep hcell with hold | hrec
    · exact .inl (ih name cell hold)
    · exact .inr hrec

/-- **What a call returns** is the reply it got, or a cell that is held: a
fresh one, or a young one after asking in vain or with the circuit open. -/
theorem returned_cases {s s' : State} {a : Event} (hstep : step c cfg s a = some s') {i : ℕ}
    {name : String} {entry : RegistryEntry} (hret : Returns s s' i name (.ok entry)) :
    OwnReply c s a i name entry
      ∨ ∃ cell, cell.entry = entry ∧ Holds s name cell ∧ s'.now = s.now
        ∧ (cell.fresh s.now cfg.refreshSeconds = true
          ∨ cell.young cfg s.now = true ∧ InVain s a i name) := by
  rcases returns_of_step hstep hret with ⟨rfl, hl, rfl⟩ | ⟨cached, reply, rfl, hi, hnow, hresult⟩
  · rcases cases_of_lookup_inl hl with ⟨cell, hcell, hfresh, hr⟩ | ⟨hopen, hr⟩
    · exact .inr ⟨cell, (Except.ok.inj hr).symm, .inl hcell, rfl, .inl hfresh⟩
    · obtain ⟨cell, hcell, hy, hentry⟩ := staleOrRaise_eq_ok_iff.mp hr.symm
      exact .inr ⟨cell, hentry, .inl hcell, rfl, .inr ⟨hy, .inl ⟨rfl, hopen⟩⟩⟩
  · rcases hresult with ⟨e, hf, hr⟩ | ⟨exc, hf, hc, hr, -⟩ | ⟨exc, -, -, hr⟩
    · exact .inl ⟨cached, reply, rfl, hi, Except.ok.inj hr ▸ hf⟩
    · obtain ⟨cell, rfl, hy, hentry⟩ := staleOrRaise_eq_ok_iff.mp hr.symm
      exact .inr ⟨cell, hentry, .inr ⟨i, hi⟩, hnow,
        .inr ⟨hy, .inr ⟨reply, rfl, (isCaught_iff hf).mp hc⟩⟩⟩
    · cases hr

/-! ## The age of what is returned -/

/-- **Where a returned entry comes from**: it is the reply to that very call,
or was received under the name less than one of the two durations ago; and if
not less than `refresh_seconds` ago, then the call asked in vain or found the
circuit open. -/
theorem received_of_returns {as : List Event} {s s' : State} {a : Event}
    (hrun : (machine c cfg).run {} as = some s) (hstep : step c cfg s a = some s') {i : ℕ}
    {name : String} {entry : RegistryEntry} (hret : Returns s s' i name (.ok entry)) :
    OwnReply c s a i name entry
      ∨ ∃ r ≤ s'.now, (machine c cfg).Happened (ReceivedAt c name entry r) {} as
        ∧ (cfg.refreshSeconds.isAbove (s'.now - r) = true
          ∨ cfg.staleCacheMaxSeconds.isAbove (s'.now - r) = true)
        ∧ (cfg.refreshSeconds.isAbove (s'.now - r) = false → InVain s a i name) := by
  refine (returned_cases hstep hret).imp_right ?_
  rintro ⟨cell, rfl, hholds, hnow, hage⟩
  have hrec := explained_run hrun name cell hholds
  rw [hnow]
  refine ⟨cell.fetchedAt, le_now_of_happened hrun hrec, hrec, ?_⟩
  rcases hage with hfresh | ⟨hyoung, hvain⟩
  · refine ⟨.inl hfresh, fun hnot => ?_⟩
    exact absurd hfresh (by simp [CacheEntry.fresh, CacheEntry.age, hnot])
  · exact ⟨.inr hyoung, fun _ => hvain⟩

/-- A lookup that receives an entry, and a minute. -/
def minuteEvents : List Event :=
  [.lookup 0 "ai-mcp-data",
    .reply 0 (.response 200 (some (RegistryEntry.sampleBody "ai-mcp-data" "0.5.0"))), .tick 60]

/-- The state they lead to: the entry is a minute old, and the call has ended
with it. -/
def minuteLater : State where
  now := 60
  client := cachedClient
  calls := ((State.goto {} 0 (.fetching "ai-mcp-data" none)).goto 0
    (.ended "ai-mcp-data" (.ok (RegistryEntry.sample "ai-mcp-data" "0.5.0")))).calls

theorem run_minuteEvents :
    (machine EntryCoercions.exact {}).run {} minuteEvents = some minuteLater := by
  let s₁ : State := State.goto {} 0 (.fetching "ai-mcp-data" none)
  let s₂ : State := { minuteLater with now := 0 }
  have h₁ : step EntryCoercions.exact {} {} (.lookup 0 "ai-mcp-data") = some s₁ := step_lookup rfl
  have h₂ : step EntryCoercions.exact {} s₁
      (.reply 0 (.response 200 (some (RegistryEntry.sampleBody "ai-mcp-data" "0.5.0"))))
        = some s₂ := by
    rw [step_reply rfl, Client.resume_of_ok (fetch_sampleBody _ _ _)]
    rfl
  have h₃ : step EntryCoercions.exact {} s₂ (.tick 60) = some minuteLater := by
    rw [step, if_pos (by norm_num), zero_add]
    rfl
  rw [minuteEvents, Machine.run_cons_of_step _ h₁, Machine.run_cons_of_step _ h₂,
    Machine.run_cons_of_step _ h₃, Machine.run_nil]

/-- A call that finds the entry a minute old asks the registry. -/
theorem step_lookup_minuteLater {s : State} (hs : s.client = cachedClient) (hnow : s.now = 60)
    {i : ℕ} (hi : s.calls i = .idle) :
    step EntryCoercions.exact {} s (.lookup i "ai-mcp-data")
      = some (s.goto i (.fetching "ai-mcp-data" (cachedClient.cache.get? "ai-mcp-data"))) := by
  rw [step_lookup hi, hs, hnow, asks_cachedClient.lookup_eq]
  rfl

/-- And makes do with it when the registry is down. -/
theorem returns_minuteLater {s : State} (hnow : s.now = 60) {i : ℕ}
    (hi : s.calls i
      = .fetching "ai-mcp-data" (cachedClient.cache.get? "ai-mcp-data")) :
    ∃ s', step EntryCoercions.exact {} s (.reply i (.requestError "connection refused")) = some s'
      ∧ Returns s s' i "ai-mcp-data" (.ok (RegistryEntry.sample "ai-mcp-data" "0.5.0")) := by
  refine ⟨_, step_reply hi _, fun n r hended => ?_, ?_⟩
  · rw [hi] at hended
    cases hended
  · have hstale : staleOrRaise {} s.now "ai-mcp-data" (cachedClient.cache.get? "ai-mcp-data")
        = .ok (RegistryEntry.sample "ai-mcp-data" "0.5.0") := by
      rw [hnow]
      exact staleOrRaise_eq_ok_iff.mpr ⟨_, rfl, by decide +kernel, rfl⟩
    rw [goto_calls_self, ← hstale]
    rfl

/-- What a call returns after a minute was received at the start. -/
theorem received_of_returns_minuteLater :
    ∃ s s' i, Returns s s' i "ai-mcp-data" (.ok (RegistryEntry.sample "ai-mcp-data" "0.5.0"))
      ∧ (OwnReply EntryCoercions.exact s (.reply i (.requestError "connection refused")) i
          "ai-mcp-data" (RegistryEntry.sample "ai-mcp-data" "0.5.0")
        ∨ ∃ r ≤ s'.now, (machine EntryCoercions.exact {}).Happened
            (ReceivedAt EntryCoercions.exact "ai-mcp-data"
              (RegistryEntry.sample "ai-mcp-data" "0.5.0") r) {}
            (minuteEvents ++ [.lookup 1 "ai-mcp-data"])
          ∧ (({} : Settings).refreshSeconds.isAbove (s'.now - r) = true
            ∨ ({} : Settings).staleCacheMaxSeconds.isAbove (s'.now - r) = true)
          ∧ (({} : Settings).refreshSeconds.isAbove (s'.now - r) = false →
            InVain s (.reply i (.requestError "connection refused")) i "ai-mcp-data")) := by
  let s : State :=
    minuteLater.goto 1 (.fetching "ai-mcp-data" (cachedClient.cache.get? "ai-mcp-data"))
  have hask : step EntryCoercions.exact {} minuteLater (.lookup 1 "ai-mcp-data") = some s :=
    step_lookup_minuteLater rfl rfl rfl
  have hrun : (machine EntryCoercions.exact {}).run {} (minuteEvents ++ [.lookup 1 "ai-mcp-data"])
      = some s :=
    (Machine.run_concat_eq_some _).mpr ⟨minuteLater, run_minuteEvents, hask⟩
  obtain ⟨s', hstep, hret⟩ := returns_minuteLater (s := s) rfl (goto_calls_self ..)
  exact ⟨s, s', 1, hret, received_of_returns hrun hstep hret⟩

variable (c cfg) in
/-- The bound without the exception for the reply to the call itself. -/
def AgesBounded : Prop :=
  ∀ as s a s' i name entry, (machine c cfg).run {} as = some s → step c cfg s a = some s' →
    Returns s s' i name (.ok entry) →
    ∃ r, (machine c cfg).Happened (ReceivedAt c name entry r) {} (as ++ [a])
      ∧ (cfg.refreshSeconds.isAbove (s'.now - r) = false → InVain s a i name)

/-- **With a `refresh_seconds` of zero nothing is ever younger than it**, not
even what the registry has just replied. -/
theorem not_agesBounded :
    ¬ AgesBounded EntryCoercions.exact { refreshSeconds := .finite 0 } := by
  intro h
  let cfg : Settings := { refreshSeconds := .finite 0 }
  let s₁ : State := State.goto {} 0 (.fetching "ai-mcp-data" none)
  let reply : Reply := .response 200 (some (RegistryEntry.sampleBody "ai-mcp-data" "0.5.0"))
  have hask : step EntryCoercions.exact cfg {} (.lookup 0 "ai-mcp-data") = some s₁ :=
    step_lookup rfl
  have hrun : (machine EntryCoercions.exact cfg).run {} [.lookup 0 "ai-mcp-data"] = some s₁ :=
    Machine.run_cons_of_step _ hask []
  have hresume : s₁.client.resume EntryCoercions.exact cfg s₁.now "ai-mcp-data" none reply = _ :=
    Client.resume_of_ok (fetch_sampleBody _ _ _)
  have hstep : step EntryCoercions.exact cfg s₁ (.reply 0 reply) = some _ := step_reply rfl reply
  rw [hresume] at hstep
  obtain ⟨r, hhap, hvain⟩ := h _ s₁ (.reply 0 reply) _ 0 "ai-mcp-data" _ hrun hstep
    ⟨fun _ _ hended => (by cases hended), goto_calls_self ..⟩
  have hr : r = 0 := by
    rcases ((machine EntryCoercions.exact cfg).happened_concat hrun).mp hhap with
      (⟨hno, -⟩ | ⟨_, -, hno⟩) | ⟨-, hr⟩
    · exact hno.elim
    · exact hno.elim
    · exact hr.symm
  subst hr
  rcases hvain (by decide +kernel) with ⟨hlookup, -⟩ | ⟨reply', hreply, hanswered⟩
  · cases hlookup
  · obtain ⟨-, rfl⟩ := Event.reply.inj hreply
    cases hanswered

/-! ## After a 404 -/

variable (c cfg) in
/-- **The registry has said that a name is not there**, and has returned no
entry for it since: a run `bs` to `s₁`, a 404 to a lookup of the name, and a
run from there to `s₃`. -/
def NotFoundSince (name : String) (bs : List Event) (s₁ s₃ : State) : Prop :=
  (machine c cfg).run {} bs = some s₁
    ∧ ∃ j cached body s₂ cs, s₁.calls j = .fetching name cached
      ∧ step c cfg s₁ (.reply j (.response 404 body)) = some s₂
      ∧ (machine c cfg).run s₂ cs = some s₃
      ∧ (machine c cfg).Along (fun t b => ∀ entry, ¬ Received c name entry t b) s₂ cs

/-- What is held after a 404 was received before it. -/
theorem NotFoundSince.happened {name : String} {bs : List Event} {s₁ s₃ : State}
    (h : NotFoundSince c cfg name bs s₁ s₃) {cell : CacheEntry} (hcell : Holds s₃ name cell) :
    (machine c cfg).Happened (ReceivedAt c name cell.entry cell.fetchedAt) {} bs := by
  obtain ⟨hbs, j, cached, body, s₂, cs, hj, hstep, hcs, hnone⟩ := h
  have hall : (machine c cfg).run {} (bs ++ .reply j (.response 404 body) :: cs) = some s₃ := by
    rw [Machine.run_append, hbs, Option.bind_some, Machine.run_cons_of_step _ hstep, hcs]
  rcases ((machine c cfg).happened_append hbs).mp (explained_run hall name cell hcell) with
    hold | ⟨hrec, -⟩ | ⟨s, hs, hlater⟩
  · exact hold
  · -- a 404 is no entry
    have hf : fetch c name (.response 404 body) = .ok cell.entry := by
      obtain ⟨⟨cached', hj'⟩, hf⟩ := hrec
      exact hf
    cases hf
  · obtain rfl : s = s₂ := Option.some.inj (hs.symm.trans hstep)
    have hnever : (machine c cfg).Along
        (fun t b => ¬ ReceivedAt c name cell.entry cell.fetchedAt t b) s cs :=
      (machine c cfg).along_mono (fun _ _ hno hrec => hno cell.entry hrec.1) hnone
    exact absurd hlater ((machine c cfg).not_happened_of_along hnever)

/-- **What a lookup may still return after a 404**: until the registry returns
an entry again, only one that was received before the 404; and that only
while it is younger than `refresh_seconds`, or, where the call asks in vain or
finds the circuit open, than `stale_cache_max_seconds`. -/
theorem returned_of_notFoundSince {name : String} {bs : List Event} {s₁ s₃ s₄ : State}
    (h : NotFoundSince c cfg name bs s₁ s₃) {a : Event} (hstep : step c cfg s₃ a = some s₄)
    (ha : ∀ entry, ¬ Received c name entry s₃ a) {i : ℕ} {entry : RegistryEntry}
    (hret : Returns s₃ s₄ i name (.ok entry)) :
    ∃ r ≤ s₁.now, (machine c cfg).Happened (ReceivedAt c name entry r) {} bs
      ∧ (cfg.refreshSeconds.isAbove (s₄.now - r) = true
        ∨ cfg.staleCacheMaxSeconds.isAbove (s₄.now - r) = true ∧ InVain s₃ a i name) := by
  rcases returned_cases hstep hret with
    ⟨cached, reply, rfl, hi, hf⟩ | ⟨cell, rfl, hholds, hnow, hage⟩
  · exact absurd ⟨⟨cached, hi⟩, hf⟩ (ha entry)
  · have hrec := h.happened hholds
    rw [hnow]
    exact ⟨cell.fetchedAt, le_now_of_happened h.1 hrec, hrec, hage⟩

/-- A 404 a minute after the entry was received, another lookup, and an outage. -/
theorem notFoundSince_minuteLater :
    ∃ s₁ s₃, NotFoundSince EntryCoercions.exact {} "ai-mcp-data"
        (minuteEvents ++ [.lookup 1 "ai-mcp-data"]) s₁ s₃
      ∧ s₃.now = 60
      ∧ s₃.calls 2 = .fetching "ai-mcp-data" (cachedClient.cache.get? "ai-mcp-data") := by
  let cached := cachedClient.cache.get? "ai-mcp-data"
  let s₁ : State := minuteLater.goto 1 (.fetching "ai-mcp-data" cached)
  let s₂ : State := s₁.goto 1 (.ended "ai-mcp-data" (.error (.serviceNotFound "ai-mcp-data")))
  let s₃ : State := s₂.goto 2 (.fetching "ai-mcp-data" cached)
  have h₁ : step EntryCoercions.exact {} minuteLater (.lookup 1 "ai-mcp-data") = some s₁ :=
    step_lookup_minuteLater rfl rfl rfl
  have h₂ : step EntryCoercions.exact {} s₁ (.reply 1 (.response 404 none)) = some s₂ :=
    step_reply (goto_calls_self ..) _
  have h₃ : step EntryCoercions.exact {} s₂ (.lookup 2 "ai-mcp-data") = some s₃ :=
    step_lookup_minuteLater rfl rfl rfl
  refine ⟨s₁, s₃, ⟨?_, 1, cached, none, s₂, [.lookup 2 "ai-mcp-data"], goto_calls_self .., h₂,
    ?_, fun _ hrec => hrec, fun _ _ => trivial⟩, rfl, goto_calls_self ..⟩
  · exact (Machine.run_concat_eq_some _).mpr ⟨minuteLater, run_minuteEvents, h₁⟩
  · rw [Machine.run_cons_of_step _ h₃, Machine.run_nil]

/-- The outage brings back what was received before the 404. -/
theorem returned_of_notFoundSince_minuteLater :
    ∃ (s₁ s₃ s₄ : State) (r : ℚ), r ≤ s₁.now
      ∧ Returns s₃ s₄ 2 "ai-mcp-data" (.ok (RegistryEntry.sample "ai-mcp-data" "0.5.0"))
      ∧ (machine EntryCoercions.exact {}).Happened
        (ReceivedAt EntryCoercions.exact "ai-mcp-data"
          (RegistryEntry.sample "ai-mcp-data" "0.5.0") r) {}
        (minuteEvents ++ [.lookup 1 "ai-mcp-data"])
      ∧ (({} : Settings).refreshSeconds.isAbove (s₄.now - r) = true
        ∨ ({} : Settings).staleCacheMaxSeconds.isAbove (s₄.now - r) = true
          ∧ InVain s₃ (.reply 2 (.requestError "connection refused")) 2 "ai-mcp-data") := by
  obtain ⟨s₁, s₃, hsince, hnow, hi⟩ := notFoundSince_minuteLater
  obtain ⟨s₄, hstep, hret⟩ := returns_minuteLater hnow hi
  obtain ⟨r, hr, hhap, hage⟩ := returned_of_notFoundSince hsince hstep
    (fun _ hrec => (by cases hrec.2)) hret
  exact ⟨s₁, s₃, s₄, r, hr, hret, hhap, hage⟩

variable (c cfg) in
/-- **A 404 makes the client forget**: no call returns an entry received before
it. -/
def ForgetsNotFound : Prop :=
  ∀ name bs s₁ s₃ a s₄ i entry, NotFoundSince c cfg name bs s₁ s₃ → step c cfg s₃ a = some s₄ →
    (∀ e, ¬ Received c name e s₃ a) → ¬ Returns s₃ s₄ i name (.ok entry)

/-- **It does not**: an outage after the 404 brings the entry back. -/
theorem not_forgetsNotFound : ¬ ForgetsNotFound EntryCoercions.exact {} := by
  intro h
  obtain ⟨s₁, s₃, hsince, hnow, hi⟩ := notFoundSince_minuteLater
  obtain ⟨s₄, hstep, hret⟩ := returns_minuteLater hnow hi
  exact h _ _ s₁ s₃ _ s₄ 2 _ hsince hstep (fun _ hrec => (by cases hrec.2)) hret

end Registry
