import PlatformSdk.LateReplies
import PlatformSdk.Registry

/-!
# Which version of a record is cached

The registry's record of a name goes through versions, and a reply carries the
versions the registry had when it handled the request. The client compares
nothing: it stores what arrives last. So a reply that is overtaken by another
one puts an older version back, under the time it arrived
(`not_neverBack`).

What holds of every run is what holds of any late reply: it carries nothing
older than the record was when its request was sent. A reply to a request sent
when the record had reached the cached version never puts an older one back
(`neverBack_of_sentSince`), and where requests do not overlap every reply is
of this kind (`along_sentSince`).
-/

namespace Registry

/-- **A client and the registry it asks.** A request of a lookup is named after
the call, one of the refresh loop `none`. -/
structure World where
  client : State := {}
  /-- The versions of the records, and the requests on their way. -/
  replies : LateReplies (Option ℕ) (String → ℕ) := { current := fun _ => 0 }
  /-- The version of each record that is cached. -/
  held : String → Option ℕ := fun _ => none

/-- **What can happen**: a record gets a new version, the registry serves a
request, or the client takes a step. -/
inductive WorldEvent where
  /-- The record of a name gets its next version. -/
  | publish (name : String)
  /-- The registry handles a request. -/
  | serve (q : Option ℕ)
  /-- The client takes a step. -/
  | client (a : Event)

variable (c : EntryCoercions) (cfg : Settings) (record : String → ℕ → Option RegistryEntry)

namespace World

/-- The request a client sends in a step. -/
def sends (w : World) : Event → Option (Option ℕ)
  | .lookup i name =>
    match w.client.client.lookup cfg w.client.now name with
    | .inr _ => some (some i)
    | .inl _ => none
  | .wake => some none
  | _ => none

/-- The request a step delivers the reply to. -/
def delivers : Event → Option (Option ℕ)
  | .reply i _ => some (some i)
  | .refreshReply _ => some none
  | _ => none

/-- The versions with which a request was served. -/
def served (w : World) (q : Option ℕ) : Option (String → ℕ) :=
  (w.replies.flights q).bind Flight.served

/-- Whether a reply is the one the registry gave with these versions: the
record of the name, or that there is none, or an error. -/
def repliesWith (versions : Option (String → ℕ)) (name : String)
    (result : Except RegistryExc RegistryEntry) : Bool :=
  match result, versions with
  | .ok entry, some v => record name (v name) == some entry
  | .error (.serviceNotFound _), some v => record name (v name) == none
  | .error (.serviceNotFound _), none => false
  | .ok _, none => false
  | .error _, _ => true

/-- **Whether a step of the client can happen**: what it receives is what the
registry replied. -/
def genuine (w : World) : Event → Bool
  | .reply i reply =>
    match w.client.calls i with
    | .fetching name _ => repliesWith record (w.served (some i)) name (fetch c name reply)
    | _ => true
  | .refreshReply reply =>
    (listed c reply).all fun entry => repliesWith record (w.served none) entry.name (.ok entry)
  | _ => true

/-- **The version of a name that a step delivers**, if it delivers one. -/
def carried (w : World) (a : Event) (name : String) : Option ℕ :=
  match a with
  | .reply i reply =>
    match w.client.calls i with
    | .fetching n _ =>
      if n = name ∧ (fetch c n reply).isOk then (w.served (some i)).map (fun v => v name) else none
    | _ => none
  | .refreshReply reply =>
    if name ∈ (listed c reply).map RegistryEntry.name then
      (w.served none).map (fun v => v name)
    else none
  | _ => none

/-- The request that is over after a step: a task that is cancelled waits no
longer. -/
def ends : Event → Option (Option ℕ)
  | .stopRefresh => some none
  | a => delivers a

/-- The requests on their way after a step of the client. -/
def track (w : World) (a : Event) : LateReplies (Option ℕ) (String → ℕ) :=
  match w.sends cfg a, ends a with
  | some q, _ => w.replies.send q
  | none, some q => w.replies.drop q
  | none, none => w.replies

end World

/-- **One step of a client and its registry.** -/
def worldStep (w : World) : WorldEvent → Option World
  | .publish name =>
    some { w with
      replies := w.replies.advance
        (Function.update w.replies.current name (w.replies.current name + 1)) }
  | .serve q => (w.replies.serve q).map fun replies => { w with replies := replies }
  | .client a =>
    if w.genuine c record a then
      (step c cfg w.client a).map fun s =>
        { client := s
          replies := w.track cfg a
          held := fun name => (w.carried c a name).or (w.held name) }
    else none

/-- **The machine of a client and its registry.** -/
abbrev worldMachine : Machine World WorldEvent := ⟨worldStep c cfg record⟩

variable {c cfg record}

/-! ## What a step delivers -/

namespace World

/-- What is delivered is what a request was served with. -/
theorem carried_eq_some {w : World} {a : Event} {name : String} {v : ℕ}
    (h : w.carried c a name = some v) :
    ∃ q f u, delivers a = some q ∧ w.replies.flights q = some f ∧ f.served = some u
      ∧ u name = v := by
  have hserved : ∀ {q : Option ℕ}, (w.served q).map (fun u => u name) = some v →
      ∃ f u, w.replies.flights q = some f ∧ f.served = some u ∧ u name = v := by
    intro q hq
    obtain ⟨u, hu, hv⟩ := Option.map_eq_some_iff.mp hq
    obtain ⟨f, hf, hfu⟩ := Option.bind_eq_some_iff.mp hu
    exact ⟨f, u, hf, hfu, hv⟩
  unfold carried at h
  split at h
  · next i reply =>
    split at h
    · split at h
      · exact ⟨some i, (hserved h).imp fun f hf => hf.imp fun u hu => ⟨rfl, hu⟩⟩
      · cases h
    · cases h
  · next reply =>
    split at h
    · exact ⟨none, (hserved h).imp fun f hf => hf.imp fun u hu => ⟨rfl, hu⟩⟩
    · cases h
  · cases h

/-- Nothing is delivered for a name no entry is received under. -/
theorem carried_eq_none {w : World} {a : Event} {s : State} (hstep : step c cfg w.client a = some s)
    {name : String} (h : ∀ entry, ¬ Received c name entry w.client a) :
    w.carried c a name = none := by
  unfold carried
  split
  · next i reply =>
    split
    · next n cached hi =>
      refine if_neg ?_
      rintro ⟨rfl, hok⟩
      cases hf : fetch c n reply with
      | ok entry => exact h entry ⟨⟨cached, hi⟩, hf⟩
      | error exc => simp [hf, Except.isOk, Except.toBool] at hok
    · rfl
  · next reply =>
    refine if_neg fun hmem => ?_
    obtain ⟨entry, hentry, hname⟩ := List.mem_map.mp hmem
    cases moves_of_step hstep with
    | refreshed hr => exact h entry ⟨hr, hentry, hname⟩
  · rfl

/-- What is received under a name is the record in the version delivered. -/
theorem carried_of_received {w : World} {a : Event} (hgenuine : w.genuine c record a = true)
    {name : String} {entry : RegistryEntry} (h : Received c name entry w.client a) :
    ∃ v, w.carried c a name = some v ∧ record name v = some entry := by
  have hreplies : ∀ {q : Option ℕ}, repliesWith record (w.served q) name (.ok entry) = true →
      ∃ u, w.served q = some u ∧ record name (u name) = some entry := by
    intro q hq
    unfold repliesWith at hq
    cases hu : w.served q with
    | none => simp [hu] at hq
    | some u =>
      rw [hu] at hq
      exact ⟨u, rfl, by simpa using hq⟩
  cases a with
  | reply i reply =>
    obtain ⟨⟨cached, hi⟩, hf⟩ := h
    simp only [genuine, hi, hf] at hgenuine
    obtain ⟨u, hu, hrecord⟩ := hreplies hgenuine
    exact ⟨u name, by simp [carried, hi, hf, hu, Except.isOk, Except.toBool], hrecord⟩
  | refreshReply reply =>
    obtain ⟨-, hmem, rfl⟩ := h
    obtain ⟨u, hu, hrecord⟩ := hreplies (List.all_eq_true.mp hgenuine entry hmem)
    have hname : entry.name ∈ (listed c reply).map RegistryEntry.name := List.mem_map_of_mem hmem
    exact ⟨u entry.name, by simp only [carried, if_pos hname, hu, Option.map_some], hrecord⟩
  | tick | lookup | startRefresh | wake | stopRefresh => exact h.elim

end World

/-- A step of the client, in its world. -/
theorem worldStep_client {w w' : World} {a : Event}
    (h : worldStep c cfg record w (.client a) = some w') :
    w.genuine c record a = true ∧ step c cfg w.client a = some w'.client
      ∧ w'.replies = w.track cfg a
      ∧ ∀ name, w'.held name = (w.carried c a name).or (w.held name) := by
  simp only [worldStep] at h
  split at h
  · next hg =>
    obtain ⟨s, hs, rfl⟩ := Option.map_eq_some_iff.mp h
    exact ⟨hg, hs, rfl, fun _ => rfl⟩
  · cases h

/-! ## What is held is what is cached -/

/-- **The version held of a name is the version of its cell.** -/
def Matches (record : String → ℕ → Option RegistryEntry) (w : World) : Prop :=
  ∀ name cell, w.client.client.cache.get? name = some cell →
    ∃ v, w.held name = some v ∧ record name v = some cell.entry

theorem matches_of_step {w w' : World} {a : WorldEvent} (hw : Matches record w)
    (h : worldStep c cfg record w a = some w') : Matches record w' := by
  cases a with
  | publish name => exact Option.some.inj h ▸ hw
  | serve q =>
    obtain ⟨replies, -, rfl⟩ := Option.map_eq_some_iff.mp h
    exact hw
  | client a =>
    obtain ⟨hgenuine, hstep, -, hheld⟩ := worldStep_client h
    intro name cell hcell
    rw [hheld]
    rcases cell_of_step hstep hcell with ⟨hnone, hold⟩ | ⟨hrec, -⟩
    · rw [World.carried_eq_none hstep hnone]
      exact hw name cell hold
    · obtain ⟨v, hv, hrecord⟩ := World.carried_of_received hgenuine hrec
      exact ⟨v, by simp [hv], hrecord⟩

/-- No step removes a cell of the cache. -/
theorem isSome_of_worldStep {w w' : World} {a : WorldEvent}
    (h : worldStep c cfg record w a = some w') {name : String}
    (hcell : (w.client.client.cache.get? name).isSome = true) :
    (w'.client.client.cache.get? name).isSome = true := by
  cases a with
  | publish n => exact Option.some.inj h ▸ hcell
  | serve q =>
    obtain ⟨replies, -, rfl⟩ := Option.map_eq_some_iff.mp h
    exact hcell
  | client a => exact isSome_of_step (worldStep_client h).2.1 hcell

/-- In every run the cells are what was delivered last: each is the record in
the version held for its name. -/
theorem matches_run {as : List WorldEvent} {w : World}
    (hrun : (worldMachine c cfg record).run {} as = some w) : Matches record w :=
  (worldMachine c cfg record).run_invariant (fun _ _ _ => matches_of_step)
    (fun _ _ hcell => by cases hcell) hrun

/-! ## When versions do not go back -/

variable (record) in
/-- **The cell of a name shows a version**: it is the one last delivered, and the
entry in the cell is the record in that version. -/
structure World.Shows (w : World) (name : String) (cell : CacheEntry) (v : ℕ) : Prop where
  cached : w.client.client.cache.get? name = some cell
  held : w.held name = some v
  entry : record name v = some cell.entry

variable (c cfg record) in
/-- **A step does not go back** with a name: where the cache has a cell, the
cell after the step shows a version no older than the one before, and no reply
that carries an older one advances its `fetched_at`. -/
def NeverBack (name : String) (w : World) (a : WorldEvent) : Prop :=
  ∀ w' cell, worldStep c cfg record w a = some w' →
    w.client.client.cache.get? name = some cell →
      ∃ v v' cell', w.Shows record name cell v ∧ w'.Shows record name cell' v' ∧ v ≤ v'
        ∧ ∀ e u, a = .client e → w.carried c e name = some u → u < v →
          ¬ cell.fetchedAt < cell'.fetchedAt

/-- **The request was sent late enough**: the reply a step delivers is one to a
request sent when the record of the name had reached the version held. -/
def SentSince (name : String) (w : World) (a : WorldEvent) : Prop :=
  ∀ e q f v, a = .client e → World.delivers e = some q → w.replies.flights q = some f →
    w.held name = some v → v ≤ f.sent name

theorem current_track (w : World) (a : Event) :
    (w.track cfg a).current = w.replies.current := by
  unfold World.track
  split <;> rfl

/-- A step that sends a request delivers no reply. -/
theorem World.delivers_of_sends {w : World} {a : Event} {q : Option ℕ}
    (h : w.sends cfg a = some q) : World.delivers a = none := by
  cases a with
  | reply | refreshReply => cases h
  | _ => rfl

theorem World.ends_of_delivers {a : Event} {q : Option ℕ} (h : World.delivers a = some q) :
    World.ends a = some q := by
  cases a with
  | stopRefresh => cases h
  | _ => exact h

/-- A request on its way after a step of the client has just been sent, or was
on its way before and is not over. -/
theorem flights_track {w : World} {a : Event} {q : Option ℕ} {f : Flight (String → ℕ)}
    (h : (w.track cfg a).flights q = some f) :
    w.sends cfg a = some q ∧ f = { sent := w.replies.current }
      ∨ w.replies.flights q = some f ∧ (w.sends cfg a = none → World.ends a ≠ some q) := by
  unfold World.track at h
  split at h
  · next q' _ hsends =>
    rcases LateReplies.flights_send h with ⟨rfl, rfl⟩ | hold
    · exact .inl ⟨hsends, rfl⟩
    · exact .inr ⟨hold, fun hnone => by simp [hsends] at hnone⟩
  · next q' _ hends =>
    obtain ⟨hne, hold⟩ := LateReplies.flights_drop h
    exact .inr ⟨hold, fun _ he => hne (Option.some.inj (he.symm.trans hends))⟩
  · next hends => exact .inr ⟨h, fun _ he => by simp [hends] at he⟩

theorem ordered_of_step {w w' : World} {a : WorldEvent} (hw : w.replies.Ordered)
    (h : worldStep c cfg record w a = some w') : w'.replies.Ordered := by
  cases a with
  | publish name =>
    obtain rfl := Option.some.inj h
    exact hw.advance (le_update_self_iff.mpr (Nat.le_succ _))
  | serve q =>
    obtain ⟨replies, hserve, rfl⟩ := Option.map_eq_some_iff.mp h
    exact hw.serve hserve
  | client a =>
    obtain ⟨-, -, hreplies, -⟩ := worldStep_client h
    rw [hreplies]
    unfold World.track
    split
    · exact hw.send _
    · exact hw.drop _
    · exact hw

/-- **In every run every reply was current after its request was sent.** -/
theorem ordered_run {as : List WorldEvent} {w : World}
    (hrun : (worldMachine c cfg record).run {} as = some w) : w.replies.Ordered :=
  have hstep : ∀ w a w', w.replies.Ordered → worldStep c cfg record w a = some w' →
      w'.replies.Ordered := fun _ _ _ => ordered_of_step
  (worldMachine c cfg record).run_invariant hstep (fun _ _ hf => by cases hf) hrun

/-- What is delivered late enough is no older than what is held. -/
theorem le_of_carried {as : List WorldEvent} {w : World} {e : Event} {name : String}
    (hrun : (worldMachine c cfg record).run {} as = some w) (hsent : SentSince name w (.client e))
    {v u : ℕ} (hv : w.held name = some v) (hcarried : w.carried c e name = some u) : v ≤ u := by
  obtain ⟨q, f, served, hq, hf, hserved, rfl⟩ := World.carried_eq_some hcarried
  calc v ≤ f.sent name := hsent e q f v rfl hq hf hv
    _ ≤ served name := ((ordered_run hrun q f hf).2 served hserved).1 name

/-- **What is held does not go back** at a step that delivers a reply to a
request sent late enough. -/
theorem held_le_of_sentSince {as : List WorldEvent} {w w' : World} {a : WorldEvent} {name : String}
    (hrun : (worldMachine c cfg record).run {} as = some w) (hsent : SentSince name w a)
    (hstep : worldStep c cfg record w a = some w') {v v' : ℕ} (hv : w.held name = some v)
    (hv' : w'.held name = some v') : v ≤ v' := by
  cases a with
  | publish n =>
    obtain rfl := Option.some.inj hstep
    exact (Option.some.inj (hv.symm.trans hv')).le
  | serve q =>
    obtain ⟨replies, -, rfl⟩ := Option.map_eq_some_iff.mp hstep
    exact (Option.some.inj (hv.symm.trans hv')).le
  | client e =>
    obtain ⟨-, -, -, hheld⟩ := worldStep_client hstep
    rw [hheld, hv] at hv'
    cases hcarried : w.carried c e name with
    | none =>
      rw [hcarried] at hv'
      exact (Option.some.inj hv').le
    | some u =>
      rw [hcarried] at hv'
      exact Option.some.inj hv' ▸ le_of_carried hrun hsent hv hcarried

/-- **When a step does not go back**: in every run, when the request it delivers
the reply to was sent late enough. A reply carries nothing older than the
record was when its request was sent, and that was no older than the version
in the cell. -/
theorem neverBack_of_sentSince {as : List WorldEvent} {w : World} {a : WorldEvent} {name : String}
    (hrun : (worldMachine c cfg record).run {} as = some w) (hsent : SentSince name w a) :
    NeverBack c cfg record name w a := by
  intro w' cell hstep hcell
  have hmatches := matches_run hrun
  obtain ⟨v, hv, hentry⟩ := hmatches name cell hcell
  obtain ⟨cell', hcell'⟩ := Option.isSome_iff_exists.mp
    (isSome_of_worldStep hstep (Option.isSome_iff_exists.mpr ⟨cell, hcell⟩))
  obtain ⟨v', hv', hentry'⟩ := matches_of_step hmatches hstep name cell' hcell'
  refine ⟨v, v', cell', ⟨hcell, hv, hentry⟩, ⟨hcell', hv', hentry'⟩,
    held_le_of_sentSince hrun hsent hstep hv hv', ?_⟩
  rintro e u rfl hcarried hlt
  exact absurd (le_of_carried hrun hsent hv hcarried) (not_le.mpr hlt)

/-! ## Requests that do not overlap -/

variable (cfg) in
/-- A request is sent while no other one is on its way. -/
def SentAlone (w : World) (a : WorldEvent) : Prop :=
  ∀ e q, a = .client e → w.sends cfg e = some q → ∀ q', w.replies.flights q' = none

/-- **Requests are kept apart**: at most one is on its way, and it was sent
after everything that is held. -/
structure Apart (w : World) : Prop where
  ordered : w.replies.Ordered
  alone : w.replies.Alone
  held_le : ∀ name v, w.held name = some v → v ≤ w.replies.current name
  sent_ge : ∀ q f name v, w.replies.flights q = some f → w.held name = some v → v ≤ f.sent name

/-- What a step delivers is no newer than the record. -/
theorem Apart.carried_le {w : World} (hw : Apart w) {e : Event} {name : String} {v : ℕ}
    (hv : w.carried c e name = some v) : v ≤ w.replies.current name := by
  obtain ⟨q, f, u, -, hf, hu, rfl⟩ := World.carried_eq_some hv
  exact ((hw.ordered q f hf).2 u hu).2 name

/-- A reply that is delivered was the only one on its way. -/
theorem Apart.flights_of_carried {w : World} (hw : Apart w) {e : Event} {name : String} {v : ℕ}
    (hv : w.carried c e name = some v) (q : Option ℕ) : (w.track cfg e).flights q = none := by
  obtain ⟨q', f', -, hq, hf', -, -⟩ := World.carried_eq_some hv
  cases hf : (w.track cfg e).flights q with
  | none => rfl
  | some f =>
    rcases flights_track hf with ⟨hsends, -⟩ | ⟨hold, hends⟩
    · rw [World.delivers_of_sends hsends] at hq
      cases hq
    · obtain rfl := hw.alone q q' f f' hold hf'
      cases hsends : w.sends cfg e with
      | some q => simp [World.delivers_of_sends hsends] at hq
      | none => exact absurd (World.ends_of_delivers hq) (hends hsends)

theorem apart_init : Apart {} where
  ordered _ _ hf := by cases hf
  alone _ _ _ _ hf := by cases hf
  held_le _ _ hv := by cases hv
  sent_ge _ _ _ _ hf := by cases hf

theorem apart_of_step {w w' : World} {a : WorldEvent} (hw : Apart w) (ha : SentAlone cfg w a)
    (h : worldStep c cfg record w a = some w') : Apart w' := by
  have hordered := ordered_of_step hw.ordered h
  cases a with
  | publish name =>
    obtain rfl := Option.some.inj h
    have hle : w.replies.current
        ≤ Function.update w.replies.current name (w.replies.current name + 1) :=
      le_update_self_iff.mpr (Nat.le_succ _)
    exact ⟨hordered, hw.alone, fun n v hv => (hw.held_le n v hv).trans (hle n), hw.sent_ge⟩
  | serve q =>
    obtain ⟨replies, hserve, rfl⟩ := Option.map_eq_some_iff.mp h
    refine ⟨hordered, hw.alone.serve hserve, fun n v hv => ?_, fun q' f n v hf hv => ?_⟩
    · exact (hw.held_le n v hv).trans_eq (congrFun (LateReplies.current_serve hserve).symm n)
    · obtain ⟨g, hg, hsent, -⟩ := LateReplies.flights_serve hserve hf
      rw [hsent]
      exact hw.sent_ge q' g n v hg hv
  | client e =>
    obtain ⟨-, -, hreplies, hheld⟩ := worldStep_client h
    refine ⟨hordered, ?_, fun name v hv => ?_, fun q f name v hf hv => ?_⟩
    · rw [hreplies]
      unfold World.track
      split
      · next hsends => exact LateReplies.Alone.send (ha e _ rfl hsends) _
      · exact hw.alone.drop _
      · exact hw.alone
    · rw [hreplies, current_track]
      rw [hheld] at hv
      cases hc : w.carried c e name with
      | some v' =>
        rw [hc] at hv
        obtain rfl := Option.some.inj hv
        exact hw.carried_le hc
      | none =>
        rw [hc] at hv
        exact hw.held_le name v hv
    · rw [hheld] at hv
      rw [hreplies] at hf
      cases hc : w.carried c e name with
      | some v' => simp [hw.flights_of_carried hc q] at hf
      | none =>
        rw [hc] at hv
        rcases flights_track hf with ⟨-, rfl⟩ | ⟨hold, -⟩
        · exact hw.held_le name v hv
        · exact hw.sent_ge q f name v hold hv

/-- **Where requests do not overlap every reply was asked for late enough**, so
that no step goes back. -/
theorem along_sentSince {as : List WorldEvent}
    (h : (worldMachine c cfg record).Along (SentAlone cfg) {} as) :
    (worldMachine c cfg record).Along (fun w a => ∀ name, SentSince name w a) {} as := by
  exact Machine.along_of_invariant _ (I := Apart) (fun _ _ _ => apart_of_step)
    (fun w a hw _ name e q f v _ _ hf hv => hw.sent_ge q f name v hf hv) apart_init h

/-! ## Two versions of a record -/

/-- The record of every name, in two versions. -/
def twoVersions (name : String) (v : ℕ) : Option RegistryEntry :=
  some (RegistryEntry.sample name (if v = 0 then "0.5.0" else "0.6.0"))

/-- A call receives a document in a version. -/
def receives (i : ℕ) (version : String) : WorldEvent :=
  .client (.reply i (.response 200 (some (RegistryEntry.sampleBody "ai-mcp-data" version))))

/-- A lookup receives the first version, and a minute later another one asks
for the second. -/
def oneAfterAnother : List WorldEvent :=
  [.client (.lookup 0 "ai-mcp-data"), .serve (some 0), receives 0 "0.5.0", .client (.tick 60),
    .publish "ai-mcp-data", .client (.lookup 1 "ai-mcp-data"), .serve (some 1)]

/-- What it receives does not go back: the cell shows the second version where
it showed the first. -/
theorem neverBack_oneAfterAnother :
    ∃ w w', (worldMachine EntryCoercions.exact {} twoVersions).run {} oneAfterAnother = some w
      ∧ worldStep EntryCoercions.exact {} twoVersions w (receives 1 "0.6.0") = some w'
      ∧ (w.client.client.cache.get? "ai-mcp-data").isSome = true
      ∧ w.held "ai-mcp-data" = some 0 ∧ w'.held "ai-mcp-data" = some 1
      ∧ NeverBack EntryCoercions.exact {} twoVersions "ai-mcp-data" w (receives 1 "0.6.0") := by
  have hheld : ((worldMachine EntryCoercions.exact {} twoVersions).run {} oneAfterAnother).map
      (fun w => ((w.client.client.cache.get? "ai-mcp-data").isSome, w.held "ai-mcp-data",
        (worldStep EntryCoercions.exact {} twoVersions w (receives 1 "0.6.0")).map
          (fun w' => w'.held "ai-mcp-data"))) = some (true, some 0, some (some 1)) := by
    decide +kernel
  obtain ⟨w, hrun, hw⟩ := Option.map_eq_some_iff.mp hheld
  obtain ⟨hcell, hw⟩ := Prod.mk.inj hw
  obtain ⟨hbefore, hafter⟩ := Prod.mk.inj hw
  obtain ⟨w', hstep, hw'⟩ := Option.map_eq_some_iff.mp hafter
  refine ⟨w, w', hrun, hstep, hcell, hbefore, hw',
    neverBack_of_sentSince hrun fun e q f v _ _ _ hv => ?_⟩
  obtain rfl := Option.some.inj (hbefore.symm.trans hv)
  exact Nat.zero_le _

/-- Two lookups at once, served in different versions. The second one
arrives. -/
def overtaken : List WorldEvent :=
  [.client (.lookup 0 "ai-mcp-data"), .client (.lookup 1 "ai-mcp-data"), .serve (some 0),
    .publish "ai-mcp-data", .serve (some 1), receives 1 "0.6.0"]

/-- **The one that was overtaken puts the older version back.** -/
theorem not_neverBack :
    ∃ w, (worldMachine EntryCoercions.exact {} twoVersions).run {} overtaken = some w
      ∧ ¬ NeverBack EntryCoercions.exact {} twoVersions "ai-mcp-data" w (receives 0 "0.5.0") := by
  have hheld : ((worldMachine EntryCoercions.exact {} twoVersions).run {} overtaken).map
      (fun w => ((w.client.client.cache.get? "ai-mcp-data").isSome, w.held "ai-mcp-data",
        (worldStep EntryCoercions.exact {} twoVersions w (receives 0 "0.5.0")).map
          (fun w' => w'.held "ai-mcp-data"))) = some (true, some 1, some (some 0)) := by
    decide +kernel
  obtain ⟨w, hrun, hw⟩ := Option.map_eq_some_iff.mp hheld
  obtain ⟨hcell, hw⟩ := Prod.mk.inj hw
  obtain ⟨hbefore, hafter⟩ := Prod.mk.inj hw
  obtain ⟨w', hstep, hw'⟩ := Option.map_eq_some_iff.mp hafter
  obtain ⟨cell, hcell⟩ := Option.isSome_iff_exists.mp hcell
  refine ⟨w, hrun, fun h => ?_⟩
  obtain ⟨v, v', cell', hv, hv', hle, -⟩ := h w' cell hstep hcell
  obtain rfl := Option.some.inj (hbefore.symm.trans hv.held)
  obtain rfl := Option.some.inj (hw'.symm.trans hv'.held)
  exact absurd hle (by decide)

end Registry
