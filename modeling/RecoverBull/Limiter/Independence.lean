import RecoverBull.Limiter.Expiry
import RecoverBull.Limiter.Entries
import RecoverBull.Server.Outline
import RecoverBull.Secrets.Subject
import RecoverBull.Secrets.Linearization

/-!
# Identifiers do not interfere

Deleting the requests for all other identifiers from a schedule changes nothing for
the requests of one identifier, as long as no limit that all of them share turns one
of its requests away. The others do sweep its expired entry; that cannot be observed.

## Main results

- `SameView.elsewhere`: a step of another identifier's request is not seen
- `identifiers_independent`: the run without the other identifiers
-/

namespace RecoverBull

variable {F : Type} {P : Primitives} {cfg : Config} {s s' t : AppState F} {os log : Log}
  {subject : Subject P} {r : ReqId}

/-- A response by which a limit that all identifiers share turns a request away. -/
def Response.isSharedRefusal (response : Response) : Bool :=
  decide (response ∈ [overloaded "Too many lookup requests, retry later",
    overloaded "Too many store requests, retry later",
    overloaded "Rate-limit capacity exhausted, retry later", databaseBusy])

/-- One of the calls is turned away by a shared limit. -/
def Obs.isSharedRefusal (mine : Call → Bool) : Obs → Bool
  | .response call answer => mine call && answer.isSharedRefusal
  | _ => false

/-- The states agree on all that the requests for the identifier read, but for an entry
that has expired by the clocks of the log. -/
structure SameOwn (cfg : Config) (subject : Subject P) (log : Log) (s t : AppState F) : Prop where
  fetches : ∀ r, subject.mine (.fetch r) = true → s.fetches r = t.fetches r
  stores : ∀ r, subject.mine (.store r) = true → s.stores r = t.stores r
  rows : ∀ key, subject.OwnsRow key → s.secrets.readSecretById key = t.secrets.readSecretById key
  entry : ∀ now, (∀ past ∈ clocks log, past ≤ now) →
    (s.identifierRateLimit.lookup subject.idHash).filter (withinCooldown cfg now) =
      (t.identifierRateLimit.lookup subject.idHash).filter (withinCooldown cfg now)

/-- They also agree on where the polls stand. -/
structure SameView (cfg : Config) (subject : Subject P) (log : Log) (s t : AppState F) : Prop
    extends SameOwn cfg subject log s t where
  polls : PollsAlike s t

theorem SameOwn.symm (h : SameOwn cfg subject log s t) : SameOwn cfg subject log t s :=
  ⟨fun r hr => (h.fetches r hr).symm, fun r hr => (h.stores r hr).symm,
    fun key hkey => (h.rows key hkey).symm, fun now hnow => (h.entry now hnow).symm⟩

theorem SameOwn.trans {u : AppState F} (h : SameOwn cfg subject log s t)
    (h' : SameOwn cfg subject log t u) : SameOwn cfg subject log s u :=
  ⟨fun r hr => (h.fetches r hr).trans (h'.fetches r hr),
    fun r hr => (h.stores r hr).trans (h'.stores r hr),
    fun key hkey => (h.rows key hkey).trans (h'.rows key hkey),
    fun now hnow => (h.entry now hnow).trans (h'.entry now hnow)⟩

/-- More clock values, fewer entries to compare. -/
theorem SameOwn.of_clocks {log' : Log} (h : SameOwn cfg subject log s t)
    (hsub : ∀ past ∈ clocks log, past ∈ clocks log') : SameOwn cfg subject log' s t :=
  { h with entry := fun now hnow => h.entry now fun past hp => hnow past (hsub past hp) }

theorem SameForeground.sameOwn (h : SameForeground cfg log s t) : SameOwn cfg subject log s t :=
  ⟨fun r _ => by rw [h.fetches], fun r _ => by rw [h.stores], fun key _ => by rw [h.secrets],
    fun now hnow => sameUnexpired_iff.mp (h.map now hnow) subject.idHash⟩

theorem SameView.refl (s : AppState F) : SameView cfg subject log s s :=
  ⟨(SameForeground.refl s).sameOwn, .refl s⟩

theorem SameView.mono (h : SameView cfg subject log s t) (os : Log) :
    SameView cfg subject (os ++ log) s t :=
  ⟨h.toSameOwn.of_clocks fun _ => clocks_subset_append, h.polls⟩

theorem SameView.setFetch (h : SameView cfg subject log s t) (r : ReqId) (call : FetchCall) :
    SameView cfg subject log (s.setFetch r call) (t.setFetch r call) := by
  refine { h with fetches := fun r' hr' => ?_, polls := { h.polls with } }
  rw [AppState.fetches_setFetch, AppState.fetches_setFetch]
  by_cases hr : r' = r
  · rw [hr, Function.update_self, Function.update_self]
  · rw [Function.update_of_ne hr, Function.update_of_ne hr, h.fetches r' hr']

theorem SameView.setStore (h : SameView cfg subject log s t) (r : ReqId) (call : StoreCall) :
    SameView cfg subject log (s.setStore r call) (t.setStore r call) := by
  refine { h with stores := fun r' hr' => ?_, polls := { h.polls with } }
  rw [AppState.stores_setStore, AppState.stores_setStore]
  by_cases hr : r' = r
  · rw [hr, Function.update_self, Function.update_self]
  · rw [Function.update_of_ne hr, Function.update_of_ne hr, h.stores r' hr']

/-! ## Steps of the identifier's requests -/

/-- Admissions into the same unexpired entry, where neither map is full. -/
theorem admitRequest_congr {map map' : RateLimitMap} {id : String} {now : ℤ} (c : CandidateTag)
    (h : (map.lookup id).filter (withinCooldown cfg now) =
      (map'.lookup id).filter (withinCooldown cfg now))
    (hr : ¬capacityRefused cfg map id now) (hr' : ¬capacityRefused cfg map' id now) :
    admissionRecord cfg map id c now = admissionRecord cfg map' id c now ∧
      (admitRequest cfg map id c now).1.lookup id =
        (admitRequest cfg map' id c now).1.lookup id := by
  have hentry : entryAt cfg map id now = entryAt cfg map' id now := by rw [entryAt, entryAt, h]
  have hleft : (admitRequest cfg map id c now).1.lookup id =
      (admitRequest cfg map' id c now).1.lookup id := by
    rw [admitRequest_entered hr, admitRequest_entered hr', Finmap.lookup_insert,
      Finmap.lookup_insert, hentry]
  have hout : (admitRequest cfg map id c now).2 = (admitRequest cfg map' id c now).2 := by
    rw [admitRequest_entered hr, admitRequest_entered hr', hentry]
  refine ⟨?_, hleft⟩
  simp only [admissionRecord, lookup_dropExpired_self, h, hleft, hout]

theorem Lookup.Resolving.entry {q : Lookup} {f : RateLimitMap → RateLimitMap} (hf : q.Resolving f)
    {map map' : RateLimitMap} {now : ℤ}
    (h : (map.lookup q.idHash).filter (withinCooldown cfg now) =
      (map'.lookup q.idHash).filter (withinCooldown cfg now)) :
    ((f map).lookup q.idHash).filter (withinCooldown cfg now) =
      ((f map').lookup q.idHash).filter (withinCooldown cfg now) := by
  obtain ⟨alter, hkeep, hl⟩ := hf.alters
  rw [hl, hl, if_pos rfl, if_pos rfl, filter_bind_of_lastCandidateAt hkeep,
    filter_bind_of_lastCandidateAt hkeep, h]

/-- Lookups of one row in tables that agree on the identifier's rows. -/
theorem runLookup_congr {table table' : SecretTable} {key : CandidateTag}
    (h : ∀ k, subject.OwnsRow k → table.readSecretById k = table'.readSecretById k)
    (hkey : subject.OwnsRow key) (trash : Bool) (outcome : DbOutcome) :
    (runLookup table trash key outcome).1 = (runLookup table' trash key outcome).1 ∧
      ∀ k, subject.OwnsRow k → (runLookup table trash key outcome).2.readSecretById k =
        (runLookup table' trash key outcome).2.readSecretById k := by
  rw [runLookup_eq, runLookup_eq, h key hkey]
  refine ⟨rfl, fun k hk => ?_⟩
  dsimp only
  split
  · rw [SecretTable.readSecretById_delete, SecretTable.readSecretById_delete, h k hk]
  · exact h k hk

/-- Only rows with the key of the lookup are deleted. -/
theorem readSecretById_runLookup {table : SecretTable} {key k : CandidateTag} (hne : k ≠ key)
    (trash : Bool) (outcome : DbOutcome) :
    (runLookup table trash key outcome).2.readSecretById k = table.readSecretById k := by
  rw [runLookup_eq]
  dsimp only
  split
  · rw [SecretTable.readSecretById_delete, if_neg hne]
  · rfl

theorem runWrite_congr {table table' : SecretTable} {row : Secret}
    (h : ∀ k, subject.OwnsRow k → table.readSecretById k = table'.readSecretById k)
    (outcome : DbOutcome) :
    (runWrite table row outcome).1 = (runWrite table' row outcome).1 ∧
      ∀ k, subject.OwnsRow k → (runWrite table row outcome).2.readSecretById k =
        (runWrite table' row outcome).2.readSecretById k := by
  cases outcome with
  | panics | fails => exact ⟨rfl, h⟩
  | runs =>
    refine ⟨rfl, fun k hk => ?_⟩
    simp only [runWrite, SecretTable.readSecretById_write, h k hk]

theorem readSecretById_runWrite {table : SecretTable} {row : Secret} {k : CandidateTag}
    (hne : k ≠ row.id) (outcome : DbOutcome) :
    (runWrite table row outcome).2.readSecretById k = table.readSecretById k := by
  cases outcome with
  | panics | fails => rfl
  | runs => rw [runWrite, SecretTable.readSecretById_write, if_neg hne]

section steps

variable [BucketNumber F]

/-- A lookup that the token bucket does not turn away. -/
theorem takeLookupToken_admitted {q : Lookup} {now : ℕ} (hr : subject.mine (.fetch r) = true)
    (hnot : ∀ o ∈ (takeLookupToken s r q now).2, ¬o.isSharedRefusal subject.mine = true) :
    takeLookupToken s r q now =
      ({ s with lookupTokenBucket := (s.lookupTokenBucket.tryConsume now).2 }.setFetch r
        (.active { q with phase := .clock }), []) := by
  simp only [takeLookupToken] at hnot ⊢
  split
  · rfl
  · next hno =>
    rw [if_neg hno] at hnot
    refine absurd ?_ (hnot _ List.mem_cons_self)
    simp [Obs.isSharedRefusal, Response.isSharedRefusal, hr]

omit [BucketNumber F] in
/-- A request that the map has room for. -/
theorem Bounded.not_capacityRefused (hb : Bounded cfg s.identifierRateLimit) {q : Lookup} {now : ℤ}
    (hr : subject.mine (.fetch r) = true)
    (hnot : ∀ o ∈ (enterMap cfg s r q now).2, ¬o.isSharedRefusal subject.mine = true) :
    ¬capacityRefused cfg s.identifierRateLimit q.idHash now := by
  intro hrefused
  refine hnot _ ((hb.response_capacity rfl).mpr hrefused) ?_
  simp [Obs.isSharedRefusal, Response.isSharedRefusal, hr]

/-- A step of a lookup for the identifier is the same on both servers, unless a shared
limit turns it away. -/
theorem SameView.fetchStep (h : SameView cfg subject log s t) {q : Lookup} {event : FetchEvent}
    (hr : subject.mine (.fetch r) = true) (hid : q.idHash = subject.idHash)
    (hrow : subject.OwnsRow q.candidate) (hs : Bounded cfg s.identifierRateLimit)
    (ht : Bounded cfg t.identifierRateLimit) (hchron : Chronological (os ++ log))
    (he : fetchStep cfg s r q event = some (s', os))
    (hfull : ∀ o ∈ os, ¬o.isSharedRefusal subject.mine = true)
    (hpart : ∀ t' os', fetchStep cfg t r q event = some (t', os') →
      ∀ o ∈ os', ¬o.isSharedRefusal subject.mine = true) :
    ∃ t', fetchStep cfg t r q event = some (t', os) ∧ SameView cfg subject (os ++ log) s' t' := by
  cases fetchStep_move he with
  | own call hall =>
    rw [hall s] at he
    cases he
    exact ⟨_, hall t, (h.setFetch r call).mono os⟩
  | token now hevent hphase =>
    subst hevent
    simp only [RecoverBull.fetchStep, hphase, Option.some.injEq] at he hpart ⊢
    have hs' := takeLookupToken_admitted hr (by rw [he]; exact hfull)
    have ht' := takeLookupToken_admitted hr (hpart _ _ rfl)
    rw [hs'] at he
    cases he
    refine ⟨_, ht', SameView.setFetch ?_ r _⟩
    exact { h with polls := { h.polls with } }
  | enter now hevent hphase =>
    subst hevent
    simp only [RecoverBull.fetchStep, hphase, Option.some.injEq] at he hpart ⊢
    have hnow : now ∈ clocks os := by
      obtain ⟨call, os', hm, hs, -⟩ := @enterMap_congr F cfg s r q now s rfl
      rw [hs] at he
      cases he
      exact List.mem_filterMap.mpr ⟨_, hm, rfl⟩
    have hentry := h.entry now fun past hp => hchron.le hnow hp
    rw [← hid] at hentry
    obtain ⟨hrecord, hleft⟩ := admitRequest_congr q.candidate hentry
      (hs.not_capacityRefused hr (by rw [he]; exact hfull))
      (ht.not_capacityRefused hr (hpart _ _ rfl))
    obtain ⟨call, os', -, hs', ht'⟩ := enterMap_congr (r := r) hrecord.symm
    rw [hs'] at he
    cases he
    refine ⟨_, ht', SameView.setFetch ?_ r call⟩
    refine { h.mono os with entry := fun later _ => ?_, polls := { h.polls with } }
    rw [AppState.identifierRateLimit_setMap, AppState.identifierRateLimit_setMap, ← hid, hleft]
  | resolve call f hf hall =>
    rw [hall s] at he
    cases he
    refine ⟨_, hall t, SameView.setFetch ?_ r call⟩
    refine { h.mono os with entry := fun now hnow => ?_, polls := { h.polls with } }
    have hentry := (h.mono os).entry now hnow
    rw [← hid] at hentry ⊢
    exact hf.entry hentry
  | query outcome a client hevent hphase =>
    subst hevent
    obtain ⟨hresult, hrows⟩ := runLookup_congr h.rows hrow q.isTrashingSecret outcome
    simp only [RecoverBull.fetchStep, hphase, Option.some.injEq, Prod.mk.injEq] at he ⊢
    obtain ⟨rfl, rfl⟩ := he
    rw [← hresult]
    refine ⟨_, ⟨rfl, rfl⟩, SameView.setFetch (SameView.mono ?_ _) r _⟩
    exact { h with rows := hrows, polls := { h.polls with } }

/-- A step of a store for the identifier. -/
theorem SameView.storeStep (h : SameView cfg subject log s t) {phase : StorePhase}
    {event : StoreEvent} (hr : subject.mine (.store r) = true)
    (he : storeStep P s r phase event = some (s', os))
    (hfull : ∀ o ∈ os, ¬o.isSharedRefusal subject.mine = true)
    (hpart : ∀ t' os', storeStep P t r phase event = some (t', os') →
      ∀ o ∈ os', ¬o.isSharedRefusal subject.mine = true) :
    ∃ t', storeStep P t r phase event = some (t', os) ∧
      SameView cfg subject (os ++ log) s' t' := by
  cases storeStep_move he with
  | own call hall =>
    rw [hall s] at he
    cases he
    exact ⟨_, hall t, (h.setStore r call).mono os⟩
  | token secretId encryptedSecret now hevent hphase =>
    subst hevent hphase
    have hrefused : (Obs.response (.store r)
        (overloaded "Too many store requests, retry later")).isSharedRefusal subject.mine = true := by
      simp [Obs.isSharedRefusal, Response.isSharedRefusal, hr]
    simp only [RecoverBull.storeStep] at he hpart ⊢
    split at he <;> cases he
    · split
      · refine ⟨_, rfl, SameView.setStore ?_ r _⟩
        exact { h with polls := { h.polls with } }
      · next hno =>
        rw [if_neg hno] at hpart
        exact absurd hrefused (hpart _ _ rfl _ List.mem_cons_self)
    · exact absurd hrefused (hfull _ List.mem_cons_self)
  | write row client outcome hevent hphase =>
    subst hevent hphase
    obtain ⟨hresult, hrows⟩ := @runWrite_congr P subject s.secrets t.secrets row h.rows outcome
    simp only [RecoverBull.storeStep, Option.some.injEq, Prod.mk.injEq] at he ⊢
    obtain ⟨rfl, rfl⟩ := he
    rw [← hresult]
    refine ⟨_, ⟨rfl, rfl⟩, SameView.setStore (SameView.mono ?_ _) r _⟩
    exact { h with rows := hrows, polls := { h.polls with } }

/-! ## Steps of other requests -/

omit [BucketNumber F] in
/-- The entry of the identifier, over a critical section of another call. -/
theorem Effect.entry_elsewhere (he : Effect cfg s s' os) (hb : Bounded cfg s.identifierRateLimit)
    (hmarks : subject.Marks log s)
    (hother : ∀ o ∈ os, ∀ r, o.call = some (.fetch r) → subject.mine (.fetch r) = false) {now : ℤ}
    (hnow : ∀ past ∈ clocks os, past ≤ now) :
    (s'.identifierRateLimit.lookup subject.idHash).filter (withinCooldown cfg now) =
      (s.identifierRateLimit.lookup subject.idHash).filter (withinCooldown cfg now) := by
  -- A lookup on the identifier's entry is one of its own.
  have hnot : ∀ {r q}, s.fetches r = some (.active q) → q.idHash = subject.idHash →
      ∀ o ∈ os, o.call ≠ some (.fetch r) := by
    intro r q hq hid o ho hcall
    have hmine := (hmarks.entry r q hq).mpr hid
    rw [hother o ho r hcall] at hmine
    cases hmine
  have heffect := he.entry hb subject.idHash
  generalize s'.identifierRateLimit.lookup subject.idHash = entry' at heffect ⊢
  cases heffect with
  | same => rfl
  | expire past hpast =>
    rw [Option.filter_filter]
    congr 1
    funext info
    cases hw : withinCooldown cfg now info with
    | false => exact Bool.and_false _
    | true => rw [withinCooldown_mono (hnow past hpast) hw, Bool.and_self]
  | admission r record hm _ _ _ q hq hid => exact absurd rfl (hnot hq hid _ hm)
  | refund r q a hq _ hid hm => exact absurd rfl (hnot hq hid _ hm)
  | finalize r q a result hq _ hid hos =>
    exact absurd rfl (hnot hq hid _ (hos ▸ List.mem_cons_self))

omit [BucketNumber F] in
/-- The rows of the identifier, over a database step of another call. -/
theorem TableEffect.rows_elsewhere (he : TableEffect s s' os) (hmarks : subject.Marks (os ++ log) s')
    (hother : ∀ o ∈ os, ∀ call, o.call = some call → subject.mine call = false) {key : CandidateTag}
    (hkey : subject.OwnsRow key) :
    s'.secrets.readSecretById key = s.secrets.readSecretById key := by
  cases he with
  | same hs => rw [hs]
  | wrote r row outcome hs hos =>
    have hm : .wrote r row outcome ∈ os := hos ▸ List.mem_cons_self
    rw [hs]
    refine readSecretById_runWrite ?_ outcome
    rintro rfl
    have hmine := (hmarks.wrote r row outcome (List.mem_append_left _ hm)).mpr hkey
    rw [hother _ hm _ rfl] at hmine
    cases hmine
  | queried r trash key' outcome hs hos =>
    have hm : .queried r trash key' outcome (runLookup s.secrets trash key' outcome).1 ∈ os :=
      hos ▸ List.mem_cons_self
    rw [hs]
    refine readSecretById_runLookup ?_ trash outcome
    rintro rfl
    have hmine := (hmarks.queried _ _ _ _ _ (List.mem_append_left _ hm)).mpr hkey
    rw [hother _ hm _ rfl] at hmine
    cases hmine

/-- A step of another call shows nothing about the identifier's. -/
theorem filter_isAbout {event : Event}
    (hcall : ∀ call, event.call = some call → subject.mine call = false)
    (he : step P cfg s event = some (s', os)) : os.filter (Obs.isAbout subject.mine) = [] := by
  refine List.filter_eq_nil_iff.mpr fun o ho => ?_
  rw [Obs.isAbout, Option.any_eq_true]
  rintro ⟨call, ho', hmine⟩
  obtain hsame | hnone := step_call he o ho
  · rw [hcall call (hsame.symm.trans ho')] at hmine
    cases hmine
  · rw [hnone] at ho'
    cases ho'

/-- What the identifier's requests read, over a step of another call. -/
theorem sameOwn_elsewhere {event : Event} (hb : Bounded cfg s.identifierRateLimit)
    (hmarks : subject.Marks log s) (hmarks' : subject.Marks (os ++ log) s')
    (hcall : ∀ call, event.call = some call → subject.mine call = false)
    (he : step P cfg s event = some (s', os)) : SameOwn cfg subject os s' s := by
  have hother : ∀ o ∈ os, ∀ call, o.call = some call → subject.mine call = false := by
    intro o ho call ho'
    obtain hsame | hnone := step_call he o ho
    · exact hcall call (hsame.symm.trans ho')
    · rw [hnone] at ho'
      cases ho'
  refine ⟨fun r hr => ?_, fun r hr => ?_, fun key hkey => ?_, fun now hnow => ?_⟩
  · obtain hf | ⟨r', call, hc, hf⟩ := step_fetches he
    · rw [hf]
    · have hne : r ≠ r' := by
        rintro rfl
        rw [hcall _ hc] at hr
        cases hr
      rw [hf, Function.update_of_ne hne]
  · obtain hst | ⟨r', call, hc, hst⟩ := step_stores he
    · rw [hst]
    · have hne : r ≠ r' := by
        rintro rfl
        rw [hcall _ hc] at hr
        cases hr
      rw [hst, Function.update_of_ne hne]
  · exact (step_tableEffect he).rows_elsewhere hmarks' hother hkey
  · exact (step_effect he).entry_elsewhere hb hmarks (fun o ho r => hother o ho _) hnow

/-- A step of another identifier's request is not seen. -/
theorem SameView.elsewhere (h : SameView cfg subject log s t) {event : Event}
    (hb : Bounded cfg s.identifierRateLimit) (hmarks : subject.Marks log s)
    (hmarks' : subject.Marks (os ++ log) s') (hkept : event.isKept subject.mine = false)
    (he : step P cfg s event = some (s', os)) :
    os.filter (Obs.isAbout subject.mine) = [] ∧ SameView cfg subject (os ++ log) s' t := by
  have hcall : (∀ call, event.call = some call → subject.mine call = false) ∧
      ∀ r, event.call ≠ some (.attempts r) := by
    cases event with
    | fetchArrives | fetch | storeArrives | store =>
      refine ⟨?_, fun r => by simp [Event.call]⟩
      rintro call ⟨⟩
      exact hkept
    | attemptsArrives | attempts | info | sweep => cases hkept
  have hown := sameOwn_elsewhere hb hmarks hmarks' hcall.1 he
  exact ⟨filter_isAbout hcall.1 he,
    (hown.of_clocks fun _ => clocks_subset_append_left).trans (h.mono os).toSameOwn,
    h.polls.elsewhere he hcall.2⟩

/-- A sweep or a step of a poll is taken by both servers. -/
theorem SameView.background (h : SameView cfg subject log s t)
    (hs : Bounded cfg s.identifierRateLimit) (ht : Bounded cfg t.identifierRateLimit)
    {event : Event} (hcall : event.call = none ∨ ∃ r, event.call = some (.attempts r))
    (hevent : event.isForeground = false) (he : step P cfg s event = some (s', os)) :
    ∃ t' os', step P cfg t event = some (t', os') ∧
      os'.filter (Obs.isAbout subject.mine) = os.filter (Obs.isAbout subject.mine) ∧
      SameView cfg subject (os ++ log) s' t' := by
  obtain ⟨t', os', he', hclocks, hpolls⟩ := h.polls.step hs ht hcall he
  have hother : ∀ call, event.call = some call → subject.mine call = false := by
    intro call hc
    obtain hnone | ⟨r, hr⟩ := hcall
    · rw [hnone] at hc
      cases hc
    · rw [hr] at hc
      cases hc
      exact subject.not_mine (fun _ => Call.noConfusion) fun _ => Call.noConfusion
  -- Both states keep their own view, by the same clock values.
  have hs' : SameOwn cfg subject (os ++ log) s' s :=
    ((SameForeground.refl s).background hevent he).2.sameOwn
  have ht' : SameOwn cfg subject (os' ++ log) t' t :=
    ((SameForeground.refl t).background hevent he').2.sameOwn
  refine ⟨t', os', he', by rw [filter_isAbout hother he, filter_isAbout hother he'], ?_, hpolls⟩
  refine (hs'.trans (h.mono os).toSameOwn).trans (ht'.symm.of_clocks fun past hp => ?_)
  rwa [clocks_append, hclocks, ← clocks_append] at hp

/-- A step that is kept is the same on both servers, as far as the identifier's requests
can see. -/
theorem SameView.kept (h : SameView cfg subject log s t) {event : Event}
    (hs : Bounded cfg s.identifierRateLimit) (ht : Bounded cfg t.identifierRateLimit)
    (hmarks : subject.Marks log s) (hkept : event.isKept subject.mine = true)
    (hchron : Chronological (os ++ log)) (he : step P cfg s event = some (s', os))
    (hfull : ∀ o ∈ os, ¬o.isSharedRefusal subject.mine = true)
    (hpart : ∀ t' os', step P cfg t event = some (t', os') →
      ∀ o ∈ os', ¬o.isSharedRefusal subject.mine = true) :
    ∃ t' os', step P cfg t event = some (t', os') ∧
      os'.filter (Obs.isAbout subject.mine) = os.filter (Obs.isAbout subject.mine) ∧
      SameView cfg subject (os ++ log) s' t' := by
  cases event with
  | fetchArrives r trash request =>
    -- The arrival of a request reads nothing but its own call.
    obtain ⟨hfree, call, rfl, hall⟩ := fetchArrives_move he
    exact ⟨_, os, hall t (by rw [← h.fetches r hkept, hfree]), rfl, (h.setFetch r call).mono os⟩
  | fetch r event =>
    have hf := h.fetches r hkept
    simp only [step, ← hf] at he hpart ⊢
    split at he
    · next q hq =>
      obtain ⟨t', ht', hview⟩ := h.fetchStep hkept ((hmarks.entry r q hq).mp hkept)
        ((hmarks.candidate r q hq).mp hkept) hs ht hchron he hfull (by simpa only [hq] using hpart)
      exact ⟨t', os, by simpa only [hq] using ht', rfl, hview⟩
    · cases he
  | storeArrives r request =>
    obtain ⟨hfree, call, rfl, hall⟩ := storeArrives_move he
    exact ⟨_, os, hall t (by rw [← h.stores r hkept, hfree]), rfl, (h.setStore r call).mono os⟩
  | store r event =>
    have hst := h.stores r hkept
    simp only [step, ← hst] at he hpart ⊢
    split at he
    · next phase hp =>
      obtain ⟨t', ht', hview⟩ := h.storeStep hkept he hfull (by simpa only [hp] using hpart)
      exact ⟨t', os, by simpa only [hp] using ht', rfl, hview⟩
    · cases he
  | info r metadata file =>
    have hother : ∀ call, (Event.info r metadata file).call = some call →
        subject.mine call = false := by
      rintro call ⟨⟩
      exact subject.not_mine (fun _ => Call.noConfusion) fun _ => Call.noConfusion
    refine ⟨_, _, rfl, ?_, ?_⟩
    · rw [filter_isAbout hother he, filter_isAbout hother rfl]
    · cases he
      exact { h.mono _ with polls := { h.polls with } }
  | attemptsArrives r tag => exact h.background hs ht (Or.inr ⟨r, rfl⟩) rfl he
  | attempts r event => exact h.background hs ht (Or.inr ⟨r, rfl⟩) rfl he
  | sweep now => exact h.background hs ht (Or.inl rfl) rfl he

/-! ## Runs -/

/-- A run whose arrivals are marked, and a run of what is kept of it. -/
structure Beside (cfg : Config) (subject : Subject P) (log : Log) (s t : AppState F) : Prop where
  reached : ∃ past secrets b₁ b₂ b₃, (∀ e ∈ past, subject.Labels e) ∧
    run P cfg (.init secrets b₁ b₂ b₃) past = some (s, log)
  served : ∃ log', Served P cfg log' t
  view : SameView cfg subject log s t

theorem Beside.marks (h : Beside cfg subject log s t) (hinj : Function.Injective P.sha256Hex) :
    subject.Marks log s := by
  obtain ⟨past, secrets, b₁, b₂, b₃, hlabels, hr⟩ := h.reached
  exact (arrived_of_run hr).marks hinj hlabels

theorem Beside.bounded (h : Beside cfg subject log s t) :
    Bounded cfg s.identifierRateLimit ∧ Bounded cfg t.identifierRateLimit := by
  obtain ⟨past, secrets, b₁, b₂, b₃, -, hr⟩ := h.reached
  obtain ⟨log', ht⟩ := h.served
  have hs : Served P cfg log s := ⟨secrets, b₁, b₂, b₃, past, hr⟩
  exact ⟨hs.bounded, ht.bounded⟩

/-- The first run goes on by a step. -/
theorem Beside.reached_step (h : Beside cfg subject log s t) {event : Event}
    (hlabels : subject.Labels event) (he : step P cfg s event = some (s', os)) :
    ∃ past secrets b₁ b₂ b₃, (∀ e ∈ past, subject.Labels e) ∧
      run P cfg (.init secrets b₁ b₂ b₃) past = some (s', os ++ log) := by
  obtain ⟨past, secrets, b₁, b₂, b₃, hpast, hr⟩ := h.reached
  refine ⟨past ++ [event], secrets, b₁, b₂, b₃, fun e hm => ?_,
    Machine.run_append_eq_some.mpr ⟨s, log, os, hr, Machine.run_singleton he, rfl⟩⟩
  obtain hm | hm := List.mem_append.mp hm
  · exact hpast e hm
  · rw [List.mem_singleton.mp hm]
    exact hlabels

/-- The run over what is kept of a schedule, up to any of its steps. -/
theorem run_kept (hinj : Function.Injective P.sha256Hex) {secrets : SecretTable}
    {b₁ b₂ b₃ : TokenBucket F} {es : List Event} (hlabels : ∀ e ∈ es, subject.Labels e)
    (hr : run P cfg (.init secrets b₁ b₂ b₃) es = some (s, log)) (hchron : Chronological log)
    (hfull : ∀ o ∈ log, ¬o.isSharedRefusal subject.mine = true)
    (hpart : Machine.Avoids (step P cfg) (fun o => o.isSharedRefusal subject.mine = true)
      (.init secrets b₁ b₂ b₃) (es.filter (Event.isKept subject.mine))) :
    ∃ t log', run P cfg (.init secrets b₁ b₂ b₃) (es.filter (Event.isKept subject.mine)) =
        some (t, log') ∧
      log'.filter (Obs.isAbout subject.mine) = log.filter (Obs.isAbout subject.mine) ∧
      Beside cfg subject log s t := by
  have hstart : Beside cfg subject [] (.init secrets b₁ b₂ b₃) (.init secrets b₁ b₂ b₃) :=
    ⟨⟨[], secrets, b₁, b₂, b₃, fun _ hm => absurd hm List.not_mem_nil, rfl⟩,
      ⟨[], secrets, b₁, b₂, b₃, .refl _⟩, .refl _⟩
  have herase := @Machine.run_erase (AppState F) (AppState F) Event Obs (step P cfg) (step P cfg)
    (Event.isKept subject.mine) (Obs.isAbout subject.mine) (Beside cfg subject) subject.Labels
    (fun log => Chronological log ∧ ∀ o ∈ log, ¬o.isSharedRefusal subject.mine = true)
    (fun o => o.isSharedRefusal subject.mine = true)
    (fun os log h => ⟨h.1.of_append, fun o ho => h.2 o (List.mem_append_right _ ho)⟩)
    (fun log s t event s' os h hlabels he _ hkept => by
      have hreached := h.reached_step hlabels he
      have hmarks' : subject.Marks (os ++ log) s' := by
        obtain ⟨past, secrets, b₁, b₂, b₃, hpast, hr⟩ := hreached
        exact (arrived_of_run hr).marks hinj hpast
      obtain ⟨hnil, hview⟩ := h.view.elsewhere h.bounded.1 (h.marks hinj) hmarks' hkept he
      exact ⟨hnil, hreached, h.served, hview⟩)
    (fun log s t event s' os h hlabels he hallowed hkept hbad => by
      obtain ⟨t', os', he', hsee, hview⟩ := h.view.kept h.bounded.1 h.bounded.2 (h.marks hinj) hkept
        hallowed.1 he (fun o ho => hallowed.2 o (List.mem_append_left _ ho)) hbad
      obtain ⟨log', ht⟩ := h.served
      exact ⟨t', os', he', hsee, h.reached_step hlabels he, ⟨os' ++ log', ht.step he'⟩, hview⟩)
    [] log _ s _ es hstart hlabels hr (by rw [List.append_nil]; exact ⟨hchron, hfull⟩) hpart
  rwa [List.append_nil] at herase

end steps

/-- **Identifiers do not interfere.** Take any run with clocks that never decrease, and
delete the steps of all requests for other identifiers. If no request for this one is
turned away by a shared limit, in the run or in what is left of it, then up to any step
its requests are answered the same, and its unexpired entry is the same. -/
theorem identifiers_independent [BucketNumber F] (hinj : Function.Injective P.sha256Hex)
    (cfg : Config) {identifier : String} (hid : IsKeyText identifier) {secrets : SecretTable}
    {b₁ b₂ b₃ : TokenBucket F} {es : List Event} {s : AppState F} {log : Log}
    (hr : run P cfg (.init secrets b₁ b₂ b₃) es = some (s, log)) (hchron : Chronological log)
    (hfull : ∀ o ∈ log, ¬o.isSharedRefusal (requestsFor P identifier es) = true)
    (hpart : Machine.Avoids (step P cfg)
      (fun o => o.isSharedRefusal (requestsFor P identifier es) = true)
      (.init secrets b₁ b₂ b₃) (es.filter (Event.isKept (requestsFor P identifier es)))) :
    ∀ fs, fs <+: es → ∃ u l t l', run P cfg (.init secrets b₁ b₂ b₃) fs = some (u, l) ∧
      run P cfg (.init secrets b₁ b₂ b₃)
        (fs.filter (Event.isKept (requestsFor P identifier es))) = some (t, l') ∧
      l'.filter (Obs.isAbout (requestsFor P identifier es)) =
        l.filter (Obs.isAbout (requestsFor P identifier es)) ∧
      ∀ idHash, identifierHash P (toLowercase P identifier) = some idHash →
        ∀ now, (∀ past ∈ clocks l, past ≤ now) →
          (t.identifierRateLimit.lookup idHash).filter (withinCooldown cfg now) =
            (u.identifierRateLimit.lookup idHash).filter (withinCooldown cfg now) := by
  rintro fs ⟨gs, rfl⟩
  obtain ⟨subject, rfl, hmine⟩ := exists_subject (P := P) hid (fs ++ gs)
  have hlabels := labels_of_run hr hmine
  rw [← hmine] at hfull hpart ⊢
  obtain ⟨u, l, l₂, hu, -, rfl⟩ := Machine.run_append_eq_some.mp hr
  rw [List.filter_append] at hpart
  obtain ⟨t, l', ht, hsee, hbeside⟩ := run_kept hinj
    (fun e he => hlabels e (List.mem_append_left _ he)) hu hchron.of_append
    (fun o ho => hfull o (List.mem_append_right _ ho)) (hpart.of_prefix (List.prefix_append _ _))
  refine ⟨u, l, t, l', hu, ht, hsee, fun idHash hhash now hnow => ?_⟩
  obtain rfl : subject.idHash = idHash := Option.some.inj (subject.hashed.symm.trans hhash)
  exact (hbeside.view.entry now hnow).symm

/-- A lookup of one identifier, and one of another in between. -/
def sampleTraffic : List Event :=
  sampleAdmission 0 false ⟨sampleIdentifier, sampleKey⟩ 0 ++
    sampleAdmission 1 false ⟨otherIdentifier, sampleKey⟩ 5 ++ sampleCompletion 1 ++
      sampleCompletion 0

theorem run_otherIdentifier (cfg : Config) (s : AppState ℚ) (r : ReqId) (isTrashingSecret : Bool)
    (events : List Event) :
    run .sample cfg s
        (.fetchArrives r isTrashingSecret ⟨otherIdentifier, sampleKey⟩ :: events) =
      if (s.fetches r).isSome then none
      else
        run .sample cfg
          (s.setFetch r (.active ⟨isTrashingSecret, otherIdHash,
            "db2c17090e278485b47a0edbe256946a73b5a058934ffaf2fc0b0ebd4a102b9d", .bucket⟩))
          events := by
  have hcheck : checkFetch .sample ⟨otherIdentifier, sampleKey⟩ =
      .ok (otherIdentifier, sampleKey) :=
    checkFetch_eq_ok.mpr
      ⟨by decide +kernel, by decide +kernel, by decide +kernel, by decide +kernel⟩
  have hhash : identifierHash .sample otherIdentifier = some otherIdHash := by decide +kernel
  have hid : generateSecretId .sample otherIdentifier sampleKey =
      "db2c17090e278485b47a0edbe256946a73b5a058934ffaf2fc0b0ebd4a102b9d" := by decide +kernel
  rw [run_fetchArrives hcheck hhash, hid]

theorem sampleTraffic_kept :
    sampleTraffic.filter (Event.isKept (requestsFor .sample sampleIdentifier sampleTraffic)) =
      sampleAdmission 0 false ⟨sampleIdentifier, sampleKey⟩ 0 ++ sampleCompletion 0 := by
  have hmine : requestsFor .sample sampleIdentifier sampleTraffic (.fetch 0) = true := by
    decide +kernel
  have hother : requestsFor .sample sampleIdentifier sampleTraffic (.fetch 1) = false := by
    decide +kernel
  generalize requestsFor .sample sampleIdentifier sampleTraffic = mine at hmine hother ⊢
  simp [sampleTraffic, sampleAdmission, sampleCompletion, Event.isKept, hmine, hother]

theorem identifiers_independent_sample :
    ∃ (log log' : Log) (s t : AppState ℚ), run .sample .sample .sample sampleTraffic = some (s, log) ∧
      run .sample .sample .sample (sampleTraffic.filter
        (Event.isKept (requestsFor .sample sampleIdentifier sampleTraffic))) = some (t, log') ∧
      log'.filter (Obs.isAbout (requestsFor .sample sampleIdentifier sampleTraffic)) =
        log.filter (Obs.isAbout (requestsFor .sample sampleIdentifier sampleTraffic)) ∧
      (t.identifierRateLimit.lookup sampleIdHash).filter (withinCooldown .sample 5) =
        (s.identifierRateLimit.lookup sampleIdHash).filter (withinCooldown .sample 5) ∧
      s.identifierRateLimit.len = 2 ∧ t.identifierRateLimit.len = 1 := by
  have hrun : (run .sample .sample .sample sampleTraffic).any (fun u =>
      decide (clocks u.2 = [5, 0] ∧ u.1.identifierRateLimit.len = 2 ∧ ∀ o ∈ u.2,
        ¬o.isSharedRefusal (requestsFor .sample sampleIdentifier sampleTraffic) = true)) = true := by
    rw [sampleTraffic]
    simp only [run_append, sampleAdmission, run_sampleKey, run_otherIdentifier]
    decide +kernel
  have hrun' : (run .sample .sample .sample (sampleTraffic.filter
      (Event.isKept (requestsFor .sample sampleIdentifier sampleTraffic)))).any (fun u =>
        decide (u.1.identifierRateLimit.len = 1 ∧ ∀ o ∈ u.2,
          ¬o.isSharedRefusal (requestsFor .sample sampleIdentifier sampleTraffic) = true)) = true := by
    rw [sampleTraffic_kept, run_append, sampleAdmission, run_sampleKey]
    decide +kernel
  obtain ⟨⟨s, log⟩, hr, h⟩ := (Option.any_eq_true _ _).mp hrun
  obtain ⟨⟨t', log'⟩, hr', h'⟩ := (Option.any_eq_true _ _).mp hrun'
  obtain ⟨hclocks, htwo, hfull⟩ := of_decide_eq_true h
  obtain ⟨hone, hpart⟩ := of_decide_eq_true h'
  have hid : IsKeyText sampleIdentifier := by decide +kernel
  have hhash : identifierHash .sample (toLowercase .sample sampleIdentifier) = some sampleIdHash := by
    decide +kernel
  have hclocks : clocks log = [5, 0] := hclocks
  have hchron : Chronological log := by
    rw [Chronological, hclocks]
    decide
  obtain ⟨u, l, t, l', hu, ht, hsee, hentry⟩ := identifiers_independent
    Primitives.sample_sha256Hex_injective .sample hid hr hchron hfull
    (Machine.avoids_of_run hr' hpart) sampleTraffic List.prefix_rfl
  have hu' : some (s, log) = some (u, l) := hr.symm.trans hu
  have ht' : some (t', log') = some (t, l') := hr'.symm.trans ht
  cases hu'
  cases ht'
  refine ⟨log, log', s, t', hr, hr', hsee, hentry _ hhash 5 fun past hp => ?_, htwo, hone⟩
  rw [hclocks] at hp
  simp only [List.mem_cons, List.not_mem_nil, or_false] at hp
  omega

end RecoverBull
