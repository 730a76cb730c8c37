import RecoverBull.Lib.Erasure
import RecoverBull.Server.Uniform
import RecoverBull.Limiter.Budget

/-!
# Sweeping cannot be observed

An expired entry may be dropped by a request for its identifier, by a request that
needs room, by the sweeper or by the build of a snapshot, or stay for a while: a
request that comes in the order of the clocks is answered the same. Two maps are as
good as each other when they hold the same entries among the unexpired ones.

## Main results

- `SameUnexpired.admissionRecord_eq`: an admission sees nothing but unexpired entries
- `sweeping_unobservable`: runs that differ in their sweeps and snapshot builds
-/

namespace RecoverBull

variable {F : Type} {P : Primitives} {cfg : Config} {s s' t : AppState F} {log os : Log}
  {map map' : RateLimitMap} {now : ℤ}

/-- The maps hold the same entries among those a sweep at `now` keeps. -/
def SameUnexpired (cfg : Config) (now : ℤ) (map map' : RateLimitMap) : Prop :=
  retainWithinCooldown cfg now map = retainWithinCooldown cfg now map'

theorem sameUnexpired_iff : SameUnexpired cfg now map map' ↔ ∀ id,
    (map.lookup id).filter (withinCooldown cfg now) =
      (map'.lookup id).filter (withinCooldown cfg now) := by
  constructor
  · intro h id
    rw [← lookup_retainWithinCooldown, h, lookup_retainWithinCooldown]
  · intro h
    apply Finmap.ext_lookup
    intro id
    rw [lookup_retainWithinCooldown, lookup_retainWithinCooldown, h id]

theorem SameUnexpired.symm (h : SameUnexpired cfg now map map') : SameUnexpired cfg now map' map :=
  Eq.symm h

theorem SameUnexpired.trans {map'' : RateLimitMap} (h : SameUnexpired cfg now map map')
    (h' : SameUnexpired cfg now map' map'') : SameUnexpired cfg now map map'' :=
  Eq.trans h h'

/-- What is the same at one time is the same later. -/
theorem SameUnexpired.mono {later : ℤ} (h : SameUnexpired cfg now map map') (hle : now ≤ later) :
    SameUnexpired cfg later map map' := by
  show retainWithinCooldown cfg later map = retainWithinCooldown cfg later map'
  rw [← retain_retain cfg hle map, h, retain_retain cfg hle map']

theorem sameUnexpired_retain {later : ℤ} (hle : now ≤ later) (map : RateLimitMap) :
    SameUnexpired cfg later (retainWithinCooldown cfg now map) map :=
  retain_retain cfg hle map

/-! ## Refunds and finalizers -/

/-- Whether an entry is expired cannot be told from what a refund or a finalizer
changes, so that it does not matter which comes first. -/
theorem filter_bind_of_lastCandidateAt {f : RateLimitInfo → Option RateLimitInfo}
    (hf : ∀ info info', f info = some info' → info'.lastCandidateAt = info.lastCandidateAt)
    (entry : Option RateLimitInfo) : (entry.bind f).filter (withinCooldown cfg now) =
      (entry.filter (withinCooldown cfg now)).bind f := by
  cases entry with
  | none => rfl
  | some info =>
    have hsame : ∀ info', f info = some info' →
        withinCooldown cfg now info' = withinCooldown cfg now info := by
      intro info' h
      rw [withinCooldown, withinCooldown, hf info info' h]
    cases hfi : f info with
    | none => cases hw : withinCooldown cfg now info <;> simp [Option.filter, hw, hfi]
    | some info' =>
      have hw' := hsame info' hfi
      cases hw : withinCooldown cfg now info <;> simp [Option.filter, hw, hfi, hw']

/-- A resolution goes through the entry of its own identifier, and does not date it anew. -/
theorem Lookup.Resolving.alters {q : Lookup} {f : RateLimitMap → RateLimitMap} (hf : q.Resolving f) :
    ∃ alter : RateLimitInfo → Option RateLimitInfo,
      (∀ info info', alter info = some info' → info'.lastCandidateAt = info.lastCandidateAt) ∧
      ∀ map k, (f map).lookup k =
        if k = q.idHash then (map.lookup k).bind alter else map.lookup k := by
  cases hf with
  | refund a =>
    refine ⟨refundEntry q.candidate a.generation, fun info info' h => ?_, fun map k =>
      lookup_removePending map q.idHash q.candidate a.generation k⟩
    obtain ⟨candidates, rfl⟩ := refundEntry_fields h
    rfl
  | finalize a result =>
    refine ⟨finalizeEntry q.candidate a.generation result, fun info info' h => ?_, fun map k =>
      lookup_finalize map q.idHash q.candidate a.generation result k⟩
    obtain ⟨candidates, failed, rfl⟩ := finalizeEntry_fields h
    rfl

theorem Lookup.Resolving.sameUnexpired {q : Lookup} {f : RateLimitMap → RateLimitMap}
    (hf : q.Resolving f) (h : SameUnexpired cfg now map map') :
    SameUnexpired cfg now (f map) (f map') := by
  obtain ⟨alter, hkeep, hl⟩ := hf.alters
  rw [sameUnexpired_iff] at h ⊢
  intro k
  rw [hl, hl]
  by_cases hk : k = q.idHash
  · rw [if_pos hk, if_pos hk, filter_bind_of_lastCandidateAt hkeep,
      filter_bind_of_lastCandidateAt hkeep, h k]
  · rw [if_neg hk, if_neg hk, h k]

/-! ## Admissions -/

/-- A request is refused for capacity exactly when its identifier has no unexpired
entry and the unexpired ones of the others fill the map. -/
theorem capacityRefused_iff (id : String) : capacityRefused cfg map id now ↔
    (map.lookup id).filter (withinCooldown cfg now) = none ∧
      cfg.rateLimitMaxIdentifiers ≤ (retainWithinCooldown cfg now map).len := by
  rw [capacityRefused, ← Finmap.lookup_eq_none, lookup_dropExpired_self]
  refine and_congr_right fun hnone => ?_
  have hout : id ∉ dropExpired cfg map id now := by
    rw [← Finmap.lookup_eq_none, lookup_dropExpired_self, hnone]
  have hle : (retainWithinCooldown cfg now map).len ≤ (dropExpired cfg map id now).len := by
    rw [← retain_dropExpired cfg map id now]
    exact Finmap.len_retain_le _ _
  unfold roomMade
  dsimp only
  split
  · rw [retain_dropExpired]
  · next hroom =>
    have hlt : ¬(dropExpired cfg map id now).len ≥ cfg.rateLimitMaxIdentifiers := fun hge =>
      hroom ⟨hout, hge⟩
    omega

theorem SameUnexpired.capacityRefused_iff (h : SameUnexpired cfg now map map') (id : String) :
    capacityRefused cfg map id now ↔ capacityRefused cfg map' id now := by
  rw [RecoverBull.capacityRefused_iff, RecoverBull.capacityRefused_iff, sameUnexpired_iff.mp h id, h]

/-- The room made at `now` holds what the map held, among the entries unexpired then. -/
theorem sameUnexpired_roomMade (map : RateLimitMap) (id : String) :
    SameUnexpired cfg now (roomMade cfg map id now) map :=
  retain_roomMade cfg map id now

theorem SameUnexpired.insert (h : SameUnexpired cfg now map map') (id : String)
    (info : RateLimitInfo) : SameUnexpired cfg now (map.insert id info) (map'.insert id info) := by
  rw [sameUnexpired_iff] at h ⊢
  intro k
  by_cases hk : k = id
  · rw [hk, Finmap.lookup_insert, Finmap.lookup_insert]
  · rw [Finmap.lookup_insert_of_ne _ hk, Finmap.lookup_insert_of_ne _ hk, h k]

/-- An admission answers and leaves the same on maps with the same unexpired entries. -/
theorem SameUnexpired.admitRequest (h : SameUnexpired cfg now map map') (id : String)
    (c : CandidateTag) :
    (admitRequest cfg map id c now).2 = (admitRequest cfg map' id c now).2 ∧
      (admitRequest cfg map id c now).1.lookup id = (admitRequest cfg map' id c now).1.lookup id ∧
        SameUnexpired cfg now (admitRequest cfg map id c now).1
          (admitRequest cfg map' id c now).1 := by
  have hfound := sameUnexpired_iff.mp h id
  have hroom : SameUnexpired cfg now (roomMade cfg map id now) (roomMade cfg map' id now) :=
    ((sameUnexpired_roomMade map id).trans h).trans (sameUnexpired_roomMade map' id).symm
  have hentry : entryAt cfg map id now = entryAt cfg map' id now := by
    rw [entryAt, entryAt, hfound]
  by_cases hr : capacityRefused cfg map id now
  · rw [admitRequest_refused hr, admitRequest_refused ((h.capacityRefused_iff id).mp hr)]
    refine ⟨rfl, ?_, hroom⟩
    rw [lookup_roomMade_self, lookup_roomMade_self, hfound]
  · rw [admitRequest_entered hr, admitRequest_entered (mt (h.capacityRefused_iff id).mpr hr), hentry]
    refine ⟨rfl, ?_, hroom.insert id _⟩
    rw [Finmap.lookup_insert, Finmap.lookup_insert]

/-- An admission sees nothing but unexpired entries. -/
theorem SameUnexpired.admissionRecord_eq (h : SameUnexpired cfg now map map') (id : String)
    (c : CandidateTag) : admissionRecord cfg map id c now = admissionRecord cfg map' id c now := by
  obtain ⟨hout, hleft, -⟩ := h.admitRequest id c
  simp only [admissionRecord, lookup_dropExpired_self, sameUnexpired_iff.mp h id, hout, hleft]

/-! ## The background -/

/-- The event is one of a request for a secret, or of `/info`: neither a sweep nor a
step of an `/attempts` request. -/
def Event.isForeground : Event → Bool
  | .sweep _ | .attemptsArrives _ _ | .attempts _ _ => false
  | .fetchArrives _ _ _ | .fetch _ _ | .storeArrives _ _ | .store _ _ | .info _ _ _ => true

/-- The observation is one of a foreground event. -/
def Obs.isForeground : Obs → Bool
  | .retained _ | .response (.attempts _) _ | .cancelled (.attempts _) | .panicked (.attempts _) =>
    false
  | _ => true

/-- The states agree on all that the foreground reads, but for entries that have
expired by the clocks of the log. -/
structure SameForeground (cfg : Config) (log : Log) (s t : AppState F) : Prop where
  fetches : s.fetches = t.fetches
  stores : s.stores = t.stores
  secrets : s.secrets = t.secrets
  storeTokenBucket : s.storeTokenBucket = t.storeTokenBucket
  lookupTokenBucket : s.lookupTokenBucket = t.lookupTokenBucket
  canaryCache : s.canaryCache = t.canaryCache
  map : ∀ now, (∀ past ∈ clocks log, past ≤ now) →
    SameUnexpired cfg now s.identifierRateLimit t.identifierRateLimit

theorem SameForeground.refl (s : AppState F) : SameForeground cfg log s s :=
  ⟨rfl, rfl, rfl, rfl, rfl, rfl, fun _ _ => rfl⟩

theorem SameForeground.symm (h : SameForeground cfg log s t) : SameForeground cfg log t s :=
  ⟨h.fetches.symm, h.stores.symm, h.secrets.symm, h.storeTokenBucket.symm, h.lookupTokenBucket.symm,
    h.canaryCache.symm, fun now hnow => (h.map now hnow).symm⟩

theorem SameForeground.trans {u : AppState F} {log' : Log} (h : SameForeground cfg log s t)
    (h' : SameForeground cfg log' t u) : SameForeground cfg (log ++ log') s u := by
  refine ⟨h.fetches.trans h'.fetches, h.stores.trans h'.stores, h.secrets.trans h'.secrets,
    h.storeTokenBucket.trans h'.storeTokenBucket, h.lookupTokenBucket.trans h'.lookupTokenBucket,
    h.canaryCache.trans h'.canaryCache, fun now hnow => ?_⟩
  exact (h.map now fun past hp => hnow past (clocks_subset_append_left hp)).trans
    (h'.map now fun past hp => hnow past (clocks_subset_append hp))

theorem SameForeground.mono (h : SameForeground cfg log s t) (os : Log) :
    SameForeground cfg (os ++ log) s t :=
  { h with map := fun now hnow => h.map now fun past hp => hnow past (clocks_subset_append hp) }

theorem SameForeground.setFetch (h : SameForeground cfg log s t) (r : ReqId) (call : FetchCall) :
    SameForeground cfg log (s.setFetch r call) (t.setFetch r call) := by
  refine { h with fetches := ?_ }
  rw [AppState.fetches_setFetch, AppState.fetches_setFetch, h.fetches]

theorem SameForeground.setStore (h : SameForeground cfg log s t) (r : ReqId) (call : StoreCall) :
    SameForeground cfg log (s.setStore r call) (t.setStore r call) := by
  refine { h with stores := ?_ }
  rw [AppState.stores_setStore, AppState.stores_setStore, h.stores]

/-! ## Foreground steps -/

/-- The step of another server on the same event: it is accepted there, and the same
if the clocks are in order. -/
structure Follows (cfg : Config) (log os : Log) (s' : AppState F)
    (step' : Option (AppState F × Log)) : Prop where
  accepted : step'.isSome = true
  same : Chronological (os ++ log) → ∃ t', step' = some (t', os) ∧
    SameForeground cfg (os ++ log) s' t'

theorem SameForeground.follows {t' : AppState F} (h : SameForeground cfg log s' t') :
    Follows cfg log os s' (some (t', os)) :=
  ⟨rfl, fun _ => ⟨t', rfl, h.mono os⟩⟩

section steps

variable {r : ReqId} [BucketNumber F]

theorem SameForeground.takeLookupToken (h : SameForeground cfg log s t) {q : Lookup} {now : ℕ}
    (he : takeLookupToken s r q now = (s', os)) :
    Follows cfg log os s' (some (takeLookupToken t r q now)) := by
  have hbucket : SameForeground cfg log
      { s with lookupTokenBucket := (s.lookupTokenBucket.tryConsume now).2 }
      { t with lookupTokenBucket := (s.lookupTokenBucket.tryConsume now).2 } :=
    { h with lookupTokenBucket := rfl }
  simp only [RecoverBull.takeLookupToken, ← h.lookupTokenBucket] at he ⊢
  split at he <;> cases he
  · next hok =>
    rw [if_pos hok]
    exact (hbucket.setFetch r _).follows
  · next hno =>
    rw [if_neg hno]
    exact (hbucket.setFetch r _).follows

omit [BucketNumber F] in
/-- The time of an admission comes after the clocks so far. -/
theorem SameForeground.enterMap (h : SameForeground cfg log s t) {q : Lookup} {now : ℤ}
    (he : enterMap cfg s r q now = (s', os)) :
    Follows cfg log os s' (some (enterMap cfg t r q now)) := by
  refine ⟨rfl, fun hchron => ?_⟩
  have hnow : now ∈ clocks os := by
    obtain ⟨call, os', hm, hs, -⟩ := @enterMap_congr F cfg s r q now s rfl
    rw [hs] at he
    cases he
    exact List.mem_filterMap.mpr ⟨_, hm, rfl⟩
  have hmap := h.map now fun past hp => hchron.le hnow hp
  obtain ⟨call, os', -, hs, ht⟩ := enterMap_congr (r := r)
    (hmap.symm.admissionRecord_eq q.idHash q.candidate)
  rw [hs] at he
  cases he
  refine ⟨_, congrArg some ht, SameForeground.setFetch (s := s.setMap _) (t := t.setMap _) ?_ r call⟩
  refine { h with map := fun later hlater => ?_ }
  exact (hmap.admitRequest q.idHash q.candidate).2.2.mono
    (hlater now (clocks_subset_append_left hnow))

theorem SameForeground.fetchStep (h : SameForeground cfg log s t) {q : Lookup} {event : FetchEvent}
    (he : fetchStep cfg s r q event = some (s', os)) :
    Follows cfg log os s' (fetchStep cfg t r q event) := by
  cases fetchStep_move he with
  | own call hall =>
    rw [hall s] at he
    cases he
    rw [hall t]
    exact (h.setFetch r call).follows
  | token now hevent hphase =>
    subst hevent
    simp only [RecoverBull.fetchStep, hphase, Option.some.injEq] at he ⊢
    exact h.takeLookupToken he
  | enter now hevent hphase =>
    subst hevent
    simp only [RecoverBull.fetchStep, hphase, Option.some.injEq] at he ⊢
    exact h.enterMap he
  | resolve call f hf hall =>
    rw [hall s] at he
    cases he
    rw [hall t]
    have hmap : SameForeground cfg log (s.setMap (f s.identifierRateLimit))
        (t.setMap (f t.identifierRateLimit)) :=
      { h with map := fun now hnow => hf.sameUnexpired (h.map now hnow) }
    exact (hmap.setFetch r call).follows
  | query outcome a client hevent hphase =>
    subst hevent
    simp only [RecoverBull.fetchStep, hphase, ← h.secrets] at he ⊢
    cases he
    have htable : SameForeground cfg log
        { s with secrets := (runLookup s.secrets q.isTrashingSecret q.candidate outcome).2 }
        { t with secrets := (runLookup s.secrets q.isTrashingSecret q.candidate outcome).2 } :=
      { h with secrets := rfl }
    exact (htable.setFetch r _).follows

theorem SameForeground.storeStep (h : SameForeground cfg log s t) {phase : StorePhase}
    {event : StoreEvent} (he : storeStep P s r phase event = some (s', os)) :
    Follows cfg log os s' (storeStep P t r phase event) := by
  cases storeStep_move he with
  | own call hall =>
    rw [hall s] at he
    cases he
    rw [hall t]
    exact (h.setStore r call).follows
  | token secretId encryptedSecret now hevent hphase =>
    subst hevent hphase
    have hbucket : SameForeground cfg log
        { s with storeTokenBucket := (s.storeTokenBucket.tryConsume now).2 }
        { t with storeTokenBucket := (s.storeTokenBucket.tryConsume now).2 } :=
      { h with storeTokenBucket := rfl }
    simp only [RecoverBull.storeStep, ← h.storeTokenBucket] at he ⊢
    split at he <;> cases he
    · next hok =>
      rw [if_pos hok]
      exact (hbucket.setStore r _).follows
    · next hno =>
      rw [if_neg hno]
      exact (hbucket.setStore r _).follows
  | write key client outcome hevent hphase =>
    subst hevent hphase
    simp only [RecoverBull.storeStep, ← h.secrets] at he ⊢
    cases he
    have htable : SameForeground cfg log
        { s with secrets := (runWrite s.secrets key outcome).2 }
        { t with secrets := (runWrite s.secrets key outcome).2 } :=
      { h with secrets := rfl }
    exact (htable.setStore r _).follows

/-- A foreground event does the same in states with the same foreground. -/
theorem SameForeground.step (h : SameForeground cfg log s t) {event : Event}
    (hevent : event.isForeground = true) (he : step P cfg s event = some (s', os)) :
    Follows cfg log os s' (step P cfg t event) := by
  cases event with
  | fetchArrives r trash request =>
    obtain ⟨hfree, call, rfl, hall⟩ := fetchArrives_move he
    have ht := hall t (by rw [← h.fetches, hfree])
    rw [RecoverBull.step, ht]
    exact (h.setFetch r call).follows
  | fetch r event =>
    simp only [RecoverBull.step, ← h.fetches] at he ⊢
    split at he
    · exact h.fetchStep he
    · cases he
  | storeArrives r request =>
    obtain ⟨hfree, call, rfl, hall⟩ := storeArrives_move he
    have ht := hall t (by rw [← h.stores, hfree])
    rw [RecoverBull.step, ht]
    exact (h.setStore r call).follows
  | store r event =>
    simp only [RecoverBull.step, ← h.stores] at he ⊢
    split at he
    · exact h.storeStep he
    · cases he
  | info r metadata file =>
    simp only [RecoverBull.step, ← h.canaryCache] at he ⊢
    cases he
    exact SameForeground.follows { h with canaryCache := rfl }
  | attemptsArrives | attempts | sweep => cases hevent

/-! ## Background steps -/

/-- What a step of an `/attempts` request leaves to the foreground, but for the map. -/
theorem attemptsStep_background {phase : AttemptsPhase} {event : AttemptsEvent}
    (h : attemptsStep P cfg s r phase event = some (s', os)) :
    os.filter Obs.isForeground = [] ∧
      SameForeground cfg log (s'.setMap s.identifierRateLimit) s := by
  cases event <;> simp only [attemptsStep, takeAttemptsToken, lockSnapshot, collectSnapshot,
    publishSnapshot] at h
  all_goals repeat' split at h
  all_goals cases h
  all_goals exact ⟨rfl, rfl, rfl, rfl, rfl, rfl, rfl, fun _ _ => rfl⟩

omit [BucketNumber F] in
/-- Without foreground observations, a step on the map is a sweep. -/
theorem Effect.of_background (h : Effect cfg s s' os) (hos : os.filter Obs.isForeground = []) :
    s'.identifierRateLimit = s.identifierRateLimit ∨ ∃ now ∈ clocks os,
      s'.identifierRateLimit = retainWithinCooldown cfg now s.identifierRateLimit := by
  have hnone : ∀ o ∈ os, o.isForeground = false := fun o ho => by
    simpa using List.filter_eq_nil_iff.mp hos o ho
  cases h with
  | idle hmap => exact Or.inl hmap
  | retain now hmap extra hos =>
    refine Or.inr ⟨now, ?_, hmap⟩
    rw [hos]
    exact List.mem_filterMap.mpr ⟨_, List.mem_append_right _ List.mem_cons_self, rfl⟩
  | admission r q now extra _ _ _ hos =>
    cases hnone _ (hos ▸ List.mem_append_right _ List.mem_cons_self)
  | refund r q a _ _ _ extra extra' hos =>
    cases hnone _ (hos ▸ List.mem_append_right _ List.mem_cons_self)
  | finalize r q a client result _ _ _ _ hos => cases hnone _ (hos ▸ List.mem_cons_self)

/-- A background event leaves the foreground as it is. -/
theorem SameForeground.background (h : SameForeground cfg log s t) {event : Event}
    (hevent : event.isForeground = false) (he : RecoverBull.step P cfg s event = some (s', os)) :
    os.filter Obs.isForeground = [] ∧ SameForeground cfg (os ++ log) s' t := by
  have hframe : os.filter Obs.isForeground = [] ∧
      SameForeground cfg [] (s'.setMap s.identifierRateLimit) s := by
    cases event with
    | sweep now =>
      cases he
      exact ⟨rfl, rfl, rfl, rfl, rfl, rfl, rfl, fun _ _ => rfl⟩
    | attemptsArrives r tag =>
      simp only [RecoverBull.step] at he
      split at he <;> cases he
      exact ⟨rfl, rfl, rfl, rfl, rfl, rfl, rfl, fun _ _ => rfl⟩
    | attempts r event =>
      simp only [RecoverBull.step] at he
      split at he
      · exact attemptsStep_background he
      · cases he
    | fetchArrives | fetch | storeArrives | store | info => cases hevent
  obtain ⟨hos, hs'⟩ := hframe
  refine ⟨hos, { hs'.trans h with map := fun now hnow => ?_ }⟩
  have hmap := (h.mono os).map now hnow
  obtain hsame | ⟨past, hpast, hretain⟩ := (step_effect he).of_background hos
  · rw [hsame]
    exact hmap
  · rw [hretain]
    exact (sameUnexpired_retain (hnow past (clocks_subset_append_left hpast)) _).trans hmap

/-- The run over the foreground events of a schedule. -/
theorem run_foreground {s₁ : AppState F} {es : List Event} {l : Log}
    (hr : run P cfg s es = some (s₁, l)) (hchron : Chronological l) :
    ∃ s₀ l₀, run P cfg s (es.filter Event.isForeground) = some (s₀, l₀) ∧
      l₀.filter Obs.isForeground = l.filter Obs.isForeground ∧ SameForeground cfg l s₁ s₀ := by
  have herase := @Machine.run_erase (AppState F) (AppState F) Event Obs (RecoverBull.step P cfg)
    (RecoverBull.step P cfg) Event.isForeground Obs.isForeground (SameForeground cfg)
    (fun _ => True) Chronological (fun _ => False) (fun os log => Chronological.of_append)
    (fun log s t event s' os h _ he _ hevent => h.background hevent he)
    (fun log s t event s' os h _ he hchron hevent _ => by
      obtain ⟨t', ht, hsame⟩ := (h.step hevent he).same hchron
      exact ⟨t', os, ht, rfl, hsame⟩)
    [] l s s₁ s es (.refl s) (fun _ _ => trivial) hr ((List.append_nil l).symm ▸ hchron)
    (fun _ _ _ _ _ _ _ => id)
  rwa [List.append_nil] at herase

/-! ## Capacity -/

omit [BucketNumber F] in
/-- The request is turned away for capacity exactly when its admission is refused. -/
theorem Bounded.response_capacity (hb : Bounded cfg s.identifierRateLimit) {q : Lookup} {now : ℤ}
    (he : RecoverBull.enterMap cfg s r q now = (s', os)) :
    .response (.fetch r) (overloaded "Rate-limit capacity exhausted, retry later") ∈ os ↔
      capacityRefused cfg s.identifierRateLimit q.idHash now := by
  by_cases hr : capacityRefused cfg s.identifierRateLimit q.idHash now
  · have hout : (admissionRecord cfg s.identifierRateLimit q.idHash q.candidate now).outcome =
        .capacityExhausted (overloaded "Rate-limit capacity exhausted, retry later") :=
      congrArg Prod.snd (admitRequest_refused hr)
    simp only [RecoverBull.enterMap, hout, Prod.mk.injEq] at he
    obtain ⟨-, rfl⟩ := he
    exact iff_of_true List.mem_cons_self hr
  · have hout : (admissionRecord cfg s.identifierRateLimit q.idHash q.candidate now).outcome =
        (admitEntry cfg (entryAt cfg s.identifierRateLimit q.idHash now) q.candidate now).2 :=
      congrArg Prod.snd (admitRequest_entered hr)
    refine iff_of_false ?_ hr
    cases hb.entryAdmission q.idHash q.candidate now with
    | lockedOut _ _ h | pending _ _ _ h | replay _ _ _ h | new _ _ _ h =>
      simp only [RecoverBull.enterMap, hout, h, Prod.mk.injEq] at he
      obtain ⟨-, rfl⟩ := he
      simp [overloaded, retryAfterResponse, rateLimited]

/-! ## Every continuation -/

/-- Two continuations of a run that differ in their sweeps and snapshot builds, with
clocks that never decrease: the requests get the same responses, and the maps hold the
same entries among those that are unexpired by the clocks of both. Neither can refuse a
request its next step where the other does not. A request whose identifier has no
unexpired entry is turned away for capacity exactly when the unexpired entries of the
others fill the map, and the map holds no more entries than it may. -/
theorem sweeping_unobservable (P : Primitives) (cfg : Config) {log l₁ l₂ : Log}
    {s s₁ s₂ : AppState F} {es₁ es₂ : List Event} (h : Served P cfg log s)
    (hr₁ : run P cfg s es₁ = some (s₁, l₁)) (hr₂ : run P cfg s es₂ = some (s₂, l₂))
    (hsame : es₁.filter Event.isForeground = es₂.filter Event.isForeground)
    (hc₁ : Chronological l₁) (hc₂ : Chronological l₂) :
    l₁.filter Obs.isForeground = l₂.filter Obs.isForeground ∧
      (∀ now, (∀ past ∈ clocks (l₁ ++ l₂), past ≤ now) →
        SameUnexpired cfg now s₁.identifierRateLimit s₂.identifierRateLimit) ∧
      (∀ event, event.isForeground = true →
        ((step P cfg s₁ event).isSome ↔ (step P cfg s₂ event).isSome)) ∧
      s₁.identifierRateLimit.len ≤ cfg.rateLimitMaxIdentifiers ∧
      ∀ r q now u os, s₁.fetches r = some (.active q) → q.phase = .mapLock now →
        (s₁.identifierRateLimit.lookup q.idHash).filter (withinCooldown cfg now) = none →
        step P cfg s₁ (.fetch r .enter) = some (u, os) →
        (.response (.fetch r) (overloaded "Rate-limit capacity exhausted, retry later") ∈ os ↔
          cfg.rateLimitMaxIdentifiers ≤
            (retainWithinCooldown cfg now s₁.identifierRateLimit).len) := by
  obtain ⟨s₀, l₀, hr₀, hl₁, hs₁⟩ := run_foreground hr₁ hc₁
  obtain ⟨s₀', l₀', hr₀', hl₂, hs₂⟩ := run_foreground hr₂ hc₂
  -- The two foreground schedules are one.
  rw [hsame, hr₀'] at hr₀
  cases hr₀
  have hboth := hs₁.trans hs₂.symm
  have hb : Bounded cfg s₁.identifierRateLimit := (h.reaches ⟨es₁, hr₁⟩).bounded
  have haccepted : ∀ {s t : AppState F}, SameForeground cfg (l₁ ++ l₂) s t → ∀ event,
      event.isForeground = true → (step P cfg s event).isSome → (step P cfg t event).isSome := by
    intro s t hst event hevent hsome
    obtain ⟨⟨s', os⟩, he⟩ := Option.isSome_iff_exists.mp hsome
    exact (hst.step hevent he).accepted
  refine ⟨hl₁.symm.trans hl₂, hboth.map, fun event hevent => ?_, hb.capacity, ?_⟩
  · exact ⟨haccepted hboth event hevent, haccepted (hs₁.trans hs₂.symm).symm event hevent⟩
  · intro r q now u os hq hphase hnone he
    simp only [step, hq, fetchStep, hphase, Option.some.injEq] at he
    rw [hb.response_capacity he, capacityRefused_iff]
    exact and_iff_right hnone

end steps

/-- The entry of the first request has expired. Swept first or not, it makes room for
the second one. -/
theorem sweeping_unobservable_sample :
    ∃ (log l₁ l₂ : Log) (s s₁ s₂ : AppState ℚ), Served .sample .sample log s ∧
      run .sample .sample s (sampleAdmission 1 false ⟨sampleIdentifier, otherKey⟩ 60000000001) =
        some (s₁, l₁) ∧
      run .sample .sample s (.sweep 60000000001 ::
        sampleAdmission 1 false ⟨sampleIdentifier, otherKey⟩ 60000000001) = some (s₂, l₂) ∧
      l₁.filter Obs.isForeground = l₂.filter Obs.isForeground ∧
      SameUnexpired .sample 60000000001 s₁.identifierRateLimit s₂.identifierRateLimit ∧
      s.identifierRateLimit.len = 1 ∧ s₁.identifierRateLimit.len ≤ 2 := by
  have hrun : (run .sample .sample .sample
      (sampleAdmission 0 false ⟨sampleIdentifier, sampleKey⟩ 0 ++ sampleCompletion 0)).any
      (fun u => decide (u.1.identifierRateLimit.len = 1) &&
        (run .sample .sample u.1
          (sampleAdmission 1 false ⟨sampleIdentifier, otherKey⟩ 60000000001)).any (fun v₁ =>
            (run .sample .sample u.1 (.sweep 60000000001 ::
              sampleAdmission 1 false ⟨sampleIdentifier, otherKey⟩ 60000000001)).any fun v₂ =>
              decide (clocks v₁.2 = [60000000001] ∧ clocks v₂.2 = [60000000001, 60000000001]))) =
                true := by
    simp only [run_append, sampleAdmission, run_sampleKey, run_otherKey]
    decide +kernel
  obtain ⟨⟨s, log⟩, hr, h⟩ := (Option.any_eq_true _ _).mp hrun
  obtain ⟨hone, h⟩ := Bool.and_eq_true_iff.mp h
  obtain ⟨⟨s₁, l₁⟩, hr₁, h⟩ := (Option.any_eq_true _ _).mp h
  obtain ⟨⟨s₂, l₂⟩, hr₂, h⟩ := (Option.any_eq_true _ _).mp h
  obtain ⟨hc₁, hc₂⟩ : clocks l₁ = [60000000001] ∧ clocks l₂ = [60000000001, 60000000001] :=
    of_decide_eq_true h
  have hserved : Served .sample .sample log s := ⟨_, _, _, _, _, hr⟩
  obtain ⟨hlogs, hmaps, -, hlen, -⟩ := sweeping_unobservable .sample .sample hserved hr₁ hr₂ rfl
    (by rw [Chronological, hc₁]; simp) (by rw [Chronological, hc₂]; simp)
  refine ⟨log, l₁, l₂, s, s₁, s₂, hserved, hr₁, hr₂, hlogs, hmaps _ fun past hp => ?_,
    of_decide_eq_true hone, hlen⟩
  rw [clocks_append, hc₁, hc₂] at hp
  simp only [List.cons_append, List.nil_append, List.mem_cons, List.not_mem_nil, or_false,
    or_self] at hp
  exact le_of_eq hp

end RecoverBull
