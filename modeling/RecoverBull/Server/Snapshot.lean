import RecoverBull.Server.Step
import RecoverBull.Limiter.Operations

/-!
# What the snapshot publishes

The payload of a build, as a function of the unexpired entries: one row for each
of their identifiers, in the order of the hashes, and nothing of an entry but its
counts and the hours of its times.
-/

namespace RecoverBull

/-- The payload a build at clock value `now` hands to the blocking job; `none`
where `candidate_count` panics. -/
def buildPayload (cfg : Config) (now : ℤ) (order : IterationOrder) (map : RateLimitMap) :
    Option AttemptsSnapshot :=
  (collectEntries order (retainWithinCooldown cfg now map)).map (snapshotPayload cfg)

/-- The entry of an identifier that a sweep at `now` would leave. -/
def unexpired (cfg : Config) (now : ℤ) (map : RateLimitMap) (id : String) : Option RateLimitInfo :=
  (map.lookup id).filter (withinCooldown cfg now)

/-- The number of the hour an instant lies in. -/
def hourOf (timestamp : ℤ) : ℤ := timestamp / nanosPerHour

/-- Two entries with the same counts and the same hours. -/
structure RateLimitInfo.SameActivity (info info' : RateLimitInfo) : Prop where
  candidates : info.candidates.len = info'.candidates.len
  failedCandidates : info.failedCandidates = info'.failedCandidates
  totalRequests : info.totalRequests = info'.totalRequests
  windowStartedAt : hourOf info.windowStartedAt = hourOf info'.windowStartedAt
  lastRequestAt : hourOf info.lastRequestAt = hourOf info'.lastRequestAt

/-- A row tells nothing but the activity. -/
theorem attemptEntry_congr {info info' : RateLimitInfo} (h : info.SameActivity info') (id : String) :
    attemptEntry id info = attemptEntry id info' := by
  simp only [attemptEntry, RateLimitInfo.candidateCount, h.candidates, h.failedCandidates,
    h.totalRequests, truncateToHour_eq]
  rw [← hourOf, ← hourOf, ← hourOf, ← hourOf, h.windowStartedAt, h.lastRequestAt]

theorem map_attemptEntry_congr {entry entry' : Option RateLimitInfo}
    (h : Option.Rel RateLimitInfo.SameActivity entry entry') (id : String) :
    entry.map (attemptEntry id) = entry'.map (attemptEntry id) := by
  cases h with
  | none => rfl
  | some hact => rw [Option.map_some, Option.map_some, attemptEntry_congr hact]

theorem attemptEntry_idHash {id : String} {info : RateLimitInfo} {e : AttemptEntry}
    (h : attemptEntry id info = some e) : e.idHash = id := by
  obtain ⟨count, -, rfl⟩ := Option.map_eq_some_iff.mp h
  rfl

section collected

variable {cfg : Config} {order : IterationOrder} {map : RateLimitMap} {entries : List AttemptEntry}

theorem IterationOrder.mem_entries (order : IterationOrder) {id : String} {info : RateLimitInfo} :
    ⟨id, info⟩ ∈ order.entries map ↔ map.lookup id = some info := by
  rw [Finmap.lookup_eq_some_iff, ← order.complete map, Multiset.mem_coe]

/-- No identifier is collected twice, whatever the order of the hash map. -/
theorem nodup_collectEntries (h : collectEntries order map = some entries) :
    (entries.map AttemptEntry.idHash).Nodup := by
  have hkeys := Collect.map_key_of_mapM Sigma.fst AttemptEntry.idHash
    (fun e row hrow => attemptEntry_idHash hrow) h
  rw [hkeys]
  have hnodup := map.nodupKeys
  rw [← order.complete map] at hnodup
  exact hnodup.nodup_keys

/-- The row of an identifier; the inner `none` is the panic of `candidate_count`. -/
def publicRow (map : RateLimitMap) (id : String) : Option (Option AttemptEntry) :=
  (map.lookup id).map (attemptEntry id)

theorem mem_collectEntries (h : collectEntries order map = some entries) {e : AttemptEntry} :
    e ∈ entries ↔ publicRow map e.idHash = some (some e) := by
  rw [Collect.mem_iff_of_mapM h, publicRow, Option.map_eq_some_iff]
  constructor
  · rintro ⟨⟨id, info⟩, hm, hrow⟩
    obtain rfl := attemptEntry_idHash hrow
    exact ⟨info, order.mem_entries.mp hm, hrow⟩
  · rintro ⟨info, hm, hrow⟩
    exact ⟨⟨e.idHash, info⟩, order.mem_entries.mpr hm, hrow⟩

theorem collectEntries_isSome : (collectEntries order map).isSome = true ↔
    ∀ id, publicRow map id ≠ some none := by
  rw [collectEntries, Collect.mapM_isSome_iff]
  constructor
  · intro h id hrow
    obtain ⟨info, hm, hnone⟩ := Option.map_eq_some_iff.mp hrow
    have := h ⟨id, info⟩ (order.mem_entries.mpr hm)
    rw [hnone] at this
    cases this
  · rintro h ⟨id, info⟩ hm
    rw [Option.isSome_iff_ne_none]
    intro hnone
    apply h id
    rw [publicRow, order.mem_entries.mp hm, Option.map_some, hnone]

end collected

section payloads

variable {cfg : Config} {now now' : ℤ} {order order' : IterationOrder} {map map' : RateLimitMap}

/-- Maps with the same rows make the same payload, in whatever order they are read. -/
theorem snapshotPayload_congr (h : ∀ id, publicRow map id = publicRow map' id) :
    (collectEntries order map).map (snapshotPayload cfg) =
      (collectEntries order' map').map (snapshotPayload cfg) := by
  have hsome : (collectEntries order map).isSome = (collectEntries order' map').isSome := by
    rw [Bool.eq_iff_iff, collectEntries_isSome, collectEntries_isSome]
    exact forall_congr' fun id => by rw [h id]
  cases he : collectEntries order map with
  | none =>
    rw [he] at hsome
    have hnone : collectEntries order' map' = none := by
      rw [← Option.not_isSome_iff_eq_none, ← hsome]
      exact Bool.false_ne_true
    rw [hnone]
  | some entries =>
    rw [he] at hsome
    obtain ⟨entries', he'⟩ := Option.isSome_iff_exists.mp hsome.symm
    have hsort := Collect.mergeSort_eq_of_mem_iff AttemptEntry.idHash (nodup_collectEntries he)
      (nodup_collectEntries he') fun e => by
        rw [mem_collectEntries he, mem_collectEntries he', h]
    rw [he', Option.map_some, Option.map_some, snapshotPayload, hsort, snapshotPayload]

theorem publicRow_retain (id : String) :
    publicRow (retainWithinCooldown cfg now map) id =
      (unexpired cfg now map id).map (attemptEntry id) := by
  rw [publicRow, lookup_retainWithinCooldown]
  rfl

/-- The payload sorts the collected rows strictly. -/
theorem buildPayload_sorted {payload : AttemptsSnapshot}
    (h : buildPayload cfg now order map = some payload) :
    payload.entries.Pairwise fun e e' => e.idHash < e'.idHash := by
  obtain ⟨entries, he, rfl⟩ := Option.map_eq_some_iff.mp h
  exact Collect.pairwise_lt_mergeSort AttemptEntry.idHash (nodup_collectEntries he)

theorem mem_buildPayload {payload : AttemptsSnapshot}
    (h : buildPayload cfg now order map = some payload) {e : AttemptEntry} :
    e ∈ payload.entries ↔
      ∃ info, unexpired cfg now map e.idHash = some info ∧ attemptEntry e.idHash info = some e := by
  obtain ⟨entries, he, rfl⟩ := Option.map_eq_some_iff.mp h
  rw [← Option.map_eq_some_iff, ← publicRow_retain, ← mem_collectEntries he]
  exact (List.mergeSort_perm entries _).mem_iff

theorem attemptEntry_ne_none_iff {id : String} {info : RateLimitInfo} :
    attemptEntry id info ≠ none ↔ info.candidates.len ≤ u8Max := by
  rw [attemptEntry, ne_eq, Option.map_eq_none_iff, RateLimitInfo.candidateCount]
  split
  · next h => exact iff_of_true (Option.some_ne_none _) h
  · next h => exact iff_of_false (fun hne => hne rfl) h

/-- The build panics only on an unexpired entry with more candidates than a `u8` counts. -/
theorem buildPayload_isSome_iff : (buildPayload cfg now order map).isSome = true ↔
    ∀ id info, unexpired cfg now map id = some info → info.candidates.len ≤ u8Max := by
  rw [buildPayload, Option.isSome_map, collectEntries_isSome]
  constructor
  · intro h id info hid
    have hrow := h id
    rw [publicRow_retain, hid, Option.map_some] at hrow
    exact attemptEntry_ne_none_iff.mp fun hnone => hrow (congrArg some hnone)
  · intro h id hrow
    rw [publicRow_retain] at hrow
    obtain ⟨info, hid, hnone⟩ := Option.map_eq_some_iff.mp hrow
    exact attemptEntry_ne_none_iff.mpr (h id info hid) hnone

end payloads

/-- The build step of the server hands that payload to the blocking job. -/
theorem collectSnapshot_eq {F : Type} [BucketNumber F] (cfg : Config) (s : AppState F) (r : ReqId)
    (ifNoneMatch : Option String) (now : ℤ) (order : IterationOrder) :
    collectSnapshot cfg s r ifNoneMatch now order =
      match buildPayload cfg now order s.identifierRateLimit with
      | none =>
        (releaseSnapshot (s.setMap (retainWithinCooldown cfg now s.identifierRateLimit)) r .over,
          [.panicked (.attempts r), .retained now])
      | some payload =>
        ((s.setMap (retainWithinCooldown cfg now s.identifierRateLimit)).setPoll r
          (.active (.compressing ifNoneMatch payload)), [.retained now]) := by
  unfold collectSnapshot buildPayload
  dsimp only
  cases collectEntries order (retainWithinCooldown cfg now s.identifierRateLimit) <;> rfl

/-- **The snapshot is a function of the activity.** Whatever the iteration orders,
the tags, their states and the minutes of the times, the same activity makes the
same payload and ETag: one row for each unexpired identifier, in strict order. There
is a payload unless an unexpired entry has more than 255 candidates. -/
theorem snapshot_canonical (P : Primitives) (cfg : Config) {now now' : ℤ}
    (order order' : IterationOrder) {map map' : RateLimitMap}
    (h : ∀ id, Option.Rel RateLimitInfo.SameActivity (unexpired cfg now map id)
      (unexpired cfg now' map' id)) :
    buildPayload cfg now order map = buildPayload cfg now' order' map' ∧
    ((buildPayload cfg now order map).isSome = true ↔
      ∀ id info, unexpired cfg now map id = some info → info.candidates.len ≤ u8Max) ∧
    ∀ payload payload', buildPayload cfg now order map = some payload →
      buildPayload cfg now' order' map' = some payload' →
      (∀ createdAt createdAt', (compressSnapshot P payload createdAt).etag =
        (compressSnapshot P payload' createdAt').etag) ∧
      payload.entries.Pairwise (fun e e' => e.idHash < e'.idHash) ∧
      (∀ id info, unexpired cfg now map id = some info →
        ∃! e, e ∈ payload.entries ∧ e.idHash = id) ∧
      ∀ e ∈ payload.entries, ∃ info, unexpired cfg now map e.idHash = some info ∧
        attemptEntry e.idHash info = some e := by
  have hsame : buildPayload cfg now order map = buildPayload cfg now' order' map' := by
    refine snapshotPayload_congr fun id => ?_
    rw [publicRow_retain, publicRow_retain]
    exact map_attemptEntry_congr (h id) id
  refine ⟨hsame, buildPayload_isSome_iff, fun payload payload' hp hp' => ⟨fun _ _ => ?_,
    buildPayload_sorted hp, fun id info hid => ?_, fun e he => (mem_buildPayload hp).mp he⟩⟩
  · rw [hsame, hp'] at hp
    cases hp
    rfl
  · -- The payload exists, so that the row of the identifier does.
    have hlen := buildPayload_isSome_iff.mp (Option.isSome_iff_exists.mpr ⟨payload, hp⟩) id info hid
    obtain ⟨e, hrow⟩ : ∃ e, attemptEntry id info = some e :=
      Option.ne_none_iff_exists'.mp (attemptEntry_ne_none_iff.mpr hlen)
    obtain rfl := attemptEntry_idHash hrow
    refine ⟨e, ⟨(mem_buildPayload hp).mpr ⟨info, hid, hrow⟩, rfl⟩, ?_⟩
    rintro e' ⟨he', hkey⟩
    obtain ⟨info', hid', hrow'⟩ := (mem_buildPayload hp).mp he'
    rw [hkey, hid] at hid'
    cases hid'
    rw [hkey, hrow] at hrow'
    exact (Option.some.inj hrow').symm

/-- An entry at time `t` with one candidate and one miss. -/
def sampleInfo (t : ℤ) (tag : CandidateTag) (state : CandidateState) : RateLimitInfo where
  windowStartedAt := t
  lastCandidateAt := t
  lastRequestAt := t
  candidates := Finmap.singleton tag state
  failedCandidates := 1
  totalRequests := 1

/-- Another tag, still pending, half a minute later, beside an entry that has expired. -/
theorem snapshot_canonical_sample : ∃ (order order' : IterationOrder) (payload : AttemptsSnapshot),
    buildPayload .sample 0 order (Finmap.singleton "a" (sampleInfo 0 "tag" .committed)) =
      some payload ∧
    buildPayload .sample 60000000000 order'
        ((Finmap.singleton "a" (sampleInfo 30000000000 "other" .pending)).insert "b"
          (sampleInfo (-1) "tag" .pending)) = some payload ∧
    ∃! e, e ∈ payload.entries ∧ e.idHash = "a" := by
  let order : IterationOrder := ⟨fun map => map.entries.toList, fun map => Multiset.coe_toList _⟩
  let order' : IterationOrder :=
    ⟨fun map => map.entries.toList.reverse, fun map => by
      rw [Multiset.coe_reverse, Multiset.coe_toList]⟩
  have hnone : ∀ {id} (info : RateLimitInfo), id ≠ "a" →
      (Finmap.singleton "a" info : RateLimitMap).lookup id = none := fun info hid =>
    Finmap.lookup_eq_none.mpr (mt (Finmap.mem_singleton _ "a" info).mp hid)
  obtain ⟨hsame, hsome, hrows⟩ := @snapshot_canonical .sample .sample 0 60000000000 order order'
    (Finmap.singleton "a" (sampleInfo 0 "tag" .committed))
    ((Finmap.singleton "a" (sampleInfo 30000000000 "other" .pending)).insert "b"
      (sampleInfo (-1) "tag" .pending)) fun id => by
    by_cases ha : id = "a"
    · subst ha
      exact .some ⟨rfl, rfl, rfl, by decide, by decide⟩
    · by_cases hb : id = "b"
      · subst hb
        exact .none
      · rw [unexpired, unexpired, Finmap.lookup_insert_of_ne _ hb, hnone _ ha, hnone _ ha]
        exact .none
  have hpayload := hsome.mpr fun id info hid => by
    by_cases ha : id = "a"
    · subst ha
      cases (Option.filter_eq_some_iff.mp hid).1
      decide
    · rw [unexpired, hnone _ ha] at hid
      cases hid
  obtain ⟨payload, hp⟩ := Option.isSome_iff_exists.mp hpayload
  have hp' := hsame.symm.trans hp
  exact ⟨order, order', payload, hp, hp', (hrows payload payload hp hp').2.2.1 "a" _ rfl⟩

end RecoverBull
