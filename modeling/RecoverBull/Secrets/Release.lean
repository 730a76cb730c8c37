import RecoverBull.Secrets.Answers
import RecoverBull.Secrets.Keys

/-!
# Secrets are kept, and released once

Stores, fetches and trashes against the sequential map of their database steps:
what a response promises of the table, and what no response does to it.
-/

namespace RecoverBull

variable {F : Type} {P : Primitives} {cfg : Config} {s : AppState F} {secrets : SecretTable}
  {log : Log}

/-- The lookup `r` found `row` under `key`, where it had come from `origin`: the table
the server found (`none`), or the store that wrote right after the log `origin`. -/
def HandsOut (secrets : SecretTable) (log : Log) (r : ReqId) (trash : Bool) (key : CandidateTag)
    (row : Secret) (origin : Option Log) : Prop :=
  ∃ newer older, log = newer ++ .queried r trash key .runs (.hit row) :: older ∧
    FirstWriter.ComesFrom Obs.op secrets.readSecretById older key row origin

/-- The lookup `r` is answered with `row` and 202, unless its client leaves: every
response is that one, and there is one or two steps of `r` bring it. -/
def AnswersRelease (P : Primitives) [BucketNumber F] (cfg : Config) (log : Log) (s : AppState F)
    (r : ReqId) (row : Secret) : Prop :=
  (∀ response, .response (.fetch r) response ∈ log → response.Releases row) ∧
    (.cancelled (.fetch r) ∉ log → (∃ response, .response (.fetch r) response ∈ log) ∨
      ∃ events s' os response, (∀ e ∈ events, ∃ event, e = .fetch r event) ∧ events.length ≤ 2 ∧
        run P cfg s events = some (s', os) ∧ .response (.fetch r) response ∈ os ∧
        response.Releases row)

/-- The call a database step belongs to. -/
def Obs.databaseCall : Obs → Option Call
  | .queried r _ _ _ _ => some (.fetch r)
  | .wrote r _ _ => some (.store r)
  | _ => none

/-- What the responses and the database steps of a run make of the table. -/
structure SecretsKept (P : Primitives) [BucketNumber F] (cfg : Config) (secrets : SecretTable)
    (events : List Event) (log : Log) (s : AppState F) : Prop where
  /-- The table is the sequential map, and every lookup found what is there. -/
  linearized : Linearized secrets log s
  /-- After a 201 the row is there; a row that was there stays. -/
  created : ∀ r response, .response (.store r) response ∈ log → response.status = .created →
    ∃ row newer older, log = newer ++ .wrote r row .runs :: older ∧
      .response (.store r) response ∈ newer ∧
      tableAfter secrets (.wrote r row .runs :: older) row.id =
        some ((tableAfter secrets older row.id).getD row)
  /-- A 200 or 202 returns the first row stored since the id was last free. -/
  released : ∀ r response, .response (.fetch r) response ∈ log →
    response.status = .ok ∨ response.status = .accepted → ∃ trash key row status origin,
      response.status = (if trash then .accepted else .ok) ∧
        response.body = .secret row status ∧ HandsOut secrets log r trash key row origin
  /-- One stored row is handed out by at most one trash. -/
  once : ∀ r₁ r₂ key row₁ row₂ origin, HandsOut secrets log r₁ true key row₁ origin →
    HandsOut secrets log r₂ true key row₂ origin → r₁ = r₂
  /-- A row disappears only by being handed out. -/
  kept : ∀ newer o older key row, log = newer ++ o :: older →
    tableAfter secrets older key = some row →
    tableAfter secrets (o :: older) key = some row ∨
      ∃ r, o = .queried r true key .runs (.hit row) ∧
        (.taskLost r ∉ log → AnswersRelease P cfg log s r row)
  /-- A request that is answered otherwise leaves the table as it is. -/
  unchanged : ∀ call response, .response call response ∈ log → response.status ≠ .ok →
    response.status ≠ .accepted → response.status ≠ .created →
    (∀ r, call = .fetch r → .taskLost r ∉ log) → ∀ newer o older, log = newer ++ o :: older →
      o.databaseCall = some call → tableAfter secrets (o :: older) = tableAfter secrets older
  /-- A stored row is handed out under the pair it was stored under. -/
  own : ∀ r trash key row origin, HandsOut secrets log r trash key row (some origin) →
    ∃ r' identifier authenticationKey,
      LookupArrived P events r trash identifier authenticationKey ∧
        StoreArrived P cfg events r' identifier authenticationKey row.encryptedSecret

/-- What the log says a lookup found is what was there. -/
theorem Linearized.found (h : Linearized secrets log s) {newer older : Log} {r : ReqId}
    {trash : Bool} {key : CandidateTag} {outcome : DbOutcome} {result : LookupResult}
    (hlog : log = newer ++ .queried r trash key outcome result :: older) :
    result = lookupAnswer outcome (tableAfter secrets older key) := by
  have hall := h.answers
  rw [hlog] at hall
  exact hall.at

variable [BucketNumber F]

theorem Served.releases (h : Served P cfg log s) {r : ReqId} {key : CandidateTag} {row : Secret}
    (hq : .queried r true key .runs (.hit row) ∈ log) (hlost : .taskLost r ∉ log) :
    AnswersRelease P cfg log s r row := by
  constructor
  · intro response hm
    obtain ⟨a, rfl⟩ := h.answer_of_queried hq hlost hm
    exact lookupResponse_releases cfg a row
  · intro hstays
    apply (h.answered_of_queried hq hlost hstays).imp_right
    rintro ⟨events, s', os, a, hevents, hlen, hrun, hm⟩
    exact ⟨events, s', os, _, hevents, hlen, hrun, hm, lookupResponse_releases cfg a row⟩

/-- A lookup that is answered otherwise has failed, or found nothing. -/
theorem Served.unchanged_of_queried (h : Served P cfg log s) (hlin : Linearized secrets log s)
    {r : ReqId} {trash : Bool} {key : CandidateTag} {outcome : DbOutcome} {result : LookupResult}
    {newer older : Log} (hlog : log = newer ++ .queried r trash key outcome result :: older)
    {response : Response} (hm : .response (.fetch r) response ∈ log)
    (hok : response.status ≠ .ok) (haccepted : response.status ≠ .accepted)
    (hlost : .taskLost r ∉ log) :
    tableAfter secrets (.queried r trash key outcome result :: older) =
      tableAfter secrets older := by
  have hq : .queried r trash key outcome result ∈ log := by
    rw [hlog]
    exact List.mem_append_right _ List.mem_cons_self
  obtain ⟨a, rfl⟩ := h.answer_of_queried hq hlost hm
  have hfound := hlin.found hlog
  cases hop : (Obs.queried r trash key outcome result).op with
  | none => exact tableAfter_cons_of_none hop
  | some e =>
    rw [tableAfter_cons_of_some hop]
    cases trash with
    | false => cases hop
    | true =>
      cases outcome with
      | panics | fails => cases hop
      | runs =>
        cases hop
        cases htable : tableAfter secrets older key with
        | none => exact FirstWriter.apply_take_of_none htable
        | some row =>
          rw [htable] at hfound
          rw [hfound] at haccepted
          exact absurd rfl haccepted

/-- **Stored secrets are never overwritten, lost or released twice**, for every
interleaving, with SHA-256 taken to be injective. -/
theorem secrets_kept (hinj : Function.Injective P.sha256Hex) {b₁ b₂ b₃ : TokenBucket F}
    {events : List Event} (hrun : run P cfg (.init secrets b₁ b₂ b₃) events = some (s, log)) :
    SecretsKept P cfg secrets events log s := by
  have h : Served P cfg log s := ⟨secrets, b₁, b₂, b₃, events, hrun⟩
  have hlin : Linearized secrets log s := linearized_of_run hrun
  have harrived := arrived_of_run hrun
  refine ⟨hlin, fun r response hm hstatus => ?_, fun r response hm hstatus => ?_,
    fun r₁ r₂ key row₁ row₂ origin h₁ h₂ => ?_, fun newer o older key row hlog hrow => ?_,
    fun call response hm hok haccepted hcreated hlost newer o older hlog hcall => ?_,
    fun r trash key row origin hout => ?_⟩
  -- A 201 comes after a write, which stores the row or finds one of its id.
  · obtain ⟨row, newer, older, hlog, hmem⟩ := h.of_created hm hstatus
    refine ⟨row, newer, older, hlog, hmem, ?_⟩
    have hop : (Obs.wrote r row .runs).op = some (.put row.id row) := rfl
    rw [tableAfter_cons_of_some hop]
    exact FirstWriter.apply_put_self
  -- A released row is the one that the table held at the query.
  · obtain ⟨trash, key, a, outcome, row, newer, older, hlog, -, -, rfl⟩ := h.of_released hm hstatus
    obtain ⟨rfl, hrow⟩ := lookupAnswer_eq_hit.mp (hlin.found hlog).symm
    obtain ⟨origin, horigin⟩ := FirstWriter.replay_eq_some_iff.mp hrow
    exact ⟨trash, key, row, a.status, origin, rfl, rfl, newer, older, hlog, horigin⟩
  · obtain ⟨newer₁, older₁, hlog₁, hc₁⟩ := h₁
    obtain ⟨newer₂, older₂, hlog₂, hc₂⟩ := h₂
    have hsame := FirstWriter.taken_once (hlog₁.symm.trans hlog₂) rfl rfl hc₁ hc₂
    cases hsame
    rfl
  -- Only a trash that finds a row takes it out.
  · apply (FirstWriter.kept_or_taken hrow).imp_right
    intro hop
    obtain ⟨r, result, rfl⟩ := Obs.op_eq_take.mp hop
    have hfound := hlin.found hlog
    rw [hrow] at hfound
    obtain rfl : result = .hit row := hfound
    have hq : .queried r true key .runs (.hit row) ∈ log := by
      rw [hlog]
      exact List.mem_append_right _ List.mem_cons_self
    exact ⟨r, rfl, h.releases hq⟩
  -- A call with another answer left the table as it was.
  · cases o with
    | queried r trash key outcome result =>
      cases hcall
      exact h.unchanged_of_queried hlin hlog hm hok haccepted (hlost r rfl)
    | wrote r row outcome =>
      cases hcall
      have hw : .wrote r row outcome ∈ log := by
        rw [hlog]
        exact List.mem_append_right _ List.mem_cons_self
      have hne := h.of_not_created hm hcreated hw
      have hop : (Obs.wrote r row outcome).op = none := by
        cases outcome with
        | panics | fails => rfl
        | runs => exact absurd rfl hne
      exact tableAfter_cons_of_none hop
    | admission | refunded | finalized | taskLost | retained | response | cancelled | panicked =>
      cases hcall
  · -- The row was written under the lookup's candidate, and the pair can be read off that.
    obtain ⟨newer, older, hlog, between, o, rfl, hop, -⟩ := hout
    obtain ⟨hid, r', rfl⟩ := Obs.op_eq_put.mp hop
    have hq : .queried r trash key .runs (.hit row) ∈ log := by
      rw [hlog]
      simp
    have hw : .wrote r' row .runs ∈ log := by
      rw [hlog]
      simp
    obtain ⟨i, k, ha, hkey⟩ := harrived.queried _ _ _ _ _ hq
    obtain ⟨i', k', ha', hkey'⟩ := harrived.wrote _ _ _ hw
    have hi : IsKeyText i := by
      obtain ⟨request, -, hc⟩ := ha
      exact is256bitsHexHash_iff.mp (checkFetch_eq_ok.mp hc).2.2.1
    have hi' : IsKeyText i' := by
      obtain ⟨request, -, hc, -⟩ := ha'
      exact is256bitsHexHash_iff.mp (checkFetch_eq_ok.mp (checkStore_eq_ok hc)).2.2.1
    have hids : generateSecretId P i k = generateSecretId P i' k' := by
      rw [← hkey, ← hid, hkey']
    obtain ⟨rfl, rfl⟩ := generateSecretId_inj hinj hi hi' hids
    exact ⟨r', i, k, ha, ha'⟩

/-- One row stored, stored over, and trashed by the first of two requests. -/
theorem secrets_kept_sample :
    ∃ log s, SecretsKept (F := ℚ) .sample .sampleOfTwo .empty
        (sampleStore 0 ⟨sampleIdentifier, sampleKey, "AAAA"⟩ ++
          sampleStore 1 ⟨sampleIdentifier, sampleKey, "BBBB"⟩ ++
          sampleAdmission 0 true ⟨sampleIdentifier, sampleKey⟩ 0 ++ sampleCompletion 0 ++
          sampleAdmission 1 true ⟨sampleIdentifier, otherKey⟩ 1 ++ sampleCompletion 1) log s ∧
      log.any (Obs.answers 0 .accepted) = true ∧ log.any (Obs.answers 1 .unauthorized) = true := by
  have hrun : (run .sample .sampleOfTwo AppState.sample
      (sampleStore 0 ⟨sampleIdentifier, sampleKey, "AAAA"⟩ ++
        sampleStore 1 ⟨sampleIdentifier, sampleKey, "BBBB"⟩ ++
        sampleAdmission 0 true ⟨sampleIdentifier, sampleKey⟩ 0 ++ sampleCompletion 0 ++
        sampleAdmission 1 true ⟨sampleIdentifier, otherKey⟩ 1 ++ sampleCompletion 1)).any
      (fun u => u.2.any (Obs.answers 0 .accepted) && u.2.any (Obs.answers 1 .unauthorized)) =
        true := by
    simp (disch := decide +kernel) only [run_append, sampleStore, sampleAdmission,
      run_sampleStore, run_sampleKey, run_otherKey]
    decide +kernel
  obtain ⟨⟨s, log⟩, hr, hp⟩ := (Option.any_eq_true _ _).mp hrun
  rw [Bool.and_eq_true] at hp
  exact ⟨log, s, secrets_kept Primitives.sample_sha256Hex_injective hr, hp.1, hp.2⟩

end RecoverBull
