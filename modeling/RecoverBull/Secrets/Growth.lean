import RecoverBull.Server.Load
import RecoverBull.Server.StoreTrace
import RecoverBull.Secrets.Linearization
import RecoverBull.Router
import Mathlib.Algebra.Order.BigOperators.Group.List

/-!
# How fast the table grows

Every row that a run adds is one that a store paid for with a token, and no row is
longer than `SECRET_MAX_LENGTH`: the settings of the store bucket bound what the
operator has to keep. The tokens are counted in rational numbers.
-/

namespace RecoverBull

/-- A measure of the rows, over a table. -/
def SecretTable.total (m : Secret → ℕ) (table : SecretTable) : ℕ := (table.rows.map m).sum

def Secret.payloadLength (row : Secret) : ℕ := (asBytes row.encryptedSecret).length

theorem SecretTable.total_one (table : SecretTable) : table.total (fun _ => 1) = table.rows.length := by
  simp [total]

theorem SecretTable.total_write (m : Secret → ℕ) (table : SecretTable) (row : Secret) :
    (table.write row).total m ≤ table.total m + m row := by
  unfold write
  split
  · exact Nat.le_add_right _ _
  · simp [total]

theorem SecretTable.total_delete (m : Secret → ℕ) (table : SecretTable) (id : String) :
    (table.delete id).total m ≤ table.total m :=
  (List.filter_sublist.map m).sum_le_sum fun _ _ => Nat.zero_le _

theorem total_runWrite (m : Secret → ℕ) (table : SecretTable) (row : Secret) (outcome : DbOutcome) :
    (runWrite table row outcome).2.total m ≤ table.total m + m row := by
  cases outcome with
  | panics | fails => exact Nat.le_add_right _ _
  | runs => exact table.total_write m row

theorem total_runLookup (m : Secret → ℕ) (table : SecretTable) (trash : Bool) (key : CandidateTag)
    (outcome : DbOutcome) : (runLookup table trash key outcome).2.total m ≤ table.total m := by
  cases outcome with
  | panics | fails => exact le_rfl
  | runs =>
    cases trash with
    | false =>
      simp only [runLookup]
      cases table.readSecretById key <;> exact le_rfl
    | true =>
      simp only [runLookup, SecretTable.readAndTrash_eq]
      cases table.readSecretById key with
      | none => exact le_rfl
      | some row => exact table.total_delete m key

/-! ## The writes of a run -/

variable {F : Type} {P : Primitives} {cfg : Config} {s s' : AppState F} {os log : Log}

/-- A write, with the request that made it. -/
def Obs.written : Obs → Option (ReqId × Secret)
  | .wrote r row _ => some (r, row)
  | _ => none

def writes (log : Log) : List (ReqId × Secret) := log.filterMap Obs.written

theorem mem_writes {r : ReqId} {row : Secret} :
    (r, row) ∈ writes log ↔ ∃ outcome, .wrote r row outcome ∈ log := by
  rw [writes, List.mem_filterMap]
  constructor
  · rintro ⟨o, ho, hw⟩
    cases o with
    | wrote r' row' outcome =>
      obtain ⟨rfl, rfl⟩ := Prod.mk.inj (Option.some.inj hw)
      exact ⟨outcome, ho⟩
    | admission | refunded | queried | finalized | taskLost | retained | response | cancelled
    | panicked => cases hw
  · rintro ⟨outcome, ho⟩
    exact ⟨_, ho, rfl⟩

/-- The table is as large as the one before and the writes since. -/
theorem TableEffect.total_le (h : TableEffect s s' os) (m : Secret → ℕ) :
    s'.secrets.total m ≤ s.secrets.total m + ((writes os).map fun w => m w.2).sum := by
  cases h with
  | same hs =>
    rw [hs]
    exact Nat.le_add_right _ _
  | wrote r row outcome hs hos =>
    rw [hs, hos]
    simpa [writes, Obs.written] using total_runWrite m s.secrets row outcome
  | queried r trash key outcome hs hos =>
    rw [hs]
    exact (total_runLookup m s.secrets trash key outcome).trans (Nat.le_add_right _ _)

theorem total_of_run [BucketNumber F] {secrets : SecretTable} {b₁ b₂ b₃ : TokenBucket F}
    {events : List Event} (h : run P cfg (.init secrets b₁ b₂ b₃) events = some (s, log))
    (m : Secret → ℕ) :
    s.secrets.total m ≤ secrets.total m + ((writes log).map fun w => m w.2).sum := by
  refine @Machine.run_history _ _ _ (step P cfg)
    (fun _ log s => s.secrets.total m ≤ secrets.total m + ((writes log).map fun w => m w.2).sum) _
    le_rfl ?_ s events log h
  intro events log s event s' os _ hi he
  have hstep := (step_tableEffect he).total_le m
  rw [writes, List.filterMap_append, List.map_append, List.sum_append]
  simp only [writes] at hi hstep
  omega

/-- The writes of one store are those of its trace. -/
theorem count_writes (r : ReqId) (log : Log) :
    ((writes log).map Prod.fst).count r = (writes (storeTrace r log)).length := by
  rw [List.count, List.countP_map, writes, writes, List.countP_filterMap,
    List.length_filterMap_eq_countP, storeTrace, List.countP_filter]
  refine List.countP_congr fun o _ => ?_
  cases o with
  | wrote r' row outcome => simp [Obs.written, Obs.isOfStore]
  | admission | refunded | queried | finalized | taskLost | retained | response | cancelled
  | panicked => simp [Obs.written]

theorem StoreTrace.length_writes_le {r : ReqId} {call : Option StoreCall} {word : Log}
    (h : StoreTrace r call word) : (writes word).length ≤ 1 := by
  cases h <;> simp [writes, List.filterMap_cons, Obs.written]

/-- No store writes twice. -/
theorem Served.writes_nodup [BucketNumber F] (h : Served P cfg log s) :
    ((writes log).map Prod.fst).Nodup := by
  rw [List.nodup_iff_count_le_one]
  intro r
  rw [count_writes]
  exact (h.storeTrace r).length_writes_le

/-- What a store writes passed its check. -/
theorem payloadLength_le [BucketNumber F] {secrets : SecretTable} {b₁ b₂ b₃ : TokenBucket F}
    {events : List Event} (h : run P cfg (.init secrets b₁ b₂ b₃) events = some (s, log))
    {w : ReqId × Secret} (hm : w ∈ writes log) : w.2.payloadLength ≤ cfg.secretMaxLength := by
  obtain ⟨outcome, ho⟩ := mem_writes.mp hm
  obtain ⟨identifier, key, ⟨request, -, hcheck, hpayload⟩, -⟩ :=
    (arrived_of_run h).wrote w.1 w.2 outcome ho
  rw [Secret.payloadLength, ← hpayload]
  exact length_le_of_checkStore hcheck

/-- **The table grows no faster than the store bucket lets it.** In every run of a server
that does not read the clock of the bucket backwards, with tokens that are exact rational
numbers, the rows are at most those it started with, the burst of the store bucket and what was
refilled since; and their payload is at most the one it started with and the full
`SECRET_MAX_LENGTH` for each of these. -/
theorem database_growth (P : Primitives) (cfg : Config) (secrets : SecretTable)
    {burst refill : Endpoint → ℚ} (hburst : 0 ≤ burst .store) (hrefill : 0 ≤ refill .store)
    {start : ℕ} {events : List Event} {s : AppState ℚ} {log : Log}
    (h : run P cfg (.started secrets burst refill start) events = some (s, log))
    (hclock : (start :: readings .store events).Pairwise (· ≤ ·)) {finish : ℕ}
    (hfinish : ∀ now ∈ start :: readings .store events, now ≤ finish) :
    (s.secrets.rows.length : ℚ) ≤ secrets.rows.length +
        (burst .store + refill .store * (TokenBucket.secs finish - TokenBucket.secs start)) ∧
      (s.secrets.total Secret.payloadLength : ℚ) ≤ secrets.total Secret.payloadLength +
        cfg.secretMaxLength *
          (burst .store + refill .store * (TokenBucket.secs finish - TokenBucket.secs start)) := by
  have hs : Served P cfg log s := ⟨_, _, _, _, events, h⟩
  have hcalls : ((writes log).map fun w => Call.store w.1).length ≤
      (((AppState.started secrets burst refill start).bucketOf .store).serve
        (readings .store events)).1 := by
    refine length_le_of_paidSince h ?_ fun call hm => ?_
    · have hnodup := hs.writes_nodup.map (f := Call.store) fun _ _ he => by injection he
      rwa [List.map_map] at hnodup
    · obtain ⟨w, hw, rfl⟩ := List.mem_map.mp hm
      obtain ⟨outcome, ho⟩ := mem_writes.mp hw
      exact ⟨rfl, rfl, Or.inr ⟨_, ho, rfl⟩⟩
  have hserved := (TokenBucket.Sound.new hburst hrefill start).serve_le hclock hfinish
  rw [List.length_map] at hcalls
  have hwrites : ((writes log).length : ℚ) ≤
      burst .store + refill .store * (TokenBucket.secs finish - TokenBucket.secs start) :=
    le_trans (Nat.cast_le.mpr hcalls) hserved
  constructor
  · have hrows : s.secrets.rows.length ≤ secrets.rows.length + (writes log).length := by
      simpa [SecretTable.total_one] using total_of_run h fun _ => 1
    have hcast : (s.secrets.rows.length : ℚ) ≤ secrets.rows.length + (writes log).length := by
      exact_mod_cast hrows
    linarith
  · have hsum : ((writes log).map fun w => w.2.payloadLength).sum ≤
        (writes log).length * cfg.secretMaxLength := by
      have hrow : ∀ n ∈ (writes log).map fun w => w.2.payloadLength, n ≤ cfg.secretMaxLength := by
        intro n hn
        obtain ⟨w, hw, rfl⟩ := List.mem_map.mp hn
        exact payloadLength_le h hw
      simpa using List.sum_le_card_nsmul _ _ hrow
    have htotal := (total_of_run h Secret.payloadLength).trans (Nat.add_le_add_left hsum _)
    have hcast : (s.secrets.total Secret.payloadLength : ℚ) ≤
        secrets.total Secret.payloadLength + (writes log).length * cfg.secretMaxLength := by
      exact_mod_cast htotal
    have hmax : ((writes log).length : ℚ) * cfg.secretMaxLength ≤ cfg.secretMaxLength *
        (burst .store + refill .store * (TokenBucket.secs finish - TokenBucket.secs start)) := by
      rw [mul_comm]
      exact mul_le_mul_of_nonneg_left hwrites (Nat.cast_nonneg _)
    linarith

/-- A store at the start of an empty server: one row, of a burst of ten. -/
theorem database_growth_sample :
    ∃ (s : AppState ℚ) (log : Log),
      run .sample .sample (.started .empty (fun _ => 10) (fun _ => 1) 0)
        (sampleStore 0 ⟨sampleIdentifier, sampleKey, "AAAA"⟩) = some (s, log) ∧
      s.secrets.rows.length = 1 ∧ (s.secrets.rows.length : ℚ) ≤ 0 + (10 + 1 * 0) := by
  have hrun : (run .sample .sample (.started .empty (fun _ => (10 : ℚ)) (fun _ => 1) 0)
      (sampleStore 0 ⟨sampleIdentifier, sampleKey, "AAAA"⟩)).any
      (fun u => decide (u.1.secrets.rows.length = 1)) = true := by
    rw [sampleStore, run_sampleStore rfl (by decide) (by decide +kernel)]
    decide +kernel
  obtain ⟨⟨s, log⟩, hr, hrows⟩ := (Option.any_eq_true _ _).mp hrun
  have hfinish : ∀ now ∈ 0 :: readings .store
      (sampleStore 0 ⟨sampleIdentifier, sampleKey, "AAAA"⟩), now ≤ 0 := by
    decide
  have hgrowth :=
    (database_growth .sample .sample .empty (by norm_num) zero_le_one hr (by decide) hfinish).1
  rw [sub_self] at hgrowth
  exact ⟨s, log, hr, of_decide_eq_true hrows, hgrowth⟩

end RecoverBull
