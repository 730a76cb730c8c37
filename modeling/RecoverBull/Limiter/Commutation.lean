import RecoverBull.Limiter.Ownership

/-!
# The order of resolutions does not matter

In-flight lookups finish in any order. On a map whose entries all hold a
candidate the two refunds agree, and resolutions of different reservations
commute.
-/

namespace RecoverBull

variable {F : Type} {P : Primitives} {cfg : Config} {s : AppState F} {log : Log}

/-- The ways in which a reservation is resolved. -/
inductive ResolvedBy
  | finalize (result : LookupResult)
  | removePending
  deriving DecidableEq, Repr

namespace ResolvedBy

/-- What is left under the candidate. -/
def left : ResolvedBy → Option CandidateState
  | .finalize (.hit _) | .finalize .miss => some .committed
  | .finalize (.failed _) | .removePending => none

/-- Whether a failed attempt is counted. -/
def counted : ResolvedBy → Bool
  | .finalize .miss => true
  | .finalize (.hit _) | .finalize (.failed _) | .removePending => false

theorem left_ne_pending (how : ResolvedBy) : how.left ≠ some .pending := by
  rcases how with (secret | _ | error) | _ <;> exact fun h => nomatch h

end ResolvedBy

/-- A call of `finalize` or of `remove_pending`. -/
structure ResolveCall where
  slot : Slot
  how : ResolvedBy
  deriving DecidableEq, Repr

namespace ResolveCall

def apply (map : RateLimitMap) (call : ResolveCall) : RateLimitMap :=
  match call.how with
  | .finalize result =>
    finalize map call.slot.idHash call.slot.candidate call.slot.generation result
  | .removePending => removePending map call.slot.idHash call.slot.candidate call.slot.generation

/-- The call on the entry of its identifier. -/
def onEntry (call : ResolveCall) : RateLimitInfo → Option RateLimitInfo :=
  match call.how with
  | .finalize result => finalizeEntry call.slot.candidate call.slot.generation result
  | .removePending => refundEntry call.slot.candidate call.slot.generation

theorem apply_eq_alter (map : RateLimitMap) (call : ResolveCall) :
    call.apply map = map.alter call.slot.idHash call.onEntry := by
  apply Finmap.ext_lookup
  intro k
  rw [Finmap.lookup_alter]
  obtain ⟨slot, how⟩ := call
  cases how with
  | finalize result => exact lookup_finalize map slot.idHash slot.candidate slot.generation result k
  | removePending => exact lookup_removePending map slot.idHash slot.candidate slot.generation k

end ResolveCall

/-! ## One entry

A resolution first settles its candidate; an entry left without candidates then
goes. The first part commutes by itself, and the second part cannot tell in which
order the candidates went. -/

@[ext] theorem Slot.ext {a b : Slot} (hid : a.idHash = b.idHash)
    (hc : a.candidate = b.candidate) (hg : a.generation = b.generation) : a = b := by
  cases a
  cases b
  cases hid
  cases hc
  cases hg
  rfl

/-- The reservation is pending in the entry. -/
def RateLimitInfo.HoldsPending (info : RateLimitInfo) (slot : Slot) : Prop :=
  info.windowStartedAt = slot.generation ∧ info.candidates.lookup slot.candidate = some .pending

instance (info : RateLimitInfo) (slot : Slot) : Decidable (info.HoldsPending slot) :=
  inferInstanceAs (Decidable (_ ∧ _))

/-- The entry, unless it holds no candidate. -/
def RateLimitInfo.unlessEmpty (info : RateLimitInfo) : Option RateLimitInfo :=
  if info.candidates = ∅ then none else some info

namespace ResolveCall

/-- The entry with the candidate settled. -/
def settled (call : ResolveCall) (info : RateLimitInfo) : RateLimitInfo :=
  { info with
    candidates := info.candidates.alter call.slot.candidate fun _ => call.how.left
    failedCandidates :=
      if call.how.counted then saturatingAdd u8Max info.failedCandidates 1
      else info.failedCandidates }

/-- The candidate is settled where it is pending. -/
def settle (call : ResolveCall) (info : RateLimitInfo) : RateLimitInfo :=
  if info.HoldsPending call.slot then call.settled info else info

theorem settled_comm {a b : ResolveCall} (info : RateLimitInfo)
    (hc : a.slot.candidate ≠ b.slot.candidate) :
    b.settled (a.settled info) = a.settled (b.settled info) := by
  unfold settled
  dsimp only
  rw [Finmap.alter_comm_of_ne _ hc]
  -- Two counted misses add to one counter.
  split <;> split <;> rfl

theorem settle_of_holdsPending {call : ResolveCall} {info : RateLimitInfo}
    (h : info.HoldsPending call.slot) : call.settle info = call.settled info := if_pos h

theorem settle_of_not {call : ResolveCall} {info : RateLimitInfo}
    (h : ¬info.HoldsPending call.slot) : call.settle info = info := if_neg h

theorem settle_of_empty (call : ResolveCall) {info : RateLimitInfo} (h : info.candidates = ∅) :
    call.settle info = info := by
  apply settle_of_not
  rintro ⟨_, hc⟩
  rw [h, Finmap.lookup_empty] at hc
  cases hc

@[simp] theorem settle_windowStartedAt (call : ResolveCall) (info : RateLimitInfo) :
    (call.settle info).windowStartedAt = info.windowStartedAt := by
  unfold settle
  split
  · rfl
  · rfl

theorem lookup_settle_of_ne {call : ResolveCall} (info : RateLimitInfo) {c : CandidateTag}
    (hc : c ≠ call.slot.candidate) :
    (call.settle info).candidates.lookup c = info.candidates.lookup c := by
  unfold settle
  split
  · rw [settled, Finmap.lookup_alter, if_neg hc]
  · rfl

/-- A settled candidate is not pending any more. -/
theorem not_holdsPending_settle (call : ResolveCall) (info : RateLimitInfo) :
    ¬(call.settle info).HoldsPending call.slot := by
  by_cases h : info.HoldsPending call.slot
  · rintro ⟨_, hc⟩
    rw [settle_of_holdsPending h, settled, Finmap.lookup_alter, if_pos rfl, h.2,
      Option.bind_some] at hc
    exact call.how.left_ne_pending hc
  · rwa [settle_of_not h]

/-- Settling one candidate leaves the others of the identifier as they are. -/
theorem holdsPending_settle_iff {call : ResolveCall} {slot : Slot} (info : RateLimitInfo)
    (hid : slot.idHash = call.slot.idHash) (hne : slot ≠ call.slot) :
    (call.settle info).HoldsPending slot ↔ info.HoldsPending slot := by
  unfold RateLimitInfo.HoldsPending
  rw [settle_windowStartedAt]
  by_cases hc : slot.candidate = call.slot.candidate
  · -- The generations differ, and the entry is of at most one of them.
    refine and_congr_right fun hw => ?_
    rw [settle_of_not fun h => hne (Slot.ext hid hc (hw.symm.trans h.1))]
  · rw [lookup_settle_of_ne info hc]

theorem settle_comm {a b : ResolveCall} (info : RateLimitInfo)
    (hid : a.slot.idHash = b.slot.idHash) (hne : a.slot ≠ b.slot) :
    b.settle (a.settle info) = a.settle (b.settle info) := by
  have hab := @holdsPending_settle_iff a b.slot info hid.symm hne.symm
  have hba := @holdsPending_settle_iff b a.slot info hid hne
  by_cases ha : info.HoldsPending a.slot
  · by_cases hb : info.HoldsPending b.slot
    · have hc : a.slot.candidate ≠ b.slot.candidate :=
        fun hc => hne (Slot.ext hid hc (ha.1.symm.trans hb.1))
      rw [settle_of_holdsPending (hab.mpr hb), settle_of_holdsPending (hba.mpr ha),
        settle_of_holdsPending ha, settle_of_holdsPending hb]
      exact settled_comm info hc
    · rw [settle_of_not hb, settle_of_not (mt hab.mp hb)]
  · rw [settle_of_not ha, settle_of_not (mt hba.mp ha)]

theorem settled_refund {call : ResolveCall} {info : RateLimitInfo}
    (h : info.HoldsPending call.slot) (hl : call.how.left = none) (hc : call.how.counted = false) :
    (call.settled info).unlessEmpty = withoutCandidate call.slot.candidate info := by
  have herase : info.candidates.alter call.slot.candidate (fun _ => none) =
      info.candidates.erase call.slot.candidate := by
    rw [Finmap.alter, h.2, Option.bind_some]
  simp only [settled, hl, hc, herase, RateLimitInfo.unlessEmpty, withoutCandidate,
    Bool.false_eq_true, if_false]

theorem settled_commit {call : ResolveCall} {info : RateLimitInfo} {result : LookupResult}
    (h : info.HoldsPending call.slot) (hhow : call.how = .finalize result)
    (hne : ∀ e, result ≠ .failed e) :
    (call.settled info).unlessEmpty = some (commitEntry call.slot.candidate result info) := by
  have hl : call.how.left = some .committed := by
    rw [hhow]
    cases result with
    | hit secret => rfl
    | miss => rfl
    | failed e => exact absurd rfl (hne e)
  have hcounted : call.how.counted = decide (result = .miss) := by
    rw [hhow]
    cases result <;> rfl
  have hinsert : info.candidates.alter call.slot.candidate (fun _ => some .committed) =
      info.candidates.insert call.slot.candidate .committed := by
    rw [Finmap.alter, h.2, Option.bind_some]
  simp only [settled, hl, hcounted, hinsert, RateLimitInfo.unlessEmpty, Finmap.insert_ne_empty,
    commitEntry, if_false, decide_eq_true_eq]

/-- On an entry with a candidate, a resolution settles its own and then drops the
entry if none is left. -/
theorem onEntry_eq (call : ResolveCall) {info : RateLimitInfo} (h : info.candidates ≠ ∅) :
    call.onEntry info = (call.settle info).unlessEmpty := by
  by_cases hp : info.HoldsPending call.slot
  · rw [settle_of_holdsPending hp]
    obtain ⟨⟨id, c, g⟩, how⟩ := call
    have hc : info.candidates.lookup c = some .pending := hp.2
    obtain rfl : info.windowStartedAt = g := hp.1
    cases how with
    | removePending => exact (refundEntry_pending hc).trans (settled_refund hp rfl rfl).symm
    | finalize result =>
      by_cases hf : ∃ e, result = .failed e
      · obtain ⟨e, rfl⟩ := hf
        exact (finalizeEntry_failed (e := e) hc).trans (settled_refund hp rfl rfl).symm
      · have hne : ∀ e, result ≠ .failed e := not_exists.mp hf
        exact (finalizeEntry_committed hc hne).trans (settled_commit hp rfl hne).symm
  · have hs : info.windowStartedAt ≠ call.slot.generation ∨
        info.candidates.lookup call.slot.candidate ≠ some .pending := not_and_or.mp hp
    rw [settle_of_not hp, RateLimitInfo.unlessEmpty, if_neg h]
    obtain ⟨slot, how⟩ := call
    cases how with
    | finalize result => exact finalizeEntry_stale hs
    | removePending => exact refundEntry_stale hs h

theorem unlessEmpty_bind_onEntry (call : ResolveCall) (info : RateLimitInfo) :
    info.unlessEmpty.bind call.onEntry = (call.settle info).unlessEmpty := by
  by_cases h : info.candidates = ∅
  · -- The entry is gone, and there would have been nothing to settle in it.
    rw [settle_of_empty call h, RateLimitInfo.unlessEmpty, if_pos h, Option.bind_none]
  · rw [← onEntry_eq call h, RateLimitInfo.unlessEmpty, if_neg h, Option.bind_some]

theorem onEntry_comm {a b : ResolveCall} {info : RateLimitInfo} (h : info.candidates ≠ ∅)
    (hid : a.slot.idHash = b.slot.idHash) (hne : a.slot ≠ b.slot) :
    (a.onEntry info).bind b.onEntry = (b.onEntry info).bind a.onEntry := by
  calc (a.onEntry info).bind b.onEntry
      = (b.settle (a.settle info)).unlessEmpty := by
        rw [onEntry_eq a h, unlessEmpty_bind_onEntry]
    _ = (a.settle (b.settle info)).unlessEmpty := by rw [settle_comm info hid hne]
    _ = (b.onEntry info).bind a.onEntry := by rw [onEntry_eq b h, unlessEmpty_bind_onEntry]

/-- A second resolution of the same reservation does nothing. -/
theorem onEntry_onEntry (call : ResolveCall) {info : RateLimitInfo} (h : info.candidates ≠ ∅) :
    (call.onEntry info).bind call.onEntry = call.onEntry info := by
  rw [onEntry_eq call h, unlessEmpty_bind_onEntry, settle_of_not (not_holdsPending_settle call info)]

theorem onEntry_nonempty {call : ResolveCall} {info info' : RateLimitInfo}
    (h : info.candidates ≠ ∅) (hs : call.onEntry info = some info') : info'.candidates ≠ ∅ := by
  rw [onEntry_eq call h, RateLimitInfo.unlessEmpty] at hs
  split at hs
  · cases hs
  · next hne =>
    cases hs
    exact hne

end ResolveCall

/-! ## The map -/

/-- Every entry of the map holds a candidate. -/
def Occupied (map : RateLimitMap) : Prop :=
  ∀ id info, map.lookup id = some info → info.candidates ≠ ∅

theorem occupied_empty : Occupied ∅ := by
  intro id info hi
  rw [Finmap.lookup_empty] at hi
  cases hi

theorem Occupied.insert {map : RateLimitMap} (h : Occupied map) (id : String) {info : RateLimitInfo}
    (hne : info.candidates ≠ ∅) : Occupied (map.insert id info) := by
  intro k i hk
  by_cases hid : k = id
  · rw [hid, Finmap.lookup_insert] at hk
    cases hk
    exact hne
  · rw [Finmap.lookup_insert_of_ne _ hid] at hk
    exact h k i hk

theorem Bounded.occupied {cfg : Config} {map : RateLimitMap} (h : Bounded cfg map) :
    Occupied map :=
  fun _ _ => h.ne_empty

namespace ResolveCall

theorem apply_occupied {map : RateLimitMap} (h : Occupied map) (call : ResolveCall) :
    Occupied (call.apply map) := by
  rw [apply_eq_alter]
  exact Finmap.forall_alter h fun _ _ => onEntry_nonempty

theorem apply_comm {map : RateLimitMap} (h : Occupied map) {a b : ResolveCall}
    (hne : a.slot ≠ b.slot) : b.apply (a.apply map) = a.apply (b.apply map) := by
  simp only [apply_eq_alter]
  by_cases hid : a.slot.idHash = b.slot.idHash
  · rw [hid, Finmap.alter_alter, Finmap.alter_alter]
    exact Finmap.alter_congr fun info hi => onEntry_comm (h _ info hi) hid hne
  · exact Finmap.alter_comm_of_ne map hid _ _

theorem apply_apply {map : RateLimitMap} (h : Occupied map) (call : ResolveCall) :
    call.apply (call.apply map) = call.apply map := by
  simp only [apply_eq_alter]
  rw [Finmap.alter_alter]
  exact Finmap.alter_congr fun info hi => onEntry_onEntry call (h _ info hi)

/-- The way in which a reservation is given up does not show in the map. -/
theorem apply_congr {map : RateLimitMap} (h : Occupied map) {a b : ResolveCall}
    (hslot : a.slot = b.slot) (hl : a.how.left = b.how.left) (hc : a.how.counted = b.how.counted) :
    a.apply map = b.apply map := by
  simp only [apply_eq_alter]
  rw [hslot]
  refine Finmap.alter_congr fun info hi => ?_
  rw [onEntry_eq a (h _ info hi), onEntry_eq b (h _ info hi)]
  simp only [settle, settled, hslot, hl, hc]

end ResolveCall

/-- A rate-limit map whose entries all hold a candidate. -/
structure OccupiedMap where
  map : RateLimitMap
  occupied : Occupied map

namespace OccupiedMap

def resolve (m : OccupiedMap) (call : ResolveCall) : OccupiedMap where
  map := call.apply m.map
  occupied := call.apply_occupied m.occupied

theorem resolve_comm (m : OccupiedMap) {a b : ResolveCall} (hne : a.slot ≠ b.slot) :
    (m.resolve a).resolve b = (m.resolve b).resolve a := by
  unfold resolve
  simp only [ResolveCall.apply_comm m.occupied hne]

theorem foldl_resolve_map (calls : List ResolveCall) (m : OccupiedMap) :
    (calls.foldl resolve m).map = calls.foldl (fun map call => call.apply map) m.map := by
  induction calls generalizing m with
  | nil => rfl
  | cons call calls ih => exact ih (m.resolve call)

theorem foldl_resolve_perm {calls calls' : List ResolveCall} (hp : calls.Perm calls')
    (hnodup : (calls.map ResolveCall.slot).Nodup) (m : OccupiedMap) :
    calls.foldl resolve m = calls'.foldl resolve m := by
  apply hp.foldl_eq'
  intro a ha b hb m
  by_cases hab : a = b
  · rw [hab]
  · exact m.resolve_comm fun hslot => hab (List.inj_on_of_nodup_map hnodup ha hb hslot)

end OccupiedMap

/-- Giving up a reservation is one operation however it is done, and the order in
which different reservations are resolved does not show in the map. -/
theorem resolutions_commute (map : RateLimitMap) (h : Occupied map) :
    (∀ id c g e, finalize map id c g (.failed e) = removePending map id c g) ∧
      (∀ id c g, removePending (removePending map id c g) id c g = removePending map id c g) ∧
      (∀ id c g result, Occupied (finalize map id c g result)) ∧
      (∀ id c g, Occupied (removePending map id c g)) ∧
      ∀ calls calls' : List ResolveCall, (calls.map ResolveCall.slot).Nodup → calls.Perm calls' →
        calls.foldl (fun map call => call.apply map) map =
          calls'.foldl (fun map call => call.apply map) map := by
  refine ⟨?_, ?_, ?_, ?_, ?_⟩
  · intro id c g e
    exact ResolveCall.apply_congr h (a := ⟨⟨id, c, g⟩, .finalize (.failed e)⟩)
      (b := ⟨⟨id, c, g⟩, .removePending⟩) rfl rfl rfl
  · intro id c g
    exact ResolveCall.apply_apply h ⟨⟨id, c, g⟩, .removePending⟩
  · intro id c g result
    exact ResolveCall.apply_occupied h ⟨⟨id, c, g⟩, .finalize result⟩
  · intro id c g
    exact ResolveCall.apply_occupied h ⟨⟨id, c, g⟩, .removePending⟩
  · intro calls calls' hnodup hp
    have heq := congrArg OccupiedMap.map (OccupiedMap.foldl_resolve_perm hp hnodup ⟨map, h⟩)
    rwa [OccupiedMap.foldl_resolve_map, OccupiedMap.foldl_resolve_map] at heq

/-- Two pending candidates of one entry. -/
def sampleContended : RateLimitInfo :=
  { RateLimitInfo.new 0 with
    candidates := ((∅ : CandidateMap).insert "a" .pending).insert "b" .pending }

theorem resolutions_commute_sample :
    let miss : ResolveCall := ⟨⟨"id", "a", 0⟩, .finalize .miss⟩
    let refund : ResolveCall := ⟨⟨"id", "b", 0⟩, .removePending⟩
    let map : RateLimitMap := (∅ : RateLimitMap).insert "id" sampleContended
    refund.apply (miss.apply map) = miss.apply (refund.apply map) := by
  intro miss refund map
  have hpending : sampleContended.candidates ≠ ∅ := by
    dsimp only [sampleContended]
    exact Finmap.insert_ne_empty "b" _ _
  have hmap : Occupied map := occupied_empty.insert "id" hpending
  exact (resolutions_commute map hmap).2.2.2.2 [miss, refund] [refund, miss] (by decide)
    (List.Perm.swap refund miss [])

/-- The lookups in flight can finish in any order. -/
theorem Served.inFlight_order [BucketNumber F] (h : Served P cfg log s) (hchron : Chronological log)
    {calls calls' : List (ReqId × ResolveCall)} (hp : calls.Perm calls')
    (hcallers : (calls.map Prod.fst).Nodup) (hheld : ∀ x ∈ calls, Holds s x.1 x.2.slot) :
    calls.foldl (fun map call => call.2.apply map) s.identifierRateLimit =
      calls'.foldl (fun map call => call.2.apply map) s.identifierRateLimit := by
  have hslots : ((calls.map Prod.snd).map ResolveCall.slot).Nodup := by
    rw [List.map_map]
    refine List.Nodup.map_on (fun x hx y hy hxy => ?_) (List.Nodup.of_map _ hcallers)
    -- A pending reservation has one owner.
    have howner : x.1 = y.1 :=
      h.holds_unique hchron (hheld x hx) ((congrArg (Holds s y.1) hxy).mpr (hheld y hy))
    exact List.inj_on_of_nodup_map hcallers hx hy howner
  have hfold := (resolutions_commute s.identifierRateLimit h.bounded.occupied).2.2.2.2 _ _ hslots
    (hp.map Prod.snd)
  rwa [List.foldl_map, List.foldl_map] at hfold

end RecoverBull
