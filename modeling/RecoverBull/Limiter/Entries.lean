import RecoverBull.Limiter.Budget

/-!
# What a step can do to one entry

`EntryEffect` lists what a step can do to the entry of one identifier, and
`Effect.entry` that it lists everything.
-/

namespace RecoverBull

variable {F : Type}

/-- What becomes of the entry of an identifier in one step. -/
inductive EntryEffect (cfg : Config) (s : AppState F) (os : Log) (id : String)
    (entry : Option RateLimitInfo) : Option RateLimitInfo → Prop
  | same : EntryEffect cfg s os id entry entry
  /-- A sweep, or the making of room for another identifier. -/
  | expire (t : ℤ) (ht : t ∈ clocks os) :
    EntryEffect cfg s os id entry (entry.filter (withinCooldown cfg t))
  | admission (r : ReqId) (record : AdmissionRecord) (hm : .admission r record ∈ os)
      (hid : record.idHash = id) (hspec : record.Spec cfg)
      (hfound : record.found = entry.filter (withinCooldown cfg record.requestedAt))
      (q : Lookup) (hq : s.fetches r = some (.active q)) (hqid : q.idHash = id)
      (hphase : q.phase = .mapLock record.requestedAt) :
    EntryEffect cfg s os id entry record.left
  | refund (r : ReqId) (q : Lookup) (a : Admitted) (hq : s.fetches r = some (.active q))
      (ha : q.phase.owned = some a) (hid : q.idHash = id) (hm : .refunded r ∈ os) :
    EntryEffect cfg s os id entry (entry.bind (refundEntry q.candidate a.generation))
  | finalize (r : ReqId) (q : Lookup) (a : Admitted) (result : LookupResult)
      (hq : s.fetches r = some (.active q)) (ha : q.phase.owned = some a) (hid : q.idHash = id)
      (hos : os = [.finalized r result]) :
    EntryEffect cfg s os id entry (entry.bind (finalizeEntry q.candidate a.generation result))

theorem Effect.entry {cfg : Config} {s s' : AppState F} {os : Log} (he : Effect cfg s s' os)
    (hb : Bounded cfg s.identifierRateLimit) (id : String) :
    EntryEffect cfg s os id (s.identifierRateLimit.lookup id)
      (s'.identifierRateLimit.lookup id) := by
  cases he with
  | idle hmap =>
    rw [hmap]
    exact .same
  | retain now hmap extra hos =>
    rw [hmap, lookup_retainWithinCooldown]
    refine .expire now ?_
    simp [hos, clocks, Obs.clock]
  | admission r q t extra hq hphase hmap hos =>
    have hm : .admission r (admissionRecord cfg s.identifierRateLimit q.idHash q.candidate t) ∈ os := by
      rw [hos]
      exact List.mem_append_right _ List.mem_cons_self
    rw [hmap]
    by_cases hid : id = q.idHash
    · subst hid
      exact .admission r _ hm rfl (hb.admissionSpec q.idHash q.candidate t)
        (admissionRecord_found cfg _ _ _ t) q hq rfl hphase
    -- To the other identifiers an admission is at most a sweep.
    · rcases lookup_admitRequest_of_ne cfg s.identifierRateLimit q.candidate t hid with hl | hl
      · rw [hl]
        exact .same
      · rw [hl]
        exact .expire t (List.mem_filterMap.mpr ⟨_, hm, rfl⟩)
  | refund r q a hq ha hmap extra extra' hos =>
    rw [hmap, lookup_removePending]
    split
    · next hid =>
      refine .refund r q a hq ha hid.symm ?_
      rw [hos]
      exact List.mem_append_right _ List.mem_cons_self
    · exact .same
  | finalize r q a client result hq hphase ha hmap hos =>
    have hown : q.phase.owned = some a := by
      rw [hphase]
      simp [FetchPhase.owned, ha]
    rw [hmap, lookup_finalize]
    split
    · next hid => exact .finalize r q a result hq hown hid.symm hos
    · exact .same

end RecoverBull
