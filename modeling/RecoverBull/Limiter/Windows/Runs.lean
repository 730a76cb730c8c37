import RecoverBull.Limiter.Windows.Resolution

/-!
# Windows along a run

With non-decreasing clocks every reachable entry agrees with the history of its
window.
-/

namespace RecoverBull

variable {F : Type} {P : Primitives} {cfg : Config} {s s' : AppState F} {log os : Log}

/-- What a run knows of the owner of a reservation. -/
theorem Served.owned [BucketNumber F] (h : Served P cfg log s) {r : ReqId} {q : Lookup}
    {a : Admitted} (hq : s.fetches r = some (.active q)) (ha : q.phase.owned = some a) :
    ∃ record, .admission r record ∈ log ∧ record.reservation = some (q.slot a) ∧
      (∀ record', .admission r record' ∈ log → record' = record) ∧ ¬Resolved log r := by
  have hword := h.callTrace r
  rw [hq] at hword
  obtain ⟨hnew, record, task, tail, hw, hadm, ht, hfin⟩ := hword.phaseTrace.of_owned ha
  have hmem : .admission r record ∈ trace r log := by
    rw [hw]
    exact List.mem_append_right _ List.mem_cons_self
  refine ⟨record, admission_mem_trace.mpr hmem, ?_, fun record' hm => ?_, fun hres => ?_⟩
  · rw [hadm.reservation, hnew]
    rfl
  · exact hword.admission_unique (admission_mem_trace.mp hm) hmem
  · refine ht.not_resolved hfin record ?_
    rw [← hw]
    exact hres.imp refunded_mem_trace.mp fun ⟨result, hf⟩ => ⟨result, finalized_mem_trace.mp hf⟩

/-- A request before its admission has left nothing in the log. -/
theorem Served.fresh [BucketNumber F] (h : Served P cfg log s) {r : ReqId} {q : Lookup} {t : ℤ}
    (hq : s.fetches r = some (.active q)) (hphase : q.phase = .mapLock t) :
    (∀ record, .admission r record ∉ log) ∧ ¬Resolved log r := by
  have hword := h.callTrace r
  rw [hq] at hword
  have hw := hword.phaseTrace
  rw [hphase] at hw
  generalize htr : trace r log = word at hw
  cases hw
  refine ⟨fun record hm => ?_, ?_⟩
  · have := admission_mem_trace.mp hm
    rw [htr] at this
    exact absurd this List.not_mem_nil
  · rintro (hm | ⟨result, hm⟩)
    · have := refunded_mem_trace.mp hm
      rw [htr] at this
      exact absurd this List.not_mem_nil
    · have := finalized_mem_trace.mp hm
      rw [htr] at this
      exact absurd this List.not_mem_nil

theorem Effect.windowInv [BucketNumber F] (he : Effect cfg s s' os) (h : Served P cfg log s)
    (hchron : Chronological (os ++ log))
    (hw : ∀ id, WindowInv cfg id log (s.identifierRateLimit.lookup id)) (id : String) :
    WindowInv cfg id (os ++ log) (s'.identifierRateLimit.lookup id) := by
  have hne : ∀ info, s.identifierRateLimit.lookup id = some info → info.candidates ≠ ∅ :=
    fun _ => h.bounded.ne_empty
  cases he with
  | idle hmap hos =>
    rw [hmap]
    exact (hw id).quiet fun o ho => Obs.isQuiet_of_isIdle (hos o ho)
  | retain now hmap extra hos hextra =>
    have hquiet : ∀ o ∈ os, o.isQuiet = true := by
      intro o ho
      rw [hos, List.mem_append, List.mem_singleton] at ho
      obtain ho | rfl := ho
      · obtain ⟨_, _, rfl, _⟩ := hextra o ho
        rfl
      · rfl
    rw [hmap, lookup_retainWithinCooldown]
    refine ((hw id).quiet hquiet).expire ?_
    simp [clocks, hos, Obs.clock]
  | admission r q t extra hq hphase hmap hos hextra =>
    obtain ⟨hfresh, hres⟩ := h.fresh hq hphase
    generalize hrec : admissionRecord cfg s.identifierRateLimit q.idHash q.candidate t = record at hos
    have hspec := h.bounded.admissionSpec q.idHash q.candidate t
    rw [hos, List.append_assoc] at hchron ⊢
    have htime : record.requestedAt = t := by rw [← hrec]; rfl
    have hle : ∀ t' ∈ clocks log, t' ≤ record.requestedAt := fun t' ht' =>
      hchron.of_append.le List.mem_cons_self ht'
    have hself : WindowInv cfg q.idHash (.admission r record :: log)
        ((admitRequest cfg s.identifierRateLimit q.idHash q.candidate t).1.lookup q.idHash) := by
      have hid : record.idHash = q.idHash := by rw [← hrec]; rfl
      have hleft : record.left =
          (admitRequest cfg s.identifierRateLimit q.idHash q.candidate t).1.lookup q.idHash := by
        rw [← hrec]; rfl
      rw [← hleft]
      refine (hw q.idHash).enter hid (hrec ▸ hspec) ?_ hle hfresh hres
      rw [← hrec]
      exact admissionRecord_found _ _ _ _ _
    refine WindowInv.quiet ?_ fun o ho => Obs.isQuiet_of_isIdle (hextra o ho)
    rw [hmap]
    -- Another identifier's entry is at most expired by the capacity check.
    by_cases hid : id = q.idHash
    · rw [hid]
      exact hself
    · have hother : WindowInv cfg id (.admission r record :: log)
          (s.identifierRateLimit.lookup id) :=
        (hw id).elsewhere (by rw [← hrec]; exact Ne.symm hid) fun slot hslot =>
          hself.generation r record slot List.mem_cons_self hslot
      rcases lookup_admitRequest_of_ne cfg s.identifierRateLimit q.candidate t hid with hl | hl
      · rw [hl]
        exact hother
      · rw [hl]
        refine hother.expire ?_
        rw [← htime]
        exact List.mem_cons_self
  | refund r q a hq ha hmap extra extra' hos hextra hextra' =>
    obtain ⟨record, hm, hslot, huniq, hres⟩ := h.owned hq ha
    have hquiet' : ∀ o ∈ extra', o.isQuiet = true := fun o ho =>
      Obs.isQuiet_of_isIdle (hextra' o ho)
    have hnot : ∀ {o : Obs}, o.isQuiet = false → o ∉ extra' := by
      intro o ho hmem
      rw [hquiet' o hmem] at ho
      cases ho
    rw [hmap, lookup_removePending, hos, List.append_assoc, List.cons_append]
    refine WindowInv.quiet ?_ fun o ho => Obs.isQuiet_of_isIdle (hextra o ho)
    refine ((hw id).quiet hquiet').giveBack .refunded (List.mem_append_right _ hm) hslot
      (fun record' hm' => huniq record' ((mem_append_of_notMem (hnot rfl)).mp hm'))
      (mt (resolved_append (hnot rfl) fun _ => hnot rfl).mp hres)
      (fun info => hne info) (fun info hg hc => ?_) fun info hg => refundEntry_stale (Or.inl hg)
    rw [← refundEntry_pending hc, hg]
    rfl
  | finalize r q a client result hq hphase ha hmap hos =>
    have hown : q.phase.owned = some a := by
      rw [hphase]
      simp [FetchPhase.owned, ha]
    obtain ⟨record, hm, hslot, huniq, hres⟩ := h.owned hq hown
    rw [hmap, lookup_finalize, hos, List.singleton_append]
    by_cases hf : ∃ e, result = .failed e
    · obtain ⟨e, rfl⟩ := hf
      refine (hw id).giveBack (.failed e) hm hslot huniq hres (fun info => hne info)
        (fun info hg hc => ?_) fun info hg _ => finalizeEntry_stale (Or.inl hg)
      rw [← finalizeEntry_failed hc, hg]
      rfl
    · exact (hw id).commit (not_exists.mp hf) hm hslot huniq hres

/-- With non-decreasing clocks, every entry a run reaches sums up its window. -/
theorem Served.windowInv [BucketNumber F] (h : Served P cfg log s) (hchron : Chronological log)
    (id : String) : WindowInv cfg id log (s.identifierRateLimit.lookup id) := by
  have hall : Chronological log → ∀ id, WindowInv cfg id log (s.identifierRateLimit.lookup id) :=
    h.invariant (fun log s => Chronological log →
        ∀ id, WindowInv cfg id log (s.identifierRateLimit.lookup id))
      (fun _ _ _ _ _ id => windowInv_nil cfg id)
      fun log s event s' os hs hi he hc => (step_effect he).windowInv hs hc (hi hc.of_append)
  exact hall hchron id

end RecoverBull
