import RecoverBull.Handlers.Attempts
import RecoverBull.Lib.Machine

/-!
# The canary file and its cache

The operator replaces the dotenv file at any moment, also between the metadata read
and the parse of one call, while `/info` requests share one cache. The cache lock
is held for the whole call, so that calls do not overlap.
-/

namespace RecoverBull

/-- A version of the dotenv file. Without items it cannot be opened. -/
structure FileVersion where
  modified : ℕ
  len : ℕ
  items : Option DotenvItems
  deriving DecidableEq

/-- What is at the path of the file. -/
abbrev CanaryFile := Option FileVersion

namespace CanaryFile

def metadata (file : CanaryFile) : Option (ℕ × ℕ) := file.map fun v => (v.modified, v.len)

def items (file : CanaryFile) : Option DotenvItems := file.bind FileVersion.items

/-- `canary_file_state` of a version. -/
def state (file : CanaryFile) : CanaryFileState := canaryFileState file.items

end CanaryFile

structure CanaryServer where
  file : CanaryFile
  cache : Option CachedCanary

inductive CanaryEvent
  | replace (file : CanaryFile)
  /-- A request; the edits come between its metadata read and its parse. -/
  | request (edits : List CanaryFile)

/-- A call of `canary_file_state_cached` from `/info`. -/
structure CanaryCall where
  /-- The version at the metadata read. -/
  found : CanaryFile
  /-- The versions that came up after it, in order. -/
  edits : List CanaryFile
  /-- The metadata could be read, and the cache did not answer for it. -/
  parsed : Bool
  returned : CanaryFileState
  response : Response

namespace CanaryCall

/-- The versions that were current at some moment of the call. -/
def window (call : CanaryCall) : List CanaryFile := call.found :: call.edits

/-- The version at the parse. -/
def atParse (call : CanaryCall) : CanaryFile := call.edits.getLastD call.found

end CanaryCall

/-- The cache answers for this metadata. -/
def cacheHit (cache : Option CachedCanary) (metadata : Option (ℕ × ℕ)) : Bool :=
  metadata.any fun m => cache.any fun c => c.modified = m.1 ∧ c.len = m.2

/-- A request on the version the server finds, with the edits during its call. -/
def canaryCall (cfg : Config) (s : CanaryServer) (edits : List CanaryFile) : CanaryCall :=
  let file : CanaryFile := edits.getLastD s.file
  { found := s.file
    edits := edits
    parsed := s.file.metadata.isSome && !cacheHit s.cache s.file.metadata
    returned := (canaryFileStateCached s.file.metadata file.items s.cache).1
    response := (getInfo cfg s.file.metadata file.items s.cache).1 }

def canaryStep (cfg : Config) (s : CanaryServer) : CanaryEvent →
    Option (CanaryServer × List CanaryCall)
  | .replace file => some ({ s with file := file }, [])
  | .request edits =>
    let file : CanaryFile := edits.getLastD s.file
    let cache := (canaryFileStateCached s.file.metadata file.items s.cache).2
    some ({ file, cache }, [canaryCall cfg s edits])

/-- The canary `/info` shows for a state of the file. -/
def shownCanary (cfg : Config) : CanaryFileState → String
  | .value value => value
  | .removed => ""
  | .unavailable => cfg.canary

/-- The call returns the state of a version that was current during it, and `/info`
shows that state unless the canary comes from the environment. -/
def CanaryCall.Current (cfg : Config) (call : CanaryCall) : Prop :=
  ∃ file ∈ call.window, call.returned = file.state ∧
    (cfg.canaryFromEnv = false → ∃ info, call.response.body = .info info ∧
      info.canary = shownCanary cfg file.state)

/-- No edit came between metadata and parse that changed the canary: where the call
parses, it finds the state of the version whose metadata it read, or nothing readable. -/
def CanaryCall.Clean (call : CanaryCall) : Prop :=
  call.parsed = true → call.atParse.state = .unavailable ∨ call.atParse.state = call.found.state

/-- What an event puts at the path. -/
def CanaryEvent.files : CanaryEvent → List CanaryFile
  | .replace file => [file]
  | .request edits => edits

/-- The versions of a history that begins with `file`. -/
def versions (file : CanaryFile) (events : List CanaryEvent) : List FileVersion :=
  (file :: events.flatMap CanaryEvent.files).filterMap id

theorem mem_versions {file : CanaryFile} {events : List CanaryEvent} {v : FileVersion} :
    v ∈ versions file events ↔ file = some v ∨ ∃ event ∈ events, some v ∈ event.files := by
  simp [versions, eq_comm]

/-- Two versions with one modification time and one length have one content. -/
def MetadataTells (known : List FileVersion) : Prop :=
  ∀ v ∈ known, ∀ w ∈ known, v.modified = w.modified → v.len = w.len → v.items = w.items

instance (known : List FileVersion) : Decidable (MetadataTells known) :=
  inferInstanceAs (Decidable (∀ v ∈ known, ∀ w ∈ known, _ → _ → _))

/-- What a cache entry answers. -/
def CachedCanary.state (cached : CachedCanary) : CanaryFileState :=
  cached.value.elim .removed .value

/-- The cached value belongs to the metadata it is stored under. -/
def CacheValid (known : List FileVersion) (cache : Option CachedCanary) : Prop :=
  ∀ cached, cache = some cached → ∀ v ∈ known, v.modified = cached.modified →
    v.len = cached.len → CanaryFile.state (some v) = cached.state

theorem getInfo_canary (cfg : Config) (metadata : Option (ℕ × ℕ)) (file : Option DotenvItems)
    (cache : Option CachedCanary) (henv : cfg.canaryFromEnv = false) :
    ∃ info, (getInfo cfg metadata file cache).1.body = .info info ∧
      info.canary = shownCanary cfg (canaryFileStateCached metadata file cache).1 := by
  unfold getInfo
  rw [if_neg (by rw [henv]; exact Bool.false_ne_true)]
  refine ⟨_, rfl, ?_⟩
  dsimp only
  generalize (canaryFileStateCached metadata file cache).1 = state
  cases state <;> rfl

/-- A call that is not answered from the cache returns what it parses, and caches it
under the metadata it read. -/
theorem canaryFileStateCached_miss {modified len : ℕ} (items : Option DotenvItems)
    {cache : Option CachedCanary} (hmiss : cacheHit cache (some (modified, len)) = false) :
    (canaryFileStateCached (some (modified, len)) items cache).1 = canaryFileState items ∧
      ((canaryFileStateCached (some (modified, len)) items cache).2 = cache ∨
        canaryFileState items ≠ .unavailable ∧ ∃ cached,
          (canaryFileStateCached (some (modified, len)) items cache).2 = some cached ∧
            cached.modified = modified ∧ cached.len = len ∧
            cached.state = canaryFileState items) := by
  have hnone : cache.filter (fun c => c.modified = modified ∧ c.len = len) = none := by
    cases cache with
    | none => rfl
    | some c =>
      rw [Option.filter_eq_none_iff]
      rintro c' ⟨⟩
      simpa [cacheHit] using hmiss
  unfold canaryFileStateCached
  dsimp only
  rw [hnone]
  cases hstate : canaryFileState items with
  | value value =>
    exact ⟨rfl, Or.inr ⟨CanaryFileState.noConfusion, _, rfl, rfl, rfl, rfl⟩⟩
  | removed => exact ⟨rfl, Or.inr ⟨CanaryFileState.noConfusion, _, rfl, rfl, rfl, rfl⟩⟩
  | unavailable => exact ⟨rfl, Or.inl rfl⟩

theorem canaryFileStateCached_hit {modified len : ℕ} (items : Option DotenvItems)
    {cache : Option CachedCanary} (hhit : cacheHit cache (some (modified, len)) = true) :
    ∃ cached, cache = some cached ∧ cached.modified = modified ∧ cached.len = len ∧
      canaryFileStateCached (some (modified, len)) items cache = (cached.state, cache) := by
  cases cache with
  | none => cases hhit
  | some c =>
    have hc : c.modified = modified ∧ c.len = len := by simpa [cacheHit] using hhit
    refine ⟨c, rfl, hc.1, hc.2, ?_⟩
    have hfilter : (some c).filter (fun c => c.modified = modified ∧ c.len = len) = some c := by
      rw [Option.filter_some, if_pos (by simpa using hc)]
    unfold canaryFileStateCached
    dsimp only
    rw [hfilter]
    rfl

theorem canaryCall_current {cfg : Config} {s : CanaryServer} {edits : List CanaryFile}
    {file : CanaryFile} (hmem : file ∈ s.file :: edits)
    (hstate : (canaryCall cfg s edits).returned = file.state) :
    (canaryCall cfg s edits).Current cfg := by
  refine ⟨file, hmem, hstate, fun henv => ?_⟩
  rw [← hstate]
  exact getInfo_canary cfg _ _ _ henv

theorem getLastD_mem {α : Type*} (a : α) (l : List α) : l.getLastD a ∈ a :: l := by
  cases l with
  | nil => exact List.mem_cons_self
  | cons b l =>
    rw [List.getLastD_cons]
    exact List.mem_cons_of_mem _ List.getLastD_mem_cons

/-- A clean call on a valid cache returns what is in the file, and leaves the cache
valid. -/
theorem canaryCall_valid {cfg : Config} {s : CanaryServer} {edits : List CanaryFile}
    {known : List FileVersion} (htells : MetadataTells known)
    (hfile : ∀ v, s.file = some v → v ∈ known) (hvalid : CacheValid known s.cache)
    (hclean : (canaryCall cfg s edits).Clean) :
    CacheValid known (canaryFileStateCached s.file.metadata
        (CanaryFile.items (edits.getLastD s.file)) s.cache).2 ∧
      (canaryCall cfg s edits).Current cfg := by
  have hlast := getLastD_mem s.file edits
  cases hf : s.file with
  | none =>
    have hreturned : (canaryCall cfg s edits).returned = CanaryFile.state none := by
      simp only [canaryCall, hf]
      rfl
    exact ⟨hvalid, canaryCall_current (hf ▸ List.mem_cons_self) hreturned⟩
  | some v =>
    have hmeta : s.file.metadata = some (v.modified, v.len) := by
      rw [hf]
      rfl
    rw [← hf, hmeta]
    cases hhit : cacheHit s.cache (some (v.modified, v.len)) with
    | true =>
      obtain ⟨cached, hcache, hm, hl, heq⟩ :=
        canaryFileStateCached_hit (CanaryFile.items (edits.getLastD s.file)) hhit
      rw [heq]
      have hmem : some v ∈ s.file :: edits := hf ▸ List.mem_cons_self
      refine ⟨hvalid, canaryCall_current hmem ?_⟩
      rw [hvalid cached hcache v (hfile v hf) hm.symm hl.symm, canaryCall, hmeta]
      exact congrArg Prod.fst heq
    | false =>
      obtain ⟨hreturned, hcached⟩ :=
        canaryFileStateCached_miss (CanaryFile.items (edits.getLastD s.file)) hhit
      refine ⟨?_, canaryCall_current hlast (by rw [canaryCall, hmeta]; exact hreturned)⟩
      obtain hsame | ⟨hreadable, cached, hnew, hm, hl, hstate⟩ := hcached
      · rw [hsame]
        exact hvalid
      · rw [hnew]
        rintro cached' ⟨⟩ w hw hwm hwl
        -- The parse found the state of the version whose metadata it is stored under.
        have hparsed : (canaryCall cfg s edits).parsed = true := by
          rw [canaryCall, hmeta, hhit]
          rfl
        have hatParse : CanaryFile.state (edits.getLastD s.file) = CanaryFile.state s.file :=
          (hclean hparsed).resolve_left hreadable
        have hitems : w.items = v.items :=
          htells w hw v (hfile v hf) (hwm.trans hm) (hwl.trans hl)
        rw [hstate]
        change canaryFileState w.items = CanaryFile.state (edits.getLastD s.file)
        rw [hitems, hatParse, hf]
        rfl

/-- One step: a valid cache stays valid. -/
theorem canaryStep_valid {cfg : Config} {s s' : CanaryServer} {event : CanaryEvent}
    {os : List CanaryCall} {known : List FileVersion} (htells : MetadataTells known)
    (hfile : ∀ v, s.file = some v → v ∈ known) (hvalid : CacheValid known s.cache)
    (h : canaryStep cfg s event = some (s', os)) (hclean : ∀ call ∈ os, call.Clean) :
    CacheValid known s'.cache ∧ ∀ call ∈ os, call.Current cfg := by
  cases event with
  | replace file =>
    cases h
    exact ⟨hvalid, by simp⟩
  | request edits =>
    cases h
    rw [List.forall_mem_singleton] at hclean ⊢
    exact canaryCall_valid htells hfile hvalid hclean

/-- The file after a step is the one before it or one of the event's. -/
theorem canaryStep_file {cfg : Config} {s s' : CanaryServer} {event : CanaryEvent}
    {os : List CanaryCall} (h : canaryStep cfg s event = some (s', os)) :
    s'.file = s.file ∨ s'.file ∈ event.files := by
  cases event with
  | replace file =>
    cases h
    exact Or.inr List.mem_cons_self
  | request edits =>
    cases h
    exact List.mem_cons.mp (getLastD_mem s.file edits)

/-- **The cached canary is one in the file**, along every history in which no edit
came between the metadata read and the parse of a call. -/
theorem canary_current (cfg : Config) {file : CanaryFile} {events : List CanaryEvent}
    {s : CanaryServer} {calls : List CanaryCall} (htells : MetadataTells (versions file events))
    (hrun : Machine.run (canaryStep cfg) ⟨file, none⟩ events = some (s, calls))
    (hclean : ∀ call ∈ calls, call.Clean) : ∀ call ∈ calls, call.Current cfg := by
  -- The induction is on the events, the versions known from the whole history.
  have main : ∀ (known : List FileVersion), MetadataTells known →
      ∀ (events : List CanaryEvent) (s₀ s : CanaryServer) (calls : List CanaryCall),
        (∀ v ∈ versions s₀.file events, v ∈ known) → CacheValid known s₀.cache →
        Machine.run (canaryStep cfg) s₀ events = some (s, calls) →
        (∀ call ∈ calls, call.Clean) → ∀ call ∈ calls, call.Current cfg := by
    intro known htells events
    induction events with
    | nil =>
      intro s₀ s calls _ _ hrun _
      obtain ⟨-, rfl⟩ : s₀ = s ∧ [] = calls := by simpa using hrun
      simp
    | cons event events ih =>
      intro s₀ s calls hknown hvalid hrun hclean
      obtain ⟨s₁, os, later, hstep, hrest, rfl⟩ := Machine.run_cons_eq_some.mp hrun
      have hfile : ∀ v, s₀.file = some v → v ∈ known := by
        intro v hv
        exact hknown v (mem_versions.mpr (Or.inl hv))
      obtain ⟨hvalid', hcurrent⟩ := canaryStep_valid htells hfile hvalid hstep
        fun call hc => hclean call (List.mem_append_right _ hc)
      have hknown' : ∀ v ∈ versions s₁.file events, v ∈ known := by
        intro v hv
        apply hknown
        rw [mem_versions] at hv ⊢
        obtain hv | ⟨event', he, hv⟩ := hv
        · obtain hsame | hnew := canaryStep_file hstep
          · exact Or.inl (hsame ▸ hv)
          · exact Or.inr ⟨event, List.mem_cons_self, hv ▸ hnew⟩
        · exact Or.inr ⟨event', List.mem_cons_of_mem _ he, hv⟩
      have hlater := ih s₁ s later hknown' hvalid' hrest
        fun call hc => hclean call (List.mem_append_left _ hc)
      intro call hc
      obtain hc | hc := List.mem_append.mp hc
      · exact hlater call hc
      · exact hcurrent call hc
  refine main _ htells events _ s calls (fun v hv => hv) ?_ hrun hclean
  intro cached hcached
  cases hcached

/-! ## A stale value -/

/-- No canary in the file. -/
def withoutCanary : FileVersion := ⟨1, 10, some [some ("PORT", "8080")]⟩

def withCanary : FileVersion := ⟨2, 20, some [some ("PORT", "8080"), some ("CANARY", "alive")]⟩

/-- The sample configuration with a canary from the file. -/
def Config.sampleOfFile : Config := { Config.sample with canaryFromEnv := false }

/-- Two requests, with the canary removed between them. -/
theorem canary_current_sample :
    ∃ s calls, Machine.run (canaryStep .sampleOfFile) ⟨some withCanary, none⟩
        [.request [], .replace (some withoutCanary), .request []] = some (s, calls) ∧
      calls.length = 2 ∧ ∀ call ∈ calls, call.Current .sampleOfFile := by
  have htells : MetadataTells (versions (some withCanary)
      [.request [], .replace (some withoutCanary), .request []]) := by decide
  refine ⟨_, _, rfl, rfl, canary_current .sampleOfFile htells rfl ?_⟩
  exact List.forall_mem_cons.mpr
    ⟨fun _ => Or.inr rfl, List.forall_mem_singleton.mpr fun _ => Or.inr rfl⟩

/-- The operator adds the canary while a request is between the metadata read and the
parse, and takes it away again: the next request shows it all the same. -/
theorem canary_stale :
    MetadataTells (versions (some withoutCanary)
        [.request [some withCanary], .replace (some withoutCanary), .request []]) ∧
      ∃ s calls, Machine.run (canaryStep .sampleOfFile) ⟨some withoutCanary, none⟩
          [.request [some withCanary], .replace (some withoutCanary), .request []] =
            some (s, calls) ∧
        ∃ call ∈ calls, call.window = [some withoutCanary] ∧ call.returned = .value "alive" ∧
          ¬call.Current .sampleOfFile := by
  refine ⟨by decide, _, _, rfl, _, List.mem_cons_self, rfl, rfl, ?_⟩
  rintro ⟨file, hmem, hstate, -⟩
  obtain rfl := List.mem_singleton.mp hmem
  cases hstate

end RecoverBull
