import RecoverBull.Server.Arrivals
import RecoverBull.Secrets.Keys

/-!
# The body limit and the advertised secret length

The router bounds request bodies before anything reads them, `/store` bounds the
secret, and `/info` advertises that second bound. The first leaves room for the
second only up to a length that the startup checks do not enforce.
-/

namespace RecoverBull

variable {F : Type} {P : Primitives} {cfg : Config} {request : StoreSecret}

/-- `DefaultBodyLimit::max` of the router, in bytes. -/
def bodyLimit : ℕ := 1024

inductive StoreRejection
  /-- The router's 413. -/
  | payloadTooLarge
  | handler (response : Response)
  deriving DecidableEq, Repr

/-- A `/store` request up to the token bucket. `request` is what the JSON extractor
reads from a body within the limit. -/
def receiveStore (P : Primitives) (cfg : Config) (body : List UInt8) (request : StoreSecret) :
    Except StoreRejection (String × String) :=
  if body.length > bodyLimit then .error .payloadTooLarge
  else (checkStore P cfg request).mapError .handler

/-- The text before the three values of a body. -/
def identifierField : String := "\x7b\"identifier\":\""

def authenticationKeyField : String := "\",\"authentication_key\":\""

def encryptedSecretField : String := "\",\"encrypted_secret\":\""

/-- The compact JSON of a request none of whose characters needs an escape. -/
def storeJson (request : StoreSecret) : String :=
  identifierField ++ request.identifier ++ authenticationKeyField ++ request.authenticationKey ++
    encryptedSecretField ++ request.encryptedSecret ++ "\"\x7d"

/-- Two keys and a secret in standard base64. -/
structure WellFormedStore (P : Primitives) (request : StoreSecret) : Prop where
  identifier : IsKeyText request.identifier
  authenticationKey : IsKeyText request.authenticationKey
  nonempty : request.encryptedSecret ≠ ""
  base64 : isBase64 P request.encryptedSecret = true

/-- What `/info` can answer. -/
def Advertised (cfg : Config) (info : Info) : Prop :=
  ∃ metadata file cache, (getInfo cfg metadata file cache).1.body = .info info

/-- What the advertised limit promises. -/
structure LimitHonoured (F : Type) [BucketNumber F] (P : Primitives) (cfg : Config) : Prop where
  storable : ∀ info request, Advertised cfg info → WellFormedStore P request →
    (asBytes request.encryptedSecret).length ≤ info.secretMaxLength →
      ∃ pair, receiveStore P cfg (asBytes (storeJson request)) request = .ok pair
  rejected : ∀ body request, cfg.secretMaxLength < (asBytes request.encryptedSecret).length →
    ∃ rejection, receiveStore P cfg body request = .error rejection
  unwritten : ∀ (secrets : SecretTable) (b₁ b₂ b₃ : TokenBucket F) (events : List Event)
    (s : AppState F) (log : Log), run P cfg (.init secrets b₁ b₂ b₃) events = some (s, log) →
      ∀ r row outcome, .wrote r row outcome ∈ log →
        (asBytes row.encryptedSecret).length ≤ cfg.secretMaxLength

/-! ## Lengths -/

theorem asBytes_append (a b : String) : asBytes (a ++ b) = asBytes a ++ asBytes b := by
  rw [asBytes_eq, asBytes_eq, asBytes_eq, String.toList_append, List.flatMap_append]

/-- The names and the punctuation of a body take 63 bytes, the two keys 128. -/
theorem length_storeJson (h : WellFormedStore P request) :
    (asBytes (storeJson request)).length = 191 + (asBytes request.encryptedSecret).length := by
  have hi : (asBytes identifierField).length = 15 := by rfl
  have hk : (asBytes authenticationKeyField).length = 24 := by rfl
  have he : (asBytes encryptedSecretField).length = 22 := by rfl
  have hclose : (asBytes "\"\x7d").length = 2 := by rfl
  simp only [storeJson, asBytes_append, List.length_append]
  rw [hi, hk, he, hclose, h.identifier.length_asBytes, h.authenticationKey.length_asBytes]
  omega

/-- Base64 comes in groups of four. -/
theorem length_of_isBase64 {s : String} (h : isBase64 P s = true) : (asBytes s).length % 4 = 0 := by
  rw [isBase64, Bool.and_eq_true, beq_iff_eq] at h
  exact h.1

/-- Zeros in base64, three bytes in each of the `n` groups. -/
def base64Zeros (n : ℕ) : String := String.ofList (List.replicate (4 * n) 'A')

theorem length_base64Zeros (n : ℕ) : (asBytes (base64Zeros n)).length = 4 * n := by
  have hhex : ∀ c ∈ (base64Zeros n).toList, isAsciiHexdigit c = true := by
    intro c hc
    rw [base64Zeros, String.toList_ofList] at hc
    rw [List.eq_of_mem_replicate hc]
    decide
  rw [length_asBytes hhex, base64Zeros, String.toList_ofList, List.length_replicate]

theorem isBase64_zeros (P : Primitives) (n : ℕ) : isBase64 P (base64Zeros n) = true := by
  have hgroups : (asBytes (base64Zeros n)).length % 4 = 0 := by
    rw [length_base64Zeros]
    exact Nat.mul_mod_right 4 n
  have hdecodes : P.base64Decodes (List.replicate (4 * n) 'A') = true := by
    refine P.base64Decodes_of_alphabet _ (fun c hc => ?_) ?_
    · rw [List.eq_of_mem_replicate hc]
      exact Or.inl rfl
    · rw [List.length_replicate]
      exact Nat.mul_mod_right 4 n
  rw [isBase64, hgroups, base64Zeros, String.toList_ofList, hdecodes]
  rfl

/-! ## The two bounds -/

theorem checkStore_of_wellFormed (h : WellFormedStore P request)
    (hlen : (asBytes request.encryptedSecret).length ≤ cfg.secretMaxLength) :
    checkStore P cfg request =
      .ok (toLowercase P request.identifier, toLowercase P request.authenticationKey) := by
  have hi : is256bitsHexHash (toLowercase P request.identifier) = true :=
    is256bitsHexHash_toLowercase.mpr h.identifier
  have hk : is256bitsHexHash (toLowercase P request.authenticationKey) = true :=
    is256bitsHexHash_toLowercase.mpr h.authenticationKey
  have hnonempty : request.encryptedSecret.isEmpty = false := by simpa using h.nonempty
  have hfits : ¬(asBytes request.encryptedSecret).length > cfg.secretMaxLength := Nat.not_lt.mpr hlen
  simp [checkStore, hi, hk, hnonempty, hfits, h.base64]

/-- What passes the checks of a store is within the limit. -/
theorem length_le_of_checkStore {pair : String × String} (h : checkStore P cfg request = .ok pair) :
    (asBytes request.encryptedSecret).length ≤ cfg.secretMaxLength := by
  by_contra hlong
  unfold checkStore at h
  dsimp only at h
  rw [if_pos (Nat.lt_of_not_le hlong)] at h
  split_ifs at h

theorem Advertised.secretMaxLength {info : Info} (h : Advertised cfg info) :
    info.secretMaxLength = cfg.secretMaxLength := by
  obtain ⟨metadata, file, cache, hinfo⟩ := h
  unfold getInfo at hinfo
  injection hinfo with hinfo
  rw [← hinfo]

theorem advertised_fromEnv (cfg : Config) : ∃ info, Advertised cfg info :=
  ⟨_, none, none, none, rfl⟩

/-- The body of a secret of 836 characters is three bytes too long. -/
theorem receiveStore_tooLarge {n : ℕ} (h : WellFormedStore P request)
    (hn : (asBytes request.encryptedSecret).length = n) (hlong : 833 < n) :
    receiveStore P cfg (asBytes (storeJson request)) request = .error .payloadTooLarge := by
  have hbody := length_storeJson h
  rw [receiveStore, if_pos]
  rw [bodyLimit]
  omega

theorem receiveStore_ok (h : WellFormedStore P request)
    (hlen : (asBytes request.encryptedSecret).length ≤ cfg.secretMaxLength)
    (hbody : (asBytes request.encryptedSecret).length ≤ 833) :
    receiveStore P cfg (asBytes (storeJson request)) request =
      .ok (toLowercase P request.identifier, toLowercase P request.authenticationKey) := by
  have hlength := length_storeJson h
  rw [receiveStore, if_neg, checkStore_of_wellFormed h hlen]
  · rfl
  · rw [bodyLimit]
    omega

/-- What gets through waits for a token. -/
theorem storeArrives_of_receiveStore {s : AppState F} {r : ReqId} {body : List UInt8}
    {i k : String} (h : receiveStore P cfg body request = .ok (i, k)) (hr : s.stores r = none) :
    storeArrives P cfg s r request =
      some (s.setStore r (.active (.bucket (generateSecretId P i k) request.encryptedSecret)), []) := by
  unfold receiveStore at h
  split at h
  · cases h
  · cases hcheck : checkStore P cfg request with
    | error response =>
      rw [hcheck] at h
      cases h
    | ok pair =>
      rw [hcheck] at h
      cases h
      rw [storeArrives, hr, hcheck]
      rfl

/-- The longest request of a server whose limit is above 835. -/
def longestStore : StoreSecret := ⟨sampleIdentifier, sampleKey, base64Zeros 209⟩

theorem wellFormed_longestStore (P : Primitives) : WellFormedStore P longestStore where
  identifier := is256bitsHexHash_iff.mp (by decide +kernel)
  authenticationKey := is256bitsHexHash_iff.mp (by decide +kernel)
  nonempty h := by
    have hlen := length_base64Zeros 209
    rw [show base64Zeros 209 = "" from h] at hlen
    exact absurd hlen (by decide)
  base64 := isBase64_zeros P 209

theorem not_limitHonoured [BucketNumber F] (hlong : 835 < cfg.secretMaxLength) :
    ¬LimitHonoured F P cfg := by
  intro h
  obtain ⟨info, hinfo⟩ := advertised_fromEnv cfg
  have hlen : (asBytes longestStore.encryptedSecret).length = 836 := length_base64Zeros 209
  have hfits : (asBytes longestStore.encryptedSecret).length ≤ info.secretMaxLength := by
    rw [hinfo.secretMaxLength, hlen]
    exact hlong
  obtain ⟨pair, hpair⟩ := h.storable info longestStore hinfo (wellFormed_longestStore P) hfits
  rw [receiveStore_tooLarge (wellFormed_longestStore P) hlen (by omega)] at hpair
  cases hpair

/-- The advertised limit can be used if it is at most 835, and only then. -/
theorem limitHonoured_iff [BucketNumber F] (P : Primitives) (cfg : Config) :
    LimitHonoured F P cfg ↔ cfg.secretMaxLength ≤ 835 := by
  constructor
  · intro h
    by_contra hlong
    exact not_limitHonoured (Nat.lt_of_not_le hlong) h
  · intro hlimit
    refine ⟨?_, ?_, ?_⟩
    · intro info request hinfo hwell hlen
      rw [hinfo.secretMaxLength] at hlen
      have hgroups := length_of_isBase64 hwell.base64
      exact ⟨_, receiveStore_ok hwell hlen (by omega)⟩
    · intro body request hlong
      unfold receiveStore
      split
      · exact ⟨_, rfl⟩
      · cases hcheck : checkStore P cfg request with
        | error response => exact ⟨.handler response, rfl⟩
        | ok pair => exact absurd (length_le_of_checkStore hcheck) (Nat.not_le.mpr hlong)
    · intro secrets b₁ b₂ b₃ events s log hrun r row outcome hwrote
      obtain ⟨i, k, ⟨request, _, hcheck, hsecret⟩, _⟩ :=
        (arrived_of_run hrun).wrote r row outcome hwrote
      rw [← hsecret]
      exact length_le_of_checkStore hcheck

/-- A limit of 836 characters passes the startup checks. -/
theorem advertised_limit_too_large :
    validateConfig 1 836 1 = .ok () ∧
      ¬LimitHonoured ℚ Primitives.sample
        { Config.sample with
          secretMaxLength := 836
          config_valid := by decide } :=
  ⟨by decide, not_limitHonoured (by decide)⟩

end RecoverBull
