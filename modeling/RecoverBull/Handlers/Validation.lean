import RecoverBull.Utils
import RecoverBull.Env

/-!
# Request validation

The checks `/store`, `/fetch` and `/trash` make before they touch any state.
-/

namespace RecoverBull

def notHexHashes : Response :=
  errorResponse .badRequest "identifier or authentication_key are not 256 bits HEX hashes"

/-- The canonical identifier and authentication key of a lookup. -/
def checkFetch (P : Primitives) (request : FetchSecret) : Except Response (String × String) :=
  let identifier := toLowercase P request.identifier
  let authenticationKey := toLowercase P request.authenticationKey
  if !is256bitsHexHash identifier || !is256bitsHexHash authenticationKey then .error notHexHashes
  else .ok (identifier, authenticationKey)

/-- The canonical identifier and authentication key of a store. The cheap checks
come first. -/
def checkStore (P : Primitives) (cfg : Config) (request : StoreSecret) :
    Except Response (String × String) :=
  let authenticationKey := toLowercase P request.authenticationKey
  let identifier := toLowercase P request.identifier
  let limit := cfg.secretMaxLength
  if !is256bitsHexHash identifier || !is256bitsHexHash authenticationKey then .error notHexHashes
  else if request.encryptedSecret.isEmpty then
    .error (errorResponse .badRequest "encrypted_secret is empty")
  else if (asBytes request.encryptedSecret).length > limit then
    .error (errorResponse .badRequest s!"encrypted_secret length exceeds the limit {limit}")
  else if !isBase64 P request.encryptedSecret then
    .error (errorResponse .badRequest "encrypted_secret should be base64 encoded")
  else .ok (identifier, authenticationKey)

theorem checkFetch_eq_ok {P : Primitives} {request : FetchSecret} {i k : String} :
    checkFetch P request = .ok (i, k) ↔
      toLowercase P request.identifier = i ∧ toLowercase P request.authenticationKey = k ∧
        is256bitsHexHash i = true ∧ is256bitsHexHash k = true := by
  unfold checkFetch
  dsimp only
  split
  · next h =>
    constructor
    · intro hc; cases hc
    · rintro ⟨rfl, rfl, hi, hk⟩
      simp [hi, hk] at h
  · next h =>
    simp only [Bool.or_eq_true, Bool.not_eq_true', not_or, Bool.not_eq_false] at h
    constructor
    · intro hc
      cases hc
      exact ⟨rfl, rfl, h.1, h.2⟩
    · rintro ⟨rfl, rfl, _, _⟩
      rfl

/-- A store that passes its checks has the canonical pair a lookup would have. -/
theorem checkStore_eq_ok {P : Primitives} {cfg : Config} {request : StoreSecret} {i k : String}
    (h : checkStore P cfg request = .ok (i, k)) :
    checkFetch P ⟨request.identifier, request.authenticationKey⟩ = .ok (i, k) := by
  unfold checkStore at h
  dsimp only at h
  split at h
  · cases h
  · next hhex =>
    split_ifs at h
    cases h
    simp only [checkFetch, hhex, if_false, Bool.false_eq_true]

end RecoverBull
