import MindMapVault.Foundations.Json
import MindMapVault.Foundations.Result
import MindMapVault.Vault.VersionId
import Mathlib.Logic.Function.Basic

/-!
# Talking to an identity provider

Discovery, the exchange of a code for an ID token, and the checks the token has to pass.
The token library is a parameter: it reads headers, builds keys from the numbers a key
set lists, and accepts tokens. What the server adds to it is the choice of the key and
of the algorithm, the issuer and the audience it asks for, and the nonce.
-/

namespace MindMapVault
namespace Federation

open Vault (isWhitespace trim)

/-- `str::trim_end_matches('/')`. -/
def trimEndSlashes (text : String) : String :=
  String.ofList (text.toList.reverse.dropWhile (· == '/')).reverse

/-- `jsonwebtoken::Algorithm`. -/
inductive Algorithm
  | hs256 | hs384 | hs512
  | es256 | es384
  | rs256 | rs384 | rs512
  | ps256 | ps384 | ps512
  | edDsa
  deriving DecidableEq

/-- The algorithm of a name, as it is deserialised. -/
def Algorithm.ofName : String → Option Algorithm
  | "HS256" => some .hs256
  | "HS384" => some .hs384
  | "HS512" => some .hs512
  | "ES256" => some .es256
  | "ES384" => some .es384
  | "RS256" => some .rs256
  | "RS384" => some .rs384
  | "RS512" => some .rs512
  | "PS256" => some .ps256
  | "PS384" => some .ps384
  | "PS512" => some .ps512
  | "EdDSA" => some .edDsa
  | _ => none

/-- One configured identity provider. -/
structure OidcProvider where
  id : String
  issuer : String
  clientId : String
  clientSecret : String
  scopes : String
  enabled : Bool
  deriving DecidableEq

/-- `OidcProvider::effective_scopes`. -/
def OidcProvider.effectiveScopes (provider : OidcProvider) : String :=
  let scopes := ((provider.scopes.toList.splitOnP isWhitespace).filter (· ≠ [])).map String.ofList
  " ".intercalate (if "openid" ∈ scopes then scopes else "openid" :: scopes)

/-- The subset of the discovery document the server uses. -/
structure OidcDiscovery where
  issuer : String
  authorizationEndpoint : String
  tokenEndpoint : String
  jwksUri : String
  deriving DecidableEq

/-- A key of a key set. -/
structure Jwk where
  kid : Option String
  kty : String
  alg : Option String
  n : Option String
  e : Option String
  x : Option String
  y : Option String
  deriving DecidableEq

/-- The key set of a provider. -/
structure Jwks where
  keys : List Jwk
  deriving DecidableEq

/-- The header of a token. -/
structure Header where
  kid : Option String
  alg : Algorithm
  deriving DecidableEq

/-- The claims of an ID token that the server looks at. -/
structure IdTokenClaims where
  sub : String
  iss : String
  aud : Json
  exp : Int
  nonce : Option String

/-- Whom the token is for: one audience or several. -/
def IdTokenClaims.audiences (claims : IdTokenClaims) : List String :=
  match claims.aud with
  | .string audience => [audience]
  | .array items => items.filterMap fun item =>
      match item with
      | .string audience => some audience
      | _ => none
  | _ => []

/-- What a token is validated against, beside its key. -/
structure Validation where
  algorithm : Algorithm
  issuers : List String
  audiences : List String
  deriving DecidableEq

/-! ### The token library -/

/-- The functions of the token library. Accepting a token depends on the wall clock, in
seconds. -/
structure Jsonwebtoken (Key : Type) where
  decodeHeader : String → Except String Header
  fromRsaComponents : String → String → Except String Key
  fromEcComponents : String → String → Except String Key
  decode : Int → String → Key → Validation → Except String IdTokenClaims

/-- The leeway of `Validation::new`, in seconds. -/
def leeway : Int := 60

/-- What a token has to be besides signed. -/
structure Validation.Accepts
    (validation : Validation) (clock : Int) (claims : IdTokenClaims) : Prop where
  unexpired : clock - leeway ≤ claims.exp
  issuer : claims.iss ∈ validation.issuers
  audience : ∃ audience ∈ claims.audiences, audience ∈ validation.audiences

instance (validation : Validation) (clock : Int) (claims : IdTokenClaims) :
    Decidable (validation.Accepts clock claims) :=
  decidable_of_iff (clock - leeway ≤ claims.exp ∧ claims.iss ∈ validation.issuers ∧
      ∃ audience ∈ claims.audiences, audience ∈ validation.audiences)
    ⟨fun ⟨unexpired, issuer, audience⟩ => ⟨unexpired, issuer, audience⟩,
      fun accepts => ⟨accepts.unexpired, accepts.issuer, accepts.audience⟩⟩

/-- The library accepts exactly the tokens that carry the claims signed by the given key
with the given algorithm, are unexpired, and have the required issuer and audience. -/
def Jsonwebtoken.DecodesSigned {Key : Type} (jwt : Jsonwebtoken Key)
    (Signed : Key → Algorithm → String → IdTokenClaims → Prop) : Prop :=
  ∀ clock token key validation claims,
    jwt.decode clock token key validation = .ok claims ↔
      Signed key validation.algorithm token claims ∧ validation.Accepts clock claims

/-! ### The cache -/

/-- `CACHE_TTL`. -/
def cacheTtl : Nat := 600 * 1000000000

/-- A document and when it was fetched. -/
structure Cached (α : Type) where
  value : α
  fetchedAt : Nat

/-- Discovery documents by issuer, and key sets by where they are. -/
structure OidcCache where
  discovery : String → Option (Cached OidcDiscovery)
  jwks : String → Option (Cached Jwks)

/-- The value, as long as it is fresh. -/
def Cached.fresh {α : Type} (now : Nat) (entry : Cached α) : Option α :=
  if now - entry.fetchedAt < cacheTtl then some entry.value else none

namespace OidcCache

/-- An empty cache. -/
def new : OidcCache := ⟨fun _ => none, fun _ => none⟩

/-- `OidcCache::discovery`. -/
def findDiscovery (cache : OidcCache) (issuer : String) (now : Nat) :
    Option OidcDiscovery :=
  (cache.discovery issuer).bind (Cached.fresh now)

/-- `OidcCache::put_discovery`. -/
def putDiscovery (cache : OidcCache) (issuer : String) (value : OidcDiscovery)
    (now : Nat) : OidcCache :=
  { cache with discovery := Function.update cache.discovery issuer (some ⟨value, now⟩) }

/-- `OidcCache::jwks`. -/
def findJwks (cache : OidcCache) (uri : String) (now : Nat) : Option Jwks :=
  (cache.jwks uri).bind (Cached.fresh now)

/-- `OidcCache::put_jwks`. -/
def putJwks (cache : OidcCache) (uri : String) (value : Jwks) (now : Nat) : OidcCache :=
  { cache with jwks := Function.update cache.jwks uri (some ⟨value, now⟩) }

end OidcCache

/-! ### Calls to the provider -/

/-- How a call to a provider fails: there is no client, the request, its status, or what
came back. -/
inductive FetchError
  | client (detail : String)
  | send (detail : String)
  | status (detail : String)
  | body (detail : String)
  deriving DecidableEq

/-- The error a failed call is reported as. -/
def FetchError.report (send status body : String → String) : FetchError → AppError
  | .client detail => .internal s!"http client: {detail}"
  | .send detail => .badRequest (send detail)
  | .status detail => .badRequest (status detail)
  | .body detail => .badRequest (body detail)

/-- Where the discovery document of an issuer is. -/
def discoveryUrl (issuer : String) : String :=
  s!"{trimEndSlashes issuer}/.well-known/openid-configuration"

/-- `discover`, once the provider has answered. -/
def checkDiscovery (provider : OidcProvider) :
    Except FetchError OidcDiscovery → Except AppError OidcDiscovery
  | .error error =>
      .error (error.report
        (fun detail => s!"could not reach the identity provider: {detail}")
        (fun detail => s!"identity provider discovery failed: {detail}")
        (fun detail => s!"identity provider discovery was not readable: {detail}"))
  | .ok discovery =>
      if trimEndSlashes discovery.issuer ≠ trimEndSlashes provider.issuer then
        .error (.badRequest (s!"identity provider announces issuer {discovery.issuer} " ++
          s!"but is configured as {provider.issuer}"))
      else
        .ok discovery

/-- The form that redeems a code. -/
def exchangeForm (provider : OidcProvider) (code pkceVerifier redirectUri : String) :
    List (String × String) :=
  [("grant_type", "authorization_code"), ("code", code), ("redirect_uri", redirectUri),
    ("client_id", provider.clientId), ("code_verifier", pkceVerifier)] ++
      if provider.clientSecret = "" then [] else [("client_secret", provider.clientSecret)]

/-- `exchange_and_verify` up to the token. -/
def checkExchange : Except FetchError String → Except AppError String
  | .error error =>
      .error (error.report
        (fun detail => s!"token exchange failed: {detail}")
        (fun _ => "the identity provider rejected the sign-in")
        (fun detail => s!"token response was not readable: {detail}"))
  | .ok idToken => .ok idToken

/-- The key set once the provider has answered. Its status is not looked at: an error
page is a key set that cannot be read. -/
def checkJwks : Except FetchError Jwks → Except AppError Jwks
  | .error error =>
      .error (error.report
        (fun detail => s!"could not fetch signing keys: {detail}")
        (fun detail => s!"signing keys unreadable: {detail}")
        (fun detail => s!"signing keys unreadable: {detail}"))
  | .ok jwks => .ok jwks

/-! ### The checks of an ID token -/

/-- `select_key`. -/
def selectKey (jwks : Jwks) : Option String → Option Jwk
  | some kid => jwks.keys.find? fun key => key.kid == some kid
  | none => if jwks.keys.length = 1 then jwks.keys.head? else none

/-- `algorithm_for`: what the key declares, and else what the header says. -/
def algorithmFor (jwk : Jwk) (headerAlg : Algorithm) : Algorithm :=
  (jwk.alg.bind Algorithm.ofName).getD headerAlg

/-- The selected key, or the error where there is none. -/
def offeredKey (jwks : Jwks) (header : Header) : Except AppError Jwk :=
  match selectKey jwks header.kid with
  | some jwk => .ok jwk
  | none => .error (.badRequest
      "the identity provider did not offer the signing key this token names")

section Checks

variable {Key : Type} (jwt : Jsonwebtoken Key)

/-- `decode_header`, with its error. -/
def readHeader (idToken : String) : Except AppError Header :=
  (jwt.decodeHeader idToken).mapError fun error =>
    .badRequest s!"id token header unreadable: {error}"

/-- `decoding_key`. -/
def decodingKey (jwk : Jwk) : Except AppError Key :=
  match jwk.kty with
  | "RSA" =>
      match jwk.n, jwk.e with
      | some n, some e => (jwt.fromRsaComponents n e).mapError fun error =>
          .badRequest s!"bad RSA signing key: {error}"
      | _, _ => .error (.badRequest "RSA signing key is incomplete")
  | "EC" =>
      match jwk.x, jwk.y with
      | some x, some y => (jwt.fromEcComponents x y).mapError fun error =>
          .badRequest s!"bad EC signing key: {error}"
      | _, _ => .error (.badRequest "EC signing key is incomplete")
  | other => .error (.badRequest s!"unsupported signing key type: {other}")

/-- What the token is validated against. -/
def validationFor (provider : OidcProvider) (discovery : OidcDiscovery) (jwk : Jwk)
    (header : Header) : Validation where
  algorithm := algorithmFor jwk header.alg
  issuers := [discovery.issuer]
  audiences := [provider.clientId]

/-- `verify_id_token`, once header and key set are there. -/
def verifyIdToken (clock : Int) (provider : OidcProvider) (discovery : OidcDiscovery)
    (jwks : Jwks) (header : Header) (idToken nonce : String) :
    Except AppError IdTokenClaims := do
  let jwk ← offeredKey jwks header
  let key ← decodingKey jwt jwk
  let claims ← (jwt.decode clock idToken key
    (validationFor provider discovery jwk header)).mapError fun error =>
      .unauthorized s!"id token rejected: {error}"
  if claims.nonce = some nonce then
    .ok claims
  else
    .error (.unauthorized "id token was not issued for this sign-in")

end Checks

/-- The key the header names; the only key of the set where the header names none. -/
def NamesKey (jwks : Jwks) : Option String → Jwk → Prop
  | some kid, jwk => jwk ∈ jwks.keys ∧ jwk.kid = some kid
  | none, jwk => jwks.keys = [jwk]

theorem namesKey_of_offeredKey {jwks : Jwks} {header : Header} {jwk : Jwk}
    (offered : offeredKey jwks header = .ok jwk) : NamesKey jwks header.kid jwk := by
  have selected : selectKey jwks header.kid = some jwk := by
    unfold offeredKey at offered
    split at offered <;> cases offered
    assumption
  cases names : header.kid with
  | some kid =>
      rw [names] at selected
      have named := List.find?_some selected
      exact ⟨List.mem_of_find?_eq_some selected, beq_iff_eq.mp named⟩
  | none =>
      rw [names, selectKey] at selected
      split_ifs at selected with single
      obtain ⟨only, keys⟩ := List.length_eq_one_iff.mp single
      rw [keys] at selected
      cases selected
      exact keys

/-- An accepted document announces the configured issuer, up to slashes at the end. -/
theorem checkDiscovery_eq_ok {provider : OidcProvider}
    {reply : Except FetchError OidcDiscovery} {discovery : OidcDiscovery}
    (accepted : checkDiscovery provider reply = .ok discovery) :
    reply = .ok discovery ∧ trimEndSlashes discovery.issuer = trimEndSlashes provider.issuer := by
  cases reply with
  | error error => cases accepted
  | ok answered =>
      simp only [checkDiscovery] at accepted
      split_ifs at accepted with differs
      cases accepted
      exact ⟨rfl, not_not.mp differs⟩

/-- A verified token was decoded with the key its header names, and carries the
nonce. -/
theorem verifyIdToken_eq_ok {Key : Type} {jwt : Jsonwebtoken Key} {clock : Int}
    {provider : OidcProvider} {discovery : OidcDiscovery} {jwks : Jwks}
    {header : Header} {idToken nonce : String} {claims : IdTokenClaims}
    (verified : verifyIdToken jwt clock provider discovery jwks header idToken nonce = .ok claims) :
    ∃ jwk key, NamesKey jwks header.kid jwk ∧ decodingKey jwt jwk = .ok key ∧
      jwt.decode clock idToken key (validationFor provider discovery jwk header) = .ok claims ∧
      claims.nonce = some nonce := by
  unfold verifyIdToken at verified
  obtain ⟨jwk, offered, verified⟩ := Result.bind_eq_ok.mp verified
  obtain ⟨key, built, verified⟩ := Result.bind_eq_ok.mp verified
  obtain ⟨found, decoded, verified⟩ := Result.bind_eq_ok.mp verified
  split_ifs at verified with own
  cases verified
  exact ⟨jwk, key, namesKey_of_offeredKey offered, built, Result.mapError_eq_ok.mp decoded, own⟩

end Federation
end MindMapVault
