import MindMapVault.Accounts.Invites
import MindMapVault.Accounts.SignIn
import MindMapVault.Federation.Client
import MindMapVault.Federation.Flows

/-!
# Federated sign-ins under way

The two halves of a sign-in, the redirect out and the callback, each cut where it waits
for the database or for the provider. Between two of these points the clock may move,
flows may be pruned, providers may be configured anew, accounts may be enrolled, and
other sign-ins go on over the same table of flows and the same cache. The answers of the
network are part of the moves, as are the tokens that are drawn; a token for `state` is
never drawn twice. Throttling is left out, since it can only refuse a start.
-/

namespace MindMapVault
namespace Federation

open Threads
open Accounts (Directory DirectoryEvent CallbackAct Session connectionClosed)
open Vault (trim)

/-- A sign-in that was started: what was sent along and what was remembered. -/
structure Start where
  stateToken : String
  flow : PendingFlow
  deriving DecidableEq

/-- What has happened so far: the providers that were ever configured, the starts, and
what was fetched or posted, with its address. -/
structure Record where
  configured : List OidcProvider
  starts : List Start
  documents : List (String × OidcDiscovery)
  tokenRequests : List (String × List (String × String))
  keySets : List (String × Jwks)

/-- A callback that has taken its flow, and when it did. -/
structure Visit where
  code : String
  stateToken : String
  flow : PendingFlow
  takenAt : Nat
  deriving DecidableEq

/-- A callback that knows whom to ask. -/
structure Contact extends Visit where
  provider : OidcProvider
  discovery : OidcDiscovery
  deriving DecidableEq

/-- What a callback has in hand when the ID token is accepted. -/
structure Evidence extends Contact where
  idToken : String
  header : Header
  jwks : Jwks
  claims : IdTokenClaims

/-- A pair of session tokens that was issued. -/
structure Issued where
  evidence : Evidence
  session : Session
  issuedAt : Nat

/-- The server, as far as federated sign-ins read and write it, with what has happened
so far. -/
structure OidcState where
  providers : List OidcProvider
  publicBaseUrl : String
  flows : OidcFlows
  cache : OidcCache
  directory : Directory
  now : Nat
  record : Record
  sessions : List Issued

/-- The query of a callback. -/
structure CallbackQuery where
  code : Option String
  state : Option String
  error : Option String
  errorDescription : Option String
  deriving DecidableEq

/-- The parameters a browser is sent to the provider with. The verifier goes as its
challenge. -/
structure AuthorizationRequest where
  authorizationEndpoint : String
  clientId : String
  redirectUri : String
  scope : String
  state : String
  nonce : String
  codeVerifier : String
  deriving DecidableEq

/-- Where a request sends the browser: to the provider, back to the sign-in page, or
into the app with its tokens. -/
inductive Answer
  | authorize (request : AuthorizationRequest)
  | ssoError (detail : String)
  | signedIn (session : Session)
  deriving DecidableEq

/-- What a request needs its provider for. -/
inductive Errand
  | start
  | callback (visit : Visit)
  deriving DecidableEq

/-- A request under way. -/
inductive Flight
  | enabling (errand : Errand) (id : String)
  | looking (errand : Errand) (provider : OidcProvider)
  | discovering (errand : Errand) (provider : OidcProvider)
  | redirecting (provider : OidcProvider) (discovery : OidcDiscovery)
  | exchanging (contact : Contact)
  | verifying (contact : Contact) (idToken : String)
  | fetchingKeys (contact : Contact) (idToken : String) (header : Header)
  | resolving (evidence : Evidence) (callback : Accounts.Callback)
  | answered (reply : Except AppError Answer)

/-- A request of a browser. -/
inductive OidcRequest
  | start (id : String)
  | callback (id : String) (query : CallbackQuery)
  deriving DecidableEq

/-- An operation of a request, with what it draws or hears. The clock of a verification
is the wall clock. -/
inductive Act
  | loadProvider
  | fail
  | findDiscovery
  | discovered (reply : Except FetchError OidcDiscovery)
  | begin (nonce verifier stateToken : String)
  | exchanged (reply : Except FetchError String)
  | findJwks (clock : Int)
  | fetchedJwks (reply : Except FetchError Jwks) (clock : Int)
  | resolve (act : CallbackAct)

/-- What happens beside the requests. -/
inductive OidcEvent
  | wait (elapsed : Nat)
  | prune
  | configure (providers : List OidcProvider)
  | directory (event : DirectoryEvent)

namespace OidcState

/-- `redirect_uri`. -/
def redirectUri (state : OidcState) (providerId : String) : String :=
  s!"{trimEndSlashes state.publicBaseUrl}/api/auth/oidc/{providerId}/callback"

/-- `enabled_provider`, where the database answers. -/
def enabledProvider (state : OidcState) (id : String) : Except AppError OidcProvider :=
  match (state.providers.find? (·.id == id)).filter (·.enabled) with
  | none => .error (.notFound "no such sign-in provider")
  | some provider =>
      if trim state.publicBaseUrl = "" then
        .error (.internal ("PUBLIC_BASE_URL is not set, so the redirect back from the " ++
          "provider cannot be built"))
      else
        .ok provider

/-- A discovery document is cached. -/
def keepDiscovery (state : OidcState) (issuer : String) (discovery : OidcDiscovery) :
    OidcState :=
  { state with
    cache := state.cache.putDiscovery issuer discovery state.now
    record := { state.record with
      documents := (discoveryUrl issuer, discovery) :: state.record.documents } }

/-- A key set is cached. -/
def keepJwks (state : OidcState) (uri : String) (jwks : Jwks) : OidcState :=
  { state with
    cache := state.cache.putJwks uri jwks state.now
    record := { state.record with keySets := (uri, jwks) :: state.record.keySets } }

/-- A flow is remembered. -/
def remember (state : OidcState) (stateToken : String) (flow : PendingFlow) :
    OidcState :=
  { state with
    flows := state.flows.begin stateToken flow
    record := { state.record with starts := ⟨stateToken, flow⟩ :: state.record.starts } }

/-- A code was redeemed. -/
def redeem (state : OidcState) (endpoint : String) (form : List (String × String)) :
    OidcState :=
  { state with
    record := { state.record with
      tokenRequests := (endpoint, form) :: state.record.tokenRequests } }

/-- A pair of session tokens goes out. -/
def issue (state : OidcState) (directory : Directory) (evidence : Evidence)
    (session : Session) : OidcState :=
  { state with
    directory := directory
    sessions := ⟨evidence, session, state.now⟩ :: state.sessions }

/-- No start has had this token. -/
def Unused (state : OidcState) (stateToken : String) : Prop :=
  stateToken ∉ state.record.starts.map Start.stateToken

instance (state : OidcState) (stateToken : String) : Decidable (state.Unused stateToken) :=
  inferInstanceAs (Decidable (stateToken ∉ state.record.starts.map Start.stateToken))

end OidcState

/-- A callback consumes its flow. -/
def consumeFlow (state : OidcState) (id code stateToken : String) : OidcState × Flight :=
  match state.flows.take stateToken state.now with
  | (flows, none) => ({ state with flows := flows }, .answered
      (.error (.unauthorized "this sign-in has expired; please try again")))
  | (flows, some flow) =>
      if flow.providerId ≠ id then
        ({ state with flows := flows }, .answered (.error
          (.unauthorized "this sign-in was started with a different provider")))
      else
        ({ state with flows := flows },
          .enabling (.callback ⟨code, stateToken, flow, state.now⟩) id)

/-- `callback` up to the provider's row. -/
def beginCallback (state : OidcState) (id : String) (query : CallbackQuery) :
    OidcState × Flight :=
  match query.error, query.code, query.state with
  | some error, _, _ =>
      (state, .answered (.ok (.ssoError (query.errorDescription.getD error))))
  | none, some code, some stateToken => consumeFlow state id code stateToken
  | none, _, _ => (state, .answered (.error (.badRequest "incomplete callback")))

/-- A request arrives. -/
def beginRequest (state : OidcState) : OidcRequest → OidcState × Flight
  | .start id => (state, .enabling .start id)
  | .callback id query => beginCallback state id query

/-- `discover` is done. -/
def afterDiscovery (errand : Errand) (provider : OidcProvider)
    (discovery : OidcDiscovery) : Flight :=
  match errand with
  | .start => .redirecting provider discovery
  | .callback visit => .exchanging ⟨visit, provider, discovery⟩

section Requests

variable {Key : Type} (jwt : Jsonwebtoken Key)

/-- `verify_id_token` has its key set. -/
def afterKeys (clock : Int) (contact : Contact) (idToken : String) (header : Header)
    (jwks : Jwks) : Flight :=
  match verifyIdToken jwt clock contact.provider contact.discovery jwks header idToken
      contact.flow.nonce with
  | .error error => .answered (.error error)
  | .ok claims =>
      .resolving ⟨contact, idToken, header, jwks, claims⟩ (.verified contact.provider.id claims.sub)

/-- A step of `resolve_account` and of what follows it is done. -/
def afterResolve (state : OidcState) (evidence : Evidence) (directory : Directory) :
    Accounts.Callback → OidcState × Flight
  | .answered _ _ (.ok session) =>
      (state.issue directory evidence session, .answered (.ok (.signedIn session)))
  | .answered _ _ (.error error) =>
      ({ state with directory := directory }, .answered (.error error))
  | callback => ({ state with directory := directory }, .resolving evidence callback)

/-- The next operation of a request. -/
def advance (state : OidcState) : Flight → Act → Option (OidcState × Flight)
  | .enabling errand id, .loadProvider =>
      match state.enabledProvider id with
      | .error error => some (state, .answered (.error error))
      | .ok provider => some (state, .looking errand provider)
  | .enabling _ _, .fail => some (state, .answered (.error connectionClosed))
  | .looking errand provider, .findDiscovery =>
      match state.cache.findDiscovery provider.issuer state.now with
      | some discovery => some (state, afterDiscovery errand provider discovery)
      | none => some (state, .discovering errand provider)
  | .discovering errand provider, .discovered reply =>
      match checkDiscovery provider reply with
      | .error error => some (state, .answered (.error error))
      | .ok discovery => some (state.keepDiscovery provider.issuer discovery,
          afterDiscovery errand provider discovery)
  | .redirecting provider discovery, .begin nonce verifier stateToken =>
      if state.Unused stateToken then
        some (state.remember stateToken
            ⟨provider.id, nonce, verifier, "/vaults", state.now⟩,
          .answered (.ok (.authorize {
            authorizationEndpoint := discovery.authorizationEndpoint
            clientId := provider.clientId
            redirectUri := state.redirectUri provider.id
            scope := provider.effectiveScopes
            state := stateToken
            nonce := nonce
            codeVerifier := verifier })))
      else
        none
  | .exchanging contact, .exchanged reply =>
      match checkExchange reply with
      | .error error => some (state, .answered (.error error))
      | .ok idToken => some (state.redeem contact.discovery.tokenEndpoint
            (exchangeForm contact.provider contact.code contact.flow.pkceVerifier
              (state.redirectUri contact.provider.id)),
          .verifying contact idToken)
  | .verifying contact idToken, .findJwks clock =>
      match readHeader jwt idToken with
      | .error error => some (state, .answered (.error error))
      | .ok header =>
          match state.cache.findJwks contact.discovery.jwksUri state.now with
          | some jwks => some (state, afterKeys jwt clock contact idToken header jwks)
          | none => some (state, .fetchingKeys contact idToken header)
  | .fetchingKeys contact idToken header, .fetchedJwks reply clock =>
      match checkJwks reply with
      | .error error => some (state, .answered (.error error))
      | .ok jwks => some (state.keepJwks contact.discovery.jwksUri jwks,
          afterKeys jwt clock contact idToken header jwks)
  | .resolving evidence callback, .resolve act =>
      (Accounts.advanceCallback state.directory callback act).map fun taken =>
        afterResolve state evidence taken.1 taken.2
  | _, _ => none

/-- What happens beside the requests. -/
def oidcEvent (state : OidcState) : OidcEvent → Option OidcState
  | .wait elapsed => some { state with now := state.now + elapsed }
  | .prune => some { state with flows := state.flows.prune state.now }
  | .configure providers =>
      some { state with
        providers := providers
        record := { state.record with
          configured := providers ++ state.record.configured } }
  | .directory event =>
      (Accounts.directoryEvent state.directory event).map fun directory =>
        { state with directory := directory }

/-- Any number of starts and callbacks, interleaved operation by operation. -/
def oidcRequests : Program OidcState Flight OidcEvent OidcRequest Act where
  outside := oidcEvent
  spawn := fun state request => some (beginRequest state request)
  advance := advance jwt

end Requests

/-- The server and the requests under way. -/
abbrev OidcPool := Pool OidcState Flight

/-- A move of the sign-ins. -/
abbrev OidcMove := Move OidcEvent OidcRequest Act

/-- The server when it starts: no flow is pending and nothing is cached. -/
def booted (providers : List OidcProvider) (publicBaseUrl : String)
    (directory : Directory) (now : Nat) : OidcPool where
  shared := {
    providers := providers
    publicBaseUrl := publicBaseUrl
    flows := .new
    cache := .new
    directory := directory
    now := now
    record := ⟨providers, [], [], [], []⟩
    sessions := [] }
  threads := []

end Federation
end MindMapVault
