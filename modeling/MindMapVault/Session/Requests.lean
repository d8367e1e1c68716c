import MindMapVault.Foundations.Threads

/-!
# Requests of a signed-in app

A request reads the tokens and the mode, and fetches. On a 401 it asks the server for
a new access token, puts it into the store and is sent once more; when the server grants
none, the session is signed out. Requests of one page run together, and everybody
reads and writes one store: each piece of code between two `await`s is one action here.
A page load leaves of the store what was persisted, and of the requests nothing.
-/

namespace MindMapVault
namespace Session

/-- A value JavaScript takes for true. -/
def truthy : Option String → Bool
  | none => false
  | some text => text ≠ ""

@[simp] theorem truthy_none : truthy none = false := rfl

@[simp] theorem truthy_some {text : String} : truthy (some text) = true ↔ text ≠ "" := by
  simp [truthy]

/-- The value of `useAuthStore`; the keys of a session are never written to storage. -/
structure AuthState (Keys : Type) where
  accessToken : Option String
  refreshToken : Option String
  username : Option String
  sessionKeys : Option Keys
  deriving DecidableEq

namespace AuthState

variable {Keys : Type}

/-- The store of a page nobody signed in to. -/
def signedOut : AuthState Keys := ⟨none, none, none, none⟩

/-- `setTokens`. -/
def setTokens (state : AuthState Keys) (access refresh username : String) : AuthState Keys :=
  { state with
    accessToken := some access, refreshToken := some refresh, username := some username }

/-- `setAccessToken`. -/
def setAccessToken (state : AuthState Keys) (token : String) : AuthState Keys :=
  { state with accessToken := some token }

/-- `setSessionKeys`. -/
def setSessionKeys (state : AuthState Keys) (keys : Keys) : AuthState Keys :=
  { state with sessionKeys := some keys }

/-- `logout`. -/
def logout (_state : AuthState Keys) : AuthState Keys := signedOut

/-- `isAuthenticated`. -/
def isAuthenticated (state : AuthState Keys) : Bool :=
  truthy state.accessToken || (truthy state.username && state.sessionKeys.isSome)

/-- `partialize`: what a reload of the page finds again. -/
def partialize (state : AuthState Keys) : AuthState Keys := { state with sessionKeys := none }

end AuthState

/-- `AppMode`, when it is chosen. -/
inductive AppMode
  | server
  | local
  deriving DecidableEq

/-- What `request` and `requestBytes` differ in: how an answer is read, and whether the
body goes out as JSON by default. -/
inductive Reading
  | json
  | bytes
  deriving DecidableEq

/-- `RequestInit`, as the callers here fill it in. -/
structure RequestInit where
  method : Option String
  body : Option String
  headers : List (String × String)
  deriving DecidableEq

/-- What a caller of `api` asks for. -/
structure Call where
  reading : Reading
  path : String
  options : RequestInit
  deriving DecidableEq

/-- Sets one header of an object, in its old place when it has one. -/
def setHeader (headers : List (String × String)) (header : String × String) :
    List (String × String) :=
  if headers.any (fun other => other.1 == header.1) then
    headers.map fun other => if other.1 == header.1 then header else other
  else headers ++ [header]

/-- The headers a call goes out with. -/
def Call.headers (call : Call) (accessToken : Option String) : List (String × String) :=
  let content := match call.reading with
    | .json => [("Content-Type", "application/json")]
    | .bytes => []
  let authorized := if truthy accessToken then
      content ++ [("Authorization", "Bearer " ++ accessToken.getD "")]
    else content
  call.options.headers.foldl setHeader authorized

/-- One `fetch`. -/
inductive Fetch
  | call (path : String) (method body : Option String) (headers : List (String × String))
  | refresh (refreshToken : String)
  deriving DecidableEq

/-- The fetch of a call, with the token that is in the store. -/
def Call.fetch (call : Call) (accessToken : Option String) : Fetch :=
  .call call.path call.options.method call.options.body (call.headers accessToken)

/-- `ApiErrorPayload`. -/
structure ApiErrorPayload where
  error : Option String
  code : Option String
  capability : Option String
  currentTier : Option String
  requiredTier : Option String
  currentValue : Option Int
  limitValue : Option Int
  deriving DecidableEq

/-- The payload of a body that is no JSON. -/
def ApiErrorPayload.empty : ApiErrorPayload := ⟨none, none, none, none, none, none, none⟩

/-- `ApiError`. -/
structure ApiError where
  status : Nat
  message : String
  code : Option String
  capability : Option String
  currentTier : Option String
  requiredTier : Option String
  currentValue : Option Int
  limitValue : Option Int
  deriving DecidableEq

/-- A server's answer: its JSON and its bytes, where they can be read. -/
structure Response (Body : Type) where
  status : Nat
  statusText : String
  json : Option Body
  bytes : Option (List UInt8)
  payload : Option ApiErrorPayload
  deriving DecidableEq

/-- `ok` of a response. -/
def Response.ok {Body : Type} (response : Response Body) : Bool :=
  200 ≤ response.status && response.status ≤ 299

/-- What a call ends with. -/
inductive Outcome (Body : Type)
  | returned (body : Body)
  | nothing
  | read (bytes : List UInt8)
  | refused (error : ApiError)
  | rejected
  deriving DecidableEq

/-- The error of an answer that is not ok. -/
def Response.error {Body : Type} (response : Response Body) : ApiError :=
  let body := response.payload.getD .empty
  { status := response.status
    message := body.error.getD response.statusText
    code := body.code
    capability := body.capability
    currentTier := body.currentTier
    requiredTier := body.requiredTier
    currentValue := body.currentValue
    limitValue := body.limitValue }

/-- The error of a session that could not be kept. -/
def sessionExpired : ApiError :=
  ⟨401, "Session expired — please log in again", none, none, none, none, none, none⟩

/-- How an answer that needs no refresh ends the call. -/
def Response.outcome {Body : Type} (reading : Reading) (response : Response Body) :
    Outcome Body :=
  if !response.ok then .refused response.error
  else match reading with
    | .json => if response.status = 204 then .nothing
        else response.json.elim .rejected .returned
    | .bytes => response.bytes.elim .rejected .read

/-- Where a request stands: its call is out, the refresh is out, `tryRefresh` has returned,
or it is over. -/
inductive Phase (Body : Type)
  | calling (retry : Bool)
  | refreshing
  | resuming (refreshed : Bool)
  | over (outcome : Outcome Body)
  deriving DecidableEq

/-- A request under way. The refresh token and the mode are those it read when it was
made, and `load` is the page load it belongs to; `fetched` records what it sent, in order,
and `granted` whether the server granted the refresh. -/
structure Request (Body : Type) where
  call : Call
  refreshToken : Option String
  mode : Option AppMode
  load : Nat
  phase : Phase Body
  fetched : List Fetch
  granted : Bool
  deriving DecidableEq

/-- What the requests of a page share, and how often the page was loaded. -/
structure Page (Keys : Type) where
  store : AuthState Keys
  mode : Option AppMode
  loads : Nat
  deriving DecidableEq

/-- What the pages do to the store and to the mode, and the page being loaded again. -/
inductive PageEvent (Keys : Type)
  | setTokens (access refresh username : String)
  | setSessionKeys (keys : Keys)
  | logout
  | setMode (mode : Option AppMode)
  | load
  deriving DecidableEq

/-- What a request goes on with: the answer to its call (`none` when the fetch is
rejected), the access token the refresh gave (`none` when it gave none, for whatever
reason), or the continuation of `tryRefresh`. -/
inductive Continuation (Body : Type)
  | answered (response : Option (Response Body))
  | granted (accessToken : Option String)
  | resumed
  deriving DecidableEq

section Server

variable {Keys Body Account : Type} [DecidableEq Account]
/- The account a token was issued to. -/
variable (account : String → Account)

/-- Tokens as a sign-in hands them out: both of one account, or both empty, as the pages
that work without a server set them. -/
def Paired (access refresh : String) : Prop :=
  if access = "" then refresh = ""
  else refresh ≠ "" ∧ account access = account refresh

instance (access refresh : String) : Decidable (Paired account access refresh) := by
  unfold Paired
  infer_instance

/-- What a page does to the store. -/
def pageEvent (page : Page Keys) : PageEvent Keys → Option (Page Keys)
  | .setTokens access refresh username =>
      if Paired account access refresh then
        some { page with store := page.store.setTokens access refresh username }
      else none
  | .setSessionKeys keys => some { page with store := page.store.setSessionKeys keys }
  | .logout => some { page with store := page.store.logout }
  | .setMode mode => some { page with mode := mode }
  | .load => some { page with store := page.store.partialize, loads := page.loads + 1 }

/-- `request` and `requestBytes` up to their first `await`. -/
def makeRequest (page : Page Keys) (call : Call) : Option (Page Keys × Request Body) :=
  some (page,
    { call := call
      refreshToken := page.store.refreshToken
      mode := page.mode
      load := page.loads
      phase := .calling true
      fetched := [call.fetch page.store.accessToken]
      granted := false })

/-- A call is answered: a 401 is met with a refresh, unless this is the second try, the
app works without a server, or there is nothing to refresh with. -/
def Request.answered (request : Request Body) (retry : Bool) :
    Option (Response Body) → Request Body
  | none => { request with phase := .over .rejected }
  | some response =>
      if response.status = 401 && request.mode != some .local && retry &&
          truthy request.refreshToken then
        { request with
          phase := .refreshing
          fetched := request.fetched ++ [.refresh (request.refreshToken.getD "")] }
      else { request with phase := .over (response.outcome request.call.reading) }

/-- A request goes on. A server that grants an access token grants it to the account of
the refresh token it was asked with. -/
def advance (page : Page Keys) (request : Request Body) :
    Continuation Body → Option (Page Keys × Request Body)
  | .answered response =>
      match request.phase with
      | .calling retry => some (page, request.answered retry response)
      | _ => none
  | .granted none =>
      match request.phase with
      | .refreshing => some (page, { request with phase := .resuming false })
      | _ => none
  | .granted (some accessToken) =>
      match request.phase with
      | .refreshing =>
          if accessToken ≠ "" ∧ account accessToken = account (request.refreshToken.getD "") then
            some ({ page with store := page.store.setAccessToken accessToken },
              { request with phase := .resuming true, granted := true })
          else none
      | _ => none
  | .resumed =>
      match request.phase with
      | .resuming true =>
          -- the call once more, with whatever token the store has by now
          some (page,
            { request with
              phase := .calling false
              fetched := request.fetched ++ [request.call.fetch page.store.accessToken] })
      | .resuming false =>
          some ({ page with store := page.store.logout },
            { request with phase := .over (.refused sessionExpired) })
      | _ => none

/-- Only the page load that made a request goes on with it. -/
def advanceLoaded (page : Page Keys) (request : Request Body) (act : Continuation Body) :
    Option (Page Keys × Request Body) :=
  if request.load = page.loads then advance account page request act else none

/-- The requests of a page, in any order of their continuations. -/
def requests : Threads.Program (Page Keys) (Request Body) (PageEvent Keys) Call
    (Continuation Body) where
  outside := pageEvent account
  spawn := makeRequest
  advance := advanceLoaded account

end Server

end Session
end MindMapVault
