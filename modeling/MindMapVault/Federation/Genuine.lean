import MindMapVault.Federation.Founded

/-!
# Sessions are genuine

A token for `state` is pending, or a callback is at work with it, or a session was
issued on it, or it is spent; it never goes back. So every session comes from the one
start that drew its token, and no token yields two. The rest is what the callback
knew: the same provider, the nonce of the start, the issuer and the client that are
configured, and a token signed with the key that its header names.

Three things are not promised. The ten minutes are measured when the callback takes its
flow, and what the provider and the database take after that is added to them. The
issuer in the token is the one the provider announces, which is the configured one up to
slashes at the end. And a header need not name a key where the provider has only one.
-/

namespace MindMapVault
namespace Federation

open Transition Threads

/-- The token of the start a session comes from. -/
def Issued.stateToken (issued : Issued) : String := issued.evidence.stateToken

/-- The session comes from exactly one start, which had not expired when the callback
took it, and is founded on an ID token for that start. -/
structure Issued.Genuine {Key : Type} (jwt : Jsonwebtoken Key)
    (Signed : Key → Algorithm → String → IdTokenClaims → Prop)
    (state : OidcState) (issued : Issued) : Prop where
  oneStart : (state.record.starts.filter fun start =>
    start.stateToken == issued.stateToken) = [⟨issued.stateToken, issued.evidence.flow⟩]
  earlier : issued.evidence.flow.startedAt ≤ issued.evidence.takenAt
  inTime : issued.evidence.takenAt ≤ issued.evidence.flow.startedAt + flowTtl
  later : issued.evidence.takenAt ≤ issued.issuedAt
  sameProvider : issued.evidence.flow.providerId = issued.evidence.provider.id
  offered : issued.evidence.provider.Offered state
  announced : issued.evidence.discovery.Announced state issued.evidence.provider.issuer
  redeemed : issued.evidence.toContact.Redeemed state
  keySet : (issued.evidence.discovery.jwksUri, issued.evidence.jwks) ∈ state.record.keySets
  verified : issued.evidence.Verified jwt Signed

/-- Every session is genuine, and no two have the same token. -/
structure SessionsGenuine {Key : Type} (jwt : Jsonwebtoken Key)
    (Signed : Key → Algorithm → String → IdTokenClaims → Prop)
    (pool : OidcPool) : Prop where
  genuine : ∀ issued ∈ pool.shared.sessions, issued.Genuine jwt Signed pool.shared
  once : (pool.shared.sessions.map Issued.stateToken).Nodup

/-! ### Tokens are spent once -/

/-- The token an errand is about. -/
def Errand.tokens : Errand → List String
  | .start => []
  | .callback visit => [visit.stateToken]

/-- The token a request is at work with. -/
def Flight.tokens : Flight → List String
  | .enabling errand _ | .looking errand _ | .discovering errand _ => errand.tokens
  | .exchanging contact | .verifying contact _ | .fetchingKeys contact _ _ =>
      [contact.stateToken]
  | .resolving evidence _ => [evidence.stateToken]
  | .redirecting _ _ | .answered _ => []

/-- The tokens that were taken and not dropped. -/
def spent (pool : OidcPool) : List String :=
  held Flight.tokens pool.threads ++ pool.shared.sessions.map Issued.stateToken

/-- A token in use was drawn by a start, is no longer pending, and is in use once. -/
structure SpentOnce (pool : OidcPool) : Prop where
  once : (spent pool).Nodup
  gone : ∀ token ∈ spent pool, pool.shared.flows.pending token = none
  drawn : ∀ token ∈ spent pool, token ∈ pool.shared.record.starts.map Start.stateToken

theorem nodup_of_subperm {α : Type} {part whole : List α} (sub : part.Subperm whole)
    (distinct : whole.Nodup) : part.Nodup := by
  obtain ⟨listed, same, sublist⟩ := sub
  exact same.nodup_iff.mp (distinct.sublist sublist)

section Tokens

variable {Key : Type} {jwt : Jsonwebtoken Key}
variable {state after : OidcState} {before next : Flight}

/-- A document that is found changes no token of an errand. -/
theorem tokens_afterDiscovery (errand : Errand) (provider : OidcProvider)
    (discovery : OidcDiscovery) :
    (afterDiscovery errand provider discovery).tokens = errand.tokens := by
  cases errand with
  | start => rfl
  | callback visit => rfl

/-- A callback goes on with its token or drops it. -/
theorem tokens_afterKeys (clock : Int) (contact : Contact) (idToken : String)
    (header : Header) (jwks : Jwks) :
    ((afterKeys jwt clock contact idToken header jwks).tokens).Sublist [contact.stateToken] := by
  unfold afterKeys
  split
  · exact List.nil_sublist _
  · exact List.Sublist.refl _

/-- A step keeps the token, drops it, or issues a session on it. -/
theorem Step.tokens (step : Step jwt state before after next) :
    (next.tokens ++ after.sessions.map Issued.stateToken).Subperm
      (before.tokens ++ state.sessions.map Issued.stateToken) := by
  have kept : ∀ {tokens : List String}, tokens.Sublist before.tokens →
      (tokens ++ state.sessions.map Issued.stateToken).Subperm
        (before.tokens ++ state.sessions.map Issued.stateToken) := fun part =>
    (part.append (List.Sublist.refl _)).subperm
  cases step with
  | refused error => exact kept (List.nil_sublist _)
  | loaded errand provider listed enabled => exact kept (List.Sublist.refl _)
  | missed errand provider => exact kept (List.Sublist.refl _)
  | recalled errand provider discovery cached =>
      rw [tokens_afterDiscovery]
      exact kept (List.Sublist.refl _)
  | discovered errand provider discovery issuer =>
      rw [tokens_afterDiscovery]
      exact kept (List.Sublist.refl _)
  | begun provider discovery stateToken flow request unused started =>
      exact kept (List.nil_sublist _)
  | exchanged contact idToken redirectUri => exact kept (List.Sublist.refl _)
  | read contact idToken header decoded => exact kept (List.Sublist.refl _)
  | checked contact idToken header jwks clock decoded cached =>
      exact kept (tokens_afterKeys clock contact idToken header jwks)
  | fetched contact idToken header jwks clock =>
      exact kept (tokens_afterKeys clock contact idToken header jwks)
  | resolved evidence callback other directory => exact kept (List.Sublist.refl _)
  | failed evidence callback directory error => exact kept (List.nil_sublist _)
  | issued evidence callback directory session => exact List.Subperm.refl _

/-- A token that was drawn and is not pending stays so. -/
theorem Step.gone (step : Step jwt state before after next) {token : String}
    (drawn : token ∈ state.record.starts.map Start.stateToken)
    (gone : state.flows.pending token = none) : after.flows.pending token = none := by
  cases step with
  | begun provider discovery stateToken flow request unused started =>
      have other : token ≠ stateToken := by
        rintro rfl
        exact unused drawn
      simpa [OidcState.remember, OidcFlows.begin, other] using gone
  | _ => exact gone

/-- A flow that is gone does not come back. -/
theorem gone_oidcEvent {event : OidcEvent} (taken : oidcEvent state event = some after)
    {token : String} (gone : state.flows.pending token = none) :
    after.flows.pending token = none := by
  cases event with
  | prune =>
      cases taken
      simp [OidcFlows.prune, gone]
  | wait elapsed | configure providers =>
      cases taken
      exact gone
  | directory event =>
      obtain ⟨directory, _, rfl⟩ := Option.map_eq_some_iff.mp taken
      exact gone

/-- No event issues a session. -/
theorem sessions_oidcEvent {event : OidcEvent} (taken : oidcEvent state event = some after) :
    after.sessions = state.sessions := by
  cases event with
  | prune | wait elapsed | configure providers =>
      cases taken
      rfl
  | directory event =>
      obtain ⟨directory, _, rfl⟩ := Option.map_eq_some_iff.mp taken
      rfl

end Tokens

/-- Where nothing new is in use, and what was drawn stays gone. -/
theorem SpentOnce.of_subperm {pool after : OidcPool} (spentOnce : SpentOnce pool)
    (sub : (spent after).Subperm (spent pool))
    (stays : ∀ token ∈ pool.shared.record.starts.map Start.stateToken,
      pool.shared.flows.pending token = none → after.shared.flows.pending token = none)
    (grows : pool.shared.Extends after.shared) : SpentOnce after where
  once := nodup_of_subperm sub spentOnce.once
  gone := fun token inUse =>
    have before := sub.subset inUse
    stays token (spentOnce.drawn token before) (spentOnce.gone token before)
  drawn := fun token inUse =>
    List.map_subset _ grows.starts (spentOnce.drawn token (sub.subset inUse))

/-- What is in use once a request has arrived. -/
theorem spent_arrive (pool : OidcPool) (state : OidcState) (flight : Flight)
    (sessions : state.sessions = pool.shared.sessions) :
    (spent { shared := state, threads := pool.threads ++ [flight] }).Perm
      (flight.tokens ++ spent pool) := by
  rw [spent, held_append_singleton, sessions, spent, ← List.append_assoc]
  exact List.perm_append_comm.append_right _

/-- A request that arrives brings at most the token it takes. -/
theorem SpentOnce.arrive {pool : OidcPool} (spentOnce : SpentOnce pool)
    (pending : ∀ token flow, pool.shared.flows.pending token = some flow →
      ⟨token, flow⟩ ∈ pool.shared.record.starts)
    {state : OidcState} {flight : Flight} (arrival : Arrival pool.shared state flight) :
    SpentOnce { shared := state, threads := pool.threads ++ [flight] } := by
  have grows := arrival.grows
  cases arrival with
  | turnedAway flows reply fewer =>
      refine spentOnce.of_subperm (spent_arrive pool _ _ rfl).subperm ?_ grows
      intro token _ gone
      refine Option.eq_none_iff_forall_ne_some.mpr fun flow there => ?_
      have before := fewer token flow there
      rw [gone] at before
      cases before
  | starting id =>
      exact spentOnce.of_subperm (spent_arrive pool _ _ rfl).subperm (fun _ _ gone => gone) grows
  | returned id code token flow taken sameProvider =>
      have there := (OidcFlows.take_eq_some.mp taken).1
      have fresh : token ∉ spent pool := by
        intro inUse
        rw [spentOnce.gone token inUse] at there
        cases there
      have listed := spent_arrive pool
        { pool.shared with flows := (pool.shared.flows.take token pool.shared.now).1 }
        (.enabling (.callback ⟨code, token, flow, pool.shared.now⟩) id) rfl
      refine ⟨?_, ?_, ?_⟩
      · exact listed.nodup_iff.mpr (List.nodup_cons.mpr ⟨fresh, spentOnce.once⟩)
      · intro other inUse
        rcases List.mem_cons.mp (listed.mem_iff.mp inUse) with rfl | before
        · simp [OidcFlows.take]
        · have apart : other ≠ token := fun same => fresh (same ▸ before)
          simp [OidcFlows.take, apart, spentOnce.gone other before]
      · intro other inUse
        rcases List.mem_cons.mp (listed.mem_iff.mp inUse) with rfl | before
        · exact List.mem_map_of_mem (pending other flow there)
        · exact spentOnce.drawn other before

/-- Tokens in use are in use once, whatever happens. -/
theorem spentOnce_preserved {Key : Type} {jwt : Jsonwebtoken Key} {pool after : OidcPool}
    {move : OidcMove}
    (pending : ∀ token flow, pool.shared.flows.pending token = some flow →
      ⟨token, flow⟩ ∈ pool.shared.record.starts)
    (spentOnce : SpentOnce pool)
    (taken : (oidcRequests jwt).system pool move = some after) : SpentOnce after := by
  refine Program.system_cases (motive := fun _ after => SpentOnce after) ?_ ?_ ?_ taken
  · intro event state action
    refine spentOnce.of_subperm ?_ (fun _ _ gone => gone_oidcEvent action gone)
      (grows_oidcEvent action)
    rw [spent, sessions_oidcEvent action]
    exact List.Subperm.refl _
  · intro request state flight action
    have arrival := arrival_beginRequest pool.shared request
    have same : beginRequest pool.shared request = (state, flight) := Option.some.inj action
    rw [same] at arrival
    exact spentOnce.arrive pending arrival
  · intro thread act before state flight present action
    have step := step_of_advance action
    exact spentOnce.of_subperm (held_subperm_set present step.tokens)
      (fun _ drawn gone => step.gone drawn gone) step.grows

/-! ### Every session, in every run -/

/-- The only entry with its key, where keys are distinct. -/
theorem filter_key_eq_singleton {Item Key : Type} [BEq Key] [LawfulBEq Key]
    (key : Item → Key) {items : List Item} (distinct : (items.map key).Nodup)
    {item : Item} (present : item ∈ items) :
    (items.filter fun other => key other == key item) = [item] := by
  induction items with
  | nil => simp at present
  | cons first rest ih =>
      rw [List.map_cons, List.nodup_cons] at distinct
      obtain ⟨fresh, apart⟩ := distinct
      rcases List.mem_cons.mp present with rfl | later
      · have others : (rest.filter fun other => key other == key item) = [] := by
          refine List.filter_eq_nil_iff.mpr fun other there same => ?_
          rw [← beq_iff_eq.mp same] at fresh
          exact fresh (List.mem_map_of_mem there)
        simp [others]
      · have differs : (key first == key item) = false := by
          refine beq_eq_false_iff_ne.mpr fun same => ?_
          rw [same] at fresh
          exact fresh (List.mem_map_of_mem later)
        rw [List.filter_cons, differs]
        exact ih apart later

section Runs

variable {Key : Type} {jwt : Jsonwebtoken Key}
variable {Signed : Key → Algorithm → String → IdTokenClaims → Prop}

/-- A founded session in a good state is genuine. -/
theorem OidcState.Good.genuine {state : OidcState} (good : state.Good jwt Signed)
    {issued : Issued} (present : issued ∈ state.sessions) :
    issued.Genuine jwt Signed state := by
  obtain ⟨founded, later, _⟩ := good.issued issued present
  have visit := founded.known.visit
  have inTime : issued.evidence.takenAt - issued.evidence.flow.startedAt ≤ flowTtl := visit.inTime
  exact {
    oneStart := filter_key_eq_singleton Start.stateToken good.distinct visit.started
    earlier := visit.afterStart
    inTime := Nat.sub_le_iff_le_add'.mp inTime
    later := later
    sameProvider := founded.known.sameProvider
    offered := founded.known.offered
    announced := founded.known.announced
    redeemed := founded.redeemed
    keySet := founded.keySet
    verified := founded.verified }

/-- In every state of every run, every session that was issued comes from exactly one
start of the same provider whose flow had not expired when the callback took it, no
token of a start yields two, and the ID token behind it carries the nonce of the start,
was issued by the announced issuer to the configured client, and is signed with the key
its header names. -/
theorem sessionsGenuine_of_decodesSigned (decodes : jwt.DecodesSigned Signed)
    (providers : List OidcProvider) (publicBaseUrl : String)
    (directory : Accounts.Directory) (now : Nat) (moves : List OidcMove) :
    EveryState (oidcRequests jwt).system (SessionsGenuine jwt Signed)
      (booted providers publicBaseUrl directory now) moves := by
  have every : EveryState (oidcRequests jwt).system (fun pool =>
      Holds (OidcState.Good jwt Signed) (fun state flight => flight.Known jwt Signed state)
        pool ∧ SpentOnce pool)
      (booted providers publicBaseUrl directory now) moves := by
    refine everyState_of_invariant ?_ ?_ moves
    · intro pool move after both taken
      obtain ⟨holds, spentOnce⟩ := both
      exact ⟨holds_oidcRequests decodes pool move after holds taken,
        spentOnce_preserved holds.1.pending spentOnce taken⟩
    · refine ⟨holds_booted providers publicBaseUrl directory now, ?_⟩
      refine ⟨?_, ?_, ?_⟩ <;> simp [spent, booted, held]
  refine every.mono fun pool both => ?_
  obtain ⟨⟨good, _⟩, spentOnce⟩ := both
  have distinct : (held Flight.tokens pool.threads ++
      pool.shared.sessions.map Issued.stateToken).Nodup := spentOnce.once
  exact ⟨fun issued present => good.genuine present, distinct.of_append_right⟩

end Runs

/-! ### A slow sign-in -/

/-- The claims of one ID token. -/
def aliceClaims : IdTokenClaims where
  sub := "alice"
  iss := "https://idp.example/"
  aud := .string "client"
  exp := 4000
  nonce := some "nonce"

/-- The provider has signed this token and no other. -/
def SignedForAlice (key : String) (algorithm : Algorithm) (token : String)
    (claims : IdTokenClaims) : Prop :=
  key = "n.AQAB" ∧ algorithm = .rs256 ∧ token = "token" ∧ claims = aliceClaims

/-- The token library where there is no other token. Its header names no key. -/
def aliceJwt : Jsonwebtoken String where
  decodeHeader := fun token =>
    if token = "token" then .ok ⟨none, .rs256⟩ else .error "InvalidToken"
  fromRsaComponents := fun n e => .ok s!"{n}.{e}"
  fromEcComponents := fun x y => .ok s!"{x}.{y}"
  decode := fun clock token key validation =>
    if key = "n.AQAB" ∧ validation.algorithm = .rs256 ∧ token = "token" ∧
        validation.Accepts clock aliceClaims then
      .ok aliceClaims
    else
      .error "InvalidToken"

theorem aliceJwt_decodesSigned : aliceJwt.DecodesSigned SignedForAlice := by
  intro clock token key validation claims
  unfold aliceJwt SignedForAlice
  constructor
  · intro decoded
    dsimp only at decoded
    split_ifs at decoded with accepted
    cases decoded
    obtain ⟨sameKey, sameAlgorithm, sameToken, accepts⟩ := accepted
    exact ⟨⟨sameKey, sameAlgorithm, sameToken, rfl⟩, accepts⟩
  · rintro ⟨⟨sameKey, sameAlgorithm, sameToken, rfl⟩, accepts⟩
    exact if_pos ⟨sameKey, sameAlgorithm, sameToken, accepts⟩

/-- A server with one provider and no accounts. -/
def aliceServer : OidcPool :=
  booted [⟨"p1", "https://idp.example", "client", "", "openid", true⟩]
    "https://maps.example" ⟨.empty, .empty, true⟩ 0

/-- The callback arrives a second before its flow expires, the provider takes two
seconds to answer, and then the callback is replayed. -/
def slowSignIn : List OidcMove :=
  [.spawn (.start "p1"), .advance 0 .loadProvider, .advance 0 .findDiscovery,
    .advance 0 (.discovered (.ok ⟨"https://idp.example/", "https://idp.example/authorize",
      "https://idp.example/token", "https://idp.example/keys"⟩)),
    .advance 0 (.begin "nonce" "verifier" "state"),
    .outside (.wait 599000000000), .outside .prune,
    .spawn (.callback "p1" ⟨some "code", some "state", none, none⟩),
    .advance 1 .loadProvider, .advance 1 .findDiscovery, .outside (.wait 2000000000),
    .advance 1 (.exchanged (.ok "token")), .advance 1 (.findJwks 3000),
    .advance 1 (.fetchedJwks
      (.ok ⟨[⟨some "k1", "RSA", some "RS256", some "n", some "AQAB", none, none⟩]⟩) 3000),
    .advance 1 (.resolve .load), .advance 1 (.resolve (.createUser "u1" 0)),
    .advance 1 (.resolve .link), .advance 1 (.resolve .issue),
    .spawn (.callback "p1" ⟨some "code", some "state", none, none⟩)]

/-- The slow sign-in yields a session, and the replay does not. -/
theorem sessionsGenuine_of_decodesSigned_slow :
    aliceJwt.DecodesSigned SignedForAlice ∧
      EveryState (oidcRequests aliceJwt).system (SessionsGenuine aliceJwt SignedForAlice)
        aliceServer slowSignIn ∧
      (exec (oidcRequests aliceJwt).system aliceServer slowSignIn).map
        (fun pool => pool.shared.sessions.map Issued.stateToken) = some ["state"] :=
  ⟨aliceJwt_decodesSigned,
    sessionsGenuine_of_decodesSigned aliceJwt_decodesSigned _ _ _ _ slowSignIn,
    by decide +kernel⟩

/-- The session is issued more than ten minutes after its start, the issuer in its token
is not the configured one to the letter, and its header names no key. -/
theorem slowSignIn_not_to_the_letter :
    aliceJwt.DecodesSigned SignedForAlice ∧
      ¬ EveryState (oidcRequests aliceJwt).system (fun pool =>
          ∀ issued ∈ pool.shared.sessions,
            issued.issuedAt ≤ issued.evidence.flow.startedAt + flowTtl)
        aliceServer slowSignIn ∧
      ¬ EveryState (oidcRequests aliceJwt).system (fun pool =>
          ∀ issued ∈ pool.shared.sessions,
            issued.evidence.claims.iss = issued.evidence.provider.issuer)
        aliceServer slowSignIn ∧
      ¬ EveryState (oidcRequests aliceJwt).system (fun pool =>
          ∀ issued ∈ pool.shared.sessions, issued.evidence.header.kid ≠ none)
        aliceServer slowSignIn :=
  ⟨aliceJwt_decodesSigned, by decide +kernel, by decide +kernel, by decide +kernel⟩

end Federation
end MindMapVault
