import MindMapVault.Federation.SignIns

/-!
# What a session rests on

Every operation of a request is one of a few steps, and what a request knows about the
past stays true whatever the others do, because the record of the past only grows. A
callback gathers its evidence in this way from the flow it took to the claims it
verified, so that a session that is issued is founded on all of it.
-/

namespace MindMapVault
namespace Federation

open Threads

/-! ### Steps -/

/-- The ways a request arrives. -/
inductive Arrival (state : OidcState) : OidcState → Flight → Prop
  | turnedAway (flows : OidcFlows) (reply : Except AppError Answer)
      (fewer : ∀ token flow, flows.pending token = some flow →
        state.flows.pending token = some flow) :
      Arrival state { state with flows := flows } (.answered reply)
  | starting (id : String) : Arrival state state (.enabling .start id)
  | returned (id code token : String) (flow : PendingFlow)
      (taken : (state.flows.take token state.now).2 = some flow)
      (sameProvider : flow.providerId = id) :
      Arrival state { state with flows := (state.flows.take token state.now).1 }
        (.enabling (.callback ⟨code, token, flow, state.now⟩) id)

/-- The steps of a request. -/
inductive Step {Key : Type} (jwt : Jsonwebtoken Key) (state : OidcState) :
    Flight → OidcState → Flight → Prop
  | refused (flight : Flight) (error : AppError) :
      Step jwt state flight state (.answered (.error error))
  | loaded (errand : Errand) (provider : OidcProvider)
      (listed : provider ∈ state.providers) (enabled : provider.enabled = true) :
      Step jwt state (.enabling errand provider.id) state (.looking errand provider)
  | missed (errand : Errand) (provider : OidcProvider) :
      Step jwt state (.looking errand provider) state (.discovering errand provider)
  | recalled (errand : Errand) (provider : OidcProvider) (discovery : OidcDiscovery)
      (cached : state.cache.findDiscovery provider.issuer state.now = some discovery) :
      Step jwt state (.looking errand provider) state (afterDiscovery errand provider discovery)
  | discovered (errand : Errand) (provider : OidcProvider) (discovery : OidcDiscovery)
      (issuer : trimEndSlashes discovery.issuer = trimEndSlashes provider.issuer) :
      Step jwt state (.discovering errand provider)
        (state.keepDiscovery provider.issuer discovery)
        (afterDiscovery errand provider discovery)
  | begun (provider : OidcProvider) (discovery : OidcDiscovery) (stateToken : String)
      (flow : PendingFlow) (request : AuthorizationRequest)
      (unused : state.Unused stateToken) (started : flow.startedAt = state.now) :
      Step jwt state (.redirecting provider discovery) (state.remember stateToken flow)
        (.answered (.ok (.authorize request)))
  | exchanged (contact : Contact) (idToken redirectUri : String) :
      Step jwt state (.exchanging contact)
        (state.redeem contact.discovery.tokenEndpoint
          (exchangeForm contact.provider contact.code contact.flow.pkceVerifier redirectUri))
        (.verifying contact idToken)
  | read (contact : Contact) (idToken : String) (header : Header)
      (decoded : jwt.decodeHeader idToken = .ok header) :
      Step jwt state (.verifying contact idToken) state (.fetchingKeys contact idToken header)
  | checked (contact : Contact) (idToken : String) (header : Header) (jwks : Jwks)
      (clock : Int) (decoded : jwt.decodeHeader idToken = .ok header)
      (cached : state.cache.findJwks contact.discovery.jwksUri state.now = some jwks) :
      Step jwt state (.verifying contact idToken) state
        (afterKeys jwt clock contact idToken header jwks)
  | fetched (contact : Contact) (idToken : String) (header : Header) (jwks : Jwks)
      (clock : Int) :
      Step jwt state (.fetchingKeys contact idToken header)
        (state.keepJwks contact.discovery.jwksUri jwks)
        (afterKeys jwt clock contact idToken header jwks)
  | resolved (evidence : Evidence) (callback next : Accounts.Callback)
      (directory : Accounts.Directory) :
      Step jwt state (.resolving evidence callback) { state with directory := directory }
        (.resolving evidence next)
  | failed (evidence : Evidence) (callback : Accounts.Callback)
      (directory : Accounts.Directory) (error : AppError) :
      Step jwt state (.resolving evidence callback) { state with directory := directory }
        (.answered (.error error))
  | issued (evidence : Evidence) (callback : Accounts.Callback)
      (directory : Accounts.Directory) (session : Accounts.Session) :
      Step jwt state (.resolving evidence callback)
        (state.issue directory evidence session) (.answered (.ok (.signedIn session)))

/-- A provider that is found is one of the list and enabled. -/
theorem enabledProvider_eq_ok {state : OidcState} {id : String} {provider : OidcProvider}
    (found : state.enabledProvider id = .ok provider) :
    provider ∈ state.providers ∧ provider.enabled = true ∧ provider.id = id := by
  unfold OidcState.enabledProvider at found
  split at found
  · cases found
  · rename_i listed
    split_ifs at found
    cases found
    obtain ⟨row, enabled⟩ := Option.filter_eq_some_iff.mp listed
    have named := List.find?_some row
    exact ⟨List.mem_of_find?_eq_some row, enabled, beq_iff_eq.mp named⟩

theorem arrival_consumeFlow (state : OidcState) (id code stateToken : String) :
    Arrival state (consumeFlow state id code stateToken).1
      (consumeFlow state id code stateToken).2 := by
  have fewer : ∀ token flow,
      (state.flows.take stateToken state.now).1.pending token = some flow →
        state.flows.pending token = some flow :=
    fun _ _ pending => (OidcFlows.take_pending_eq_some.mp pending).2
  have returned : ∀ flow, (state.flows.take stateToken state.now).2 = some flow →
      flow.providerId = id →
      Arrival state { state with flows := (state.flows.take stateToken state.now).1 }
        (.enabling (.callback ⟨code, stateToken, flow, state.now⟩) id) :=
    Arrival.returned id code stateToken
  unfold consumeFlow
  generalize state.flows.take stateToken state.now = taken at fewer returned
  obtain ⟨flows, found⟩ := taken
  cases found with
  | none => exact .turnedAway flows _ fewer
  | some flow =>
      by_cases sameProvider : flow.providerId = id
      · simp only [sameProvider, ne_eq, not_true_eq_false, if_false]
        exact returned flow rfl sameProvider
      · simp only [sameProvider, ne_eq, not_false_eq_true, if_true]
        exact .turnedAway flows _ fewer

/-- Every request arrives in one of these ways. -/
theorem arrival_beginRequest (state : OidcState) (request : OidcRequest) :
    Arrival state (beginRequest state request).1 (beginRequest state request).2 := by
  have turnedAway : ∀ reply, Arrival state state (.answered reply) := fun reply =>
    .turnedAway state.flows reply fun _ _ pending => pending
  cases request with
  | start id => exact .starting id
  | callback id query =>
      obtain ⟨code, stateToken, error, description⟩ := query
      cases error with
      | some error => exact turnedAway _
      | none =>
          cases code with
          | none => exact turnedAway _
          | some code =>
              cases stateToken with
              | none => exact turnedAway _
              | some stateToken => exact arrival_consumeFlow state id code stateToken

/-- What `advance` does is a step. -/
theorem step_of_advance {Key : Type} {jwt : Jsonwebtoken Key} {state after : OidcState}
    {before next : Flight} {act : Act} (taken : advance jwt state before act = some (after, next)) :
    Step jwt state before after next := by
  unfold advance at taken
  split at taken
  case h_1 errand id =>
    cases found : state.enabledProvider id with
    | error error =>
        rw [found] at taken
        cases taken
        exact .refused _ error
    | ok provider =>
        rw [found] at taken
        cases taken
        obtain ⟨listed, enabled, rfl⟩ := enabledProvider_eq_ok found
        exact .loaded errand provider listed enabled
  case h_2 =>
    cases taken
    exact .refused _ _
  case h_3 errand provider =>
    cases cached : state.cache.findDiscovery provider.issuer state.now with
    | some discovery =>
        rw [cached] at taken
        cases taken
        exact .recalled errand provider discovery cached
    | none =>
        rw [cached] at taken
        cases taken
        exact .missed errand provider
  case h_4 errand provider reply =>
    cases accepted : checkDiscovery provider reply with
    | error error =>
        rw [accepted] at taken
        cases taken
        exact .refused _ error
    | ok discovery =>
        rw [accepted] at taken
        cases taken
        exact .discovered errand provider discovery (checkDiscovery_eq_ok accepted).2
  case h_5 provider discovery nonce verifier stateToken =>
    split_ifs at taken with unused
    cases taken
    exact .begun provider discovery stateToken _ _ unused rfl
  case h_6 contact reply =>
    cases accepted : checkExchange reply with
    | error error =>
        rw [accepted] at taken
        cases taken
        exact .refused _ error
    | ok idToken =>
        rw [accepted] at taken
        cases taken
        exact .exchanged contact idToken _
  case h_7 contact idToken clock =>
    cases read : readHeader jwt idToken with
    | error error =>
        rw [read] at taken
        cases taken
        exact .refused _ error
    | ok header =>
        have decoded := Result.mapError_eq_ok.mp read
        cases cached : state.cache.findJwks contact.discovery.jwksUri state.now with
        | some jwks =>
            simp only [read, cached] at taken
            cases taken
            exact .checked contact idToken header jwks clock decoded cached
        | none =>
            simp only [read, cached] at taken
            cases taken
            exact .read contact idToken header decoded
  case h_8 contact idToken header reply clock =>
    cases accepted : checkJwks reply with
    | error error =>
        rw [accepted] at taken
        cases taken
        exact .refused _ error
    | ok jwks =>
        rw [accepted] at taken
        cases taken
        exact .fetched contact idToken header jwks clock
  case h_9 evidence callback act =>
    obtain ⟨⟨directory, moved⟩, _, same⟩ := Option.map_eq_some_iff.mp taken
    unfold afterResolve at same
    split at same
    · cases same
      exact .issued evidence callback directory _
    · cases same
      exact .failed evidence callback directory _
    · cases same
      exact .resolved evidence callback _ directory
  case h_10 => cases taken

/-! ### Knowledge -/

/-- Nothing of the past is lost. -/
structure OidcState.Extends (before after : OidcState) : Prop where
  configured : before.record.configured ⊆ after.record.configured
  starts : before.record.starts ⊆ after.record.starts
  documents : before.record.documents ⊆ after.record.documents
  tokenRequests : before.record.tokenRequests ⊆ after.record.tokenRequests
  keySets : before.record.keySets ⊆ after.record.keySets
  now : before.now ≤ after.now

/-- The flow that was taken is one that was started, and was in time when it was
taken. -/
structure Visit.Known (state : OidcState) (visit : Visit) : Prop where
  started : ⟨visit.stateToken, visit.flow⟩ ∈ state.record.starts
  afterStart : visit.flow.startedAt ≤ visit.takenAt
  inTime : visit.flow.InTime visit.takenAt
  past : visit.takenAt ≤ state.now

/-- The errand is with the provider it was started with. -/
def Errand.Known (state : OidcState) (id : String) : Errand → Prop
  | .start => True
  | .callback visit => visit.Known state ∧ visit.flow.providerId = id

/-- The provider was configured and enabled. -/
structure OidcProvider.Offered (state : OidcState) (provider : OidcProvider) : Prop where
  configured : provider ∈ state.record.configured
  enabled : provider.enabled = true

/-- The document was fetched from the provider, and announces the issuer that is
configured, up to slashes at the end. -/
structure OidcDiscovery.Announced
    (state : OidcState) (issuer : String) (discovery : OidcDiscovery) : Prop where
  document : (discoveryUrl issuer, discovery) ∈ state.record.documents
  issuer : trimEndSlashes discovery.issuer = trimEndSlashes issuer

/-- The callback talks to the provider it was started with, as it is configured. -/
structure Contact.Known (state : OidcState) (contact : Contact) : Prop where
  visit : contact.toVisit.Known state
  sameProvider : contact.flow.providerId = contact.provider.id
  offered : contact.provider.Offered state
  announced : contact.discovery.Announced state contact.provider.issuer

/-- The code was redeemed with the verifier of the flow. -/
def Contact.Redeemed (state : OidcState) (contact : Contact) : Prop :=
  ∃ redirectUri, (contact.discovery.tokenEndpoint,
    exchangeForm contact.provider contact.code contact.flow.pkceVerifier redirectUri) ∈
      state.record.tokenRequests

section Founded

variable {Key : Type} (jwt : Jsonwebtoken Key)
variable (Signed : Key → Algorithm → String → IdTokenClaims → Prop)

/-- The token is signed with the key its header names, and is meant for this sign-in. -/
structure Evidence.Verified (evidence : Evidence) : Prop where
  read : jwt.decodeHeader evidence.idToken = .ok evidence.header
  signed : ∃ jwk key, NamesKey evidence.jwks evidence.header.kid jwk ∧
    decodingKey jwt jwk = .ok key ∧
    Signed key (algorithmFor jwk evidence.header.alg) evidence.idToken evidence.claims
  issuer : evidence.claims.iss = evidence.discovery.issuer
  audience : evidence.provider.clientId ∈ evidence.claims.audiences
  nonce : evidence.claims.nonce = some evidence.flow.nonce

/-- What a session rests on. -/
structure Evidence.Founded (state : OidcState) (evidence : Evidence) : Prop where
  known : evidence.toContact.Known state
  redeemed : evidence.toContact.Redeemed state
  keySet : (evidence.discovery.jwksUri, evidence.jwks) ∈ state.record.keySets
  verified : evidence.Verified jwt Signed

/-- What a request under way knows. -/
def Flight.Known (state : OidcState) : Flight → Prop
  | .enabling errand id => errand.Known state id
  | .looking errand provider | .discovering errand provider =>
      errand.Known state provider.id ∧ provider.Offered state
  | .redirecting _ _ => True
  | .exchanging contact => contact.Known state
  | .verifying contact _ => contact.Known state ∧ contact.Redeemed state
  | .fetchingKeys contact idToken header =>
      contact.Known state ∧ contact.Redeemed state ∧ jwt.decodeHeader idToken = .ok header
  | .resolving evidence _ => evidence.Founded jwt Signed state
  | .answered _ => True

/-- What holds of the server: flows and cached documents have a past, no token was drawn
twice, and every session is founded. -/
structure OidcState.Good (state : OidcState) : Prop where
  listed : state.providers ⊆ state.record.configured
  distinct : (state.record.starts.map Start.stateToken).Nodup
  past : ∀ start ∈ state.record.starts, start.flow.startedAt ≤ state.now
  pending : ∀ token flow, state.flows.pending token = some flow →
    ⟨token, flow⟩ ∈ state.record.starts
  discovery : ∀ issuer entry, state.cache.discovery issuer = some entry →
    entry.value.Announced state issuer
  jwks : ∀ uri entry, state.cache.jwks uri = some entry → (uri, entry.value) ∈ state.record.keySets
  issued : ∀ issued ∈ state.sessions,
    issued.evidence.Founded jwt Signed state ∧
      issued.evidence.takenAt ≤ issued.issuedAt ∧ issued.issuedAt ≤ state.now

end Founded

/-! ### The past grows -/

namespace OidcState

/-- A step that leaves the record extends it. -/
theorem extends_of_record_eq {before after : OidcState}
    (record : after.record = before.record) (now : before.now ≤ after.now) :
    before.Extends after := by
  constructor
  case now => exact now
  all_goals
    rw [record]
    exact List.Subset.refl _

variable (state : OidcState)

theorem extends_keepDiscovery (issuer : String) (discovery : OidcDiscovery) :
    state.Extends (state.keepDiscovery issuer discovery) where
  configured := List.Subset.refl _
  starts := List.Subset.refl _
  documents := List.subset_cons_self _ _
  tokenRequests := List.Subset.refl _
  keySets := List.Subset.refl _
  now := Nat.le_refl _

theorem extends_keepJwks (uri : String) (jwks : Jwks) :
    state.Extends (state.keepJwks uri jwks) where
  configured := List.Subset.refl _
  starts := List.Subset.refl _
  documents := List.Subset.refl _
  tokenRequests := List.Subset.refl _
  keySets := List.subset_cons_self _ _
  now := Nat.le_refl _

theorem extends_remember (stateToken : String) (flow : PendingFlow) :
    state.Extends (state.remember stateToken flow) where
  configured := List.Subset.refl _
  starts := List.subset_cons_self _ _
  documents := List.Subset.refl _
  tokenRequests := List.Subset.refl _
  keySets := List.Subset.refl _
  now := Nat.le_refl _

theorem extends_redeem (endpoint : String) (form : List (String × String)) :
    state.Extends (state.redeem endpoint form) where
  configured := List.Subset.refl _
  starts := List.Subset.refl _
  documents := List.Subset.refl _
  tokenRequests := List.subset_cons_self _ _
  keySets := List.Subset.refl _
  now := Nat.le_refl _

end OidcState

section Grows

variable {Key : Type} {jwt : Jsonwebtoken Key}
variable {Signed : Key → Algorithm → String → IdTokenClaims → Prop}
variable {state after : OidcState} {before next : Flight}

/-- The record grows when a request arrives. -/
theorem Arrival.grows (arrival : Arrival state after next) : state.Extends after := by
  cases arrival with
  | turnedAway flows reply fewer => exact OidcState.extends_of_record_eq rfl (Nat.le_refl _)
  | starting id => exact OidcState.extends_of_record_eq rfl (Nat.le_refl _)
  | returned id code token flow taken sameProvider =>
      exact OidcState.extends_of_record_eq rfl (Nat.le_refl _)

/-- The record grows with every step of a request. -/
theorem Step.grows (step : Step jwt state before after next) : state.Extends after := by
  have same : ∀ {other : OidcState}, other.record = state.record →
      other.now = state.now → state.Extends other := fun record now =>
    OidcState.extends_of_record_eq record (Nat.le_of_eq now.symm)
  cases step with
  | refused error => exact same rfl rfl
  | loaded errand provider listed enabled => exact same rfl rfl
  | missed errand provider => exact same rfl rfl
  | recalled errand provider discovery cached => exact same rfl rfl
  | discovered errand provider discovery issuer => exact state.extends_keepDiscovery _ _
  | begun provider discovery stateToken flow request unused started =>
      exact state.extends_remember _ _
  | exchanged contact idToken redirectUri => exact state.extends_redeem _ _
  | read contact idToken header decoded => exact same rfl rfl
  | checked contact idToken header jwks clock decoded cached => exact same rfl rfl
  | fetched contact idToken header jwks clock => exact state.extends_keepJwks _ _
  | resolved evidence callback other directory => exact same rfl rfl
  | failed evidence callback directory error => exact same rfl rfl
  | issued evidence callback directory session => exact same rfl rfl

/-- The record grows with every event. -/
theorem grows_oidcEvent {event : OidcEvent} (taken : oidcEvent state event = some after) :
    state.Extends after := by
  cases event with
  | wait elapsed =>
      cases taken
      exact OidcState.extends_of_record_eq rfl (Nat.le_add_right _ _)
  | prune =>
      cases taken
      exact OidcState.extends_of_record_eq rfl (Nat.le_refl _)
  | configure providers =>
      cases taken
      constructor
      case configured => exact List.subset_append_right _ _
      case now => exact Nat.le_refl _
      all_goals exact List.Subset.refl _
  | directory event =>
      obtain ⟨directory, _, rfl⟩ := Option.map_eq_some_iff.mp taken
      exact OidcState.extends_of_record_eq rfl (Nat.le_refl _)

/-- What is known of a visit stays so. -/
theorem Visit.Known.mono {visit : Visit} (known : visit.Known state)
    (grows : state.Extends after) : visit.Known after where
  started := grows.starts known.started
  afterStart := known.afterStart
  inTime := known.inTime
  past := Nat.le_trans known.past grows.now

theorem Errand.Known.mono {errand : Errand} {id : String} (known : errand.Known state id)
    (grows : state.Extends after) : errand.Known after id := by
  cases errand with
  | start => trivial
  | callback visit => exact ⟨known.1.mono grows, known.2⟩

theorem OidcProvider.Offered.mono {provider : OidcProvider}
    (offered : provider.Offered state) (grows : state.Extends after) :
    provider.Offered after where
  configured := grows.configured offered.configured
  enabled := offered.enabled

theorem OidcDiscovery.Announced.mono {issuer : String} {discovery : OidcDiscovery}
    (announced : discovery.Announced state issuer) (grows : state.Extends after) :
    discovery.Announced after issuer where
  document := grows.documents announced.document
  issuer := announced.issuer

theorem Contact.Known.mono {contact : Contact} (known : contact.Known state)
    (grows : state.Extends after) : contact.Known after where
  visit := known.visit.mono grows
  sameProvider := known.sameProvider
  offered := known.offered.mono grows
  announced := known.announced.mono grows

theorem Contact.Redeemed.mono {contact : Contact} (redeemed : contact.Redeemed state)
    (grows : state.Extends after) : contact.Redeemed after := by
  obtain ⟨redirectUri, posted⟩ := redeemed
  exact ⟨redirectUri, grows.tokenRequests posted⟩

theorem Evidence.Founded.mono {evidence : Evidence}
    (founded : evidence.Founded jwt Signed state) (grows : state.Extends after) :
    evidence.Founded jwt Signed after where
  known := founded.known.mono grows
  redeemed := founded.redeemed.mono grows
  keySet := grows.keySets founded.keySet
  verified := founded.verified

theorem Flight.Known.mono {flight : Flight} (known : flight.Known jwt Signed state)
    (grows : state.Extends after) : flight.Known jwt Signed after := by
  cases flight with
  | enabling errand id => exact Errand.Known.mono known grows
  | looking errand provider => exact ⟨known.1.mono grows, known.2.mono grows⟩
  | discovering errand provider => exact ⟨known.1.mono grows, known.2.mono grows⟩
  | redirecting provider discovery => trivial
  | exchanging contact => exact Contact.Known.mono known grows
  | verifying contact idToken => exact ⟨known.1.mono grows, known.2.mono grows⟩
  | fetchingKeys contact idToken header =>
      exact ⟨known.1.mono grows, known.2.1.mono grows, known.2.2⟩
  | resolving evidence callback => exact Evidence.Founded.mono known grows
  | answered reply => trivial

end Grows

/-! ### Every step keeps it -/

theorem Cached.value_of_fresh {α : Type} {now : Nat} {entry : Cached α} {value : α}
    (fresh : entry.fresh now = some value) : entry.value = value := by
  unfold Cached.fresh at fresh
  split_ifs at fresh
  exact Option.some.inj fresh

section Kept

variable {Key : Type} {jwt : Jsonwebtoken Key}
variable {Signed : Key → Algorithm → String → IdTokenClaims → Prop}
variable {state after : OidcState} {before next : Flight}

/-- What is found in the cache was fetched. -/
theorem OidcState.Good.announced (good : state.Good jwt Signed) {issuer : String}
    {discovery : OidcDiscovery}
    (cached : state.cache.findDiscovery issuer state.now = some discovery) :
    discovery.Announced state issuer := by
  obtain ⟨entry, there, fresh⟩ := Option.bind_eq_some_iff.mp cached
  rw [← Cached.value_of_fresh fresh]
  exact good.discovery issuer entry there

/-- Keys that are cached were once answered. -/
theorem OidcState.Good.mem_keySets (good : state.Good jwt Signed) {uri : String}
    {jwks : Jwks} (cached : state.cache.findJwks uri state.now = some jwks) :
    (uri, jwks) ∈ state.record.keySets := by
  obtain ⟨entry, there, fresh⟩ := Option.bind_eq_some_iff.mp cached
  rw [← Cached.value_of_fresh fresh]
  exact good.jwks uri entry there

/-- The errand goes on with the provider it found. -/
theorem known_afterDiscovery {errand : Errand} {provider : OidcProvider}
    {discovery : OidcDiscovery} (known : errand.Known state provider.id)
    (offered : provider.Offered state) (announced : discovery.Announced state provider.issuer) :
    (afterDiscovery errand provider discovery).Known jwt Signed state := by
  cases errand with
  | start => trivial
  | callback visit => exact ⟨known.1, known.2, offered, announced⟩

/-- A token that passes the checks is evidence. -/
theorem known_afterKeys (decodes : jwt.DecodesSigned Signed) {clock : Int}
    {contact : Contact} {idToken : String} {header : Header} {jwks : Jwks}
    (known : contact.Known state) (redeemed : contact.Redeemed state)
    (read : jwt.decodeHeader idToken = .ok header)
    (keySet : (contact.discovery.jwksUri, jwks) ∈ state.record.keySets) :
    (afterKeys jwt clock contact idToken header jwks).Known jwt Signed state := by
  unfold afterKeys
  split
  · trivial
  · rename_i claims verified
    obtain ⟨jwk, key, names, built, decoded, nonce⟩ := verifyIdToken_eq_ok verified
    obtain ⟨signed, accepts⟩ := (decodes _ _ _ _ _).mp decoded
    obtain ⟨audience, carried, wanted⟩ := accepts.audience
    have asked : audience = contact.provider.clientId := List.mem_singleton.mp wanted
    exact {
      known := known
      redeemed := redeemed
      keySet := keySet
      verified := {
        read := read
        signed := ⟨jwk, key, names, built, signed⟩
        issuer := List.mem_singleton.mp accepts.issuer
        audience := asked ▸ carried
        nonce := nonce } }

/-- A request that arrives is known. -/
theorem Arrival.known (good : state.Good jwt Signed) (arrival : Arrival state after next) :
    next.Known jwt Signed after := by
  cases arrival with
  | turnedAway flows reply fewer => trivial
  | starting id => trivial
  | returned id code token flow taken sameProvider =>
      obtain ⟨pending, inTime⟩ := OidcFlows.take_eq_some.mp taken
      have started := good.pending token flow pending
      exact ⟨⟨started, good.past _ started, inTime, Nat.le_refl _⟩, sameProvider⟩

/-- A request stays known in each of its steps. -/
theorem Step.known (decodes : jwt.DecodesSigned Signed) (good : state.Good jwt Signed)
    (known : before.Known jwt Signed state) (step : Step jwt state before after next) :
    next.Known jwt Signed after := by
  have grows := step.grows
  cases step with
  | refused error => trivial
  | loaded errand provider listed enabled =>
      exact ⟨known, good.listed listed, enabled⟩
  | missed errand provider => exact known
  | recalled errand provider discovery cached =>
      exact known_afterDiscovery known.1 known.2 (good.announced cached)
  | discovered errand provider discovery issuer =>
      exact known_afterDiscovery (known.1.mono grows) (known.2.mono grows)
        ⟨List.mem_cons_self, issuer⟩
  | begun provider discovery stateToken flow request unused started => trivial
  | exchanged contact idToken redirectUri =>
      exact ⟨Contact.Known.mono known grows, redirectUri, List.mem_cons_self⟩
  | read contact idToken header decoded => exact ⟨known.1, known.2, decoded⟩
  | checked contact idToken header jwks clock decoded cached =>
      exact known_afterKeys decodes known.1 known.2 decoded (good.mem_keySets cached)
  | fetched contact idToken header jwks clock =>
      exact known_afterKeys decodes (known.1.mono grows) (known.2.1.mono grows) known.2.2
        List.mem_cons_self
  | resolved evidence callback other directory => exact Evidence.Founded.mono known grows
  | failed evidence callback directory error => trivial
  | issued evidence callback directory session => trivial

/-- Sessions stay founded. -/
theorem OidcState.Good.issued_mono (good : state.Good jwt Signed)
    (grows : state.Extends after) (sessions : after.sessions = state.sessions) :
    ∀ issued ∈ after.sessions, issued.evidence.Founded jwt Signed after ∧
      issued.evidence.takenAt ≤ issued.issuedAt ∧ issued.issuedAt ≤ after.now := by
  rw [sessions]
  intro issued present
  obtain ⟨founded, later, past⟩ := good.issued issued present
  exact ⟨founded.mono grows, later, Nat.le_trans past grows.now⟩

/-- Flows may be forgotten, and accounts may change. -/
theorem OidcState.Good.forget (good : state.Good jwt Signed) {flows : OidcFlows}
    (fewer : ∀ token flow, flows.pending token = some flow →
      state.flows.pending token = some flow) (directory : Accounts.Directory) :
    OidcState.Good jwt Signed { state with flows := flows, directory := directory } where
  listed := good.listed
  distinct := good.distinct
  past := good.past
  pending := fun token flow pending => good.pending token flow (fewer token flow pending)
  discovery := fun issuer entry there =>
    (good.discovery issuer entry there).mono (extends_of_record_eq rfl (Nat.le_refl _))
  jwks := good.jwks
  issued := good.issued_mono (extends_of_record_eq rfl (Nat.le_refl _)) rfl

/-- Time passes, and nothing that was kept is younger. -/
theorem OidcState.Good.wait (good : state.Good jwt Signed) (elapsed : Nat) :
    OidcState.Good jwt Signed { state with now := state.now + elapsed } where
  listed := good.listed
  distinct := good.distinct
  past := fun start present => Nat.le_add_right_of_le (good.past start present)
  pending := good.pending
  discovery := fun issuer entry there =>
    (good.discovery issuer entry there).mono (extends_of_record_eq rfl (Nat.le_add_right _ _))
  jwks := good.jwks
  issued := good.issued_mono (extends_of_record_eq rfl (Nat.le_add_right _ _)) rfl

theorem OidcState.Good.keepDiscovery (good : state.Good jwt Signed) {issuer : String}
    {discovery : OidcDiscovery} (same : trimEndSlashes discovery.issuer = trimEndSlashes issuer) :
    (state.keepDiscovery issuer discovery).Good jwt Signed where
  listed := good.listed
  distinct := good.distinct
  past := good.past
  pending := good.pending
  discovery := by
    intro other entry there
    by_cases isNew : other = issuer
    · subst isNew
      have new : (⟨discovery, state.now⟩ : Cached OidcDiscovery) = entry := by
        simpa [OidcState.keepDiscovery, OidcCache.putDiscovery] using there
      subst new
      exact ⟨List.mem_cons_self, same⟩
    · have old : state.cache.discovery other = some entry := by
        simpa [OidcState.keepDiscovery, OidcCache.putDiscovery, isNew] using there
      exact (good.discovery other entry old).mono (state.extends_keepDiscovery _ _)
  jwks := good.jwks
  issued := good.issued_mono (state.extends_keepDiscovery _ _) rfl

theorem OidcState.Good.keepJwks (good : state.Good jwt Signed) (uri : String)
    (jwks : Jwks) : (state.keepJwks uri jwks).Good jwt Signed where
  listed := good.listed
  distinct := good.distinct
  past := good.past
  pending := good.pending
  discovery := fun issuer entry there =>
    (good.discovery issuer entry there).mono (state.extends_keepJwks _ _)
  jwks := by
    intro other entry there
    by_cases isNew : other = uri
    · subst isNew
      have new : (⟨jwks, state.now⟩ : Cached Jwks) = entry := by
        simpa [OidcState.keepJwks, OidcCache.putJwks] using there
      subst new
      exact List.mem_cons_self
    · have old : state.cache.jwks other = some entry := by
        simpa [OidcState.keepJwks, OidcCache.putJwks, isNew] using there
      exact List.mem_cons_of_mem _ (good.jwks other entry old)
  issued := good.issued_mono (state.extends_keepJwks _ _) rfl

/-- A start is remembered under a token no other start has. -/
theorem OidcState.Good.remember (good : state.Good jwt Signed) {stateToken : String}
    {flow : PendingFlow} (unused : state.Unused stateToken) (started : flow.startedAt = state.now) :
    (state.remember stateToken flow).Good jwt Signed where
  listed := good.listed
  distinct := List.nodup_cons.mpr ⟨unused, good.distinct⟩
  past := List.forall_mem_cons.mpr ⟨Nat.le_of_eq started, good.past⟩
  pending := by
    intro token found pending
    rcases OidcFlows.begin_pending_eq_some.mp pending with ⟨rfl, rfl⟩ | ⟨_, old⟩
    · exact List.mem_cons_self
    · exact List.mem_cons_of_mem _ (good.pending token found old)
  discovery := fun issuer entry there =>
    (good.discovery issuer entry there).mono (state.extends_remember _ _)
  jwks := good.jwks
  issued := good.issued_mono (state.extends_remember _ _) rfl

/-- Asking for a token leaves the state good. -/
theorem OidcState.Good.redeem (good : state.Good jwt Signed) (endpoint : String)
    (form : List (String × String)) :
    (state.redeem endpoint form).Good jwt Signed where
  listed := good.listed
  distinct := good.distinct
  past := good.past
  pending := good.pending
  discovery := fun issuer entry there =>
    (good.discovery issuer entry there).mono (state.extends_redeem _ _)
  jwks := good.jwks
  issued := good.issued_mono (state.extends_redeem _ _) rfl

/-- A session is issued on what its callback knows. -/
theorem OidcState.Good.issue (good : state.Good jwt Signed)
    (directory : Accounts.Directory) {evidence : Evidence}
    (founded : evidence.Founded jwt Signed state) (session : Accounts.Session) :
    (state.issue directory evidence session).Good jwt Signed where
  listed := good.listed
  distinct := good.distinct
  past := good.past
  pending := good.pending
  discovery := fun issuer entry there =>
    (good.discovery issuer entry there).mono (extends_of_record_eq rfl (Nat.le_refl _))
  jwks := good.jwks
  issued := by
    have grows : state.Extends (state.issue directory evidence session) :=
      extends_of_record_eq rfl (Nat.le_refl _)
    refine List.forall_mem_cons.mpr ⟨?_, ?_⟩
    · exact ⟨founded.mono grows, founded.known.visit.past, Nat.le_refl _⟩
    · intro issued present
      obtain ⟨old, later, past⟩ := good.issued issued present
      exact ⟨old.mono grows, later, past⟩

/-- So does a change of the list of providers. -/
theorem OidcState.Good.configure (good : state.Good jwt Signed) (providers : List OidcProvider)
    (taken : oidcEvent state (.configure providers) = some after) :
    after.Good jwt Signed := by
  have grows := grows_oidcEvent taken
  cases taken
  exact {
    listed := List.subset_append_left _ _
    distinct := good.distinct
    past := good.past
    pending := good.pending
    discovery := fun issuer entry there => (good.discovery issuer entry there).mono grows
    jwks := good.jwks
    issued := good.issued_mono grows rfl }

theorem Arrival.good (good : state.Good jwt Signed) (arrival : Arrival state after next) :
    after.Good jwt Signed := by
  cases arrival with
  | turnedAway flows reply fewer => exact good.forget fewer state.directory
  | starting id => exact good
  | returned id code token flow taken sameProvider =>
      exact good.forget
        (fun _ _ pending => (OidcFlows.take_pending_eq_some.mp pending).2) state.directory

/-- Every step of a request leaves the state good, and what it learns is what was answered. -/
theorem Step.good (good : state.Good jwt Signed) (known : before.Known jwt Signed state)
    (step : Step jwt state before after next) : after.Good jwt Signed := by
  have moved : ∀ directory, OidcState.Good jwt Signed { state with directory := directory } :=
    fun directory => good.forget (fun _ _ pending => pending) directory
  cases step with
  | refused error => exact good
  | loaded errand provider listed enabled => exact good
  | missed errand provider => exact good
  | recalled errand provider discovery cached => exact good
  | discovered errand provider discovery issuer => exact good.keepDiscovery issuer
  | begun provider discovery stateToken flow request unused started =>
      exact good.remember unused started
  | exchanged contact idToken redirectUri => exact good.redeem _ _
  | read contact idToken header decoded => exact good
  | checked contact idToken header jwks clock decoded cached => exact good
  | fetched contact idToken header jwks clock => exact good.keepJwks _ _
  | resolved evidence callback other directory => exact moved directory
  | failed evidence callback directory error => exact moved directory
  | issued evidence callback directory session => exact good.issue directory known session

theorem good_oidcEvent (good : state.Good jwt Signed) {event : OidcEvent}
    (taken : oidcEvent state event = some after) : after.Good jwt Signed := by
  cases event with
  | wait elapsed =>
      cases taken
      exact good.wait elapsed
  | prune =>
      cases taken
      exact good.forget (fun _ _ pending => (OidcFlows.prune_pending_eq_some.mp pending).1)
        state.directory
  | configure providers => exact good.configure providers taken
  | directory event =>
      obtain ⟨directory, _, rfl⟩ := Option.map_eq_some_iff.mp taken
      exact good.forget (fun _ _ pending => pending) directory

/-- The invariant of the server and of what its requests know. -/
theorem holds_oidcRequests (decodes : jwt.DecodesSigned Signed)
    (pool : OidcPool) (move : OidcMove) (after : OidcPool)
    (holds : Holds (OidcState.Good jwt Signed) (fun state flight =>
      flight.Known jwt Signed state) pool)
    (taken : (oidcRequests jwt).system pool move = some after) :
    Holds (OidcState.Good jwt Signed) (fun state flight =>
      flight.Known jwt Signed state) after := by
  refine holds_preserved (fun _ _ => True) ?_ ?_ ?_ pool move after holds trivial taken
  · intro pool event state ⟨good, _⟩ _ action
    exact ⟨good_oidcEvent good action, fun flight known => known.mono (grows_oidcEvent action)⟩
  · intro pool request state flight ⟨good, _⟩ _ action
    have arrival := arrival_beginRequest pool.shared request
    have same : beginRequest pool.shared request = (state, flight) := Option.some.inj action
    rw [same] at arrival
    exact ⟨arrival.good good, arrival.known good, fun flight known => known.mono arrival.grows⟩
  · intro pool thread act before state flight ⟨good, _⟩ _ _ known action
    have step := step_of_advance action
    exact ⟨step.good good known, step.known decodes good known,
      fun flight known => known.mono step.grows⟩

/-- A server that has just started is good. -/
theorem holds_booted (providers : List OidcProvider) (publicBaseUrl : String)
    (directory : Accounts.Directory) (now : Nat) :
    Holds (OidcState.Good jwt Signed) (fun state flight => flight.Known jwt Signed state)
      (booted providers publicBaseUrl directory now) := by
  refine ⟨?_, by simp [booted]⟩
  exact {
    listed := List.Subset.refl _
    distinct := List.nodup_nil
    past := by simp [booted]
    pending := by simp [booted]
    discovery := by simp [booted, OidcCache.new]
    jwks := by simp [booted, OidcCache.new]
    issued := by simp [booted] }

end Kept

end Federation
end MindMapVault
