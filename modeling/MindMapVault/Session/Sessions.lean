import MindMapVault.Session.Requests

/-!
# Whose token is in the store

An access token that comes back from a refresh is stored whatever has become of the
session meanwhile. The store keeps to one account in every state of a run exactly when
each granted token still finds a session of the account it was asked for, and that is so
when nobody signs in or out while a request is under way. Whatever the order, a request is
sent twice at most, with one granted refresh in between.
-/

namespace MindMapVault
namespace Session

open Threads Transition

section Runs

/-- An account by the first letter of its tokens. -/
def letter (token : String) : Option Char := token.toList.head?

/-- A page nobody signed in to. -/
def newPage : Pool (Page Unit) (Request Unit) := ⟨⟨.signedOut, some .server, 0⟩, []⟩

/-- A call that reads the vaults. -/
def listVaults : Call := ⟨.json, "/mindmaps", ⟨none, none, []⟩⟩

/-- An answer without a body. -/
def answerOf (status : Nat) : Response Unit := ⟨status, "", some (), none, none⟩

/-- Someone signs in, and a call is met with a 401. -/
def refreshUnderWay : List (Move (PageEvent Unit) Call (Continuation Unit)) :=
  [.outside (.setTokens "a1" "a2" "ann"), .spawn listVaults,
    .advance 0 (.answered (some (answerOf 401)))]

/-- The refresh is granted, and the call goes out once more. -/
def refreshedCall : List (Move (PageEvent Unit) Call (Continuation Unit)) :=
  refreshUnderWay ++ [.advance 0 (.granted (some "a3")), .advance 0 .resumed,
    .advance 0 (.answered (some (answerOf 200)))]

/-- The session is signed out while the refresh is under way. -/
def signedOutMeanwhile : List (Move (PageEvent Unit) Call (Continuation Unit)) :=
  refreshUnderWay ++ [.outside .logout, .advance 0 (.granted (some "a3"))]

end Runs

section Coherent

variable {Keys Body Account : Type} (account : String → Account)

/-- An access token is in the store beside a refresh token of the same account only. -/
def Coherent (store : AuthState Keys) : Prop :=
  truthy store.accessToken = true → truthy store.refreshToken = true ∧
    account (store.accessToken.getD "") = account (store.refreshToken.getD "")

instance [DecidableEq Account] (store : AuthState Keys) : Decidable (Coherent account store) := by
  unfold Coherent
  infer_instance

/-- A granted access token finds a session of the account it was asked for. -/
def AnswerKept (pool : Pool (Page Keys) (Request Body)) :
    Move (PageEvent Keys) Call (Continuation Body) → Prop
  | .advance thread (.granted (some _)) =>
      ∀ request ∈ pool.threads[thread]?, truthy pool.shared.store.refreshToken = true ∧
        account (request.refreshToken.getD "") = account (pool.shared.store.refreshToken.getD "")
  | _ => True

instance [DecidableEq Account] (pool : Pool (Page Keys) (Request Body))
    (move : Move (PageEvent Keys) Call (Continuation Body)) :
    Decidable (AnswerKept account pool move) := by
  unfold AnswerKept
  split <;> infer_instance

variable {account}

theorem coherent_setTokens {access refresh : String} (state : AuthState Keys)
    (username : String) (paired : Paired account access refresh) :
    Coherent account (state.setTokens access refresh username) := by
  intro given
  have nonempty : access ≠ "" := truthy_some.mp given
  rw [Paired, if_neg nonempty] at paired
  exact ⟨truthy_some.mpr paired.1, paired.2⟩

theorem coherent_logout (state : AuthState Keys) : Coherent account state.logout :=
  fun given => absurd given (by simp [AuthState.logout, AuthState.signedOut])

theorem coherent_setAccessToken {token : String} {state : AuthState Keys} (nonempty : token ≠ "") :
    Coherent account (state.setAccessToken token) ↔
      truthy state.refreshToken = true ∧ account token = account (state.refreshToken.getD "") :=
  ⟨fun coherent => coherent (truthy_some.mpr nonempty), fun kept _ => kept⟩

/-- A reload of the page finds a coherent store coherent. -/
theorem Coherent.partialize {state : AuthState Keys} (coherent : Coherent account state) :
    Coherent account state.partialize := coherent

/-- A coherent store without a refresh token lets nobody in but by the keys of a named
session. -/
theorem Coherent.isAuthenticated_eq {state : AuthState Keys} (coherent : Coherent account state)
    (ended : truthy state.refreshToken = false) :
    state.isAuthenticated = (truthy state.username && state.sessionKeys.isSome) := by
  have denied : truthy state.accessToken = false := by
    by_contra given
    have kept := coherent (by simpa using given)
    rw [ended] at kept
    exact absurd kept.1 (by decide)
  simp [AuthState.isAuthenticated, denied]

variable [DecidableEq Account]

/-- No event of a page mixes accounts. -/
theorem coherent_pageEvent {page page' : Page Keys} {event : PageEvent Keys}
    (coherent : Coherent account page.store)
    (taken : pageEvent account page event = some page') : Coherent account page'.store := by
  cases event with
  | setTokens access refresh username =>
      obtain ⟨paired, done⟩ := Option.ite_none_right_eq_some.mp taken
      cases done
      exact coherent_setTokens _ _ paired
  | setSessionKeys keys =>
      cases taken
      exact coherent
  | logout =>
      cases taken
      exact coherent_logout page.store
  | setMode mode =>
      cases taken
      exact coherent
  | load =>
      cases taken
      exact coherent.partialize

/-- What a request can do next. -/
theorem advance_cases {motive : Continuation Body → Page Keys → Request Body → Prop}
    {page page' : Page Keys} {request request' : Request Body}
    (answered : ∀ retry response, request.phase = .calling retry →
      motive (.answered response) page (request.answered retry response))
    (denied : request.phase = .refreshing →
      motive (.granted none) page { request with phase := .resuming false })
    (granted : ∀ token, request.phase = .refreshing → token ≠ "" →
      account token = account (request.refreshToken.getD "") →
        motive (.granted (some token)) { page with store := page.store.setAccessToken token }
          { request with phase := .resuming true, granted := true })
    (retried : request.phase = .resuming true →
      motive .resumed page
        { request with
          phase := .calling false
          fetched := request.fetched ++ [request.call.fetch page.store.accessToken] })
    (expired : request.phase = .resuming false →
      motive .resumed { page with store := page.store.logout }
        { request with phase := .over (.refused sessionExpired) })
    {act : Continuation Body}
    (taken : advance account page request act = some (page', request')) :
    motive act page' request' := by
  cases act with
  | answered response =>
      cases standing : request.phase <;> simp only [advance, standing] at taken
      case calling retry =>
        cases taken
        exact answered retry response standing
      all_goals cases taken
  | granted answer =>
      cases answer with
      | none =>
          cases standing : request.phase <;> simp only [advance, standing] at taken
          case refreshing =>
            cases taken
            exact denied standing
          all_goals cases taken
      | some token =>
          cases standing : request.phase <;> simp only [advance, standing] at taken
          case refreshing =>
            obtain ⟨⟨nonempty, same⟩, done⟩ := Option.ite_none_right_eq_some.mp taken
            cases done
            exact granted token standing nonempty same
          all_goals cases taken
  | resumed =>
      cases standing : request.phase <;> simp only [advance, standing] at taken
      case resuming refreshed =>
        cases refreshed with
        | true =>
            cases taken
            exact retried standing
        | false =>
            cases taken
            exact expired standing
      all_goals cases taken

/-- One move of a page leaves a coherent store coherent exactly when a granted token still
finds its session. -/
theorem coherent_next_iff {pool next : Pool (Page Keys) (Request Body)}
    {move : Move (PageEvent Keys) Call (Continuation Body)}
    (coherent : Coherent account pool.shared.store)
    (taken : (requests account).system pool move = some next) :
    Coherent account next.shared.store ↔ AnswerKept account pool move := by
  refine Program.system_cases (motive := fun move next =>
    Coherent account next.shared.store ↔ AnswerKept account pool move) ?_ ?_ ?_ taken
  · intro event page action
    exact iff_of_true (coherent_pageEvent coherent action) trivial
  · intro call page request action
    cases action
    exact iff_of_true coherent trivial
  · intro thread act before page after present action
    obtain ⟨-, action⟩ := Option.ite_none_right_eq_some.mp action
    refine advance_cases (motive := fun act page _ =>
      Coherent account page.store ↔ AnswerKept account pool (.advance thread act))
      ?answered ?denied ?granted ?retried ?expired action
    case answered => exact fun _ _ _ => iff_of_true coherent trivial
    case denied => exact fun _ => iff_of_true coherent trivial
    case retried => exact fun _ => iff_of_true coherent trivial
    case expired => exact fun _ => iff_of_true (coherent_logout pool.shared.store) trivial
    case granted =>
      intro token _ nonempty same
      rw [coherent_setAccessToken nonempty, same]
      simp [AnswerKept, present]

/-- In every run, the store keeps to one account in every state exactly when each access token
the server grants is stored while a session of the account it was asked for is there. -/
theorem coherent_iff_answersKept (pool : Pool (Page Keys) (Request Body))
    (coherent : Coherent account pool.shared.store)
    (moves : List (Move (PageEvent Keys) Call (Continuation Body))) :
    EveryState (requests account).system (fun pool => Coherent account pool.shared.store)
        pool moves ↔
      EveryStepAllowed (requests account).system (AnswerKept account) pool moves :=
  everyState_iff_everyStepAllowed
    (fun pool (good : Coherent account pool.shared.store) => good)
    (fun _ _ _ good taken => coherent_next_iff good taken)
    (fun _ _ _ _ _ next => next) coherent moves

end Coherent

theorem coherent_iff_answersKept_runs :
    (EveryState (requests letter).system (fun pool => Coherent letter pool.shared.store)
        newPage refreshedCall ↔
      EveryStepAllowed (requests letter).system (AnswerKept letter) newPage refreshedCall) ∧
    (EveryState (requests letter).system (fun pool => Coherent letter pool.shared.store)
        newPage signedOutMeanwhile ↔
      EveryStepAllowed (requests letter).system (AnswerKept letter) newPage signedOutMeanwhile) ∧
    ¬EveryStepAllowed (requests letter).system (AnswerKept letter) newPage signedOutMeanwhile :=
  ⟨coherent_iff_answersKept newPage (by decide) refreshedCall,
    coherent_iff_answersKept newPage (by decide) signedOutMeanwhile, by decide⟩

/-- A refresh that is under way when the page is loaded again does nothing to its store. -/
example : exec (requests letter).system newPage
    (refreshUnderWay ++ [.outside .load, .advance 0 (.granted (some "a3"))]) = none := by
  decide

section Quiet

variable {Keys Body Account : Type} {account : String → Account}

/-- Nothing more is to be done. -/
def Phase.isOver : Phase Body → Bool
  | .over _ => true
  | _ => false

/-- A request that does nothing more: it is over, or its page load is. -/
def Request.isEnded (page : Page Keys) (request : Request Body) : Bool :=
  request.load != page.loads || request.phase.isOver

/-- A session starts or ends only when no other request is under way. -/
def Quiet (pool : Pool (Page Keys) (Request Body)) :
    Move (PageEvent Keys) Call (Continuation Body) → Prop
  | .outside (.setTokens _ _ _) | .outside .logout =>
      ∀ request ∈ pool.threads, request.isEnded pool.shared = true
  | .advance thread .resumed =>
      pool.threads[thread]?.map Request.phase = some (.resuming false) →
        ∀ request ∈ pool.threads.eraseIdx thread, request.isEnded pool.shared = true
  | _ => True

instance (pool : Pool (Page Keys) (Request Body))
    (move : Move (PageEvent Keys) Call (Continuation Body))
    [DecidableEq Body] : Decidable (Quiet pool move) := by
  unfold Quiet
  split <;> infer_instance

/-- What a request under way knows: the refresh token it read is still that of the store,
and it refreshes only with a token. -/
def Knows (page : Page Keys) (request : Request Body) : Prop :=
  request.load ≤ page.loads ∧
    (request.isEnded page = false → request.refreshToken = page.store.refreshToken ∧
      (request.phase = .refreshing → truthy request.refreshToken = true))

section Knows

variable {page page' : Page Keys} {request : Request Body}

theorem isEnded_of_isOver (ended : request.phase.isOver = true) (page : Page Keys) :
    request.isEnded page = true := by
  rw [Request.isEnded, ended, Bool.or_true]

/-- A request of the page that stands somewhere has not ended. -/
theorem isEnded_eq_false (same : request.load = page.loads)
    (stands : request.phase.isOver = false) :
    request.isEnded page = false := by
  rw [Request.isEnded, same, stands, bne_self_eq_false, Bool.false_or]

theorem Knows.of_store (knows : Knows page request)
    (same : page'.store.refreshToken = page.store.refreshToken)
    (loads : page'.loads = page.loads) : Knows page' request := by
  rw [Knows, Request.isEnded, loads, same]
  exact knows

theorem knows_of_isEnded (early : request.load ≤ page.loads)
    (ended : request.isEnded page = true) : Knows page request :=
  ⟨early, fun standing => absurd (ended.symm.trans standing) (by decide)⟩

/-- The request that goes on, when the store keeps its refresh token. -/
theorem knows_of_reads (early : request.load ≤ page.loads)
    (reads : request.refreshToken = page.store.refreshToken)
    (refreshes : request.phase = .refreshing → truthy request.refreshToken = true) :
    Knows page request :=
  ⟨early, fun _ => ⟨reads, refreshes⟩⟩

/-- A page that is loaded again has no request under way. -/
theorem Knows.load (knows : Knows page request) :
    Knows { page with store := page.store.partialize, loads := page.loads + 1 } request := by
  refine knows_of_isEnded (Nat.le_succ_of_le knows.1) ?_
  have earlier : request.load ≠ page.loads + 1 := Nat.ne_of_lt (Nat.lt_succ_of_le knows.1)
  rw [Request.isEnded, bne_iff_ne.mpr earlier, Bool.true_or]

/-- An answer leaves a request over, or with something to refresh with. -/
theorem knows_answered {retry : Bool} (knows : Knows page request)
    (same : request.load = page.loads) (standing : request.phase = .calling retry)
    (response : Option (Response Body)) : Knows page (request.answered retry response) := by
  have reads := (knows.2 (isEnded_eq_false same (by rw [standing]; rfl))).1
  cases response with
  | none => exact knows_of_isEnded knows.1 (isEnded_of_isOver rfl page)
  | some response =>
      rw [Request.answered]
      split_ifs with refreshes
      · simp only [Bool.and_eq_true] at refreshes
        exact knows_of_reads knows.1 reads fun _ => refreshes.2
      · exact knows_of_isEnded knows.1 (isEnded_of_isOver rfl page)

end Knows

variable [DecidableEq Account]

/-- Quiet moves keep the store coherent, and what the requests know of it true. -/
theorem quiet_preserved {pool next : Pool (Page Keys) (Request Body)}
    {move : Move (PageEvent Keys) Call (Continuation Body)}
    (holds : Holds (fun page => Coherent account page.store) Knows pool)
    (quiet : Quiet pool move) (taken : (requests account).system pool move = some next) :
    Holds (fun page => Coherent account page.store) Knows next := by
  obtain ⟨coherent, known⟩ := holds
  revert quiet
  refine Program.system_cases (motive := fun move next =>
    Quiet pool move → Holds (fun page => Coherent account page.store) Knows next) ?_ ?_ ?_ taken
  · intro event page action quiet
    refine ⟨coherent_pageEvent coherent action, fun request present => ?_⟩
    have early := (known request present).1
    cases event with
    | setTokens access refresh username =>
        obtain ⟨-, done⟩ := Option.ite_none_right_eq_some.mp action
        cases done
        exact knows_of_isEnded early (quiet request present)
    | logout =>
        cases action
        exact knows_of_isEnded early (quiet request present)
    | setSessionKeys keys =>
        cases action
        exact (known request present).of_store rfl rfl
    | setMode mode =>
        cases action
        exact (known request present).of_store rfl rfl
    | load =>
        cases action
        exact (known request present).load
  · intro call page request action quiet
    cases action
    refine ⟨coherent, forall_mem_append_singleton known ?_⟩
    exact knows_of_reads (Nat.le_refl _) rfl fun refreshing => by cases refreshing
  · intro thread act before page after present action
    obtain ⟨same, action⟩ := Option.ite_none_right_eq_some.mp action
    have knows := known before (List.mem_of_getElem? present)
    have standing_reads (stands : before.phase.isOver = false) :=
      knows.2 (isEnded_eq_false same stands)
    refine advance_cases (motive := fun act page after =>
      Quiet pool (.advance thread act) → Holds (fun page => Coherent account page.store)
        Knows ⟨page, pool.threads.set thread after⟩)
      ?answered ?denied ?granted ?retried ?expired action
    case answered =>
      intro retry response standing _
      exact ⟨coherent, forall_mem_set known (knows_answered knows same standing response)⟩
    case denied =>
      intro standing _
      have reads := (standing_reads (by rw [standing]; rfl)).1
      exact ⟨coherent, forall_mem_set known
        (knows_of_reads knows.1 reads fun refreshing => by cases refreshing)⟩
    case granted =>
      intro token standing nonempty owned _
      obtain ⟨reads, truth⟩ := standing_reads (by rw [standing]; rfl)
      have truth := truth standing
      rw [reads] at owned truth
      refine ⟨(coherent_setAccessToken nonempty).mpr ⟨truth, owned⟩, forall_mem_set
        (fun request listed => (known request listed).of_store rfl rfl) ?_⟩
      exact knows_of_reads knows.1 reads fun refreshing => by cases refreshing
    case retried =>
      intro standing _
      have reads := (standing_reads (by rw [standing]; rfl)).1
      exact ⟨coherent, forall_mem_set known
        (knows_of_reads knows.1 reads fun refreshing => by cases refreshing)⟩
    case expired =>
      intro standing quiet
      have others : ∀ request ∈ pool.threads.eraseIdx thread,
          request.isEnded pool.shared = true :=
        quiet (by rw [present, Option.map_some, standing])
      refine ⟨coherent_logout pool.shared.store, fun request listed => ?_⟩
      obtain ⟨position, there⟩ := List.getElem?_of_mem listed
      by_cases own : position = thread
      · rw [own, List.getElem?_set_self (List.getElem?_eq_some_iff.mp present).1] at there
        cases there
        exact knows_of_isEnded knows.1 (isEnded_of_isOver rfl _)
      · rw [List.getElem?_set_ne (Ne.symm own)] at there
        exact knows_of_isEnded (known request (List.mem_of_getElem? there)).1
          (others request (List.mem_eraseIdx_iff_getElem?.mpr ⟨position, own, there⟩))

/-- When sessions start and end only while no other request is under way, the store keeps to
one account in every state of the run, and lets nobody in once the session is signed out. -/
theorem coherent_of_quiet (pool : Pool (Page Keys) (Request Body))
    (coherent : Coherent account pool.shared.store) (idle : pool.threads = [])
    (moves : List (Move (PageEvent Keys) Call (Continuation Body)))
    (quiet : EveryStepAllowed (requests account).system Quiet pool moves) :
    EveryState (requests account).system (fun pool =>
        Coherent account pool.shared.store ∧
          (truthy pool.shared.store.refreshToken = false →
            pool.shared.store.isAuthenticated =
              (truthy pool.shared.store.username && pool.shared.store.sessionKeys.isSome)))
      pool moves := by
  refine everyState_of_allowed (fun _ _ _ => quiet_preserved)
    (fun _ holds => ⟨holds.1, holds.1.isAuthenticated_eq⟩) ⟨coherent, ?_⟩ quiet
  rw [idle]
  exact fun request listed => absurd listed List.not_mem_nil

end Quiet

theorem coherent_of_quiet_refreshedCall :
    EveryState (requests letter).system (fun pool =>
        Coherent letter pool.shared.store ∧
          (truthy pool.shared.store.refreshToken = false →
            pool.shared.store.isAuthenticated =
              (truthy pool.shared.store.username && pool.shared.store.sessionKeys.isSome)))
      newPage (refreshedCall ++ [.outside .logout]) :=
  coherent_of_quiet newPage (by decide) rfl _ (by decide)

section Bounded

variable {Keys Body Account : Type} {account : String → Account}

/-- The continuations a request may still take. -/
def Phase.remaining : Phase Body → Nat
  | .calling true => 4
  | .refreshing => 3
  | .resuming _ => 2
  | .calling false => 1
  | .over _ => 0

/-- How much a request has sent by where it stands. -/
def Phase.sent : Phase Body → Option Nat
  | .calling true => some 1
  | .refreshing | .resuming _ => some 2
  | .calling false => some 3
  | .over _ => none

/-- The most a request sends: its call, the refresh, and the same call again with what the
store has by then. -/
def Request.exchange (request : Request Body) (first second : Option String) : List Fetch :=
  [request.call.fetch first, .refresh (request.refreshToken.getD ""), request.call.fetch second]

/-- A request has sent a beginning of its exchange; more than its call only with a refresh
token and where the app works with a server, and its call again only once the server has
granted the refresh. -/
def Request.Sent (request : Request Body) : Prop :=
  ∃ first second count, 0 < count ∧ count ≤ 3 ∧ (∀ fetches ∈ request.phase.sent, count = fetches) ∧
    (1 < count → truthy request.refreshToken = true ∧ request.mode ≠ some .local) ∧
    (request.phase = .resuming true ∨ 2 < count → request.granted = true) ∧
    request.fetched = (request.exchange first second).take count

/-- What a request has sent, when that follows from where it stands. -/
theorem Request.Sent.of_phase {request : Request Body} {count : Nat} (sent : request.Sent)
    (stands : request.phase.sent = some count) :
    ∃ first second, (1 < count → truthy request.refreshToken = true ∧ request.mode ≠ some .local) ∧
      (request.phase = .resuming true ∨ 2 < count → request.granted = true) ∧
      request.fetched = (request.exchange first second).take count := by
  obtain ⟨first, second, other, _, _, same, refreshes, granted, fetched⟩ := sent
  rw [same count stands] at refreshes granted fetched
  exact ⟨first, second, refreshes, granted, fetched⟩

/-- A request stands where it has sent two fetches: its call and the refresh. -/
theorem Request.Sent.refreshed {request : Request Body} (sent : request.Sent)
    (stands : request.phase.sent = some 2) {phase : Phase Body} {granted : Bool}
    (sends : phase.sent = some 2) (resumes : phase = .resuming true → granted = true) :
    { request with phase := phase, granted := granted }.Sent := by
  obtain ⟨first, second, refreshes, _, fetched⟩ := sent.of_phase stands
  refine ⟨first, second, 2, by decide, by decide, fun fetches told => ?_, refreshes, ?_, fetched⟩
  · exact Option.some.inj (sends.symm.trans told)
  · rintro (resuming | more)
    · exact resumes resuming
    · exact absurd more (by decide)

/-- A request that ends has sent what it had sent. -/
theorem Request.Sent.over {request : Request Body} (sent : request.Sent) (outcome : Outcome Body) :
    { request with phase := .over outcome }.Sent := by
  obtain ⟨first, second, count, positive, bounded, _, refreshes, granted, fetched⟩ := sent
  refine ⟨first, second, count, positive, bounded, fun fetches told => ?_, refreshes, ?_, fetched⟩
  · cases told
  · rintro (resuming | more)
    · cases resuming
    · exact granted (.inr more)

/-- The answer to a call ends it, or starts its one refresh. -/
theorem sent_answered {request : Request Body} {retry : Bool} (sent : request.Sent)
    (standing : request.phase = .calling retry) (response : Option (Response Body)) :
    (request.answered retry response).Sent := by
  cases response with
  | none => exact sent.over _
  | some response =>
      rw [Request.answered]
      split_ifs with refreshes
      · simp only [Bool.and_eq_true, bne_iff_ne] at refreshes
        obtain ⟨⟨⟨_, online⟩, again⟩, token⟩ := refreshes
        rw [again] at standing
        obtain ⟨first, second, _, _, fetched⟩ := sent.of_phase (congrArg Phase.sent standing)
        refine ⟨first, second, 2, by decide, by decide, fun fetches told => ?_,
          fun _ => ⟨token, online⟩, ?_, congrArg (· ++ [_]) fetched⟩
        · exact Option.some.inj told
        · rintro (resuming | more)
          · cases resuming
          · exact absurd more (by decide)
      · exact sent.over _

/-- The call that goes out once more, after a granted refresh. -/
theorem sent_retried {request : Request Body} (sent : request.Sent)
    (standing : request.phase = .resuming true) (accessToken : Option String) :
    ({ request with
      phase := .calling false
      fetched := request.fetched ++ [request.call.fetch accessToken] } : Request Body).Sent := by
  obtain ⟨first, second, refreshes, granted, fetched⟩ :=
      sent.of_phase (congrArg Phase.sent standing)
  refine ⟨first, accessToken, 3, by decide, by decide, fun fetches told => ?_,
    fun _ => refreshes (by decide), fun _ => granted (.inl standing),
    congrArg (· ++ [_]) fetched⟩
  exact Option.some.inj told

/-- An answered request is over, or has one continuation less before it. -/
theorem remaining_answered {request : Request Body} {retry : Bool}
    (standing : request.phase = .calling retry) (response : Option (Response Body)) :
    (request.answered retry response).phase.remaining < request.phase.remaining := by
  have positive : 0 < request.phase.remaining := by
    rw [standing]
    cases retry with
    | true => exact Nat.succ_pos 3
    | false => exact Nat.one_pos
  cases response with
  | none => exact positive
  | some response =>
      rw [Request.answered]
      split_ifs with refreshes
      · simp only [Bool.and_eq_true] at refreshes
        rw [standing, refreshes.1.2]
        exact Nat.lt_succ_self 3
      · exact positive

variable [DecidableEq Account]

/-- A continuation keeps what is known of the fetches and brings the request nearer its end. -/
theorem sent_advance {page page' : Page Keys} {request request' : Request Body}
    {act : Continuation Body} (sent : request.Sent)
    (taken : advance account page request act = some (page', request')) :
    request'.Sent ∧ request'.phase.remaining < request.phase.remaining := by
  refine advance_cases (motive := fun _ _ request' =>
    request'.Sent ∧ request'.phase.remaining < request.phase.remaining)
    ?answered ?denied ?granted ?retried ?expired taken
  case answered =>
    intro retry response standing
    exact ⟨sent_answered sent standing response, remaining_answered standing response⟩
  case denied =>
    intro standing
    refine ⟨sent.refreshed (by rw [standing]; rfl) rfl nofun, ?_⟩
    rw [standing]
    exact Nat.lt_succ_self 2
  case granted =>
    intro token standing _ _
    refine ⟨sent.refreshed (by rw [standing]; rfl) rfl fun _ => rfl, ?_⟩
    rw [standing]
    exact Nat.lt_succ_self 2
  case retried =>
    intro standing
    refine ⟨sent_retried sent standing _, ?_⟩
    rw [standing]
    exact Nat.lt_succ_self 1
  case expired =>
    intro standing
    exact ⟨sent.over _, by rw [standing]; exact Nat.succ_pos 1⟩

/-- Whether a move is a continuation of the given request. -/
def advances (thread : Nat) : Move (PageEvent Keys) Call (Continuation Body) → Bool
  | .advance other _ => other == thread
  | _ => false

/-- The continuations the request at a place may still take; one not made yet may take all. -/
def remainingAt (thread : Nat) (pool : Pool (Page Keys) (Request Body)) : Nat :=
  pool.threads[thread]?.elim 4 fun request => request.phase.remaining

/-- One move keeps what every request has sent, and a continuation of a request is one less
that it may take. -/
theorem sent_next {pool next : Pool (Page Keys) (Request Body)}
    {move : Move (PageEvent Keys) Call (Continuation Body)}
    (sent : ∀ request ∈ pool.threads, request.Sent)
    (taken : (requests account).system pool move = some next) (thread : Nat) :
    (∀ request ∈ next.threads, request.Sent) ∧
      (if advances thread move = true then 1 else 0) + remainingAt thread next ≤
        remainingAt thread pool := by
  refine Program.system_cases (motive := fun move next =>
    (∀ request ∈ next.threads, request.Sent) ∧
      (if advances thread move = true then 1 else 0) + remainingAt thread next ≤
        remainingAt thread pool) ?_ ?_ ?_ taken
  · intro event page action
    exact ⟨sent, Nat.le_of_eq (Nat.zero_add _)⟩
  · intro call page request action
    cases action
    refine ⟨forall_mem_append_singleton sent
      ⟨pool.shared.store.accessToken, none, 1, by decide, by decide,
        fun fetches told => Option.some.inj told, fun more => absurd more (by decide), ?_, rfl⟩, ?_⟩
    · rintro (resuming | more)
      · cases resuming
      · exact absurd more (by decide)
    refine Nat.le_trans (Nat.le_of_eq (Nat.zero_add _)) ?_
    rw [remainingAt, remainingAt, List.getElem?_append]
    split_ifs with old
    · exact Nat.le_refl _
    · rw [List.getElem?_eq_none (Nat.le_of_not_lt old)]
      cases fresh : thread - pool.threads.length <;> exact Nat.le_refl 4
  · intro moved act before page after present action
    obtain ⟨-, action⟩ := Option.ite_none_right_eq_some.mp action
    obtain ⟨still, less⟩ := sent_advance (sent before (List.mem_of_getElem? present)) action
    refine ⟨forall_mem_set sent still, ?_⟩
    have inRange := (List.getElem?_eq_some_iff.mp present).1
    by_cases same : moved = thread
    · rw [← same, remainingAt, remainingAt, List.getElem?_set_self inRange, present]
      simp only [advances, beq_self_eq_true, if_true, Option.elim_some]
      omega
    · rw [remainingAt, remainingAt, List.getElem?_set_ne same]
      simp [advances, same]

theorem sent_after {pool finish : Pool (Page Keys) (Request Body)}
    (sent : ∀ request ∈ pool.threads, request.Sent)
    (moves : List (Move (PageEvent Keys) Call (Continuation Body)))
    (run : exec (requests account).system pool moves = some finish) (thread : Nat) :
    (∀ request ∈ finish.threads, request.Sent) ∧
      moves.countP (advances thread) + remainingAt thread finish ≤ remainingAt thread pool := by
  induction moves generalizing pool with
  | nil =>
      cases run
      exact ⟨sent, Nat.le_of_eq (Nat.zero_add _)⟩
  | cons move moves ih =>
      obtain ⟨next, taken, rest⟩ := Option.bind_eq_some_iff.mp run
      obtain ⟨still, less⟩ := sent_next sent taken thread
      obtain ⟨sentAfter, fewer⟩ := ih still rest
      refine ⟨sentAfter, ?_⟩
      rw [List.countP_cons]
      omega

/-- In every run, a request sends its call, then at most one refresh and, once that is granted,
the same call once more; where the app works without a server, or has nothing to refresh
with, the call only. Its fourth continuation ends it at the latest. -/
theorem requests_bounded {pool finish : Pool (Page Keys) (Request Body)}
    (idle : pool.threads = []) (moves : List (Move (PageEvent Keys) Call (Continuation Body)))
    (run : exec (requests account).system pool moves = some finish) :
    ∀ thread, ∀ request ∈ finish.threads[thread]?, request.Sent ∧
      moves.countP (advances thread) + request.phase.remaining ≤ 4 := by
  intro thread request present
  have sent : ∀ request ∈ pool.threads, request.Sent := by
    rw [idle]
    exact fun request listed => absurd listed List.not_mem_nil
  obtain ⟨sentAfter, bounded⟩ := sent_after sent moves run thread
  refine ⟨sentAfter request (List.mem_of_getElem? present), ?_⟩
  rw [remainingAt, remainingAt, Option.mem_def.mp present, idle] at bounded
  exact bounded

end Bounded

theorem requests_bounded_refreshedCall :
    ∃ finish request, exec (requests letter).system newPage refreshedCall = some finish ∧
      finish.threads[0]? = some request ∧ request.Sent ∧
      refreshedCall.countP (advances 0) + request.phase.remaining ≤ 4 := by
  have run : exec (requests letter).system newPage refreshedCall = some _ := rfl
  exact ⟨_, _, run, rfl, requests_bounded rfl refreshedCall run 0 _ rfl⟩

end Session
end MindMapVault
