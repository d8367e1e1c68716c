import Mathlib.Logic.Function.Basic

/-!
# Sign-ins that are away at the provider

What the server remembers between sending a browser out and getting it back, under the
`state` parameter it sent along. A callback takes its flow out of the table, whether or
not the flow is still good, so that a second callback finds nothing. Times are readings
of the monotonic clock in nanoseconds.
-/

namespace MindMapVault
namespace Federation

/-- `FLOW_TTL`. -/
def flowTtl : Nat := 600 * 1000000000

/-- What is remembered when the redirect goes out. -/
structure PendingFlow where
  providerId : String
  nonce : String
  pkceVerifier : String
  returnPath : String
  startedAt : Nat
  deriving DecidableEq

/-- The flow is no older than `FLOW_TTL`. -/
def PendingFlow.InTime (flow : PendingFlow) (now : Nat) : Prop := now - flow.startedAt ≤ flowTtl

instance (flow : PendingFlow) (now : Nat) : Decidable (flow.InTime now) :=
  inferInstanceAs (Decidable (now - flow.startedAt ≤ flowTtl))

/-- The flows under way by their `state`. -/
structure OidcFlows where
  pending : String → Option PendingFlow

namespace OidcFlows

/-- No flow. -/
def new : OidcFlows := ⟨fun _ => none⟩

/-- `OidcFlows::begin`, with the token it draws. -/
def begin (flows : OidcFlows) (stateToken : String) (flow : PendingFlow) : OidcFlows :=
  ⟨Function.update flows.pending stateToken (some flow)⟩

/-- `OidcFlows::take`. The flow is gone even where it is not handed out. -/
def take (flows : OidcFlows) (stateToken : String) (now : Nat) :
    OidcFlows × Option PendingFlow :=
  (⟨Function.update flows.pending stateToken none⟩,
    (flows.pending stateToken).filter fun flow => flow.InTime now)

/-- `OidcFlows::prune`. -/
def prune (flows : OidcFlows) (now : Nat) : OidcFlows :=
  ⟨fun stateToken => (flows.pending stateToken).filter fun flow => flow.InTime now⟩

variable {flows : OidcFlows} {stateToken token : String} {flow found : PendingFlow}
variable {now : Nat}

@[simp] theorem new_pending (token : String) : new.pending token = none := rfl

/-- Beginning a flow keeps it under its token, and the others under theirs. -/
theorem begin_pending_eq_some :
    (flows.begin stateToken flow).pending token = some found ↔
      token = stateToken ∧ found = flow ∨
        token ≠ stateToken ∧ flows.pending token = some found := by
  by_cases same : token = stateToken
  · subst same
    simp [begin, eq_comm]
  · simp [begin, same]

/-- Taking a flow leaves the others. -/
theorem take_pending_eq_some :
    (flows.take stateToken now).1.pending token = some found ↔
      token ≠ stateToken ∧ flows.pending token = some found := by
  by_cases same : token = stateToken
  · subst same
    simp [take]
  · simp [take, same]

/-- A taken flow was pending and is in time. -/
theorem take_eq_some :
    (flows.take stateToken now).2 = some found ↔
      flows.pending stateToken = some found ∧ found.InTime now := by
  simp [take, Option.filter_eq_some_iff]

/-- Pruning leaves the flows that are in time. -/
theorem prune_pending_eq_some :
    (flows.prune now).pending token = some found ↔
      flows.pending token = some found ∧ found.InTime now := by
  simp [prune, Option.filter_eq_some_iff]

end OidcFlows

end Federation
end MindMapVault
