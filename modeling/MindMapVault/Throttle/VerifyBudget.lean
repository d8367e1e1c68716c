import MindMapVault.AppError
import Mathlib.Algebra.Group.Nat.Defs

/-!
# The verification budget

A pool of permits for password verifications, one for each core unless it is
configured. A call takes a permit at once or waits in a queue for a while, and gives
the permit back when its work has ended.
-/

namespace MindMapVault
namespace Throttle

/-- `QUEUE_FOR`, in nanoseconds. -/
def queueFor : Nat := 750 * 10 ^ 6

/-- `VerifyBudget`: the permits that are left, and how many there are. -/
structure VerifyBudget where
  permits : Nat
  limit : Nat
  deriving DecidableEq

namespace VerifyBudget

/-- `VerifyBudget::new`; a concurrency of 0 leaves it to the hardware. -/
def new (concurrency : Nat) (availableParallelism : Option Nat) : VerifyBudget :=
  let limit := if 0 < concurrency then concurrency else availableParallelism.getD 4
  { permits := limit, limit := limit }

/-- `try_acquire_owned`. -/
def tryAcquire (budget : VerifyBudget) : Option VerifyBudget :=
  if 0 < budget.permits then
    some { budget with permits := budget.permits - 1 }
  else
    none

/-- A permit is dropped. -/
def release (budget : VerifyBudget) : VerifyBudget := { budget with permits := budget.permits + 1 }

/-- What a caller is told whose time in the queue is up. -/
def busy : AppError := .tooManyRequests "the server is busy verifying sign-ins; please try again" 1

/-- What a caller is told whose work panicked. -/
def taskFailed (detail : String) : AppError := .internal s!"verification task failed: {detail}"

@[simp] theorem release_permits (budget : VerifyBudget) :
    budget.release.permits = budget.permits + 1 := rfl

/-- A permit that is taken was there. -/
theorem of_tryAcquire {budget after : VerifyBudget} (acquired : budget.tryAcquire = some after) :
    after.permits + 1 = budget.permits ∧ after.limit = budget.limit := by
  unfold tryAcquire at acquired
  split_ifs at acquired with free
  cases acquired
  exact ⟨Nat.sub_add_cancel free, rfl⟩

end VerifyBudget

end Throttle
end MindMapVault
