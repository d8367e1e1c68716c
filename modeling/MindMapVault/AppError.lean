import Mathlib.Data.List.Basic

/-!
# Request errors

The error type every handler of the server returns, with the texts it carries.
Payloads that belong to the database driver and the token library are kept as
the text they print.
-/

namespace MindMapVault

/-- What a refused upload tells the client about the plan limit it hit. -/
structure PlanErrorMetadata where
  message : String
  code : String
  capability : String
  currentTier : String
  requiredTier : Option String
  currentValue : Option Int
  limitValue : Option Int
  deriving DecidableEq

/-- An error answer of the server. -/
inductive AppError
  | notFound (text : String)
  | unauthorized (text : String)
  | badRequest (text : String)
  | forbidden (text : String)
  | conflict (text : String)
  | serviceUnavailable (text : String)
  | tooManyRequests (text : String) (retryAfter : Nat)
  | planRestricted (text : String) (details : PlanErrorMetadata)
  | database (text : String)
  | storage (text : String)
  | jwt (text : String)
  | internal (text : String)
  deriving DecidableEq

end MindMapVault
