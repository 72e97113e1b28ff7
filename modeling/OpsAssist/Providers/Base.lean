/-
# OpsAssist.Providers.Base -- provider failures and stream items

The failure hierarchy the gateway's decisions rest on, and what a provider streams.
-/
import Mathlib.Data.Rat.Defs

namespace OpsAssist

set_option autoImplicit false

/-- The subclasses of `ProviderError`. -/
inductive ProviderErrorKind where
  | timeout
  /-- connection failure or 5xx -/
  | unavailable
  | rateLimited (retryAfterS : Option ℚ)
  | auth
  | modelNotFound
  | badRequest
  | responseError
deriving DecidableEq

structure ProviderError where
  kind : ProviderErrorKind
  /-- `str(err)` -/
  text : String := ""
deriving DecidableEq

/-- `retryable` drives the gateway's retry loop. -/
def ProviderError.retryable (err : ProviderError) : Bool :=
  match err.kind with
  | .timeout | .unavailable | .rateLimited _ => true
  | _ => false

/-- One item of a provider's stream; usage is left out. -/
inductive StreamItem where
  | delta (text : String)
  /-- always the last item of a successful stream -/
  | finish (reason : Option String)
deriving DecidableEq

end OpsAssist
