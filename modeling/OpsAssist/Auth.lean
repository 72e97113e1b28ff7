/-
# OpsAssist.Auth -- the authenticated caller
-/
import Mathlib.Data.List.Basic

namespace OpsAssist

set_option autoImplicit false

/-- The caller as the database knows them; permissions are never taken from the token. -/
structure Principal where
  userId : String
  name : String
  department : String
  role : String
  permissions : List String

def Principal.has (p : Principal) (permission : String) : Bool := p.permissions.contains permission

end OpsAssist
