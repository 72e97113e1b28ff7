/-
# OpsAssist.Policy.Access -- which knowledge a principal may retrieve

The scope is computed from the permissions the database has; the retrieval SQL and the
settings of row-level security are built from it alone.
-/
import OpsAssist.Auth
import OpsAssist.Config

namespace OpsAssist

set_option autoImplicit false

structure AccessScope where
  userId : String
  internalDepartments : List String
  confidentialDepartments : List String
deriving DecidableEq

end OpsAssist
