import QueryMapping.Database.Error
import QueryMapping.Vendor.Basic

/-! What can go wrong while a vendor's instance is started or a test is prepared. -/

namespace QueryMapping

inductive LaunchError where
  | noLauncher (v : Vendor)
  | launch (v : Vendor)
  | initialise (v : Vendor) (reason : String)
  | noAdminSession (v : Vendor)
  | noDriver (v : Vendor)
  | settings (e : SettingsError)
  | database (e : DatabaseError)
deriving DecidableEq, Repr

namespace LaunchError

def message : LaunchError → String
  | .noLauncher v => "No launcher configured for vendor '" ++ v.name ++ "'"
  | .launch v => "Failed to start " ++ v.name ++ " instance"
  | .initialise v reason => "Post-start initialization of " ++ v.name ++ " failed: " ++ reason
  | .noAdminSession v => v.name ++ " instance exposes no admin session"
  | .noDriver v => "No sqlx driver for vendor '" ++ v.name ++ "'"
  | .settings e => "Configuration error: " ++ e.message
  | .database e => e.message

end LaunchError

end QueryMapping
