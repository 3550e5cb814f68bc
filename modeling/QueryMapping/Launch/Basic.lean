import QueryMapping.Vendor.DataSource

/-! Started instances of vendors, what starts them, and what is done to an instance once it is
up. -/

namespace QueryMapping

structure AdminSession where
  refusal : Option String
deriving DecidableEq, Repr

/-- An instance that is up. The number of the launch it comes from tells it from every other
instance of its vendor. -/
structure Instance where
  launch : Nat
  source : DataSource
  admin : Option AdminSession
deriving DecidableEq, Repr

namespace Instance

def vendor (i : Instance) : Vendor := i.source.vendor

def display (i : Instance) : String :=
  "VendorInstance \x7b data_source: " ++ i.source.display ++ ", admin: " ++
    toString i.admin.isSome ++ ", .. \x7d"

end Instance

/-- What becomes of one launch: after some polls it has failed, or an instance is up. -/
structure Attempt where
  delay : Nat
  outcome : Except LaunchError (DataSource × Option AdminSession)

structure Launcher where
  vendor : Vendor
  attempt : Nat → Attempt

/-- The preparation of an instance: the statements sent to its session for administration, before
each pause and after the last one, and whether it succeeded. -/
structure Preparation where
  pauses : List (List String)
  rest : List String
  result : Except LaunchError Unit

abbrev PostStart := Instance → Preparation

namespace PostStart

def grantAll : PostStart := fun i =>
  match i.admin with
  | none => ⟨[], [], .error (.noAdminSession i.vendor)⟩
  | some session =>
    ⟨[], ["GRANT ALL PRIVILEGES TO " ++ i.source.username],
      match session.refusal with
      | none => .ok ()
      | some reason => .error (.initialise i.vendor reason)⟩

end PostStart

inductive LaunchEvent where
  | launched (v : Vendor) (number : Nat)
  | administered (v : Vendor) (statement : String)
  | dropped (v : Vendor) (number : Nat)
deriving DecidableEq, Repr

namespace LaunchEvent

def vendor : LaunchEvent → Vendor
  | .launched v _ | .administered v _ | .dropped v _ => v

def display : LaunchEvent → String
  | .launched v number => "launch " ++ v.name ++ "#" ++ toString number
  | .administered v statement => "admin " ++ v.name ++ ": " ++ statement
  | .dropped v number => "drop " ++ v.name ++ "#" ++ toString number

end LaunchEvent

end QueryMapping
