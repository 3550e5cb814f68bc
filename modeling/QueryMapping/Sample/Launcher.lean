import QueryMapping.Launch.Databases

/-! Launchers whose launches follow a plan. -/

namespace QueryMapping.Sample

inductive Fate where
  | up
  | failed
  | withoutAdmin
  | denied
deriving DecidableEq, Repr

namespace Fate

/-- The fate of a word in a plan; a word that names none is that of success. -/
def ofWord (word : String) : Fate :=
  match word with
  | "fail" => .failed
  | "no_admin" => .withoutAdmin
  | "deny" => .denied
  | _ => .up

end Fate

/-- A launcher whose launches follow a plan, and succeed when it has come to its end. -/
structure PlannedLauncher where
  vendor : Vendor
  url : String
  username : String
  dsn : Option String
  delay : Nat
  plan : List Fate
deriving DecidableEq, Repr

namespace PlannedLauncher

def source (p : PlannedLauncher) (number : Nat) : DataSource :=
  ⟨p.vendor, p.url ++ "#" ++ toString number, p.username, "", p.dsn⟩

def attempt (p : PlannedLauncher) (number : Nat) : Attempt :=
  let source := p.source number
  let outcome : Except LaunchError (DataSource × Option AdminSession) :=
    match p.plan[number - 1]? with
    | some .failed => .error (.launch p.vendor)
    | some .withoutAdmin => .ok (source, none)
    | some .denied => .ok (source, some ⟨some "privileges denied"⟩)
    | some .up | none => .ok (source, some ⟨none⟩)
  ⟨p.delay, outcome⟩

def launcher (p : PlannedLauncher) : Launcher := ⟨p.vendor, p.attempt⟩

end PlannedLauncher

end QueryMapping.Sample
