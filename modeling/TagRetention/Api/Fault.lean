import TagRetention.Launcher
import TagRetention.Store

/-!
Why the service turns a request down. A fault of a rule is reported in its own words, so that a
client can find the key for it.
-/

namespace TagRetention

inductive ApiFault where
  | notFound (detail : String)
  | badRequest (detail : String)
  | conflict (detail : String)
  | invalidRule (fault : RuleFault)
  | launch (detail : String)
  | internal (detail : String)
  deriving DecidableEq, Repr

namespace ApiFault

def message : ApiFault → String
  | .notFound detail => "Not found: " ++ detail
  | .badRequest detail => "Bad request: " ++ detail
  | .conflict detail => "Conflict: " ++ detail
  | .invalidRule fault => fault.message
  | .launch detail => "Launch error: " ++ detail
  | .internal detail => "Internal error: " ++ detail

def kind : ApiFault → String
  | .notFound _ => "not_found"
  | .badRequest _ => "bad_request"
  | .conflict _ => "conflict"
  | .invalidRule _ => "invalid_rule"
  | .launch _ => "launch_error"
  | .internal _ => "internal_error"

def status : ApiFault → Nat
  | .notFound _ => 404
  | .badRequest _ => 400
  | .conflict _ => 409
  | .invalidRule _ => 400
  | .launch _ => 500
  | .internal _ => 500

def ofStoreFault : StoreFault → ApiFault
  | .notFound detail => .notFound detail
  | .alreadyExists detail => .conflict detail
  | .invalidInput detail => .badRequest detail

def ofFault : Fault → ApiFault
  | .rule fault => .invalidRule fault
  | .serialization detail => .internal detail
  | f => .badRequest f.message

def ofLaunchFault : LaunchFault → ApiFault
  | .unknownJob job => .notFound ("job " ++ job)
  | f => .launch f.message

end ApiFault

end TagRetention
