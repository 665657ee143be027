/-!
What can be wrong with a rule, a policy or a page request. Each cause has one message; a fault of a
rule also has the key under which an editor finds its own wording.
-/

namespace TagRetention

inductive RuleFault where
  | incomplete
  | duplicate
  | wildcardExclusion
  deriving DecidableEq, Repr

def RuleFault.message : RuleFault → String
  | .incomplete => "rule is incomplete"
  | .duplicate => "an identical rule already exists"
  | .wildcardExclusion => "repository exclusion cannot use the ** wildcard"

def RuleFault.key : RuleFault → String
  | .incomplete => "TAG_RETENTION.ILLEGAL_RULE"
  | .duplicate => "TAG_RETENTION.EXISTING_RULE"
  | .wildcardExclusion => "TAG_RETENTION.INVALID_RULE"

inductive Fault where
  | serialization (detail : String)
  | rule (fault : RuleFault)
  | policy (detail : String)
  | unknownTemplate (id : String)
  | cron (detail : String)
  | page (detail : String)
  deriving DecidableEq, Repr

def Fault.message : Fault → String
  | .serialization detail => "Serialization error: " ++ detail
  | .rule fault => fault.message
  | .policy detail => "Invalid policy: " ++ detail
  | .unknownTemplate id => "Rule template not found: " ++ id
  | .cron detail => "Invalid cron: " ++ detail
  | .page detail => "Invalid page: " ++ detail

end TagRetention
