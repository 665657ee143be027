import TagRetention.Client.MessageKey
import TagRetention.Client.Request
import TagRetention.Policy.Check

/-!
Changes to a policy. A mutation is planned on the local copy: it is refused, or changes nothing, or
leads to the policy to be written. `Edit` is the effect of a mutation on a policy.
-/

namespace TagRetention.Client

inductive Edit where
  | setCron (cron : String)
  | addRule (rule : Rule)
  | replaceRule (index : Nat) (rule : Rule)
  | setDisabled (index : Nat) (disabled : Bool)
  | removeRule (index : Nat)

def Edit.apply (p : Policy) : Edit → Policy
  | .setCron cron => p.setCron cron
  | .addRule r => p.addRule r
  | .replaceRule index r => p.replaceRule index r
  | .setDisabled index disabled => p.setDisabled index disabled
  | .removeRule index => p.removeRule index

inductive Mutation where
  | setTrigger (cron : String)
  | addRule (rule : Rule)
  | editRule (index : Nat) (rule : Rule)
  | toggleRule (index : Nat) (disabled : Bool)
  | deleteRule (index : Nat)

inductive MutationFault where
  | invalidRule (fault : RuleFault)
  | submission (detail : String)
  | inProgress
  | noRule (index : Nat)
  | service (fault : ServiceFault)
  | refresh (fault : ServiceFault)
  deriving DecidableEq, Repr

namespace MutationFault

def message : MutationFault → String
  | .invalidRule fault => "Invalid rule: " ++ fault.message
  | .submission detail => "Submission failed: " ++ detail
  | .inProgress => "Another change to the policy is still in progress"
  | .noRule index => "No rule at index " ++ toString index
  | .service fault => "Service error: " ++ fault.message
  | .refresh fault => "Policy saved but reload failed: " ++ fault.message

def key? : MutationFault → Option String
  | .invalidRule fault => some fault.key
  | .submission detail => some detail
  | _ => none

/-- A rule that the service turns down is reported by the key for what the service said. -/
def ofSubmission : MutationFault → MutationFault
  | .service fault =>
    .submission <|
      match fault.serverMessage? with
      | some text => messageKey text
      | none => fault.message
  | f => f

end MutationFault

namespace Mutation

def validated (r : Rule) (others : List Rule) (m : Catalog) (edit : Rule → Edit) :
    Except MutationFault (Option Edit) :=
  match r.validate others m with
  | .error e => .error (.invalidRule e)
  | .ok r => .ok (some (edit r))

/-- The effect that a mutation is to have; an edit that leaves the rule as it is has none. -/
def plan (p : Policy) (m : Catalog) : Mutation → Except MutationFault (Option Edit)
  | .setTrigger cron => .ok (some (.setCron cron))
  | .addRule r => validated r p.rules m .addRule
  | .editRule index r =>
    match p.rules[index]? with
    | none => .error (.noRule index)
    | some current =>
      let r := r.normalize
      if current.same r then .ok none
      else validated r (p.rules.eraseIdx index) m (.replaceRule index)
  | .toggleRule index disabled =>
    if index < p.rules.length then .ok (some (.setDisabled index disabled))
    else .error (.noRule index)
  | .deleteRule index =>
    if index < p.rules.length then .ok (some (.removeRule index)) else .error (.noRule index)

def submitsRule : Mutation → Bool
  | .addRule _ => true
  | .editRule _ _ => true
  | _ => false

end Mutation

end TagRetention.Client
