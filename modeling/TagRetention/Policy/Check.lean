import TagRetention.Policy
import TagRetention.Rule.Validation

/-!
The check of a whole policy: every rule has a template of the catalog and is valid after the rules
before it, and the cron is empty or has six fields.
-/

namespace TagRetention

def checkCron (cron : String) : Except Fault Unit :=
  if cron = "" then .ok ()
  else
    let n := (Text.words cron.toList).length
    if n = 6 then .ok () else .error (.cron ("expected 6 fields, found " ++ toString n))

def checkRule (r : Rule) (earlier : List Rule) (m : Catalog) : Except Fault Unit :=
  if (m.template? r.template).isNone then .error (.unknownTemplate r.template)
  else
    match r.validate earlier m with
    | .error e => .error (.rule e)
    | .ok _ => .ok ()

def checkRules (earlier : List Rule) (m : Catalog) : List Rule → Except Fault Unit
  | [] => .ok ()
  | r :: rest =>
    match checkRule r earlier m with
    | .error e => .error e
    | .ok _ => checkRules (earlier ++ [r]) m rest

def Policy.check (p : Policy) (m : Catalog) : Except Fault Unit :=
  match checkRules [] m p.rules with
  | .error e => .error e
  | .ok _ => checkCron p.trigger.cron

end TagRetention
