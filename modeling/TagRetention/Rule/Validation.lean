import TagRetention.Catalog
import TagRetention.Fault
import TagRetention.Rule.Form

/-!
The checks that a rule passes before it enters a policy. The rule is normalised first: no blanks in
the patterns, and parameters that are numbers in text turned into numbers.
-/

namespace TagRetention

/-- Parameters stay below this bound. -/
def paramBound : Int := 2100000000

def wildcard : String := "**"

namespace Rule

/-- The parameter of the rule's template as a number. -/
def paramNumber? (r : Rule) : Option Int :=
  r.param?.bind fun v =>
    match v.json with
    | .num (.int n) => if -Int.pow 2 63 ≤ n ∧ n < Int.pow 2 63 then some n else none
    | .str s => (Text.int64 (Text.trim s)).toOption
    | _ => none

def hasNumber (r : Rule) : Bool :=
  match r.paramNumber? with
  | some n => decide (0 ≤ n ∧ n < paramBound)
  | none => false

def isComplete (r : Rule) (m : Catalog) : Bool :=
  r.template != "" && Pattern.stripBraces r.repository.pattern != "" &&
    Pattern.stripBraces r.tag.pattern != "" && (!m.hasParam r.template || r.hasNumber)

/-- Whether two rules select the same tags by the same template. Labels do not count. -/
def collides (a b : Rule) (m : Catalog) : Bool :=
  a.repository.decoration == b.repository.decoration &&
    a.repository.pattern == b.repository.pattern && a.template == b.template &&
    a.tag.decoration == b.tag.decoration && a.tag.pattern == b.tag.pattern &&
    (!m.hasParam a.template || a.params.same b.params)

def isDuplicate (r : Rule) (existing : List Rule) (m : Catalog) : Bool :=
  existing.any (r.collides · m)

def normalizeParam (v : Json.Value) : Json.Value :=
  match v.json with
  | .str s => paramOfText (Text.trim s)
  | _ => v

def normalize (r : Rule) : Rule :=
  { r with
    params := r.params.map normalizeParam
    repository := { r.repository with pattern := Text.squeeze r.repository.pattern }
    tag := { r.tag with pattern := Text.squeeze r.tag.pattern }
    label := { r.label with pattern := Text.trim r.label.pattern } }

/-- Whether the rule leaves out every repository. -/
def excludesAll (r : Rule) : Bool :=
  r.repository.decoration != .repoMatches &&
    (Text.split ',' (Pattern.stripBraces r.repository.pattern)).contains wildcard

def prepare (r : Rule) : Except RuleFault Rule :=
  let r := r.normalize
  if r.excludesAll then .error .wildcardExclusion else .ok r

def validate (r : Rule) (existing : List Rule) (m : Catalog) : Except RuleFault Rule :=
  match r.prepare with
  | .error e => .error e
  | .ok r =>
    if !r.isComplete m then .error .incomplete
    else if r.isDuplicate existing m then .error .duplicate
    else .ok r

end Rule

end TagRetention
