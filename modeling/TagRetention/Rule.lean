import TagRetention.Json.Value
import TagRetention.Selector

/-!
Retention rules: a template with its parameters, and what it applies to. `params` has one entry per
template, so that a rule keeps the parameters of templates it does not use at the moment.
-/

namespace TagRetention

def actionRetain : String := "retain"

structure Rule where
  priority : Int
  disabled : Bool
  action : String
  template : String
  params : Json.Members
  repository : Selector RepositoryDecoration
  tag : Selector TagDecoration
  label : Selector LabelDecoration
  deriving Inhabited

namespace Rule

def blank : Rule where
  priority := 0
  disabled := false
  action := actionRetain
  template := ""
  params := .empty
  repository := RepositoryDecoration.repoMatches.selector ""
  tag := TagDecoration.matches.selector ""
  label := LabelDecoration.withLabels.selector ""

/-- The parameter of the rule's own template. -/
def param? (r : Rule) : Option Json.Value :=
  r.params.get? r.template

def same (a b : Rule) : Bool :=
  a.priority == b.priority && a.disabled == b.disabled && a.action == b.action &&
    a.template == b.template && a.params.same b.params && a.repository == b.repository &&
    a.tag == b.tag && a.label == b.label

end Rule

end TagRetention
