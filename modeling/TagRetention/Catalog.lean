import TagRetention.Rule

/-!
The catalog of rule templates and selector kinds that a registry offers. Of templates with one id
the first counts.
-/

namespace TagRetention

structure TemplateParam where
  kind : String
  unit : String
  required : Bool
  deriving DecidableEq, Repr

structure Template where
  id : String
  displayText : String
  action : String
  params : List TemplateParam
  deriving DecidableEq, Repr

structure SelectorKind where
  displayText : String
  kind : String
  decorations : List String
  deriving DecidableEq, Repr

structure Catalog where
  templates : List Template
  scopeSelectors : List SelectorKind
  tagSelectors : List SelectorKind
  deriving DecidableEq, Repr

namespace Catalog

def empty : Catalog := ⟨[], [], []⟩

def template? (m : Catalog) (id : String) : Option Template :=
  m.templates.find? (·.id == id)

def hasParam (m : Catalog) (id : String) : Bool :=
  match m.template? id with
  | some t => !t.params.isEmpty
  | none => false

/-- The unit of the template's first parameter. -/
def unit? (m : Catalog) (id : String) : Option String :=
  (m.template? id).bind fun t => t.params.head?.map (·.unit)

def counted (id displayText unit : String) : Template :=
  ⟨id, displayText, actionRetain, [⟨"int", unit, true⟩]⟩

def standard : Catalog where
  templates := [
    counted "latestPushedK" "the most recently pushed # images" "COUNT",
    counted "latestPulledN" "the most recently pulled # images" "COUNT",
    counted "nDaysSinceLastPush" "pushed within the last # days" "DAYS",
    counted "nDaysSinceLastPull" "pulled within the last # days" "DAYS",
    ⟨"always", "always", actionRetain, []⟩]
  scopeSelectors := [
    ⟨"Repositories", nameKind,
      [RepositoryDecoration.repoMatches.name, RepositoryDecoration.repoExcludes.name]⟩]
  tagSelectors := [
    ⟨"Labels", labelKind,
      [LabelDecoration.withLabels.name, LabelDecoration.withoutLabels.name]⟩,
    ⟨"Tags", nameKind, [TagDecoration.matches.name, TagDecoration.excludes.name]⟩]

end Catalog

end TagRetention
