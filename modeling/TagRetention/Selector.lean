/-!
Selectors: a pattern over repository names, tag names or labels, and whether what matches it is
meant or all else.
-/

namespace TagRetention

inductive RepositoryDecoration where
  | repoMatches
  | repoExcludes
  deriving DecidableEq, Repr, Inhabited

inductive TagDecoration where
  | matches
  | excludes
  deriving DecidableEq, Repr, Inhabited

inductive LabelDecoration where
  | withLabels
  | withoutLabels
  deriving DecidableEq, Repr, Inhabited

structure Selector (δ : Type) where
  kind : String
  decoration : δ
  pattern : String
  deriving DecidableEq, Repr, Inhabited

/-- The kind of selectors on repository and tag names. -/
def nameKind : String := "doublestar"

def labelKind : String := "label"

def RepositoryDecoration.name : RepositoryDecoration → String
  | .repoMatches => "repoMatches"
  | .repoExcludes => "repoExcludes"

def TagDecoration.name : TagDecoration → String
  | .matches => "matches"
  | .excludes => "excludes"

def LabelDecoration.name : LabelDecoration → String
  | .withLabels => "withLabels"
  | .withoutLabels => "withoutLabels"

def RepositoryDecoration.selector (d : RepositoryDecoration) (pattern : String) :
    Selector RepositoryDecoration :=
  ⟨nameKind, d, pattern⟩

def TagDecoration.selector (d : TagDecoration) (pattern : String) : Selector TagDecoration :=
  ⟨nameKind, d, pattern⟩

def LabelDecoration.selector (d : LabelDecoration) (pattern : String) :
    Selector LabelDecoration :=
  ⟨labelKind, d, pattern⟩

end TagRetention
