import TagRetention.Json.Printer
import TagRetention.Rule
import TagRetention.Selector.Pattern
import TagRetention.Text.Blank
import TagRetention.Text.Numeral

/-!
Rules as an editor shows them: one text per field. Repository and tag patterns are shown as comma
lists, the label pattern as it is, and the parameter as text.
-/

namespace TagRetention

structure RuleForm where
  template : String
  param : String
  repositoryDecoration : RepositoryDecoration
  repositories : String
  tagDecoration : TagDecoration
  tags : String
  labelDecoration : LabelDecoration
  labels : String
  disabled : Bool
  deriving DecidableEq, Repr

/-- A number if the text is one, otherwise the text. -/
def paramOfText (text : String) : Json.Value :=
  match Text.int64 text with
  | .ok n => .int n
  | .error _ => .str text

def paramText (param : Json.Value) : String :=
  match param.json with
  | .str s => s
  | .null => ""
  | j => j.text

namespace RuleForm

def ofRule (r : Rule) : RuleForm where
  template := r.template
  param := (r.param?.map paramText).getD ""
  repositoryDecoration := r.repository.decoration
  repositories := Pattern.toField r.repository.pattern
  tagDecoration := r.tag.decoration
  tags := Pattern.toField r.tag.pattern
  labelDecoration := r.label.decoration
  labels := r.label.pattern
  disabled := r.disabled

def toRule (f : RuleForm) : Rule :=
  let param := Text.trim f.param
  { Rule.blank with
    disabled := f.disabled
    template := f.template
    params :=
      if param = "" then .empty else Json.Members.empty.insert f.template (paramOfText param)
    repository := f.repositoryDecoration.selector (Pattern.ofField f.repositories)
    tag := f.tagDecoration.selector (Pattern.ofField f.tags)
    label := f.labelDecoration.selector f.labels }

end RuleForm

end TagRetention
