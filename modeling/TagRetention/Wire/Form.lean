import TagRetention.Rule.Form
import TagRetention.Wire.Policy

/-!
Rule forms as JSON documents. A field that is left out is blank, and a decoration that is left out
is the one that matches.
-/

namespace TagRetention.Wire

open Json Json.Decode

def encodeForm (f : RuleForm) : Json :=
  .obj [
    ("template", .str f.template),
    ("param", .str f.param),
    ("repository_decoration", .str f.repositoryDecoration.name),
    ("repositories", .str f.repositories),
    ("tag_decoration", .str f.tagDecoration.name),
    ("tags", .str f.tags),
    ("label_decoration", .str f.labelDecoration.name),
    ("labels", .str f.labels),
    ("disabled", .bool f.disabled)]

def form : Decoder RuleForm :=
  record
    (.cons (defaulted "template" text "") <|
      .cons (defaulted "param" text "") <|
      .cons (defaulted "repository_decoration" repositoryDecoration .repoMatches) <|
      .cons (defaulted "repositories" text "") <|
      .cons (defaulted "tag_decoration" tagDecoration .matches) <|
      .cons (defaulted "tags" text "") <|
      .cons (defaulted "label_decoration" labelDecoration .withLabels) <|
      .cons (defaulted "labels" text "") <|
      .cons (defaulted "disabled" bool false) .nil)
    fun (template, param, repositoryDecoration, repositories, tagDecoration, tags,
        labelDecoration, labels, disabled, _) =>
      ⟨template, param, repositoryDecoration, repositories, tagDecoration, tags, labelDecoration,
        labels, disabled⟩

end TagRetention.Wire
