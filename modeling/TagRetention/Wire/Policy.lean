import TagRetention.Json.Record
import TagRetention.Policy

/-!
Policies and rules as JSON documents. The tag and label selectors of a rule travel as a pair, the
repository selector as the one item of an array.
-/

namespace TagRetention.Wire

open Json Json.Decode

def encodeSelector {δ : Type} (name : δ → String) (s : Selector δ) : Json :=
  .obj [("kind", .str s.kind), ("decoration", .str (name s.decoration)),
    ("pattern", .str s.pattern)]

def encodeRule (r : Rule) : Json :=
  .obj [
    ("priority", .int r.priority),
    ("disabled", .bool r.disabled),
    ("action", .str r.action),
    ("template", .str r.template),
    ("params", (Value.object r.params).json),
    ("tag_selectors", .arr [
      encodeSelector TagDecoration.name r.tag,
      encodeSelector LabelDecoration.name r.label]),
    ("scope_selectors", .obj [
      ("repository", .arr [encodeSelector RepositoryDecoration.name r.repository])])]

def encodeScope (s : Scope) : Json :=
  .obj [("level", .str "project"), ("ref", .int s.reference)]

def encodeTrigger (t : Trigger) : Json :=
  .obj [("kind", .str "Schedule"), ("settings", .obj [("cron", .str t.cron)])]

def encodePolicy (p : Policy) : Json :=
  let id :=
    match p.id with
    | none => []
    | some id => [("id", .int id)]
  .obj (id ++ [
    ("scope", encodeScope p.scope),
    ("rules", .ofList encodeRule p.rules),
    ("trigger", encodeTrigger p.trigger)])

def repositoryDecoration : Decoder RepositoryDecoration :=
  choice [("repoMatches", .repoMatches), ("repoExcludes", .repoExcludes)]

def tagDecoration : Decoder TagDecoration :=
  choice [("matches", .matches), ("excludes", .excludes)]

def labelDecoration : Decoder LabelDecoration :=
  choice [("withLabels", .withLabels), ("withoutLabels", .withoutLabels)]

def selector {δ : Type} (decoration : Decoder δ) : Decoder (Selector δ) :=
  record
    (.cons (defaulted "kind" text "") <|
      .cons (required "decoration" decoration) <|
      .cons (defaulted "pattern" text "") .nil)
    fun (kind, decoration, pattern, _) => ⟨kind, decoration, pattern⟩

def repositorySelector : Decoder (Selector RepositoryDecoration) :=
  selector repositoryDecoration

def tagSelector : Decoder (Selector TagDecoration) :=
  selector tagDecoration

def labelSelector : Decoder (Selector LabelDecoration) :=
  selector labelDecoration

def scopeSelectors : Decoder (Selector RepositoryDecoration) :=
  record (.cons (required "repository" (single repositorySelector)) .nil) fun (s, _) => s

def rule : Decoder Rule :=
  record
    (.cons (defaulted "priority" int32 0) <|
      .cons (defaulted "disabled" bool false) <|
      .cons (defaulted "action" text actionRetain) <|
      .cons (defaulted "template" text "") <|
      .cons (defaulted "params" (nullable members) none) <|
      .cons (required "tag_selectors" (pair tagSelector labelSelector)) <|
      .cons (required "scope_selectors" scopeSelectors) .nil)
    fun (priority, disabled, action, template, params, (tag, label), repository, _) =>
      ⟨priority, disabled, action, template, params.getD .empty, repository, tag, label⟩

def scope : Decoder Scope :=
  record
    (.cons (required "level" (choice [("project", ScopeLevel.project)])) <|
      .cons (required "ref" int64) .nil)
    fun (level, reference, _) => ⟨level, reference⟩

def triggerSettings : Decoder String :=
  record (.cons (defaulted "cron" text "") .nil) fun (cron, _) => cron

def trigger : Decoder Trigger :=
  record
    (.cons (required "kind" (choice [("Schedule", TriggerKind.schedule)])) <|
      .cons (defaulted "settings" triggerSettings "") .nil)
    fun (kind, cron, _) => ⟨kind, cron⟩

def policy : Decoder Policy :=
  record
    (.cons (defaulted "id" (nullable int64) none) <|
      .cons (required "scope" scope) <|
      .cons (defaulted "rules" (list rule) []) <|
      .cons (defaulted "trigger" trigger .unscheduled) .nil)
    fun (id, scope, rules, trigger, _) => ⟨id, scope, rules, trigger⟩

end TagRetention.Wire
