import TagRetention.Proofs.Json.Decoding
import TagRetention.Proofs.Json.Reading
import TagRetention.Proofs.Json.Widening
import TagRetention.Wire.Catalog
import TagRetention.Wire.Policy

/-!
Policies, rules and catalogs as documents: what is written reads back as the same record, and fields
that nobody declared are passed over.
-/

namespace TagRetention

/-- The numbers of the rule have the size that they have in a document. -/
def Rule.InRange (r : Rule) : Prop :=
  Fits 31 r.priority

def Policy.InRange (p : Policy) : Prop :=
  (∀ id ∈ p.id, Fits 63 id) ∧ Fits 63 p.scope.reference ∧ ∀ r ∈ p.rules, r.InRange

/-- The numbers among the parameters are whole, and of 64 bits with or without a sign. -/
def Policy.ExactParams (p : Policy) : Prop :=
  ∀ r ∈ p.rules, (Json.Value.object r.params).json.IsExact

/-- The document of the policy can be sent as text: its numbers are whole, and the reader of the
service follows it to the bottom. -/
structure Policy.Portable (p : Policy) : Prop where
  inRange : p.InRange
  exactParams : p.ExactParams
  depth : (Wire.encodePolicy p).depth ≤ Json.maxDepth

namespace Wire

open Json Json.Node Json.Decode

theorem repositoryDecoration_ofJson (d : RepositoryDecoration) :
    repositoryDecoration (ofJson (.str d.name)) = .ok d := by
  cases d <;> rfl

theorem tagDecoration_ofJson (d : TagDecoration) :
    tagDecoration (ofJson (.str d.name)) = .ok d := by
  cases d <;> rfl

theorem labelDecoration_ofJson (d : LabelDecoration) :
    labelDecoration (ofJson (.str d.name)) = .ok d := by
  cases d <;> rfl

theorem selector_ofJson {δ : Type} {decoration : Decoder δ} {name : δ → String}
    (h : ∀ d, decoration (ofJson (.str (name d))) = .ok d) (s : Selector δ) :
    selector decoration (ofJson (encodeSelector name s)) = .ok s := by
  have hnames : ["kind", "decoration", "pattern"].Nodup := by decide
  rw [selector, encodeSelector]
  exact record_ofJson hnames (.field rfl <| .field (h s.decoration) <| .field rfl .nil) rfl

theorem scopeSelectors_ofJson (s : Selector RepositoryDecoration) :
    scopeSelectors (ofJson (.obj
      [("repository", .arr [encodeSelector RepositoryDecoration.name s])])) = .ok s := by
  have hselector : repositorySelector (ofJson (encodeSelector RepositoryDecoration.name s)) =
      .ok s :=
    selector_ofJson repositoryDecoration_ofJson s
  rw [scopeSelectors]
  exact record_ofJson (by decide) (.field (single_ofJson hselector) .nil) rfl

theorem rule_ofJson {r : Rule} (h : r.InRange) : rule (ofJson (encodeRule r)) = .ok r := by
  have hparams : nullable members (ofJson (Value.object r.params).json) = .ok (some r.params) :=
    nullable_of_ne (by rintro ⟨⟩) (members_ofJson r.params)
  have htag : tagSelector (ofJson (encodeSelector TagDecoration.name r.tag)) = .ok r.tag :=
    selector_ofJson tagDecoration_ofJson r.tag
  have hlabel : labelSelector (ofJson (encodeSelector LabelDecoration.name r.label)) =
      .ok r.label :=
    selector_ofJson labelDecoration_ofJson r.label
  rw [rule, encodeRule]
  exact record_ofJson (by decide)
    (.field (int32_ofJson h) <| .field rfl <| .field rfl <| .field rfl <| .field hparams <|
      .field (pair_ofJson htag hlabel) <| .field (scopeSelectors_ofJson r.repository) .nil) rfl

theorem scope_ofJson {s : Scope} (h : Fits 63 s.reference) :
    scope (ofJson (encodeScope s)) = .ok s := by
  rw [scope, encodeScope]
  exact record_ofJson (by decide) (.field rfl <| .field (int64_ofJson h) .nil) rfl

theorem triggerSettings_ofJson (cron : String) :
    triggerSettings (ofJson (.obj [("cron", .str cron)])) = .ok cron := by
  rw [triggerSettings]
  exact record_ofJson (by decide) (.field rfl .nil) rfl

theorem trigger_ofJson (t : Trigger) : trigger (ofJson (encodeTrigger t)) = .ok t := by
  rw [trigger, encodeTrigger]
  exact record_ofJson (by decide) (.field rfl <| .field (triggerSettings_ofJson t.cron) .nil) rfl

theorem policy_ofJson {p : Policy} (h : p.InRange) : policy (ofJson (encodePolicy p)) = .ok p := by
  obtain ⟨hid, hscope, hrules⟩ := h
  have hlist : list rule (ofJson (.ofList encodeRule p.rules)) = .ok p.rules :=
    list_ofJson fun r hr => rule_ofJson (hrules r hr)
  have hscope := scope_ofJson hscope
  have htrigger := trigger_ofJson p.trigger
  obtain ⟨id, scope, rules, trigger⟩ := p
  rw [policy, encodePolicy]
  cases id with
  | none =>
    exact record_ofJson (by decide)
      (.absent rfl <| .field hscope <| .field hlist <| .field htrigger .nil) rfl
  | some id =>
    have hid : nullable int64 (ofJson (.int id)) = .ok (some id) :=
      nullable_of_ne (by rintro ⟨⟩) (int64_ofJson (hid id rfl))
    exact record_ofJson (by decide)
      (.field hid <| .field hscope <| .field hlist <| .field htrigger .nil) rfl

theorem text_ofList (l : List String) : list text (ofJson (.ofList .str l)) = .ok l :=
  list_ofJson fun _ _ => rfl

theorem templateParam_ofJson (p : TemplateParam) :
    templateParam (ofJson (encodeTemplateParam p)) = .ok p := by
  rw [templateParam, encodeTemplateParam]
  exact record_ofJson (by decide) (.field rfl <| .field rfl <| .field rfl .nil) rfl

theorem template_ofJson (t : Template) : template (ofJson (encodeTemplate t)) = .ok t := by
  have hparams : list templateParam (ofJson (.ofList encodeTemplateParam t.params)) =
      .ok t.params :=
    list_ofJson fun p _ => templateParam_ofJson p
  rw [template, encodeTemplate]
  exact record_ofJson (by decide)
    (.field rfl <| .field rfl <| .field rfl <| .field hparams .nil) rfl

theorem selectorKind_ofJson (s : SelectorKind) :
    selectorKind (ofJson (encodeSelectorKind s)) = .ok s := by
  rw [selectorKind, encodeSelectorKind]
  exact record_ofJson (by decide)
    (.field rfl <| .field rfl <| .field (text_ofList s.decorations) .nil) rfl

theorem catalog_ofJson (m : Catalog) : catalog (ofJson (encodeCatalog m)) = .ok m := by
  have htemplates : list template (ofJson (.ofList encodeTemplate m.templates)) =
      .ok m.templates :=
    list_ofJson fun t _ => template_ofJson t
  have hkinds (l : List SelectorKind) :
      list selectorKind (ofJson (.ofList encodeSelectorKind l)) = .ok l :=
    list_ofJson fun s _ => selectorKind_ofJson s
  rw [catalog, encodeCatalog]
  exact record_ofJson (by decide)
    (.field htemplates <| .field (hkinds m.scopeSelectors) <|
      .field (hkinds m.tagSelectors) .nil) rfl

def selectorShape : Shape :=
  .record [("kind", .leaf), ("decoration", .leaf), ("pattern", .leaf)]

/-- The keys of the parameters are data. -/
def ruleShape : Shape :=
  .record [("priority", .leaf), ("disabled", .leaf), ("action", .leaf), ("template", .leaf),
    ("params", .leaf), ("tag_selectors", .items selectorShape),
    ("scope_selectors", .record [("repository", .items selectorShape)])]

def policyShape : Shape :=
  .record [("id", .leaf), ("scope", .record [("level", .leaf), ("ref", .leaf)]),
    ("rules", .items ruleShape),
    ("trigger", .record [("kind", .leaf), ("settings", .record [("cron", .leaf)])])]

def templateShape : Shape :=
  .record [("rule_template", .leaf), ("display_text", .leaf), ("action", .leaf),
    ("params", .items (.record [("type", .leaf), ("unit", .leaf), ("required", .leaf)]))]

def selectorKindShape : Shape :=
  .record [("display_text", .leaf), ("kind", .leaf), ("decorations", .leaf)]

def catalogShape : Shape :=
  .record [("templates", .items templateShape), ("scope_selectors", .items selectorKindShape),
    ("tag_selectors", .items selectorKindShape)]

theorem tolerates_selector {δ : Type} (decoration : Decoder δ) :
    Tolerates (selector decoration) selectorShape :=
  FieldsTolerate.record
    (.cons (tolerates_leaf _) <| .cons (tolerates_leaf _) <| .cons (tolerates_leaf _) .nil) _

theorem tolerates_rule : Tolerates rule ruleShape := by
  have hscope : Tolerates scopeSelectors (.record [("repository", .items selectorShape)]) :=
    FieldsTolerate.record (.cons (tolerates_selector _).single .nil) _
  exact FieldsTolerate.record
    (.cons (tolerates_leaf _) <| .cons (tolerates_leaf _) <| .cons (tolerates_leaf _) <|
      .cons (tolerates_leaf _) <| .cons (tolerates_leaf _) <|
      .cons ((tolerates_selector _).pair (tolerates_selector _)) <| .cons hscope .nil) _

theorem tolerates_policy : Tolerates policy policyShape := by
  have hscope : Tolerates scope (.record [("level", .leaf), ("ref", .leaf)]) :=
    FieldsTolerate.record (.cons (tolerates_leaf _) <| .cons (tolerates_leaf _) .nil) _
  have hsettings : Tolerates triggerSettings (.record [("cron", .leaf)]) :=
    FieldsTolerate.record (.cons (tolerates_leaf _) .nil) _
  have htrigger : Tolerates trigger
      (.record [("kind", .leaf), ("settings", .record [("cron", .leaf)])]) :=
    FieldsTolerate.record (.cons (tolerates_leaf _) <| .cons hsettings .nil) _
  exact FieldsTolerate.record
    (.cons (tolerates_leaf _) <| .cons hscope <| .cons tolerates_rule.list <| .cons htrigger .nil) _

theorem tolerates_catalog : Tolerates catalog catalogShape := by
  have hparam : Tolerates templateParam
      (.record [("type", .leaf), ("unit", .leaf), ("required", .leaf)]) :=
    FieldsTolerate.record
      (.cons (tolerates_leaf _) <| .cons (tolerates_leaf _) <| .cons (tolerates_leaf _) .nil) _
  have htemplate : Tolerates template templateShape :=
    FieldsTolerate.record
      (.cons (tolerates_leaf _) <| .cons (tolerates_leaf _) <| .cons (tolerates_leaf _) <|
        .cons hparam.list .nil) _
  have hkind : Tolerates selectorKind selectorKindShape :=
    FieldsTolerate.record
      (.cons (tolerates_leaf _) <| .cons (tolerates_leaf _) <| .cons (tolerates_leaf _) .nil) _
  exact FieldsTolerate.record
    (.cons htemplate.list <| .cons hkind.list <| .cons hkind.list .nil) _

theorem isExact_int {n : Int} (h : Fits 63 n) : (Json.int n).IsExact :=
  ⟨h.1, Int.lt_trans h.2 (by decide)⟩

theorem isExact_int32 {n : Int} (h : Fits 31 n) : (Json.int n).IsExact :=
  isExact_int ⟨Int.le_trans (by decide) h.1, Int.lt_trans h.2 (by decide)⟩

theorem isExact_ofList {α : Type} {f : α → Json} {l : List α} (h : ∀ a ∈ l, (f a).IsExact) :
    (Json.ofList f l).IsExact := by
  rw [Json.ofList, IsExact]
  induction l with
  | nil => trivial
  | cons a l ih =>
    exact ⟨h a List.mem_cons_self, ih fun b hb => h b (List.mem_cons_of_mem a hb)⟩

theorem isExact_encodeSelector {δ : Type} (name : δ → String) (s : Selector δ) :
    (encodeSelector name s).IsExact :=
  ⟨trivial, trivial, trivial, trivial⟩

theorem isExact_encodeRule {r : Rule} (h : r.InRange)
    (hparams : (Value.object r.params).json.IsExact) : (encodeRule r).IsExact := by
  have hpriority : (Json.int r.priority).IsExact := isExact_int32 h
  have htags : IsExact (.arr [encodeSelector TagDecoration.name r.tag,
      encodeSelector LabelDecoration.name r.label]) :=
    ⟨isExact_encodeSelector _ _, isExact_encodeSelector _ _, trivial⟩
  have hscope : IsExact (.obj [("repository",
      .arr [encodeSelector RepositoryDecoration.name r.repository])]) :=
    ⟨⟨isExact_encodeSelector _ _, trivial⟩, trivial⟩
  exact ⟨hpriority, trivial, trivial, trivial, hparams, htags, hscope, trivial⟩

theorem isExact_encodePolicy {p : Policy} (h : p.InRange) (hparams : p.ExactParams) :
    (encodePolicy p).IsExact := by
  obtain ⟨hid, hscope, hrules⟩ := h
  have hlist : (Json.ofList encodeRule p.rules).IsExact :=
    isExact_ofList fun r hr => isExact_encodeRule (hrules r hr) (hparams r hr)
  have hscope : (encodeScope p.scope).IsExact := ⟨trivial, isExact_int hscope, trivial⟩
  have htrigger : (encodeTrigger p.trigger).IsExact := ⟨trivial, ⟨trivial, trivial⟩, trivial⟩
  obtain ⟨id, scope, rules, trigger⟩ := p
  cases id with
  | none => exact ⟨hscope, hlist, htrigger, trivial⟩
  | some id => exact ⟨isExact_int (hid id rfl), hscope, hlist, htrigger, trivial⟩

theorem depth_encodePolicy (p : Policy) :
    (encodePolicy p).depth = max 2 (Json.ofList encodeRule p.rules).depth + 1 := by
  have hscope : (encodeScope p.scope).depth = 1 := rfl
  have htrigger : (encodeTrigger p.trigger).depth = 2 := rfl
  have hrules : 1 ≤ (Json.ofList encodeRule p.rules).depth := Nat.le_add_left 1 _
  obtain ⟨id, scope, rules, trigger⟩ := p
  cases id <;>
    simp only [encodePolicy, List.nil_append, List.cons_append, depth, fieldsDepth, hscope,
      htrigger, Json.int] <;>
    omega

theorem portable_of_no_rules {p : Policy} (hid : ∀ id ∈ p.id, Fits 63 id)
    (hscope : Fits 63 p.scope.reference) (hrules : p.rules = []) : p.Portable := by
  refine ⟨⟨hid, hscope, by simp [hrules]⟩, by simp [Policy.ExactParams, hrules], ?_⟩
  rw [depth_encodePolicy, hrules]
  decide

theorem portable_forProject (project : ProjectId) (h : Fits 63 project) :
    (Policy.forProject project).Portable :=
  portable_of_no_rules (by rintro _ ⟨⟩) h rfl

/-- A stored policy has an id, and the scope that was stored first. Neither makes a difference to how
deep its document nests. -/
theorem portable_stored {p : Policy} {id : PolicyId} {scope : Scope} (h : p.Portable)
    (hid : Fits 63 id) (hscope : Fits 63 scope.reference) :
    Policy.Portable { p.withId id with scope := scope } := by
  refine ⟨⟨?_, hscope, h.inRange.2.2⟩, h.exactParams, ?_⟩
  · rintro _ ⟨⟩
    exact hid
  · have hdepth := h.depth
    rw [depth_encodePolicy] at hdepth ⊢
    exact hdepth

/-- Nothing is lost on the way through a document, whatever a policy, a rule or a catalog holds, and
fields that nobody declared change nothing. The text of a document is as good as the document while
the reader can follow it. -/
theorem documents_read_back :
    (∀ p : Policy, p.InRange → policy (ofJson (encodePolicy p)) = .ok p) ∧
      (∀ r : Rule, r.InRange → rule (ofJson (encodeRule r)) = .ok r) ∧
      (∀ m : Catalog, catalog (ofJson (encodeCatalog m)) = .ok m) ∧
      (∀ d d', Widens policyShape d d' → policy (ofJson d') = policy (ofJson d)) ∧
      (∀ d d', Widens ruleShape d d' → rule (ofJson d') = rule (ofJson d)) ∧
      (∀ d d', Widens catalogShape d d' → catalog (ofJson d') = catalog (ofJson d)) ∧
      ∀ d : Json, d.IsExact → d.depth ≤ maxDepth → Json.read d.text = ofJson d :=
  ⟨fun _ => policy_ofJson, fun _ => rule_ofJson, catalog_ofJson, tolerates_policy, tolerates_rule,
    tolerates_catalog, fun _ => read_text_of_depth⟩

/-- A policy whose document gets more fields: one of its own and one of its scope. -/
theorem documents_read_back_of_wider_policy :
    let r : Rule :=
      { Rule.blank with
        priority := -3
        params := Members.empty.insert "always" (.array [.int 1, .array [.null]]) }
    let p : Policy := { Policy.forProject 5 with id := some 7, rules := [r] }
    let scope := Json.obj [("note", .null), ("level", .str "project"), ("ref", .int 5)]
    let wider := Json.obj [("id", .int 7), ("scope", scope), ("rules", .arr [encodeRule r]),
      ("owner", .str "registry"), ("trigger", encodeTrigger p.trigger)]
    p.InRange ∧ Widens policyShape (encodePolicy p) wider ∧ policy (ofJson wider) = .ok p ∧
      policy (Json.read (encodePolicy p).text) = .ok p := by
  intro r p scope wider
  have hp : p.InRange := by
    refine ⟨?_, by decide, ?_⟩
    · rintro _ ⟨⟩
      decide
    · intro r' hr
      obtain rfl := List.mem_singleton.mp hr
      exact (by decide : Fits 31 (-3))
  have hwider : Widens policyShape (encodePolicy p) wider := by
    refine .record (.declared rfl (.refl _) <| .declared rfl (.record ?_) <|
      .declared rfl (.refl _) <| .added rfl _ <| .declared rfl (.refl _) .nil)
    exact .added rfl _ <| .declared rfl (.refl _) <| .declared rfl (.refl _) .nil
  obtain ⟨hpolicy, -, -, hwidens, -, -, htext⟩ := documents_read_back
  have hparams : p.ExactParams := by
    intro r' hr
    obtain rfl := List.mem_singleton.mp hr
    exact ⟨⟨isExact_int (by decide), ⟨trivial, trivial⟩, trivial⟩, trivial⟩
  have hexact : (encodePolicy p).IsExact := isExact_encodePolicy hp hparams
  have hdepth : (encodePolicy p).depth ≤ maxDepth := by decide
  refine ⟨hp, hwider, ?_, ?_⟩
  · rw [hwidens _ _ hwider, hpolicy p hp]
  · rw [htext _ hexact hdepth, hpolicy p hp]

end Wire

end TagRetention
