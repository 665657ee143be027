import TagRetention.Catalog
import TagRetention.Json.Record

/-!
The catalog of rule templates as a JSON document.
-/

namespace TagRetention.Wire

open Json Json.Decode

def encodeTemplateParam (p : TemplateParam) : Json :=
  .obj [("type", .str p.kind), ("unit", .str p.unit), ("required", .bool p.required)]

def encodeTemplate (t : Template) : Json :=
  .obj [
    ("rule_template", .str t.id),
    ("display_text", .str t.displayText),
    ("action", .str t.action),
    ("params", .ofList encodeTemplateParam t.params)]

def encodeSelectorKind (s : SelectorKind) : Json :=
  .obj [
    ("display_text", .str s.displayText),
    ("kind", .str s.kind),
    ("decorations", .ofList .str s.decorations)]

def encodeCatalog (m : Catalog) : Json :=
  .obj [
    ("templates", .ofList encodeTemplate m.templates),
    ("scope_selectors", .ofList encodeSelectorKind m.scopeSelectors),
    ("tag_selectors", .ofList encodeSelectorKind m.tagSelectors)]

def templateParam : Decoder TemplateParam :=
  record
    (.cons (required "type" text) <|
      .cons (required "unit" text) <|
      .cons (defaulted "required" bool false) .nil)
    fun (kind, unit, required, _) => ⟨kind, unit, required⟩

def template : Decoder Template :=
  record
    (.cons (required "rule_template" text) <|
      .cons (defaulted "display_text" text "") <|
      .cons (defaulted "action" text actionRetain) <|
      .cons (defaulted "params" (list templateParam) []) .nil)
    fun (id, displayText, action, params, _) => ⟨id, displayText, action, params⟩

def selectorKind : Decoder SelectorKind :=
  record
    (.cons (required "display_text" text) <|
      .cons (required "kind" text) <|
      .cons (required "decorations" (list text)) .nil)
    fun (displayText, kind, decorations, _) => ⟨displayText, kind, decorations⟩

def catalog : Decoder Catalog :=
  record
    (.cons (defaulted "templates" (list template) []) <|
      .cons (defaulted "scope_selectors" (list selectorKind) []) <|
      .cons (defaulted "tag_selectors" (list selectorKind) []) .nil)
    fun (templates, scopeSelectors, tagSelectors, _) => ⟨templates, scopeSelectors, tagSelectors⟩

end TagRetention.Wire
