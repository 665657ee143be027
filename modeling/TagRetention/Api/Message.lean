import TagRetention.Api.Fault
import TagRetention.Json.Printer
import TagRetention.Json.Reader

/-!
Requests and responses of the service. A body is a JSON document or text; either way it is its
content, a text, that is read.
-/

namespace TagRetention.Api

inductive Body where
  | empty
  | document (json : Json)
  | text (content : String)

def Body.content : Body → String
  | .empty => ""
  | .document j => j.text
  | .text s => s

/-- What a reader finds at the start of the body. -/
def Body.start (b : Body) : Json.Node :=
  Json.readStart b.content

/-- What a reader finds that wants the whole body to be one value. -/
def Body.whole (b : Body) : Json.Node :=
  Json.read b.content

structure Request where
  method : String
  target : String
  contentType : Option String
  body : Body

/-- `total` is the number of items of the whole listing, of which the body has one page. -/
structure Response where
  status : Nat
  contentType : Option String
  total : Option Nat
  body : Body

def jsonType : String := "application/json"

def textType : String := "text/plain; charset=utf-8"

namespace Response

def json (status : Nat) (j : Json) : Response :=
  ⟨status, some jsonType, none, .document j⟩

def text (status : Nat) (s : String) : Response :=
  ⟨status, some textType, none, .text s⟩

def bare (status : Nat) : Response :=
  ⟨status, none, none, .empty⟩

def listing (total : Nat) (items : List Json) : Response :=
  ⟨200, some jsonType, some total, .document (.arr items)⟩

def fault (f : ApiFault) : Response :=
  json f.status (.obj [("error", .str f.kind), ("message", .str f.message)])

def withoutBody (r : Response) : Response :=
  { r with body := .empty }

end Response

end TagRetention.Api
