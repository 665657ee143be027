import TagRetention.Proofs.Api.Addresses
import TagRetention.Proofs.Wire.RoundTrip

/-!
Requests whose body is a document. The reader finds in the text what was written, so the document
says which call is made.
-/

namespace TagRetention.Api

open Json

variable {α : Type} {r : Request} {d : Decoder α} {j : Json} {p : Policy} {id : PolicyId}

theorem start_document (hbody : r.body = .document j) (hj : j.IsExact) :
    r.body.start = Node.found maxDepth j := by
  rw [hbody]
  exact readStart_text hj

theorem isJson_jsonType : ((some jsonType).map MediaType.isJson).getD false = true := by
  decide

theorem bodyOf_document {a : α} (htype : r.contentType = some jsonType)
    (hbody : r.body = .document j) (hj : j.IsExact) (hdepth : j.depth ≤ maxDepth)
    (hd : d (Node.ofJson j) = .ok a) : bodyOf r d = .ok a := by
  rw [bodyOf, htype, if_pos isJson_jsonType, start_document hbody hj,
    Node.found_of_depth j maxDepth hdepth, hd]

theorem bodyOf_policy (htype : r.contentType = some jsonType)
    (hbody : r.body = .document (Wire.encodePolicy p)) (hp : p.Portable) :
    bodyOf r Wire.policy = .ok p :=
  bodyOf_document htype hbody (Wire.isExact_encodePolicy hp.inRange hp.exactParams) hp.depth
    (Wire.policy_ofJson hp.inRange)

theorem callOf_create (htarget : r.target = "/api/retentions") (hpost : r.method = "POST")
    (hbody : bodyOf r Wire.policy = .ok p) : callOf r = .ok (.createPolicy p) := by
  have hpath : segments (cutTarget "/api/retentions").1 = ["", "api", "retentions"] := by
    decide +kernel
  have hresource : resourceOf r.segments = some .retentions := by
    rw [Request.segments, htarget, hpath]
    rfl
  have hverb : r.verb = "POST" := by simp [Request.verb, hpost]
  rw [callOf_post_policies hresource hverb, hbody]
  rfl

theorem callOf_update {policy : String}
    (hpath : r.segments = ["", "api", "retentions", policy]) (hid : pathId policy = .ok id)
    (hput : r.method = "PUT") (hbody : bodyOf r Wire.policy = .ok p) :
    callOf r = .ok (.updatePolicy id p) := by
  have hresource : resourceOf r.segments = some (.retention policy) := by
    rw [hpath]
    exact resourceOf_of_under hid (by simp) .retention
  have hverb : r.verb = "PUT" := by simp [Request.verb, hput]
  rw [callOf_put_policy hresource hverb, hid, hbody]
  rfl

theorem callOf_act {policy execution name : String} {eid : ExecutionId}
    (hpath : r.segments = ["", "api", "retentions", policy, "executions", execution])
    (hid : pathId policy = .ok id) (heid : pathId execution = .ok eid)
    (hpatch : r.method = "PATCH") (hbody : bodyOf r action = .ok name) :
    callOf r = .ok (.act id eid name) := by
  have hlast : ["executions", execution].getLast? ≠ some "" := by
    simpa using (ne_of_pathId heid).1
  have hresource : resourceOf r.segments = some (.execution policy execution) := by
    rw [hpath]
    exact resourceOf_of_under hid hlast (.execution execution)
  have hverb : r.verb = "PATCH" := by simp [Request.verb, hpatch]
  rw [callOf_patch_execution hresource hverb, hid, heid, hbody]
  rfl

end TagRetention.Api
