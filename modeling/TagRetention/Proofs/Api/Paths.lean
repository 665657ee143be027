import TagRetention.Proofs.Api.Answers

/-!
Paths and the calls that requests to them make. A call has exactly the ids of its path, so a request
under the path of a policy is about this policy, or it is refused.
-/

namespace TagRetention.Api

variable {r : Request} {call : Call} {resource : Resource} {policy : String} {rest : List String}

def Request.segments (r : Request) : List String :=
  Api.segments (cutTarget r.target).1

def Request.verb (r : Request) : String :=
  if r.method = "HEAD" then "GET" else r.method

/-- The ids from the policy on, as they stand in the path. -/
def Resource.trail : Resource → List String
  | .retention policy | .executions policy => [policy]
  | .execution policy e | .tasks policy e => [policy, e]
  | .task policy e t => [policy, e, t]
  | .health | .projectRetention _ | .retentions | .catalog => []

def Call.trail : Call → List Int
  | .getPolicy id | .updatePolicy id _ | .trigger id _ | .listExecutions id _ => [id]
  | .act id e _ | .listTasks id e _ => [id, e]
  | .taskLog id e t | .report id e t _ _ _ _ => [id, e, t]
  | .health | .projectRetention _ | .createPolicy _ | .catalog => []

theorem bind_eq_ok {α β ε : Type} {x : Except ε α} {f : α → Except ε β} {b : β}
    (h : x >>= f = .ok b) : ∃ a, x = .ok a ∧ f a = .ok b := by
  cases x with
  | error e => cases h
  | ok a => exact ⟨a, rfl, h⟩

theorem trail_of_callOn {query : List Char} {method : String}
    (h : callOn r query resource method = .ok call) :
    resource.trail.map pathId = call.trail.map .ok := by
  unfold callOn at h
  split at h
  -- first what is not under a policy, then by the number of ids and what else is read
  case h_1 | h_4 =>
    cases h
    rfl
  case h_2 | h_3 =>
    obtain ⟨_, -, ⟨⟩⟩ := bind_eq_ok h
    rfl
  case h_5 =>
    obtain ⟨id, hid, ⟨⟩⟩ := bind_eq_ok h
    simp [Resource.trail, Call.trail, hid]
  case h_6 | h_7 | h_8 =>
    obtain ⟨id, hid, h⟩ := bind_eq_ok h
    obtain ⟨_, -, ⟨⟩⟩ := bind_eq_ok h
    simp [Resource.trail, Call.trail, hid]
  case h_9 | h_10 =>
    obtain ⟨id, hid, h⟩ := bind_eq_ok h
    obtain ⟨e, he, h⟩ := bind_eq_ok h
    obtain ⟨_, -, ⟨⟩⟩ := bind_eq_ok h
    simp [Resource.trail, Call.trail, hid, he]
  case h_11 =>
    obtain ⟨id, hid, h⟩ := bind_eq_ok h
    obtain ⟨e, he, h⟩ := bind_eq_ok h
    obtain ⟨t, ht, ⟨⟩⟩ := bind_eq_ok h
    simp [Resource.trail, Call.trail, hid, he, ht]
  case h_12 =>
    obtain ⟨id, hid, h⟩ := bind_eq_ok h
    obtain ⟨e, he, h⟩ := bind_eq_ok h
    obtain ⟨t, ht, h⟩ := bind_eq_ok h
    obtain ⟨_, -, ⟨⟩⟩ := bind_eq_ok h
    simp [Resource.trail, Call.trail, hid, he, ht]
  case h_13 => cases h

/-- What a path under a policy leads to, by its segments after the id of the policy. -/
inductive Under (policy : String) : List String → Resource → Prop where
  | retention : Under policy [] (.retention policy)
  | executions : Under policy ["executions"] (.executions policy)
  | execution (e : String) : Under policy ["executions", e] (.execution policy e)
  | tasks (e : String) : Under policy ["executions", e, "tasks"] (.tasks policy e)
  | task (e t : String) : Under policy ["executions", e, "tasks", t] (.task policy e t)

theorem under_of_resourceOf (hp : policy ≠ "metadatas")
    (h : resourceOf ("" :: "api" :: "retentions" :: policy :: rest) = some resource) :
    Under policy rest resource := by
  unfold resourceOf at h
  split at h
  · cases h
  · split at h
    case h_1 | h_2 | h_3 =>
      rename_i hseg
      simp at hseg
    case h_4 =>
      rename_i hseg
      obtain ⟨hmeta, -⟩ : policy = "metadatas" ∧ rest = [] := by simpa using hseg
      exact absurd hmeta hp
    case h_5 | h_6 | h_7 | h_8 | h_9 =>
      rename_i hseg
      obtain ⟨rfl, rfl⟩ : policy = _ ∧ rest = _ := by simpa using hseg
      cases h
      constructor
    case h_10 => cases h

theorem Under.trail (h : Under policy rest resource) : ∃ more, resource.trail = policy :: more := by
  cases h <;> exact ⟨_, rfl⟩

theorem Under.trail_of_execution {e : String} {more : List String}
    (h : Under policy ("executions" :: e :: more) resource) :
    ∃ l, resource.trail = policy :: e :: l := by
  cases h <;> exact ⟨_, rfl⟩

theorem Under.trail_of_task {e t : String} {more : List String}
    (h : Under policy ("executions" :: e :: "tasks" :: t :: more) resource) :
    resource.trail = [policy, e, t] := by
  cases h
  rfl

variable {id : PolicyId}

theorem callOn_of_path (hpath : r.segments = "" :: "api" :: "retentions" :: policy :: rest)
    (hid : pathId policy = .ok id) (hcall : callOf r = .ok call) :
    ∃ resource, Under policy rest resource ∧
      callOn r (cutTarget r.target).2 resource r.verb = .ok call := by
  have hp : policy ≠ "metadatas" := by
    rintro rfl
    have hbad : pathId "metadatas" = .error .badPath := rfl
    rw [hbad] at hid
    cases hid
  rw [Request.segments] at hpath
  simp only [callOf, hpath] at hcall
  split at hcall
  · cases hcall
  · rename_i resource hresource
    exact ⟨resource, under_of_resourceOf hp hresource, hcall⟩

theorem trail_of_path (hpath : r.segments = "" :: "api" :: "retentions" :: policy :: rest)
    (hid : pathId policy = .ok id) (hcall : callOf r = .ok call) :
    ∃ more, call.trail = id :: more := by
  obtain ⟨resource, hunder, hcall⟩ := callOn_of_path hpath hid hcall
  obtain ⟨l, hl⟩ := hunder.trail
  have htrail := trail_of_callOn hcall
  rw [hl, List.map_cons, hid] at htrail
  obtain ⟨_, more, htrail, ⟨⟩, -⟩ := List.map_eq_cons_iff.mp htrail.symm
  exact ⟨more, htrail⟩

theorem trail_of_execution_path {e : String} {more : List String}
    (hpath : r.segments = "" :: "api" :: "retentions" :: policy :: "executions" :: e :: more)
    (hid : pathId policy = .ok id) (hcall : callOf r = .ok call) :
    ∃ eid l, pathId e = .ok eid ∧ call.trail = id :: eid :: l := by
  obtain ⟨resource, hunder, hcall⟩ := callOn_of_path hpath hid hcall
  obtain ⟨l, hl⟩ := hunder.trail_of_execution
  have htrail := trail_of_callOn hcall
  rw [hl, List.map_cons, List.map_cons, hid] at htrail
  obtain ⟨_, tail, htrail, ⟨⟩, hmore⟩ := List.map_eq_cons_iff.mp htrail.symm
  obtain ⟨eid, l, rfl, he, -⟩ := List.map_eq_cons_iff.mp hmore
  exact ⟨eid, l, he.symm, htrail⟩

theorem trail_of_task_path {e t : String} {more : List String}
    (hpath : r.segments =
      "" :: "api" :: "retentions" :: policy :: "executions" :: e :: "tasks" :: t :: more)
    (hid : pathId policy = .ok id) (hcall : callOf r = .ok call) :
    ∃ eid tid, pathId e = .ok eid ∧ pathId t = .ok tid ∧ call.trail = [id, eid, tid] := by
  obtain ⟨resource, hunder, hcall⟩ := callOn_of_path hpath hid hcall
  have htrail := trail_of_callOn hcall
  rw [hunder.trail_of_task, List.map_cons, List.map_cons, List.map_cons, hid] at htrail
  obtain ⟨_, l, htrail, ⟨⟩, hl⟩ := List.map_eq_cons_iff.mp htrail.symm
  obtain ⟨eid, l, rfl, he, hl⟩ := List.map_eq_cons_iff.mp hl
  obtain ⟨tid, l, rfl, ht, hl⟩ := List.map_eq_cons_iff.mp hl
  obtain rfl : l = [] := List.map_eq_nil_iff.mp hl
  exact ⟨eid, tid, he.symm, ht.symm, htrail⟩

theorem callOn_of_executions_path
    (hpath : r.segments = ["", "api", "retentions", policy, "executions"])
    (hid : pathId policy = .ok id) (hcall : callOf r = .ok call) :
    callOn r (cutTarget r.target).2 (.executions policy) r.verb = .ok call := by
  obtain ⟨resource, hunder, hcall⟩ := callOn_of_path hpath hid hcall
  cases hunder
  exact hcall

theorem trigger_of_path (hpath : r.segments = ["", "api", "retentions", policy, "executions"])
    (hid : pathId policy = .ok id) (hpost : r.method = "POST") (hcall : callOf r = .ok call) :
    ∃ dryRun, call = .trigger id dryRun := by
  have hon := callOn_of_executions_path hpath hid hcall
  have hverb : r.verb = "POST" := by simp [Request.verb, hpost]
  rw [hverb] at hon
  obtain ⟨_, hk, hon⟩ := bind_eq_ok hon
  obtain ⟨dryRun, -, ⟨⟩⟩ := bind_eq_ok hon
  cases hid.symm.trans hk
  exact ⟨dryRun, rfl⟩

theorem verb_of_get (h : r.method = "GET") : r.verb = "GET" := by
  simp [Request.verb, h]

theorem listExecutions_of_path
    (hpath : r.segments = ["", "api", "retentions", policy, "executions"])
    (hid : pathId policy = .ok id) (hget : r.method = "GET") (hcall : callOf r = .ok call) :
    ∃ page, call = .listExecutions id page := by
  have hon := callOn_of_executions_path hpath hid hcall
  rw [verb_of_get hget] at hon
  obtain ⟨_, hk, hon⟩ := bind_eq_ok hon
  obtain ⟨page, -, ⟨⟩⟩ := bind_eq_ok hon
  cases hid.symm.trans hk
  exact ⟨page, rfl⟩

theorem listTasks_of_path {e : String}
    (hpath : r.segments = ["", "api", "retentions", policy, "executions", e, "tasks"])
    (hid : pathId policy = .ok id) (hget : r.method = "GET") (hcall : callOf r = .ok call) :
    ∃ eid page, pathId e = .ok eid ∧ call = .listTasks id eid page := by
  obtain ⟨resource, hunder, hon⟩ := callOn_of_path hpath hid hcall
  cases hunder
  rw [verb_of_get hget] at hon
  obtain ⟨_, hk, hon⟩ := bind_eq_ok hon
  obtain ⟨eid, he, hon⟩ := bind_eq_ok hon
  obtain ⟨page, -, ⟨⟩⟩ := bind_eq_ok hon
  cases hid.symm.trans hk
  exact ⟨eid, page, he, rfl⟩

theorem callOf_of_resource (h : resourceOf r.segments = some resource) :
    callOf r = callOn r (cutTarget r.target).2 resource r.verb := by
  rw [Request.segments] at h
  simp only [callOf, h, Request.verb]

-- A resource and a method make one call, whose parts are read in the order they stand here.

theorem callOf_get_project {project : String}
    (h : resourceOf r.segments = some (.projectRetention project)) (hget : r.verb = "GET") :
    callOf r = (do return .projectRetention (← pathId project)) := by
  rw [callOf_of_resource h, hget]
  rfl

theorem callOf_post_policies (h : resourceOf r.segments = some .retentions)
    (hpost : r.verb = "POST") :
    callOf r = (do return .createPolicy (← bodyOf r Wire.policy)) := by
  rw [callOf_of_resource h, hpost]
  rfl

theorem callOf_get_policy (h : resourceOf r.segments = some (.retention policy))
    (hget : r.verb = "GET") : callOf r = (do return .getPolicy (← pathId policy)) := by
  rw [callOf_of_resource h, hget]
  rfl

theorem callOf_put_policy (h : resourceOf r.segments = some (.retention policy))
    (hput : r.verb = "PUT") :
    callOf r = (do return .updatePolicy (← pathId policy) (← bodyOf r Wire.policy)) := by
  rw [callOf_of_resource h, hput]
  rfl

theorem callOf_get_executions (h : resourceOf r.segments = some (.executions policy))
    (hget : r.verb = "GET") :
    callOf r = (do return .listExecutions (← pathId policy) (← pageOf (cutTarget r.target).2)) := by
  rw [callOf_of_resource h, hget]
  rfl

theorem callOf_patch_execution {e : String}
    (h : resourceOf r.segments = some (.execution policy e)) (hpatch : r.verb = "PATCH") :
    callOf r = (do return .act (← pathId policy) (← pathId e) (← bodyOf r action)) := by
  rw [callOf_of_resource h, hpatch]
  rfl

theorem callOf_get_tasks {e : String} (h : resourceOf r.segments = some (.tasks policy e))
    (hget : r.verb = "GET") :
    callOf r = (do
      return .listTasks (← pathId policy) (← pathId e) (← pageOf (cutTarget r.target).2)) := by
  rw [callOf_of_resource h, hget]
  rfl

theorem callOf_get_task {e t : String} (h : resourceOf r.segments = some (.task policy e t))
    (hget : r.verb = "GET") :
    callOf r = (do return .taskLog (← pathId policy) (← pathId e) (← pathId t)) := by
  rw [callOf_of_resource h, hget]
  rfl

end TagRetention.Api
