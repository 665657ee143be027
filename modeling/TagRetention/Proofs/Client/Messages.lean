import TagRetention.Client.Transport
import TagRetention.Proofs.Api.Documents
import TagRetention.Proofs.Wire.TooDeep

/-!
What a client sends, as the service takes it: each message makes the call that it stands for, with
the ids, the page and the policy that it was made from. Only a policy whose document nests too deep
is refused.
-/

namespace TagRetention.Client

open Api Text Transport

variable {id execution task : Int} {page : PageRequest}

/-- The longest path below a policy; the others are beginnings of it. -/
theorem plain_trail (id execution task : Int) :
    ∀ w ∈ ["api", "retentions", toString id, "executions", toString execution, "tasks",
      toString task], Plain w := by
  simp only [List.forall_mem_cons]
  exact ⟨by decide, by decide, plain_toString id, by decide, plain_toString execution, by decide,
    plain_toString task, by simp⟩

theorem target_retention (id : PolicyId) :
    "/api" ++ retentionPath id = address ["api", "retentions", toString id] := by
  simp [retentionPath, address]
  rfl

theorem target_executions (id : PolicyId) (query : String) :
    "/api" ++ (retentionPath id ++ "/executions" ++ query) =
      address ["api", "retentions", toString id, "executions"] ++ query := by
  simp [retentionPath, address, String.append_assoc]
  rfl

theorem target_tasks (id : PolicyId) (execution : ExecutionId) (query : String) :
    "/api" ++ (executionPath id execution ++ "/tasks" ++ query) =
      address ["api", "retentions", toString id, "executions", toString execution, "tasks"] ++
        query := by
  simp [executionPath, retentionPath, address, String.append_assoc]
  rfl

def pagePairs (page : PageRequest) : List (List Char × List Char) :=
  [("page".toList, (toString page.page).toList),
    ("page_size".toList, (toString page.pageSize).toList)]

theorem queryPairs_pageQuery (page : PageRequest) :
    queryPairs ((pageQuery page).toList.drop 1) = pagePairs page := by
  have hquery : (pageQuery page).toList.drop 1 =
      ("page".toList ++ '=' :: (toString page.page).toList) ++
        '&' :: ("page_size".toList ++ '=' :: (toString page.pageSize).toList) := by
    simp [pageQuery]
  have hname : Plain "page" := by decide
  have hname' : Plain "page_size" := by decide
  have hpage : Plain (toString page.page) := plain_toString page.page
  have hsize : Plain (toString page.pageSize) := plain_toString page.pageSize
  rw [hquery, queryPairs_append (not_mem_piece hname hpage), queryPairs_piece hname hpage,
    queryPairs_piece hname' hsize]
  rfl

theorem pageOf_pageQuery {page : PageRequest} (hpage : page.page < 2 ^ 32)
    (hsize : page.pageSize < 2 ^ 32) :
    Api.pageOf ((pageQuery page).toList.drop 1) = .ok page := by
  have hfirst : queryNumber (pagePairs page) "page" PageRequest.defaultPage = .ok page.page :=
    queryNumber_single rfl hpage _
  have hsecond : queryNumber (pagePairs page) "page_size" PageRequest.defaultSize =
      .ok page.pageSize :=
    queryNumber_single rfl hsize _
  rw [Api.pageOf, queryPairs_pageQuery, hfirst, hsecond]
  rfl

variable {p : Policy} {project : ProjectId}

/-- The policy that the body of a message carries, as the service reads it. -/
theorem bodyOf_encodePolicy (h : p.InRange) (hparams : p.ExactParams) (method path : String) :
    bodyOf (sending method path (some (Wire.encodePolicy p))) Wire.policy =
      if (Wire.encodePolicy p).depth ≤ Json.maxDepth then .ok p else .error .malformedBody := by
  have htype : (sending method path (some (Wire.encodePolicy p))).contentType = some jsonType := rfl
  rw [bodyOf, htype, if_pos isJson_jsonType,
    start_document rfl (Wire.isExact_encodePolicy h hparams)]
  by_cases hdepth : (Wire.encodePolicy p).depth ≤ Json.maxDepth
  · rw [if_pos hdepth, Json.Node.found_of_depth _ _ hdepth, Wire.policy_ofJson h]
  · rw [if_neg hdepth, Wire.policy_found_of_deep h (Nat.lt_of_not_le hdepth)]

theorem callOf_projectRetention (hproject : Fits 63 project) :
    callOf (message (.projectRetention project)) = .ok (.projectRetention project) := by
  have htarget : (message (.projectRetention project)).target =
      address ["api", "projects", toString project, "retention"] ++ "" := by
    simp [message, sending, address, String.append_assoc]
    rfl
  have hplain : ∀ w ∈ ["api", "projects", toString project, "retention"], Plain w := by
    simp only [List.forall_mem_cons]
    exact ⟨by decide, by decide, plain_toString project, by decide, by simp⟩
  have hresource : resourceOf (message (.projectRetention project)).segments =
      some (.projectRetention (toString project)) := by
    rw [Request.segments_of_target htarget hplain (by simp) (by simp) (by simp)]
    simp [resourceOf]
  rw [callOf_get_project hresource (verb_of_get rfl), pathId_toString hproject]
  rfl

theorem callOf_createPolicy (h : p.InRange) (hparams : p.ExactParams) :
    callOf (message (.createPolicy p)) =
      if (Wire.encodePolicy p).depth ≤ Json.maxDepth then .ok (.createPolicy p)
      else .error .malformedBody := by
  have hresource : resourceOf (message (.createPolicy p)).segments = some .retentions := by
    have hpath : (message (.createPolicy p)).segments = ["", "api", "retentions"] := by
      have htarget : (message (.createPolicy p)).target = address ["api", "retentions"] ++ "" := rfl
      exact Request.segments_of_target htarget (by decide) (by simp) (by simp) (by simp)
    rw [hpath]
    rfl
  have hverb : (message (.createPolicy p)).verb = "POST" := rfl
  have hbody : bodyOf (message (.createPolicy p)) Wire.policy = _ :=
    bodyOf_encodePolicy h hparams _ _
  rw [callOf_post_policies hresource hverb, hbody]
  split <;> rfl

theorem resourceOf_retention {method : String} (body : Option Json) (hid : Fits 63 id) :
    resourceOf (sending method (retentionPath id) body).segments =
      some (.retention (toString id)) := by
  have hpath : (sending method (retentionPath id) body).segments =
      ["", "api", "retentions", toString id] :=
    Request.segments_of_target (q := "") ((target_retention id).trans String.append_empty.symm)
      (fun w hw => plain_trail id 0 0 w (List.mem_of_mem_take (i := 3) hw)) (by simp) (by simp)
      (by simp)
  rw [hpath]
  exact resourceOf_of_under (pathId_toString hid) (by simp) .retention

theorem callOf_updatePolicy (hid : Fits 63 id) (h : p.InRange) (hparams : p.ExactParams) :
    callOf (message (.updatePolicy id p)) =
      if (Wire.encodePolicy p).depth ≤ Json.maxDepth then .ok (.updatePolicy id p)
      else .error .malformedBody := by
  have hresource : resourceOf (message (.updatePolicy id p)).segments =
      some (.retention (toString id)) :=
    resourceOf_retention _ hid
  have hverb : (message (.updatePolicy id p)).verb = "PUT" := rfl
  have hbody : bodyOf (message (.updatePolicy id p)) Wire.policy = _ :=
    bodyOf_encodePolicy h hparams _ _
  rw [callOf_put_policy hresource hverb, pathId_toString hid, hbody]
  split <;> rfl

theorem callOf_getPolicy (hid : Fits 63 id) :
    callOf (message (.getPolicy id)) = .ok (.getPolicy id) := by
  have hresource : resourceOf (message (.getPolicy id)).segments =
      some (.retention (toString id)) :=
    resourceOf_retention _ hid
  rw [callOf_get_policy hresource (verb_of_get rfl), pathId_toString hid]
  rfl

theorem pageQuery_clean (page : PageRequest) : '#' ∉ (pageQuery page).toList := by
  have hpage : Plain (toString page.page) := plain_toString page.page
  have hsize : Plain (toString page.pageSize) := plain_toString page.pageSize
  simp only [pageQuery, String.toList_append, List.mem_append, not_or]
  exact ⟨⟨⟨by decide, hpage.not_mem (by decide)⟩, by decide⟩, hsize.not_mem (by decide)⟩

theorem head?_pageQuery (page : PageRequest) : ∀ c ∈ (pageQuery page).toList.head?, c = '?' := by
  simp [pageQuery]

theorem callOf_listExecutions (hid : Fits 63 id) (hpage : page.page < 2 ^ 32)
    (hsize : page.pageSize < 2 ^ 32) :
    callOf (message (.listExecutions id page)) = .ok (.listExecutions id page) := by
  have hplain : ∀ w ∈ ["api", "retentions", toString id, "executions"], Plain w :=
    fun w hw => plain_trail id 0 0 w (List.mem_of_mem_take (i := 4) hw)
  have htarget : (message (.listExecutions id page)).target = _ :=
    target_executions id (pageQuery page)
  have hcut := cutTarget_address hplain (by simp) (pageQuery_clean page) (head?_pageQuery page)
  have hresource : resourceOf (message (.listExecutions id page)).segments =
      some (.executions (toString id)) := by
    rw [Request.segments, htarget, hcut, segments_address hplain]
    exact resourceOf_of_under (pathId_toString hid) (by simp) .executions
  rw [callOf_get_executions hresource (verb_of_get rfl), htarget, hcut, pathId_toString hid,
    pageOf_pageQuery hpage hsize]
  rfl

theorem callOf_listTasks (hid : Fits 63 id) (he : Fits 63 execution) (hpage : page.page < 2 ^ 32)
    (hsize : page.pageSize < 2 ^ 32) :
    callOf (message (.listTasks id execution page)) = .ok (.listTasks id execution page) := by
  have hplain : ∀ w ∈ ["api", "retentions", toString id, "executions", toString execution,
      "tasks"], Plain w :=
    fun w hw => plain_trail id execution 0 w (List.mem_of_mem_take (i := 6) hw)
  have htarget : (message (.listTasks id execution page)).target = _ :=
    target_tasks id execution (pageQuery page)
  have hcut := cutTarget_address hplain (by simp) (pageQuery_clean page) (head?_pageQuery page)
  have hresource : resourceOf (message (.listTasks id execution page)).segments =
      some (.tasks (toString id) (toString execution)) := by
    rw [Request.segments, htarget, hcut, segments_address hplain]
    exact resourceOf_of_under (pathId_toString hid) (by simp) (.tasks _)
  rw [callOf_get_tasks hresource (verb_of_get rfl), htarget, hcut, pathId_toString hid,
    pathId_toString he, pageOf_pageQuery hpage hsize]
  rfl

end TagRetention.Client
