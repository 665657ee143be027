import TagRetention.Proofs.Client.RemoteStore
import TagRetention.Proofs.Client.Traffic

/-!
How a rejection by the service reaches the editor of a rule. A fault of a rule comes back as the key
that the editor would have found on its own, any other fault in the words of the service.
-/

namespace TagRetention

namespace Client

open Api Json Json.Node Json.Decode Transport Handler Orchestrator

variable {σ : Type} {c : Setting σ} {now : Instant} {s s' : State σ} {q : Request} {p d : Policy}
  {f : ApiFault} {v : RuleFault} {m : Mutation} {o : Orchestrator}

/-- A text has no key if it starts with a word that no known text starts with. -/
theorem messageKey_of_prefix {w : List Char} {start : String} (rest : String)
    (hw : w.any Text.isBlank = false) (hstart : w <+: start.toList)
    (hknown : ∀ e ∈ messageKeys, ¬ w <+: e.1.toList) :
    messageKey (start ++ rest) = start ++ rest := by
  have hvisible : ∀ c ∈ w, Text.isBlank c = false := by
    simpa using hw
  have htrim : w <+: (Text.trim (start ++ rest)).toList := by
    rw [Text.trim, String.toList_ofList, String.toList_append]
    exact Text.prefix_trimChars hvisible (hstart.trans (List.prefix_append _ _))
  have hnone : messageKeys.lookup (Text.trim (start ++ rest)) = none := by
    rw [List.lookup_eq_none_iff]
    intro e he
    rw [bne_iff_ne]
    intro heq
    exact hknown e he (heq ▸ htrim)
  rw [messageKey, hnone]

theorem messageKey_ruleFault (v : RuleFault) : messageKey v.message = v.key := by
  cases v <;> decide +kernel

/-- The words of the service start with the kind of the fault, so that they are not taken for a
known text, whatever the detail says. -/
theorem messageKey_message (hf : ∀ v, f ≠ .invalidRule v) : messageKey f.message = f.message := by
  cases f with
  | notFound detail =>
    exact messageKey_of_prefix (w := "Not".toList) detail (by decide) (by decide) (by decide)
  | badRequest detail =>
    exact messageKey_of_prefix (w := "Bad".toList) detail (by decide) (by decide) (by decide)
  | conflict detail =>
    exact messageKey_of_prefix (w := "Conflict:".toList) detail (by decide) (by decide) (by decide)
  | invalidRule v => exact absurd rfl (hf v)
  | launch detail =>
    exact messageKey_of_prefix (w := "Launch".toList) detail (by decide) (by decide) (by decide)
  | internal detail =>
    exact messageKey_of_prefix (w := "Internal".toList) detail (by decide) (by decide) (by decide)

theorem message_ne_empty (f : ApiFault) : f.message ≠ "" := by
  have hstart {start : String} (detail : String) (h : start ≠ "") : start ++ detail ≠ "" :=
    fun hempty => h (String.append_eq_empty_iff.1 hempty).1
  cases f with
  | invalidRule v => cases v <;> decide
  | _ => exact hstart _ (by decide)

theorem ofSubmission_rejected (status : Nat) (f : ApiFault) :
    (MutationFault.service (.rejected status f.message)).ofSubmission =
      .submission (messageKey f.message) := by
  rw [MutationFault.ofSubmission, ServiceFault.serverMessage?, if_neg (message_ne_empty f)]

/-- Of the body of a fault its message is read. -/
theorem errorMessage_ofJson (kind message : String) :
    errorMessage (ofJson (.obj [("error", .str kind), ("message", .str message)])) =
      .ok message := by
  have htolerates : Tolerates errorMessage (.record [("message", .leaf)]) :=
    FieldsTolerate.record (.cons (tolerates_leaf _) .nil) _
  have hwidens : Widens (.record [("message", .leaf)]) (.obj [("message", .str message)])
      (.obj [("error", .str kind), ("message", .str message)]) :=
    .record <| .added rfl _ <| .declared rfl (.refl _) .nil
  rw [htolerates _ _ hwidens, errorMessage]
  exact record_ofJson (by decide) (.field rfl .nil) rfl

theorem rejection_fault (f : ApiFault) :
    rejection (.ofResponse (.fault f)) = .rejected f.status f.message := by
  have hread : (HttpReply.ofResponse (.fault f)).body.whole =
      ofJson (.obj [("error", .str f.kind), ("message", .str f.message)]) :=
    read_text_of_depth ⟨trivial, trivial, trivial⟩ (Nat.le_of_lt (by decide : 1 < maxDepth))
  rw [rejection, hread, errorMessage_ofJson]
  rfl

theorem interpret_fault (q : Request) (f : ApiFault) :
    interpret q (some (.ofResponse (.fault f))) = .error (.rejected f.status f.message) := by
  have hfailed : isSuccess (.ofResponse (.fault f)) = false := by
    cases f <;> rfl
  rw [interpret, hfailed, if_neg Bool.false_ne_true, rejection_fault]

theorem remote_of_fault {call : Api.Call} (hcall : callOf (message q) = .ok call)
    (hrun : (handle c call).run now s = (.error f, s')) :
    remote c now q s = (.error (.rejected f.status f.message), s') := by
  simp only [remote, serve_of_call hcall, hrun, Response.ofResult, shown_message, interpret_fault]

/-- The policy that a call is to store. -/
def draft? : Api.Call → Option Policy
  | .createPolicy p => some p
  | .updatePolicy _ p => some p
  | _ => none

/-- The service takes the request for the write of the policy. -/
def ReadAs (q : Request) (p : Policy) : Prop :=
  ∃ call, callOf (message q) = .ok call ∧ draft? call = some p

theorem run_handle_of_check {call : Api.Call} (hdraft : draft? call = some p)
    (hcheck : p.check c.catalog = .error (.rule v)) :
    (handle c call).run now s = (.error (.invalidRule v), s) := by
  cases call <;> cases hdraft <;> rw [handle, hcheck] <;> rfl

/-- A policy is turned down for a rule of it before the store is looked at. -/
theorem remote_of_check (hread : ReadAs q p) (hcheck : p.check c.catalog = .error (.rule v)) :
    remote c now q s = (.error (.rejected 400 v.message), s) := by
  obtain ⟨call, hcall, hdraft⟩ := hread
  exact remote_of_fault hcall (run_handle_of_check hdraft hcheck)

/-- What can be sent as text is read as it was. -/
theorem readAs_writeRequest {saved : Option PolicyId} (hsaved : ∀ id ∈ saved, Fits 63 id)
    (hd : d.Portable) : ReadAs (writeRequest saved d) d := by
  cases saved with
  | none =>
    refine ⟨.createPolicy d, ?_, rfl⟩
    rw [writeRequest, callOf_createPolicy hd.inRange hd.exactParams, if_pos hd.depth]
  | some id =>
    refine ⟨.updatePolicy id d, ?_, rfl⟩
    rw [writeRequest, callOf_updatePolicy (hsaved id rfl) hd.inRange hd.exactParams,
      if_pos hd.depth]

theorem write_of_check {saved : Option PolicyId} (hread : ReadAs (writeRequest saved d) p)
    (hcheck : p.check c.catalog = .error (.rule v)) :
    Orchestrator.write (remote c now) saved d s = (.error (.rejected 400 v.message), s) := by
  cases saved with
  | none => exact remote_of_check hread hcheck
  | some id =>
    have hremote : remote c now (.updatePolicy id d) s = (.error (.rejected 400 v.message), s) :=
      remote_of_check hread hcheck
    rw [Orchestrator.write, hremote]
    rfl

theorem run_mutate_of_rejected {S : Type} {service : Service S} {w w' : S} {edit : Edit}
    {f : ServiceFault} (hfree : o.mutationPending = false)
    (hplan : m.plan o.policy o.catalog = .ok (some edit))
    (hwrite : Orchestrator.write service o.saved (edit.apply o.policy) w = (.error f, w')) :
    ((mutate m).run service o w).1 = .error (m.reported (.service f)) := by
  have hend := mutate_end service m o w
  generalize (mutate m).run service o w = r at hend
  cases hend with
  | busy hpending => simp [hfree] at hpending
  | refuse hrefused => simp [hplan] at hrefused
  | keep hkept => simp [hplan] at hkept
  | reject hplan' hw =>
    rw [hplan] at hplan'
    cases hplan'
    rw [hwrite] at hw
    cases hw
    rfl
  | unseen hplan' hw | done hplan' hw =>
    rw [hplan] at hplan'
    cases hplan'
    rw [hwrite] at hw
    cases hw

/-- A mutation that sends a draft has planned it, and the draft is what it writes. -/
theorem writeRequest_of_document {S : Type} {service : Service S} {w : S}
    (hq : q ∈ (mutate m).requests service o w) (hd : q.document? = some d) :
    o.mutationPending = false ∧ q = writeRequest o.saved d ∧
      ∃ edit, m.plan o.policy o.catalog = .ok (some edit) ∧ d = edit.apply o.policy := by
  obtain ⟨edit, hplan, rfl⟩ := document_of_mutate service m o w hq hd
  have hfree : o.mutationPending = false := by
    rw [← Bool.not_eq_true]
    intro hpending
    rw [requests_mutate_pending hpending] at hq
    cases hq
  refine ⟨hfree, ?_, edit, hplan, rfl⟩
  rw [requests_mutate_of_plan hfree hplan, List.mem_cons] at hq
  rcases hq with rfl | hq
  · rfl
  · unfold lookups at hq
    split at hq
    · cases hq
    · rw [List.mem_singleton.1 hq] at hd
      cases hd

/-- A fault of the service is what the client is told, in the same words. The editor of a rule is
shown a key for a fault of a rule, the key that it has for such a fault of its own, and the words
of the service for any other. So a draft that the service turns down for a rule ends with the key
for what is wrong with the policy that the service read. That is the draft if its document can be
sent as text. -/
theorem rejections_reach_editor :
    (∀ q f, interpret q (some (.ofResponse (.fault f))) = .error (.rejected f.status f.message)) ∧
    (∀ v : RuleFault, (MutationFault.service (.rejected (ApiFault.invalidRule v).status
        (ApiFault.invalidRule v).message)).ofSubmission = .submission v.key ∧
      (MutationFault.invalidRule v).key? = some v.key) ∧
    (∀ f : ApiFault, (∀ v, f ≠ .invalidRule v) →
      (MutationFault.service (.rejected f.status f.message)).ofSubmission =
        .submission f.message) ∧
    ∀ (σ : Type) (c : Setting σ) now s o m q d, m.submitsRule = true →
      q ∈ (mutate m).requests (remote c now) o s → q.document? = some d →
        (∀ p v, ReadAs q p → p.check c.catalog = .error (.rule v) →
          ((mutate m).run (remote c now) o s).1 = .error (.submission v.key)) ∧
        ((∀ id ∈ o.saved, Fits 63 id) → d.Portable → ReadAs q d) := by
  refine ⟨interpret_fault, fun v => ⟨?_, rfl⟩, fun f hf => ?_,
    fun σ c now s o m q d hm hq hd => ?_⟩
  · rw [ofSubmission_rejected]
    exact congrArg MutationFault.submission (messageKey_ruleFault v)
  · rw [ofSubmission_rejected, messageKey_message hf]
  · obtain ⟨hfree, rfl, edit, hplan, rfl⟩ := writeRequest_of_document hq hd
    refine ⟨fun p v hread hcheck => ?_, readAs_writeRequest⟩
    rw [run_mutate_of_rejected hfree hplan (write_of_check hread hcheck), Mutation.reported,
      if_pos hm]
    have hkey := ofSubmission_rejected 400 (.invalidRule v)
    exact congrArg Except.error (hkey.trans (congrArg _ (messageKey_ruleFault v)))

/-- A rule that needs a number and has none. -/
def uncounted (params : Members) : Rule :=
  { Rule.keepAlways "library/*" with template := "latestPushedK", params := params }

/-- A client that has not loaded the catalog sends such a rule. -/
theorem plan_uncounted {params : Members}
    (hkeeps : (uncounted params).normalize.excludesAll = false)
    (hcomplete : (uncounted params).normalize.isComplete .empty = true) :
    (Mutation.addRule (uncounted params)).plan (Policy.forProject 1) .empty =
      .ok (some (.addRule (uncounted params).normalize)) := by
  have hvalid : (uncounted params).validate [] .empty = .ok (uncounted params).normalize :=
    ((uncounted params).validate_eq_ok_iff _ _ _).mpr ⟨rfl, hkeeps, hcomplete, nofun⟩
  have hrules : (Policy.forProject 1).rules = [] := rfl
  rw [Mutation.plan, Mutation.validated, hrules, hvalid]

theorem sent_of_plan {S : Type} {service : Service S} {w : S} {r : Rule}
    (hplan : (Mutation.addRule r).plan (Policy.forProject 1) .empty =
      .ok (some (.addRule r.normalize))) :
    .createPolicy ((Policy.forProject 1).addRule r.normalize) ∈
      (mutate (.addRule r)).requests service (.new 1) w := by
  have hfree : (Orchestrator.new 1).mutationPending = false := rfl
  rw [requests_mutate_of_plan hfree hplan]
  exact List.mem_cons_self

theorem rejections_reach_editor_of_uncounted :
    let s := State.fresh Journal.empty
    let r := uncounted .empty
    let d := (Policy.forProject 1).addRule r.normalize
    d.check journaled.catalog = .error (.rule .incomplete) ∧
      ((mutate (.addRule r)).run (remote journaled default) (.new 1) s).1 =
        .error (.submission RuleFault.incomplete.key) := by
  intro s r d
  have hd : d.Portable := by
    refine ⟨⟨by rintro _ ⟨⟩, by decide, fun r hr => ?_⟩, fun r hr => ?_, by decide +kernel⟩
    all_goals obtain rfl := List.mem_singleton.mp hr
    · exact fits_zero 31
    · trivial
  have hsent : .createPolicy d ∈
      (mutate (.addRule r)).requests (remote journaled default) (.new 1) s :=
    sent_of_plan (plan_uncounted (by decide +kernel) (by decide +kernel))
  have hcheck : d.check journaled.catalog = .error (.rule .incomplete) := by decide +kernel
  obtain ⟨-, -, -, hreported⟩ := rejections_reach_editor
  obtain ⟨hkey, hread⟩ := hreported _ _ _ _ _ (.addRule r) _ _ rfl hsent rfl
  exact ⟨hcheck, hkey d .incomplete (hread (by rintro _ ⟨⟩) hd) hcheck⟩

/-- A draft that nests too deep is turned down before its rule is, so that its editor is shown no
key for it. -/
theorem deep_rule_reported_without_key :
    let s := State.fresh Journal.empty
    let r := uncounted (Members.empty.insert "note" (nested 124))
    let d := (Policy.forProject 1).addRule r.normalize
    (Mutation.addRule r).submitsRule = true ∧
      .createPolicy d ∈ (mutate (.addRule r)).requests (remote journaled default) (.new 1) s ∧
      d.check journaled.catalog = .error (.rule .incomplete) ∧
      ∃ text, ((mutate (.addRule r)).run (remote journaled default) (.new 1) s).1 =
        .error (.submission text) ∧ text ≠ RuleFault.incomplete.key := by
  intro s r d
  have hplan := @plan_uncounted (Members.empty.insert "note" (nested 124))
    (by decide +kernel) (by decide +kernel)
  have hrange : d.InRange := by
    refine ⟨by rintro _ ⟨⟩, by decide, fun r hr => ?_⟩
    obtain rfl := List.mem_singleton.mp hr
    exact fits_zero 31
  have hparams : d.ExactParams := by
    intro r hr
    obtain rfl := List.mem_singleton.mp hr
    exact ⟨isExact_nested 124, trivial⟩
  have hdeep : maxDepth < (Wire.encodePolicy d).depth := by decide +kernel
  have hfree : (Orchestrator.new 1).mutationPending = false := rfl
  have hwrite : Orchestrator.write (remote journaled default) none d s =
      (.error (.rejected 400 "Failed to read the body as JSON"), s) := by
    rw [Orchestrator.write, remote_of_malformed]
    rw [callOf_createPolicy hrange hparams, if_neg (Nat.not_le_of_lt hdeep)]
  refine ⟨rfl, sent_of_plan hplan, by decide +kernel, "Failed to read the body as JSON", ?_,
    by decide⟩
  rw [run_mutate_of_rejected hfree hplan hwrite]
  decide +kernel

end Client

end TagRetention
