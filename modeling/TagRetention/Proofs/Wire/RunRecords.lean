import TagRetention.Proofs.Api.ReportedNumbers
import TagRetention.Proofs.Run.Outcome
import TagRetention.Proofs.Store.Ranges
import TagRetention.Proofs.Wire.RoundTrip
import TagRetention.Wire.Run

/-!
Executions and tasks as documents. They read back as they were written if their ids have 64 bits and
their times survive being printed.
-/

namespace TagRetention

/-- The time is the same after it was printed and read. -/
def Instant.Kept (t : Instant) : Prop :=
  Rfc3339.read (Rfc3339.write "Z" t) = some t

instance (t : Instant) : Decidable t.Kept :=
  inferInstanceAs (Decidable (Rfc3339.read (Rfc3339.write "Z" t) = some t))

structure Execution.Portable (e : Execution) : Prop where
  id : Fits 63 e.id
  policyId : Fits 63 e.policyId
  startTime : ∀ t, e.startTime = some t → t.Kept
  endTime : ∀ t, e.endTime = some t → t.Kept

structure Task.Portable (t : Task) : Prop where
  id : Fits 63 t.id
  executionId : Fits 63 t.executionId
  numbers : t.NumbersFit
  startTime : ∀ i, t.startTime = some i → i.Kept
  endTime : ∀ i, t.endTime = some i → i.Kept

namespace Wire

open Json Json.Node Json.Decode

theorem runStatus_ofJson (s : RunStatus) : runStatus (ofJson (encodeStatus s)) = .ok s := by
  cases s <;> rfl

theorem runTrigger_ofJson (t : RunTrigger) : runTrigger (ofJson (encodeRunTrigger t)) = .ok t := by
  cases t <;> rfl

theorem time_ofJson {o : Option Instant} (h : ∀ t, o = some t → t.Kept) :
    nullable instant (ofJson (.ofOption encodeInstant o)) = .ok o := by
  cases o with
  | none => rfl
  | some t =>
    have hread : instant (ofJson (encodeInstant t)) = .ok t := by
      rw [encodeInstant, ofJson, instant, h t rfl]
    exact nullable_of_ne (by rintro ⟨⟩) hread

theorem execution_ofJson {e : Execution} (h : e.Portable) :
    execution (ofJson (encodeExecution e)) = .ok e := by
  rw [execution, encodeExecution]
  exact record_ofJson (by decide)
    (.field (int64_ofJson h.id) <| .field (int64_ofJson h.policyId) <|
      .field (runStatus_ofJson e.status) <| .field (runTrigger_ofJson e.trigger) <| .field rfl <|
      .field (time_ofJson h.startTime) <| .field (time_ofJson h.endTime) .nil) rfl

theorem task_ofJson {t : Task} (h : t.Portable) : task (ofJson (encodeTask t)) = .ok t := by
  rw [task, encodeTask]
  exact record_ofJson (by decide)
    (.field (int64_ofJson h.id) <| .field (int64_ofJson h.executionId) <| .field rfl <|
      .field rfl <| .field (runStatus_ofJson t.status) <|
      .field (int64_ofJson h.numbers.revision) <| .field (time_ofJson h.startTime) <|
      .field (time_ofJson h.endTime) <| .field (int32_ofJson h.numbers.total) <|
      .field (int32_ofJson h.numbers.retained) .nil) rfl

theorem isExact_time (o : Option Instant) : (Json.ofOption encodeInstant o).IsExact := by
  cases o <;> trivial

theorem isExact_encodeExecution {e : Execution} (h : e.Portable) : (encodeExecution e).IsExact := by
  have htrigger : (encodeRunTrigger e.trigger).IsExact := by cases e.trigger <;> trivial
  exact ⟨isExact_int h.id, isExact_int h.policyId, trivial, htrigger, trivial,
    isExact_time e.startTime, isExact_time e.endTime, trivial⟩

theorem isExact_encodeTask {t : Task} (h : t.Portable) : (encodeTask t).IsExact :=
  ⟨isExact_int h.id, isExact_int h.executionId, trivial, trivial, trivial,
    isExact_int h.numbers.revision, isExact_time t.startTime, isExact_time t.endTime,
    isExact_int32 h.numbers.total, isExact_int32 h.numbers.retained, trivial⟩

theorem depth_time (o : Option Instant) : (Json.ofOption encodeInstant o).depth = 0 := by
  cases o <;> rfl

theorem depth_encodeExecution (e : Execution) : (encodeExecution e).depth = 1 := by
  have htrigger : (encodeRunTrigger e.trigger).depth = 0 := by cases e.trigger <;> rfl
  simp [encodeExecution, encodeStatus, Json.int, depth, fieldsDepth, htrigger, depth_time]

theorem depth_encodeTask (t : Task) : (encodeTask t).depth = 1 := by
  simp [encodeTask, encodeStatus, Json.int, depth, fieldsDepth, depth_time]

end Wire

/-- The times in the store are the same after they were printed and read. -/
structure Store.TimesKept (s : Store) : Prop where
  begun : ∀ r ∈ s.executions.values, r.startTime.Kept
  started : ∀ t ∈ s.tasks.values, ∀ i ∈ t.startTime, i.Kept
  ended : ∀ t ∈ s.tasks.values, ∀ i ∈ t.endTime, i.Kept

theorem Store.Reachable.portable_of_mem_runsOf {s : Store} (h : s.Reachable) (hb : s.Bounded)
    (hk : s.TimesKept) {policy : PolicyId} {p : Policy} (hp : s.policy? policy = some p)
    {e : Execution} (he : e ∈ s.runsOf policy) : e.Portable := by
  obtain ⟨hget, rfl⟩ := h.sound.mem_runsOf_iff.mp he
  obtain ⟨r, hr, hfill⟩ := Option.map_eq_some_iff.mp hget
  have hbegun : r.startTime.Kept :=
    hk.begun r ((Table.mem_values_iff h.sound.executions.sorted).mpr ⟨e.id, hr⟩)
  refine ⟨h.fits_executionId hb hr, h.fits_policyId hb hp, fun t ht => ?_, fun t ht => ?_⟩
  · rw [← hfill] at ht
    cases ht
    exact hbegun
  · rw [← hfill] at ht
    have hend : (Outcome.ofTasks r.startTime (s.tasksOf r.id)).endTime = some t := ht
    rcases Outcome.endTime_cases hend with rfl | ⟨u, hu, hut⟩
    · exact hbegun
    · exact hk.ended u (List.mem_of_mem_filter hu) t hut

theorem Api.Reachable.portable_of_mem_tasksOf {σ : Type} {c : Setting σ} {jobs : σ} {s : State σ}
    (h : Reachable c jobs s) (hb : s.store.Bounded) (hk : s.store.TimesKept) {e : ExecutionId}
    {r : ExecutionRecord} (hr : s.store.executions.get? e = some r) {t : Task}
    (ht : t ∈ s.store.tasksOf e) : t.Portable := by
  have hmem : t ∈ s.store.tasks.values := List.mem_of_mem_filter ht
  obtain ⟨hget, rfl⟩ := h.store.sound.mem_tasksOf_iff_task?.mp ht
  exact ⟨h.store.fits_taskId hb hget, h.store.fits_executionId hb hr, h.numbersFit hget,
    hk.started t hmem, hk.ended t hmem⟩

end TagRetention
