import TagRetention.Json.Record
import TagRetention.Page
import TagRetention.Run
import TagRetention.Time.Rfc3339

/-!
Executions, tasks and page requests as JSON documents.
-/

namespace TagRetention.Wire

open Json Json.Decode

def runStatus : Decoder RunStatus :=
  choice [("Pending", .pending), ("Running", .running), ("Succeeded", .succeeded),
    ("Failed", .failed), ("Stopped", .stopped)]

def runTrigger : Decoder RunTrigger :=
  choice [("MANUAL", .manual), ("SCHEDULE", .schedule)]

def instant : Decoder Instant
  | .str s =>
    match Rfc3339.read s with
    | some t => .ok t
    | none => .error .mismatch
  | n => .error n.flaw

def execution : Decoder Execution :=
  record
    (.cons (required "id" int64) <|
      .cons (required "policy_id" int64) <|
      .cons (required "status" runStatus) <|
      .cons (defaulted "trigger" runTrigger .manual) <|
      .cons (required "dry_run" bool) <|
      .cons (defaulted "start_time" (nullable instant) none) <|
      .cons (defaulted "end_time" (nullable instant) none) .nil)
    fun (id, policyId, status, trigger, dryRun, startTime, endTime, _) =>
      ⟨id, policyId, status, trigger, dryRun, startTime, endTime⟩

def task : Decoder Task :=
  record
    (.cons (required "id" int64) <|
      .cons (required "execution_id" int64) <|
      .cons (required "repository" text) <|
      .cons (defaulted "job_id" text "") <|
      .cons (required "status" runStatus) <|
      .cons (defaulted "status_revision" int64 0) <|
      .cons (defaulted "start_time" (nullable instant) none) <|
      .cons (defaulted "end_time" (nullable instant) none) <|
      .cons (defaulted "total" int32 0) <|
      .cons (defaulted "retained" int32 0) .nil)
    fun (id, executionId, repository, jobId, status, revision, startTime, endTime, total, retained,
        _) =>
      ⟨id, executionId, repository, jobId, status, revision, startTime, endTime, total, retained⟩

def pageRequest : Decoder PageRequest :=
  record
    (.cons (defaulted "page" (natural 32) PageRequest.defaultPage) <|
      .cons (defaulted "page_size" (natural 32) PageRequest.defaultSize) .nil)
    fun (page, pageSize, _) => ⟨page, pageSize⟩

def encodeStatus (s : RunStatus) : Json :=
  .str s.name

def encodeRunTrigger : RunTrigger → Json
  | .manual => .str "MANUAL"
  | .schedule => .str "SCHEDULE"

def encodeInstant (t : Instant) : Json :=
  .str (Rfc3339.write "Z" t)

def encodeExecution (e : Execution) : Json :=
  .obj [
    ("id", .int e.id),
    ("policy_id", .int e.policyId),
    ("status", encodeStatus e.status),
    ("trigger", encodeRunTrigger e.trigger),
    ("dry_run", .bool e.dryRun),
    ("start_time", .ofOption encodeInstant e.startTime),
    ("end_time", .ofOption encodeInstant e.endTime)]

def encodeTask (t : Task) : Json :=
  .obj [
    ("id", .int t.id),
    ("execution_id", .int t.executionId),
    ("repository", .str t.repository),
    ("job_id", .str t.jobId),
    ("status", encodeStatus t.status),
    ("status_revision", .int t.revision),
    ("start_time", .ofOption encodeInstant t.startTime),
    ("end_time", .ofOption encodeInstant t.endTime),
    ("total", .int t.total),
    ("retained", .int t.retained)]

def encodePageRequest (r : PageRequest) : Json :=
  .obj [("page", .nat r.page), ("page_size", .nat r.pageSize)]

end TagRetention.Wire
