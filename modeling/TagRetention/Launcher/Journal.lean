import TagRetention.Launcher
import TagRetention.Table
import TagRetention.Time.Rfc3339

/-!
A launcher that keeps its jobs in a journal. Its jobs do not run by themselves; their states come
in as reports. Job ids are numbered in the shape of a UUID, so no id is given twice.
-/

namespace TagRetention

structure Journal where
  logs : Table String (List String)
  issued : Nat

namespace Journal

def empty : Journal := ⟨[], 0⟩

def jobId (n : Nat) : String :=
  let digits := Nat.toDigits 16 n
  String.ofList
    ("00000000-0000-4000-8000-".toList ++ List.replicate (12 - digits.length) '0' ++ digits)

def stamp (now : Instant) : String :=
  Rfc3339.write "+00:00" now

def flag (b : Bool) : String :=
  if b then "true" else "false"

def opening (now : Instant) (p : Policy) (e : Execution) (repository : String) : List String :=
  (stamp now ++ " retention job for " ++ repository ++ " (execution " ++ toString e.id ++
      ", dry_run=" ++ flag e.dryRun ++ ")") ::
    (p.rules.filter (!·.disabled)).map fun r =>
      "rule " ++ r.template ++ " " ++ r.tag.decoration.name ++ " tags " ++ r.tag.pattern

/-- Starts one job per repository. -/
def start (now : Instant) (p : Policy) (e : Execution) : List String → Journal → List Job × Journal
  | [], j => ([], j)
  | repository :: r, j =>
    let id := jobId j.issued
    let (jobs, j) := start now p e r ⟨j.logs.insert id (opening now p e repository), j.issued + 1⟩
    (⟨repository, id⟩ :: jobs, j)

/-- Adds a line to a log; jobs without a log are passed over. -/
def append (id line : String) (j : Journal) : Journal :=
  match j.logs.get? id with
  | none => j
  | some lines => { j with logs := j.logs.insert id (lines ++ [line]) }

def requestStop (now : Instant) : List String → Journal → Journal
  | [], j => j
  | id :: r, j => requestStop now r (j.append id (stamp now ++ " stop requested"))

def lines (log : List String) : String :=
  String.join (log.map (· ++ "\n"))

def launcher : Launcher Journal where
  launch now p e j :=
    let (jobs, j) := start now p e p.targets j
    (.ok jobs, j)
  stop now ids j := (.ok (), requestStop now ids j)
  log id j :=
    match j.logs.get? id with
    | none => .error (.unknownJob id)
    | some log => .ok (lines log)

end Journal

end TagRetention
