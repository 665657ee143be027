import TagRetention.Launcher
import TagRetention.Text.Separated

/-!
An executor outside the service, seen from the service: it numbers the jobs of a run, keeps no logs
here, and may refuse to launch or to stop.
-/

namespace TagRetention

structure Executor where
  launches : Bool
  stops : Bool
  deriving DecidableEq, Repr

namespace Executor

def willing : Executor := ⟨true, true⟩

def offline : Executor := ⟨false, true⟩

def unstoppable : Executor := ⟨true, false⟩

def jobs (p : Policy) : List Job :=
  p.targets.zipIdx.map fun (repository, n) => ⟨repository, "ext-" ++ toString (n + 1)⟩

def launcher {σ : Type} (x : Executor) : Launcher σ where
  launch _ p _ s := (if x.launches then .ok (jobs p) else .error (.failed "executor offline"), s)
  stop _ ids s :=
    (if x.stops then .ok () else .error (.failed ("cannot stop " ++ Text.join "+" ids)), s)
  log id _ := .error (.unknownJob id)

end Executor

end TagRetention
