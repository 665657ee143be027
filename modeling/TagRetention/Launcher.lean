import TagRetention.Run
import TagRetention.Selector.Pattern
import TagRetention.Text.Blank

/-!
Launchers start the jobs of a run, one per repository, stop them and keep their logs. A launcher
works on a state of its own.
-/

namespace TagRetention

inductive LaunchFault where
  | unknownJob (job : String)
  | failed (detail : String)
  deriving DecidableEq, Repr

def LaunchFault.message : LaunchFault → String
  | .unknownJob job => "Unknown job: " ++ job
  | .failed detail => "Launch failed: " ++ detail

structure Job where
  repository : String
  id : String
  deriving DecidableEq, Repr

structure Launcher (σ : Type) where
  launch : Instant → Policy → Execution → σ → Except LaunchFault (List Job) × σ
  stop : Instant → List String → σ → Except LaunchFault Unit × σ
  log : String → σ → Except LaunchFault String

/-- Each item where it first occurs. -/
def distinct {α : Type} [DecidableEq α] : List α → List α
  | [] => []
  | a :: r => a :: (distinct r).filter (· ≠ a)

def Rule.repositories (r : Rule) : List String :=
  ((Pattern.decode r.repository.pattern).map Text.trim).filter (· ≠ "")

/-- The repositories that the enabled rules select by name, in the order of the rules. -/
def Policy.targets (p : Policy) : List String :=
  let rules := p.rules.filter fun r => !r.disabled && r.repository.decoration == .repoMatches
  distinct (rules.flatMap (·.repositories))

end TagRetention
