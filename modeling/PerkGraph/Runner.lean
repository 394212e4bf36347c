import PerkGraph.Vocabulary

/-! # Runners

The members of a team: a type and four stats. A runner of the type `Empty` marks a slot that nobody
fills, whatever its stats say.
-/

namespace PerkGraph

/-- What a runner is. -/
inductive RunnerType where
  | empty
  | face
  | muscle
  | hacker
  | ninja
deriving DecidableEq, Repr

instance : Vocabulary RunnerType where
  all := [.empty, .face, .muscle, .hacker, .ninja]
  name
    | .empty => "Empty"
    | .face => "Face"
    | .muscle => "Muscle"
    | .hacker => "Hacker"
    | .ninja => "Ninja"

/-- What a runner is good at. -/
inductive RunnerStat where
  | face
  | muscle
  | hacker
  | ninja
deriving DecidableEq, Repr

instance : Vocabulary RunnerStat where
  all := [.face, .muscle, .hacker, .ninja]
  name
    | .face => "Face"
    | .muscle => "Muscle"
    | .hacker => "Hacker"
    | .ninja => "Ninja"

/-- A runner: its type and its four stats. -/
structure Runner where
  type : RunnerType := .empty
  face : UInt32 := 0
  muscle : UInt32 := 0
  hacker : UInt32 := 0
  ninja : UInt32 := 0
deriving DecidableEq

namespace Runner

def nobody : Runner := {}

/-- A runner that fills its slot. -/
def isActive (runner : Runner) : Bool :=
  runner.type ≠ .empty

/-- One stat of a runner, whatever the runner's type. -/
def stat (runner : Runner) : RunnerStat → UInt32
  | .face => runner.face
  | .muscle => runner.muscle
  | .hacker => runner.hacker
  | .ninja => runner.ninja

end Runner

end PerkGraph
