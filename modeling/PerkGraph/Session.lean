import PerkGraph.Roster
import PerkGraph.Selection
import PerkGraph.Transition

/-! # Sessions

What a player owns between two computations: a team and a selection. A session changes by steps; a step
that is refused changes nothing.
-/

namespace PerkGraph

/-- A team and a selection. -/
structure Session where
  roster : Roster := .empty
  selection : Selection := .empty
deriving DecidableEq

/-- A change that a player may ask for. -/
inductive SessionStep where
  | select (id : String)
  | deselect (id : String)
  | prune
  /-- Puts a runner into a slot and prunes the selection. -/
  | setRunner (assignment : Assignment)
  /-- Puts an id into the selection whether or not it is available, and prunes nothing. -/
  | insert (id : String)
deriving DecidableEq

inductive StepError where
  | transition (error : TransitionError)
  | roster (error : RosterError)
deriving DecidableEq

def StepError.message : StepError → String
  | transition error => error.message
  | roster error => error.message

namespace Session

/-- The session with the selection of an update, and what the update demoted. -/
def withUpdate (session : Session) (update : SelectionUpdate) : Session × IdSet :=
  ({ session with selection := update.selection }, update.demoted)

/-- The session after a step, and the ids that the step demoted. -/
def step (contract : Contract) (session : Session) : SessionStep → Except StepError (Session × IdSet)
  | .select id =>
    match contract.select session.roster session.selection id with
    | .ok update => .ok (session.withUpdate update)
    | .error error => .error (.transition error)
  | .deselect id =>
    match contract.deselect session.roster session.selection id with
    | .ok update => .ok (session.withUpdate update)
    | .error error => .error (.transition error)
  | .prune => .ok (session.withUpdate (contract.prune session.roster session.selection))
  | .setRunner assignment =>
    match session.roster.set assignment with
    | .ok roster =>
      .ok (withUpdate { session with roster } (contract.prune roster session.selection))
    | .error error => .error (.roster error)
  | .insert id => .ok ({ session with selection := session.selection.insert id }, .empty)

/-- The session after a step: as it was, if the step is refused. -/
def next (contract : Contract) (session : Session) (step : SessionStep) : Session :=
  match session.step contract step with
  | .ok (changed, _) => changed
  | .error _ => session

/-- The session after steps taken one after another. -/
def run (contract : Contract) (session : Session) (steps : List SessionStep) : Session :=
  steps.foldl (next contract) session

end Session

end PerkGraph
