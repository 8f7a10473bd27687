import SwarmEvolution.Settings.Store

/-!
Settings that several callers share. An update copies them, revises its copy and, if that is valid,
puts it in their place. Copying and storing take a lock each, so that steps of other updates can
come in between.
-/
namespace SwarmEvolution.Settings

/-- How far an update has come. -/
inductive Update where
  | waiting (edit : Settings → Settings)
  | copied (edit : Settings → Settings) (copy : Settings)
  /-- The revised copy is valid and is stored next. -/
  | ready (revised : Settings)
  | returned (outcome : Except Failure Unit)

/-- An update after its next step, and the settings that this step leaves in use. -/
def Update.next (current : Settings) : Update → Update × Settings
  | .waiting edit => (.copied edit current, current)
  | .copied edit copy =>
    match revise edit copy with
    | .ok revised => (.ready revised, current)
    | .error fault => (.returned (.error fault), current)
  | .ready revised => (.returned (.ok ()), revised)
  | .returned outcome => (.returned outcome, current)

/-- Settings in use with the updates that work on them. -/
structure Shared where
  current : Settings
  updates : List Update

namespace Shared

/-- Settings before the first step of any update. -/
def ofEdits (initial : Settings) (edits : List (Settings → Settings)) : Shared where
  current := initial
  updates := edits.map .waiting

/-- The next step of the update at a place. -/
def step (s : Shared) (k : Nat) : Shared :=
  match s.updates[k]? with
  | none => s
  | some u => { current := (u.next s.current).2, updates := s.updates.set k (u.next s.current).1 }

/-- The steps of the updates in an order of their places. -/
def run (s : Shared) (schedule : List Nat) : Shared := schedule.foldl step s

end Shared
end SwarmEvolution.Settings
