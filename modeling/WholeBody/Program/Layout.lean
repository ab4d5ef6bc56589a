import WholeBody.Program.Relaxation

/-!
# Variable layout

The decision vector of one tick is `[v̇ | λ_contact | λ_loop | u | s_contact | s_loop]`. Its sizes
depend on the active contacts, so every tick has a layout of its own.
-/

namespace WholeBody

/-- The blocks of the decision vector, one after the other. -/
structure VariableLayout where
  accelerations : Span
  contactForces : Span
  loopForces : Span
  inputs : Span
  contactSlack : Span
  loopSlack : Span
deriving DecidableEq

namespace VariableLayout

/-- The layout for the given counts. Only soft families have slack. -/
def make {α : Type} (numVelocities numContacts numLoopRows numActuators : Nat)
    (contactMode loopMode : ConstraintMode α) : VariableLayout :=
  let accelerations := Span.ofSize 0 numVelocities
  let contactForces := Span.ofSize accelerations.stop (3 * numContacts)
  let loopForces := Span.ofSize contactForces.stop numLoopRows
  let inputs := Span.ofSize loopForces.stop numActuators
  let contactSlack := Span.ofSize inputs.stop (contactMode.slackRows (3 * numContacts))
  let loopSlack := Span.ofSize contactSlack.stop (loopMode.slackRows numLoopRows)
  { accelerations, contactForces, loopForces, inputs, contactSlack, loopSlack }

def numVariables (l : VariableLayout) : Nat := l.loopSlack.stop

def numContacts (l : VariableLayout) : Nat := l.contactForces.size / 3

/-- Force columns of a contact. -/
def contact (l : VariableLayout) (i : Nat) : Span := .ofSize (l.contactForces.start + 3 * i) 3

/-- Slack columns of a contact, if contacts have slack. -/
def contactSlackOf (l : VariableLayout) (i : Nat) : Option Span :=
  if l.contactSlack.isEmpty then none else some (.ofSize (l.contactSlack.start + 3 * i) 3)

/-- Slack columns of the loops, if they have any. -/
def loopSlack? (l : VariableLayout) : Option Span :=
  if l.loopSlack.isEmpty then none else some l.loopSlack

end VariableLayout

end WholeBody
