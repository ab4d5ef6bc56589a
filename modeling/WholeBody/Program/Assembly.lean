import WholeBody.Contact.Set
import WholeBody.Program.Stack
import WholeBody.Settings
import WholeBody.Tracking.Term

/-!
# Assembly

The cone program of one tick:

* minimize the task terms, plus `w_acc ‖v̇‖² + Σ w_j v̇_j² + w_u ‖u‖² + w_λ ‖λ‖²` and the slack
  penalties,
* subject to the dynamics `M v̇ + c = B u + Jᵀλ`, no slip of the active contacts, the closed loops,
  the least normal forces, the friction cones and the effort limits.

It is made in two steps. `TickData.gather` asks the robot model and checks the shapes of its
answers; `TickData.program` turns the answers into rows and costs and cannot fail. Nothing is kept
between ticks.
-/

namespace WholeBody

variable {α : Type} [Scalar α]

/-- Settings with the joints of the extra acceleration costs resolved to velocity indices. -/
structure Assembler (α : Type) where
  settings : Settings α
  jointCosts : List (Nat × α)

/-- Looks up the joints of the extra acceleration costs. -/
def Assembler.create (settings : Settings α) (model : RobotModel α) :
    Except (ConfigError α) (Assembler α) := do
  let jointCosts ← settings.jointAccelerationCosts.entries.mapM fun e =>
    match model.jointIndex e.1 with
    | some index => .ok (index.velocity, e.2)
    | none => .error (.unknownJoint e.1)
  return { settings, jointCosts }

/-- What the model answers in one tick. -/
structure TickData (α : Type) where
  massMatrix : Mat α
  bias : Vec α
  actuation : Mat α
  /-- The active contacts with their kinematics, in the order of their forces. -/
  contacts : List (ContactPoint α × PointKinematics α)
  loops : Option (LoopConstraints α)
  effortLimits : Option (Vec α)

def checkShape (what : String) (got expected : Nat × Nat) : Except ModelError Unit :=
  if got = expected then .ok ()
  else .error (.shape what expected.1 expected.2 got.1 got.2)

def checkColumns (what : String) (got expected : Nat) : Except ModelError Unit :=
  if got = expected then .ok () else .error (.jacobianColumns what expected got)

namespace TickData

/-- The kinematics of a contact, with a Jacobian of one column for each velocity. -/
def contactKinematics (model : RobotModel α) (state : RobotState α) (c : ContactPoint α) :
    Except ModelError (ContactPoint α × PointKinematics α) := do
  let kin ← model.point state c.point
  checkColumns s!"jacobian of contact '{c.name}'" kin.jacobian.length model.numVelocities
  return (c, kin)

def checkLoops (nv : Nat) : Option (LoopConstraints α) → Except ModelError Unit
  | none => .ok ()
  | some l => do
    checkColumns "loop constraint jacobian" l.jacobian.cols nv
    checkShape "loop constraint bias" (l.jdotV.size, 1) (l.jacobian.rows, 1)

/-- Asks the model for all that the program needs, and checks the shapes of its answers. -/
def gather (model : RobotModel α) (state : RobotState α) (contacts : List (ContactPoint α)) :
    Except ModelError (TickData α) := do
  model.checkState state
  let nv := model.numVelocities
  let nu := model.numActuators
  let M ← model.massMatrix state
  checkShape "mass matrix" (M.rows, M.cols) (nv, nv)
  let c ← model.bias state
  checkShape "dynamics bias" (c.size, 1) (nv, 1)
  checkShape "actuation matrix" (model.actuation.rows, model.actuation.cols) (nv, nu)
  let kinematics ← contacts.mapM (contactKinematics model state)
  let loops ← model.loopConstraints state
  checkLoops nv loops
  return {
    massMatrix := M
    bias := c
    actuation := model.actuation
    contacts := kinematics
    loops
    effortLimits := model.effortLimits }

def numVelocities (d : TickData α) : Nat := d.massMatrix.rows

def numActuators (d : TickData α) : Nat := d.actuation.cols

def numLoopRows (d : TickData α) : Nat :=
  match d.loops with
  | some l => l.jacobian.rows
  | none => 0

def layout (d : TickData α) (s : Settings α) : VariableLayout :=
  .make d.numVelocities d.contacts.length d.numLoopRows d.numActuators s.contactMode s.loopMode

/-- Adds the slack penalty of a soft family. -/
def addSlackPenalty (P : Mat α) (slack : Span) : ConstraintMode α → Mat α
  | .hard => P
  | .soft weight => addPenalty P slack weight

/-- The Hessian of the cost. -/
def hessian (d : TickData α) (a : Assembler α) (terms : List (TaskTerm α)) : Mat α :=
  let s := a.settings
  let l := d.layout s
  let n := l.numVariables
  let P := terms.foldl (fun P t => P.addBlock 0 0 t.hessian) (Mat.zeros n n)
  let P := addRegularization P l.accelerations s.accelerationRegularization
  let P := a.jointCosts.foldl (fun P e => addPenalty P (.ofSize e.1 1) e.2) P
  let P := addRegularization P l.inputs s.inputRegularization
  let P := addRegularization P l.contactForces s.contactForceRegularization
  let P := addSlackPenalty P l.contactSlack s.contactMode
  addSlackPenalty P l.loopSlack s.loopMode

/-- The linear part of the cost. -/
def gradient (d : TickData α) (s : Settings α) (terms : List (TaskTerm α)) : Vec α :=
  terms.foldl (fun q t => q.addAt 0 t.gradient) (.zeros (d.layout s).numVariables)

/-- The contacts with their number in the force order. -/
def numbered (d : TickData α) : List ((ContactPoint α × PointKinematics α) × Nat) :=
  d.contacts.zipIdx

/-- The equations of motion: `M v̇ - Jᵀλ - B u = -c`. -/
def dynamicsBlock (d : TickData α) (l : VariableLayout) : ConstraintBlock α :=
  let rows := (Mat.zeros d.numVelocities l.numVariables).setBlock 0 l.accelerations.start
    d.massMatrix
  let rows := d.numbered.foldl
    (fun rows e => rows.setBlock 0 (l.contact e.2).start (-e.1.2.jacobian.toMat.transpose)) rows
  let rows := match d.loops with
    | some loops => rows.setBlock 0 l.loopForces.start (-loops.jacobian.transpose)
    | none => rows
  { kind := .zero
    A := rows.setBlock 0 l.inputs.start (-d.actuation)
    b := -d.bias }

/-- No slip of a contact. -/
def noSlipBlock (l : VariableLayout) (e : (ContactPoint α × PointKinematics α) × Nat) :
    ConstraintBlock α :=
  { kind := .zero
    A := holonomicRows e.1.2.jacobian.toMat l.accelerations (l.contactSlackOf e.2) l.numVariables
    b := -e.1.2.jdotV.toVec }

/-- The closed loops. -/
def loopBlocks (d : TickData α) (l : VariableLayout) : List (ConstraintBlock α) :=
  match d.loops with
  | some loops =>
    [{ kind := .zero
       A := holonomicRows loops.jacobian l.accelerations l.loopSlack? l.numVariables
       b := -loops.jdotV }]
  | none => []

/-- Rows over the force of one contact. -/
def forceRows (l : VariableLayout) (i : Nat) (rows : Mat α) : Mat α :=
  (Mat.zeros rows.rows l.numVariables).setBlock 0 (l.contact i).start rows

/-- The friction cone of a contact, with the defaults filled in. -/
def contactCone (s : Settings α) (c : ContactPoint α) : ConeRows α :=
  c.frame.coneRows (c.frictionOr s.defaultFriction) (c.coneOr s.defaultCone)

/-- The least normal force of a contact, and its friction cone when that is a polygon. -/
def normalBlocks (l : VariableLayout) (s : Settings α)
    (e : (ContactPoint α × PointKinematics α) × Nat) : List (ConstraintBlock α) :=
  let least := e.1.1.frame.minNormalRow s.minNormalForce
  let normal : ConstraintBlock α :=
    { kind := .nonnegative
      A := forceRows l e.2 (.ofFn 1 3 fun _ j => least.1.component j)
      b := .ofList [least.2] }
  match contactCone s e.1.1 with
  | .polyhedral rows =>
    [normal, { kind := .nonnegative, A := forceRows l e.2 rows, b := .zeros rows.rows }]
  | .secondOrder _ => [normal]

/-- The effort limits: `u ≤ limit` and `-u ≤ limit`. -/
def effortBlocks (d : TickData α) (l : VariableLayout) : List (ConstraintBlock α) :=
  match d.effortLimits with
  | some limits =>
    let nu := d.numActuators
    [{ kind := .nonnegative
       A := .ofFn (2 * nu) l.numVariables fun i j =>
         if i < nu then if j = l.inputs.start + i then 1 else 0
         else if j = l.inputs.start + (i - nu) then -1 else 0
       b := .ofFn (2 * nu) fun i => if i < nu then limits.entry i else limits.entry (i - nu) }]
  | none => []

/-- The friction cone of a contact when that is a second-order cone. -/
def coneBlocks (l : VariableLayout) (s : Settings α)
    (e : (ContactPoint α × PointKinematics α) × Nat) : List (ConstraintBlock α) :=
  match contactCone s e.1.1 with
  | .polyhedral _ => []
  | .secondOrder rows =>
    [{ kind := .secondOrder, A := forceRows l e.2 (-rows).toMat, b := .zeros 3 }]

/-- All blocks of constraint rows. Second-order cones come last. -/
def blocks (d : TickData α) (s : Settings α) : List (ConstraintBlock α) :=
  let l := d.layout s
  [d.dynamicsBlock l] ++ d.numbered.map (noSlipBlock l) ++ d.loopBlocks l
    ++ d.numbered.flatMap (normalBlocks l s) ++ d.effortBlocks l
    ++ d.numbered.flatMap (coneBlocks l s)

def constraints (d : TickData α) (s : Settings α) : ConstraintStack α :=
  (ConstraintStack.empty (d.layout s).numVariables).pushAll (d.blocks s)

/-- The program of the tick. -/
def program (d : TickData α) (a : Assembler α) (terms : List (TaskTerm α)) : ConeProgram α :=
  let stack := d.constraints a.settings
  { P := d.hessian a terms
    q := d.gradient a.settings terms
    A := stack.matrix
    b := stack.bounds
    cones := stack.cones
    layout := d.layout a.settings }

/-- Whether every block of rows fits into its columns of the program. -/
def RowsFit (d : TickData α) (s : Settings α) : Prop :=
  let l := d.layout s
  let n := l.numVariables
  let nv := d.numVelocities
  (d.massMatrix.cols = l.accelerations.size ∧ l.accelerations.stop ≤ n) ∧
    (d.actuation.rows = nv ∧ d.actuation.cols = l.inputs.size ∧ l.inputs.stop ≤ n) ∧
    (∀ e ∈ d.numbered, e.1.2.jacobian.length = nv ∧ (l.contact e.2).stop ≤ n ∧
      HolonomicFits e.1.2.jacobian.toMat l.accelerations (l.contactSlackOf e.2) n) ∧
    (∀ loops ∈ d.loops, loops.jacobian.cols = nv ∧ loops.jacobian.rows = l.loopForces.size ∧
      l.loopForces.stop ≤ n ∧ HolonomicFits loops.jacobian l.accelerations l.loopSlack? n) ∧
    (d.constraints s).Conforms

instance (d : TickData α) (s : Settings α) : Decidable (d.RowsFit s) := by
  unfold RowsFit
  infer_instance

/-- Accepts one effort limit for each actuator. -/
def checkEffort (d : TickData α) : Except ModelError Unit :=
  match d.effortLimits with
  | some limits =>
    if limits.size = d.numActuators then .ok ()
    else .error (.effortLimits d.numActuators limits.size)
  | none => .ok ()

end TickData

/-- Whether terms, joint costs and penalties fit into the variables of a layout. -/
def Assembler.CostFits (a : Assembler α) (terms : List (TaskTerm α)) (l : VariableLayout) : Prop :=
  (∀ t ∈ terms, t.Fits l.numVariables) ∧ (∀ e ∈ a.jointCosts, e.1 < l.numVariables) ∧
    ∀ s ∈ [l.accelerations, l.inputs, l.contactForces, l.contactSlack, l.loopSlack],
      s.stop ≤ l.numVariables

instance (a : Assembler α) (terms : List (TaskTerm α)) (l : VariableLayout) :
    Decidable (a.CostFits terms l) := by
  unfold Assembler.CostFits
  infer_instance

/-- The program of a tick with the given task terms and active contacts. -/
def Assembler.build (a : Assembler α) (model : RobotModel α) (state : RobotState α)
    (terms : List (TaskTerm α)) (contacts : List (ContactPoint α)) :
    Attempt ModelError (ConeProgram α) := do
  let d ← .ofExcept id (TickData.gather model state contacts)
  Attempt.conforming (a.CostFits terms (d.layout a.settings))
  Attempt.conforming (d.RowsFit a.settings)
  .ofExcept id d.checkEffort
  return d.program a terms

end WholeBody
