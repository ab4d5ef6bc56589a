import WholeBody.Config.Read
import WholeBody.Controller.Log
import WholeBody.Robot.FloatingBody
import WholeBody.Solver.InteriorPoint.Method

/-!
# A standing robot

A closed-loop run of the controller. A box with two hip rotors shifts its weight between its feet,
and its hips swing while a foot is off the ground.
-/

namespace WholeBody.Standing

/-- The description of the controller. -/
def description : String := r#"
[settings]
min_normal_force = 5.0
input_regularization = 1e-4
contact_force_regularization = 1e-5
default_friction = 0.6
default_cone.model = "linear"
default_cone.facets = 8

[settings.joint_acceleration_costs]
hip_left = 0.01
hip_right = 0.01

[[objectives]]
name = "com"
kind = "center_of_mass"
kp = [50.0, 50.0, 100.0]
kd = [10.0, 10.0, 20.0]
weight = [10.0, 10.0, 100.0]
constant.value = [0.0, 0.0, 0.5]

[[objectives]]
name = "pelvis_orientation"
kind = "rotational_frame"
kp = 100.0
kd = 20.0
weight = 10.0
target.body = "pelvis"
constant.value = [1.0, 0.0, 0.0, 0.0]

[[objectives]]
name = "swing_hip_left"
kind = "joint_space"
kp = 200.0
kd = 25.0
weight = 1.0
phases.right_stance.joint = "hip_left"
window = [0.05, 0.25]
constant.value = [0.3]

[[objectives]]
name = "swing_hip_right"
kind = "joint_space"
kp = 200.0
kd = 25.0
weight = 1.0
phases.left_stance.joint = "hip_right"
window = [0.05, 0.25]
constant.value = [0.3]

[[contacts]]
name = "toe_left"
body = "pelvis"
offset = [0.1, 0.1, -0.5]
phases = ["left_stance", "double_stance"]

[[contacts]]
name = "heel_left"
body = "pelvis"
offset = [-0.1, 0.1, -0.5]
phases = ["left_stance", "double_stance"]

[[contacts]]
name = "toe_right"
body = "pelvis"
offset = [0.1, -0.1, -0.5]
phases = ["right_stance", "double_stance"]
cone.model = "conic"

[[contacts]]
name = "heel_right"
body = "pelvis"
offset = [-0.1, -0.1, -0.5]
phases = ["right_stance", "double_stance"]
cone.model = "conic"
"#

def robot : FloatingBody Float where
  body := "pelvis"
  mass := 30.0
  inertia := FloatingBody.cuboidInertia 30.0 ⟨0.3, 0.35, 1.0⟩
  gravity := 9.81
  baseActuated := true
  joints := [⟨"hip_left", 0.05⟩, ⟨"hip_right", 0.05⟩]
  effortLimit := some 400.0
  loops := none

/-- Double stance, left stance, double stance and right stance, each for 0.3 s. -/
def gaitPhase (t : Float) : GaitPhase Float :=
  let period := 0.3
  let index := (t / period).floor
  let id := match index.toUInt64.toNat % 4 with
    | 1 => PhaseId.leftStance
    | 3 => PhaseId.rightStance
    | _ => PhaseId.doubleStance
  ⟨id, index * period⟩

/-- A line of the report. -/
inductive Entry where
  | event (e : LogEvent Float)
  /-- The height and the torques at some time. -/
  | sample (time : Float) (phase : PhaseId) (height : Float) (torques : Vec Float)
  | summary (d : Diagnostics)

abbrev Loop := Controller Unit Float

/-- Length of a step in seconds. -/
def dt : Float := 1.0 / 500.0

/-- Number of steps of the whole run, which is one round of the gait. -/
def numSteps : Nat := 600

/-- Number of steps between two samples. -/
def sampleInterval : Nat := 50

def initialState : RobotState Float :=
  robot.restState ⟨0.02, -0.01, 0.48⟩ (.ofAngles 0.05 0.0 0.1)

def inputs (t : Float) (s : RobotState Float) : TickInputs Float where
  time := t
  state := some s
  phase := some (gaitPhase t)
  samples := fun _ => none

/-- The sample of a step, if it has one. -/
def sampleOf (step : Nat) (t : Float) (s : RobotState Float) (solution : TickSolution Float)
    (torques : Vec Float) : List Entry :=
  if step % sampleInterval = 0 then [.sample t solution.phase (s.q.entry 2) torques] else []

/-- One step: a tick, and the motion that it commands. The robot stays where it is when the tick has
no solution. -/
def advance (c : Loop) (s : RobotState Float) (step : Nat) :
    List Entry × Loop × RobotState Float :=
  let t := Float.ofNat step * dt
  let outcome := c.tick (inputs t s)
  let events := outcome.log.map Entry.event
  match outcome.result, outcome.controller.lastSolution with
  | some command, some solution =>
    let next := (robot.integrate s solution.accelerations dt).getD s
    (events ++ sampleOf step t s solution command.torques, outcome.controller, next)
  | _, _ => (events, outcome.controller, s)

/-- The report of the steps from `step` on, of which `count` are to come. -/
def report (c : Loop) (s : RobotState Float) (step : Nat) : (count : Nat) → List Entry
  | 0 => [.summary c.diagnostics]
  | count + 1 =>
    let (entries, c, s) := advance c s step
    entries ++ report c s (step + 1) count

/-- The report of a run of some number of steps. -/
def run (steps : Nat) : Attempt (ConfigError Float) (List Entry) := do
  let config ← ControllerConfig.ofContents (some description)
  let c ← .ofExcept id (Controller.create config robot.model InteriorPoint.solver ())
  return .event c.startEvent :: report c initialState 0 steps

/-! ### Text -/

/-- Text with fixed places, in which a zero has no sign. -/
def unsigned (places : Nat) (x : Float) : String :=
  let text := Decimal.fixed places x
  if text = Decimal.fixed places (-0.0) then Decimal.fixed places 0.0 else text

namespace Entry

def level : Entry → String
  | event e => e.level
  | _ => "INFO"

/-- What a sample starts with. -/
def stamp (time : Float) (phase : PhaseId) : String :=
  s!"t={Decimal.fixed 2 time} phase={phase.name}"

def text : Entry → String
  | event e => e.text
  | sample time phase height torques =>
    let values := ", ".intercalate (torques.toList.map (unsigned 2))
    s!"{stamp time phase} com z={unsigned 4 height} torques=[{values}]"
  | summary d =>
    s!"{d.ticks} ticks, {d.solves} solves, {d.failures} failures, {d.skipped} skipped"

/-- A line of the log. -/
def line (e : Entry) : String := s!"{e.level}: {e.text}"

end Entry

end WholeBody.Standing
