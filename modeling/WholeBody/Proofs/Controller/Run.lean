import Mathlib
import WholeBody.Proofs.Controller.Solving
import WholeBody.Proofs.Validation
import WholeBody.Scalar.Float

/-!
# Runs of a controller

A controller is called again and again, and each time the robot answers as it likes. What every call
keeps is that the last command, if there is one, has one finite torque for each actuator; so every
command of every run has.

## Main statements

* `Controller.Ready` — the invariant of a run.
* `Controller.Ready.turn` — one call.
* `commands_finite` — all calls of a run.
-/

namespace WholeBody

/-! ### Calls -/

/-- What is asked of a controller. -/
inductive Call (α : Type) where
  | tick (inputs : TickInputs α)
  | solve (inputs : TickInputs α)
  | problem (inputs : TickInputs α)

/-- A call, and the robot as it answers during this call. -/
structure Turn (α : Type) where
  robot : RobotModel α
  call : Call α

/-- What a controller replies to a call. -/
inductive Reply (α : Type) where
  | command (command : Option (TorqueCommand α))
  | solution (result : Attempt TickError (TickSolution α))
  | program (result : Attempt TickError (ConeProgram α))

/-- One finite torque for each of `nu` actuators. -/
def Vec.IsCommand {α : Type} [Scalar α] (torques : Vec α) (nu : Nat) : Prop :=
  torques.size = nu ∧ torques.allFinite = true

variable {σ α : Type} [Scalar α]

/-- A tick emits a command of finite torques, which is the last command from then on. Any other call
reports or succeeds. -/
def Outcome.Safe (o : Outcome σ α (Reply α)) (nu : Nat) : Prop :=
  match o.result with
  | .command command => ∃ t, command = some t ∧ t.torques.IsCommand nu ∧
      o.controller.lastCommand = some t.torques
  | .solution result => Attempt.Conforms result
  | .program result => Attempt.Conforms result

namespace Controller

/-- The outcome of one call. -/
def turn (c : Controller σ α) (t : Turn α) : Outcome σ α (Reply α) :=
  let c := { c with model := t.robot }
  match t.call with
  | .tick inputs =>
    let o := c.tick inputs
    ⟨o.controller, .command o.result, o.log⟩
  | .solve inputs =>
    let o := c.solve inputs
    ⟨o.controller, .solution o.result, o.log⟩
  | .problem inputs => ⟨c, .program (c.problem inputs), []⟩

/-- The outcomes of calls that are made one after the other. -/
def run : Controller σ α → List (Turn α) → List (Outcome σ α (Reply α))
  | _, [] => []
  | c, t :: rest => c.turn t :: (c.turn t).controller.run rest

/-- The controller after calls that are made one after the other. -/
def after : Controller σ α → List (Turn α) → Controller σ α
  | c, [] => c
  | c, t :: rest => (c.turn t).controller.after rest

variable {c : Controller σ α} {nq nv nu : Nat}

theorem run_append (c : Controller σ α) (ts us : List (Turn α)) :
    c.run (ts ++ us) = c.run ts ++ (c.after ts).run us := by
  induction ts generalizing c with
  | nil => rfl
  | cons t rest ih => simp [run, after, ih]

/-! ### The invariant -/

/-- A controller between two calls. -/
structure Ready (c : Controller σ α) (nv nu : Nat) : Prop where
  configured : c.Configured nv
  lastCommand : ∀ torques ∈ c.lastCommand, torques.IsCommand nu

omit [Scalar α] in
theorem Configured.of_eq {c' : Controller σ α} (h : c.Configured nv)
    (hconfig : c'.config = c.config) (hassembler : c'.assembler = c.assembler) :
    c'.Configured nv := by
  refine ⟨?_, ?_⟩
  · rw [hconfig]
    exact h.objectives
  · rw [hassembler]
    exact h.jointCosts

/-- A controller is made exactly from a configuration that passes all checks, and has done nothing
yet. -/
theorem create_eq_ok_iff {config : ControllerConfig α} {robot : RobotModel α}
    {solver : Solver σ α} {start : σ} : create config robot solver start = .ok c ↔
      config.settings.Valid ∧ checkActuators robot = .ok () ∧
      checkObjectives robot [] config.objectives = .ok () ∧
      config.contacts.validate robot config.settings.defaultFriction config.settings.defaultCone
        solver.supportsSecondOrderCones = .ok () ∧
      ∃ a, Assembler.create config.settings robot = .ok a ∧
        c = ⟨config, robot, solver, start, a, none, none, .initial⟩ := by
  simp only [create, Except.seq_eq_ok_iff, Settings.validate_eq_ok_iff]
  refine and_congr_right fun _ => and_congr_right fun _ => and_congr_right fun _ =>
    and_congr_right fun _ => ?_
  constructor
  · intro h
    obtain ⟨a, ha, h⟩ := Except.of_bind_eq_ok h
    exact ⟨a, ha, (Except.ok.inj h).symm⟩
  · rintro ⟨a, ha, rfl⟩
    exact Except.bind_of_eq_ok ha

theorem of_create_eq_ok {config : ControllerConfig α} {robot : RobotModel α} {solver : Solver σ α}
    {start : σ} (h : create config robot solver start = .ok c) :
    config.settings.Valid ∧
      config.contacts.validate robot config.settings.defaultFriction config.settings.defaultCone
        solver.supportsSecondOrderCones = .ok () ∧
      ∃ a, Assembler.create config.settings robot = .ok a ∧
        c = ⟨config, robot, solver, start, a, none, none, .initial⟩ := by
  obtain ⟨hsettings, -, -, hcontacts, ha⟩ := create_eq_ok_iff.1 h
  exact ⟨hsettings, hcontacts, ha⟩

theorem config_of_create_eq_ok {config : ControllerConfig α} {robot : RobotModel α}
    {solver : Solver σ α} {start : σ} (h : create config robot solver start = .ok c) :
    c.config = config := by
  obtain ⟨-, -, a, -, rfl⟩ := of_create_eq_ok h
  rfl

/-- A controller is ready once it is made. -/
theorem ready_of_create_eq_ok [Spectrum α] {config : ControllerConfig α} {model : RobotModel α}
    {solver : Solver σ α} {solverState : σ} (h : create config model solver solverState = .ok c)
    (hobjectives : ∀ o ∈ config.objectives, o.Made) (hmodel : model.Regular nq nv nu) :
    c.Ready nv nu := by
  obtain ⟨-, -, assembler, hassembler, rfl⟩ := of_create_eq_ok h
  refine ⟨⟨fun o ho => (hobjectives o ho).wellShaped, fun c hc => ?_⟩, nofun⟩
  obtain ⟨e, -, index, hindex, rfl⟩ := Assembler.exists_of_mem_jointCosts hassembler hc
  exact (hmodel.jointIndex _ index hindex).2

/-- A tick emits a command of finite torques and leaves the controller ready. -/
def EmitsSafely (o : Outcome σ α (Option (TorqueCommand α))) (nv nu : Nat) : Prop :=
  o.controller.Ready nv nu ∧ ∃ t, o.result = some t ∧ t.torques.IsCommand nu ∧
    o.controller.lastCommand = some t.torques

/-- All that a tick can do: it emits the inputs of a solution, skips, or falls back. -/
theorem tick_cases (c : Controller σ α) (inputs : TickInputs α) :
    let diagnostics := { c.diagnostics with ticks := c.diagnostics.ticks + 1 }
    let o := { c with diagnostics, lastSolution := none }.solve inputs
    (∃ solution, o.result = .ok solution ∧
      c.tick inputs = emit { o.controller with lastSolution := some solution } inputs.time
        solution.inputs .solved o.log) ∨
    (∃ e, o.result = .error (.error (.input e)) ∧
      c.tick inputs = o.controller.skip inputs.time e) ∨
    (∃ e, o.result = .error (.error e) ∧ (∀ e', e ≠ .input e') ∧
      c.tick inputs = o.controller.fallBack inputs.time e) ∨
    o.result = .error .nonconforming ∧ c.tick inputs = ⟨o.controller, none, []⟩ := by
  intro diagnostics o
  unfold tick
  dsimp only
  cases o.result with
  | ok solution => exact .inl ⟨solution, rfl, rfl⟩
  | error e =>
    rcases e with (e | e | e) | _
    · exact .inr (.inl ⟨e, rfl, rfl⟩)
    · exact .inr (.inr (.inl ⟨.model e, rfl, nofun, rfl⟩))
    · exact .inr (.inr (.inl ⟨.solver e, rfl, nofun, rfl⟩))
    · exact .inr (.inr (.inr ⟨rfl, rfl⟩))

/-- Two controllers that were made alike: they may differ in what has happened since. -/
structure MadeAlike (c c' : Controller σ α) : Prop where
  config : c'.config = c.config
  assembler : c'.assembler = c.assembler
  solver : c'.solver = c.solver

theorem madeAlike_tick (c : Controller σ α) (inputs : TickInputs α) :
    c.MadeAlike (c.tick inputs).controller := by
  let start := { c with
    diagnostics := { c.diagnostics with ticks := c.diagnostics.ticks + 1 }, lastSolution := none }
  have hsolve : c.MadeAlike (start.solve inputs).controller := by
    obtain ⟨solverState, diagnostics, hcontroller⟩ := start.solve_controller inputs
    rw [hcontroller]
    exact ⟨rfl, rfl, rfl⟩
  obtain ⟨_, _, htick⟩ | ⟨_, _, htick⟩ | ⟨_, _, _, htick⟩ | ⟨_, htick⟩ := c.tick_cases inputs
  all_goals
    rw [htick]
    exact ⟨hsolve.config, hsolve.assembler, hsolve.solver⟩

/-- No call changes the configuration, the assembler or the solver of a controller. -/
theorem madeAlike_turn (c : Controller σ α) (t : Turn α) : c.MadeAlike (c.turn t).controller := by
  rw [turn]
  cases t.call with
  | tick inputs =>
    obtain ⟨hconfig, hassembler, hsolver⟩ := ({ c with model := t.robot }).madeAlike_tick inputs
    exact ⟨hconfig, hassembler, hsolver⟩
  | solve inputs =>
    obtain ⟨solverState, diagnostics, hcontroller⟩ :=
      ({ c with model := t.robot }).solve_controller inputs
    dsimp only
    rw [hcontroller]
    exact ⟨rfl, rfl, rfl⟩
  | problem inputs => exact ⟨rfl, rfl, rfl⟩

theorem madeAlike_after (c : Controller σ α) (turns : List (Turn α)) :
    c.MadeAlike (c.after turns) := by
  induction turns generalizing c with
  | nil => exact ⟨rfl, rfl, rfl⟩
  | cons t rest ih =>
    obtain ⟨hconfig, hassembler, hsolver⟩ := ih (c.turn t).controller
    have hturn := c.madeAlike_turn t
    exact ⟨hconfig.trans hturn.config, hassembler.trans hturn.assembler,
      hsolver.trans hturn.solver⟩

/-- A command of finite torques keeps a controller ready. -/
theorem EmitsSafely.emit (hc : c.Configured nv) {torques : Vec α} (htorques : torques.IsCommand nu)
    (time : α) (status : CommandStatus) (log : List (LogEvent α)) :
    EmitsSafely (c.emit time torques status log) nv nu := by
  refine ⟨⟨hc.of_eq rfl rfl, ?_⟩, _, rfl, htorques, rfl⟩
  rintro _ ⟨⟩
  exact htorques

section Ticks

variable (hzero : Scalar.isFinite (0 : α) = true)

include hzero

theorem isCommand_zeros (n : Nat) : (Vec.zeros n : Vec α).IsCommand n := by
  refine ⟨Vec.size_zeros n, Vec.allFinite_iff.2 fun i hi => ?_⟩
  rw [Vec.size_zeros] at hi
  rw [Vec.zeros, Vec.entry_ofFn_of_lt hi]
  exact hzero

theorem Ready.isCommand_zeroCommand (hmodel : c.model.Regular nq nv nu) :
    c.zeroCommand.IsCommand nu := by
  rw [zeroCommand, hmodel.numActuators]
  exact isCommand_zeros hzero nu

theorem Ready.isCommand_previousOrZero (h : c.Ready nv nu) (hmodel : c.model.Regular nq nv nu) :
    c.previousOrZero.IsCommand nu := by
  rw [previousOrZero]
  cases hlast : c.lastCommand with
  | none => exact isCommand_zeroCommand hzero hmodel
  | some torques => exact h.lastCommand torques hlast

theorem Ready.isCommand_fallbackTorques (h : c.Ready nv nu) (hmodel : c.model.Regular nq nv nu) :
    c.fallbackTorques.IsCommand nu := by
  rw [fallbackTorques]
  cases c.config.settings.fallback with
  | holdPrevious => exact h.isCommand_previousOrZero hzero hmodel
  | zero => exact isCommand_zeroCommand hzero hmodel

theorem Ready.skip (h : c.Ready nv nu) (hmodel : c.model.Regular nq nv nu) (time : α)
    (e : InputError) : EmitsSafely (c.skip time e) nv nu := by
  rw [Controller.skip]
  refine .emit ?_ (h.isCommand_previousOrZero hzero hmodel) _ _ _
  exact h.configured.of_eq rfl rfl

theorem Ready.fallBack (h : c.Ready nv nu) (hmodel : c.model.Regular nq nv nu) (time : α)
    (e : TickError) : EmitsSafely (c.fallBack time e) nv nu := by
  rw [Controller.fallBack]
  refine .emit ?_ (h.isCommand_fallbackTorques hzero hmodel) _ _ _
  exact h.configured.of_eq rfl rfl

/-- A tick always emits a command of finite torques. -/
theorem Ready.tick (h : c.Ready nv nu) (hmodel : c.model.Regular nq nv nu)
    (inputs : TickInputs α) : EmitsSafely (c.tick inputs) nv nu := by
  let start := { c with
    diagnostics := { c.diagnostics with ticks := c.diagnostics.ticks + 1 }, lastSolution := none }
  have hstart : start.Configured nv := h.configured.of_eq rfl rfl
  have hconforms := conforms_solve hstart hmodel inputs
  -- The controller after the solve is as ready as the one before it.
  obtain ⟨solverState, diagnostics, hcontroller⟩ := start.solve_controller inputs
  have hafter : (start.solve inputs).controller.Ready nv nu := by
    rw [hcontroller]
    exact ⟨hstart.of_eq rfl rfl, h.lastCommand⟩
  have hrobot : (start.solve inputs).controller.model.Regular nq nv nu := by
    rw [hcontroller]
    exact hmodel
  obtain ⟨solution, hresult, htick⟩ | ⟨e, -, htick⟩ | ⟨e, -, -, htick⟩ | ⟨hresult, -⟩ :=
    c.tick_cases inputs
  · rw [htick]
    refine .emit ?_ (inputs_of_solve_eq_ok (c := start) hmodel hresult) _ _ _
    exact hafter.configured.of_eq rfl rfl
  · rw [htick]
    exact hafter.skip hzero hrobot inputs.time e
  · rw [htick]
    exact hafter.fallBack hzero hrobot inputs.time e
  · exact absurd hresult hconforms

/-! ### Whole runs -/

/-- A call keeps a controller ready. -/
theorem Ready.turn (h : c.Ready nv nu) {t : Turn α} (hrobot : t.robot.Regular nq nv nu) :
    (c.turn t).controller.Ready nv nu ∧ (c.turn t).Safe nu := by
  have hready : ({ c with model := t.robot }).Ready nv nu :=
    ⟨h.configured.of_eq rfl rfl, h.lastCommand⟩
  rw [Controller.turn]
  cases t.call with
  | tick inputs =>
    obtain ⟨hafter, hcommand⟩ := hready.tick hzero hrobot inputs
    exact ⟨hafter, hcommand⟩
  | solve inputs =>
    obtain ⟨solverState, diagnostics, hcontroller⟩ :=
      ({ c with model := t.robot }).solve_controller inputs
    refine ⟨?_, conforms_solve hready.configured hrobot inputs⟩
    dsimp only
    rw [hcontroller]
    exact ⟨hready.configured.of_eq rfl rfl, hready.lastCommand⟩
  | problem inputs =>
    refine ⟨hready, ?_⟩
    exact .bind (conforms_prepare hready.configured hrobot inputs) fun _ _ => Attempt.conforms_ok _

/-- Every call of a run is safe. -/
theorem Ready.run (h : c.Ready nv nu) {turns : List (Turn α)}
    (hturns : ∀ t ∈ turns, t.robot.Regular nq nv nu) : ∀ o ∈ c.run turns, o.Safe nu := by
  induction turns generalizing c with
  | nil =>
    rw [Controller.run]
    exact List.forall_mem_nil _
  | cons t rest ih =>
    obtain ⟨hrobot, hrest⟩ := List.forall_mem_cons.1 hturns
    obtain ⟨hafter, hsafe⟩ := h.turn hzero hrobot
    rw [Controller.run]
    exact List.forall_mem_cons.2 ⟨hsafe, ih hafter hrest⟩

end Ticks

end Controller

/-- Whatever the robot and the solver answer, every command of a run has one finite torque for each
actuator, and so has the last command after it; no call meets sizes that do not fit together. This
holds however the eigenvalues of gains and weights are computed. -/
theorem commands_finite {σ : Type} [Spectrum Float] {config : ControllerConfig Float}
    {model : RobotModel Float} {solver : Solver σ Float} {solverState : σ} {c : Controller σ Float}
    {nq nv nu : Nat}
    (hcreate : Controller.create config model solver solverState = .ok c)
    (hobjectives : ∀ o ∈ config.objectives, o.Made) (hmodel : model.Regular nq nv nu)
    {turns : List (Turn Float)} (hturns : ∀ t ∈ turns, t.robot.Regular nq nv nu) :
    ∀ o ∈ c.run turns, o.Safe nu := by
  have hzero : Scalar.isFinite (0 : Float) = true := by decide
  have hready := Controller.ready_of_create_eq_ok hcreate hobjectives hmodel
  exact hready.run hzero hturns

/-- A robot of one joint whose mass matrix has the wrong shape and whose bias is not a number. -/
def faultyRobot : RobotModel Float where
  numPositions := 1
  numVelocities := 1
  numActuators := 1
  actuation := .identity 1
  effortLimits := none
  hasBody _ := false
  jointIndex _ := some ⟨0, 0⟩
  checkState := checkDimensions 1 1
  massMatrix _ := .ok (.zeros 2 3)
  bias _ := .ok (.ofList [0 / 0])
  centerOfMass _ := .error .nonFiniteProgram
  point _ _ := .error .nonFiniteProgram
  frame _ _ := .error .nonFiniteProgram
  loopConstraints _ := .ok none

/-- The faulty robot with a solver that answers nothing but not-a-number: first without inputs, then
with all of them. -/
theorem commands_finite_faultyRobot :
    let lift : TrackingObjective Float :=
      ⟨"lift", .jointSpace (.always "lift"), .uniform 1 1 1, .identity 1, .empty, none, .trajectory⟩
    let config : ControllerConfig Float :=
      ⟨{ Settings.standard with accelerationRegularization := 1 }, [lift], .empty⟩
    let solver : Solver Unit Float := ⟨true, fun _ _ _ => (.ok (.ofList [0 / 0]), ())⟩
    let still : Vec Float := .zeros 1
    let inputs : TickInputs Float :=
      ⟨0, some ⟨still, still⟩, some ⟨.doubleStance, 0⟩, fun _ => some ⟨still, still, still⟩⟩
    ∃ c, Controller.create config faultyRobot solver () = .ok c ∧
      ∀ o ∈ c.run [⟨faultyRobot, .tick ⟨0 / 0, none, none, fun _ => none⟩⟩,
        ⟨faultyRobot, .tick inputs⟩], o.Safe 1 := by
  intro lift config solver still inputs
  have hmade : lift.Made := by
    obtain ⟨o, ho⟩ : ∃ o, TrackingObjective.create "lift" (.jointSpace (.always "lift"))
        (.uniform 1 1 1) (.identity 1) = .ok (o : TrackingObjective Float) :=
      Except.exists_of_isOk (by decide +kernel)
    have heq : o = lift := TrackingObjective.eq_of_create_eq_ok ho
    exact heq ▸ .create ho
  obtain ⟨c, hc⟩ : ∃ c, Controller.create config faultyRobot solver () = .ok c :=
    Except.exists_of_isOk (by decide +kernel)
  have hrobot : faultyRobot.Regular 1 1 1 := by
    refine ⟨rfl, rfl, rfl, rfl, ?_⟩
    rintro name _ ⟨⟩
    decide
  have hturns : ∀ t ∈ [Turn.mk faultyRobot (.tick ⟨0 / 0, none, none, fun _ => none⟩),
      ⟨faultyRobot, .tick inputs⟩], t.robot.Regular 1 1 1 :=
    List.forall_mem_cons.2 ⟨hrobot, List.forall_mem_singleton.2 hrobot⟩
  exact ⟨c, hc, commands_finite hc (List.forall_mem_singleton.2 hmade) hrobot hturns⟩

end WholeBody
