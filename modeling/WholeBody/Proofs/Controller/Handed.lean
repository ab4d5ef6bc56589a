import Mathlib
import WholeBody.Proofs.Controller.Run
import WholeBody.Proofs.Linear.Entry
import WholeBody.Proofs.Program.Cones

/-!
# What a solver is handed

A solver sees only programs that are finite, whose parts have the sizes of the layout, and whose
cones are counted off the active contacts, the loops and the effort limits. To see what a solver
sees, it is given a record of its programs; the record changes nothing else of a run.

## Main statements

* `Controller.turn_recording` — a call with a recording solver.
* `Controller.handed_of_prepare_eq_ok` — the program of one tick.
* `handed_wellFormed` — every program of every run.
-/

namespace WholeBody

variable {σ α : Type} [Scalar α]

/-! ### Well-formed programs -/

theorem Mat.allFinite_iff {m : Mat α} : m.allFinite = true ↔
    ∀ i < m.rows, ∀ j < m.cols, Scalar.isFinite (m.entry i j) = true := by
  rw [allFinite, List.all_eq_true, forall_mem_toList (P := fun y => Scalar.isFinite y = true)]

/-- Every entry is finite, costs and rows have one column for each variable of the layout, and the
cones have as many rows as there are bounds. -/
structure ConeProgram.WellFormed (p : ConeProgram α) : Prop where
  finiteCost : (∀ i < p.P.rows, ∀ j < p.P.cols, Scalar.isFinite (p.P.entry i j) = true) ∧
    ∀ i < p.q.size, Scalar.isFinite (p.q.entry i) = true
  finiteRows : (∀ i < p.A.rows, ∀ j < p.A.cols, Scalar.isFinite (p.A.entry i j) = true) ∧
    ∀ i < p.b.size, Scalar.isFinite (p.b.entry i) = true
  hessian : p.P.rows = p.layout.numVariables ∧ p.P.cols = p.layout.numVariables
  gradient : p.q.size = p.layout.numVariables
  rows : p.A.rows = p.b.size ∧ p.A.cols = p.layout.numVariables
  cones : coneRows p.cones = p.b.size

theorem TickData.wellFormed_program {d : TickData α} {a : Assembler α} {terms : List (TaskTerm α)}
    (h : (d.program a terms).allFinite = true) : (d.program a terms).WellFormed := by
  simp only [ConeProgram.allFinite, Bool.and_eq_true, Mat.allFinite_iff, Vec.allFinite_iff] at h
  obtain ⟨⟨⟨hP, hq⟩, hA⟩, hb⟩ := h
  have hbounds : (d.constraints a.settings).bounds.size = (d.constraints a.settings).numRows :=
    Vec.size_ofFn _ _
  refine ⟨⟨hP, hq⟩, ⟨hA, hb⟩, shape_hessian a terms, size_gradient a.settings terms,
    ⟨hbounds.symm, ConstraintStack.numVariables_pushAll _ _⟩, ?_⟩
  exact (ConstraintStack.coneRows_cones _).trans hbounds.symm

/-- Contacts without conic cones need no second-order cones. -/
theorem kind_of_mem_tickCones {s : Settings α} {contacts : List (ContactPoint α)} {nv nh nr : Nat}
    (h : ∀ c ∈ contacts, c.coneOr s.defaultCone ≠ .conic) :
    ∀ block ∈ tickCones s contacts nv nh nr, block.kind ≠ .secondOrder := by
  have hcount : (contacts.map (·.coneOr s.defaultCone)).count .conic = 0 := by
    simpa [List.count_eq_zero] using h
  intro block hblock
  simp only [tickCones, hcount, List.replicate_zero, List.append_nil, List.mem_filter] at hblock
  rcases List.mem_pair.1 hblock.1 with rfl | rfl <;> simp

/-- What the program of a call is: well-formed, with the cones of the state and the phase of its
inputs, and without second-order cones unless the solver supports them. -/
structure Handed (config : ControllerConfig α) (supportsSecondOrderCones : Bool) (t : Turn α)
    (p : ConeProgram α) : Prop where
  wellFormed : p.WellFormed
  cones : ∃ inputs state phase loops, (t.call = .tick inputs ∨ t.call = .solve inputs) ∧
    inputs.state = some state ∧ inputs.phase = some phase ∧
    t.robot.loopConstraints state = .ok loops ∧
    p.cones = tickCones config.settings (config.contacts.active phase.id) t.robot.numVelocities
      (loops.elim 0 fun l => l.jacobian.rows)
      (if t.robot.effortLimits.isSome then 2 * t.robot.numActuators else 0)
  supported : supportsSecondOrderCones = false → ∀ block ∈ p.cones, block.kind ≠ .secondOrder

/-! ### Recording -/

/-- The solver with a record of the programs that it has been handed. -/
def Solver.recording (solver : Solver σ α) : Solver (σ × List (ConeProgram α)) α where
  supportsSecondOrderCones := solver.supportsSecondOrderCones
  solve s p budget :=
    let (answer, next) := solver.solve s.1 p budget
    (answer, next, s.2 ++ [p])

/-- The controller with a recording solver. -/
def Controller.recording (c : Controller σ α) (record : List (ConeProgram α)) :
    Controller (σ × List (ConeProgram α)) α :=
  { c with solver := c.solver.recording, solverState := (c.solverState, record) }

/-- The outcome with a recording solver. -/
def Outcome.recording {β : Type} (o : Outcome σ α β) (record : List (ConeProgram α)) :
    Outcome (σ × List (ConeProgram α)) α β :=
  ⟨o.controller.recording record, o.result, o.log⟩

namespace Controller

variable {c : Controller σ α}

/-- The program that reaches the solver, if there is one. -/
def handed (c : Controller σ α) (inputs : TickInputs α) : Option (ConeProgram α) :=
  (c.prepare inputs).toOption.map (·.program)

/-- The program that reaches the solver in a call. -/
def handedBy (c : Controller σ α) (t : Turn α) : Option (ConeProgram α) :=
  match t.call with
  | .tick inputs => ({ c with model := t.robot }).handed inputs
  | .solve inputs => ({ c with model := t.robot }).handed inputs
  | .problem _ => none

theorem prepare_recording (c : Controller σ α) (record : List (ConeProgram α))
    (inputs : TickInputs α) : (c.recording record).prepare inputs = c.prepare inputs :=
  prepare_congr rfl rfl rfl

theorem solve_recording (c : Controller σ α) (record : List (ConeProgram α))
    (inputs : TickInputs α) : (c.recording record).solve inputs =
      (c.solve inputs).recording (record ++ (c.handed inputs).toList) := by
  simp only [solve, prepare_recording, handed]
  cases c.prepare inputs with
  | error e => simp [Except.toOption, Outcome.recording]
  | ok p =>
    simp only [recording, Solver.recording, Except.toOption, Option.map_some, Option.toList_some]
    cases p.read (c.solver.solve c.solverState p.program c.config.settings.solver).1 <;> rfl

theorem tick_recording (c : Controller σ α) (record : List (ConeProgram α))
    (inputs : TickInputs α) : (c.recording record).tick inputs =
      (c.tick inputs).recording (record ++ (c.handed inputs).toList) := by
  let diagnostics := { c.diagnostics with ticks := c.diagnostics.ticks + 1 }
  let start := { c with diagnostics, lastSolution := none }
  have hprepare : start.prepare inputs = c.prepare inputs := prepare_congr rfl rfl rfl
  have hhanded : start.handed inputs = c.handed inputs := by rw [handed, handed, hprepare]
  have hsolve := start.solve_recording record inputs
  rw [hhanded] at hsolve
  simp only [recording, start, diagnostics] at hsolve
  simp only [tick, recording, hsolve, Outcome.recording]
  cases (start.solve inputs).result with
  | ok solution => rfl
  | error e => rcases e with (e | e | e) | _ <;> rfl

/-- A recording solver changes nothing of a call but its record. -/
theorem turn_recording (c : Controller σ α) (record : List (ConeProgram α)) (t : Turn α) :
    (c.recording record).turn t =
      (c.turn t).recording (record ++ (c.handedBy t).toList) := by
  have hmodel : ({ c.recording record with model := t.robot } : Controller _ α) =
      ({ c with model := t.robot }).recording record := rfl
  rw [turn, turn, handedBy, hmodel]
  cases t.call with
  | tick inputs => simp only [tick_recording, Outcome.recording]
  | solve inputs => simp only [solve_recording, Outcome.recording]
  | problem inputs =>
    simp [problem, prepare_recording, Outcome.recording]

/-- A recording solver changes nothing of a run but its record. -/
theorem after_recording (c : Controller σ α) (record : List (ConeProgram α))
    (turns : List (Turn α)) :
    ∃ record', (c.recording record).after turns = (c.after turns).recording record' := by
  induction turns generalizing c record with
  | nil => exact ⟨record, rfl⟩
  | cons t rest ih =>
    rw [after, after, turn_recording]
    exact ih _ _

/-! ### What is handed over -/

/-- The program of a tick of a validated configuration. -/
theorem handed_of_prepare_eq_ok {config : ControllerConfig α} {robot : RobotModel α} {soc : Bool}
    (hcontacts : config.contacts.validate robot config.settings.defaultFriction
      config.settings.defaultCone soc = .ok ())
    (hconfig : c.config = config) (hsettings : c.assembler.settings = config.settings) {t : Turn α}
    {inputs : TickInputs α} (ht : t.call = .tick inputs ∨ t.call = .solve inputs) {p : Prepared α}
    (hp : ({ c with model := t.robot }).prepare inputs = .ok p) :
    Handed config soc t p.program := by
  subst hconfig
  obtain ⟨state, phase, d, hstate, hphase, hd, -, hprogram, hfinite⟩ := of_prepare_eq_ok hp
  obtain ⟨hanswers, hshaped⟩ := TickData.of_gather_eq_ok hd
  have hloops : d.numLoopRows = d.loops.elim 0 fun l => l.jacobian.rows := by
    rw [TickData.numLoopRows]
    cases d.loops <;> rfl
  have hcones : p.program.cones = tickCones c.config.settings
      (c.config.contacts.active phase.id) t.robot.numVelocities
      (d.loops.elim 0 fun l => l.jacobian.rows)
      (if t.robot.effortLimits.isSome then 2 * t.robot.numActuators else 0) := by
    rw [hprogram, TickData.cones_program hshaped, hanswers.map_fst_contacts, hloops,
      hanswers.effortLimits]
    rw [hsettings]
  refine ⟨?_, ⟨inputs, state, phase, d.loops, ht, hstate, hphase, hanswers.loops, hcones⟩, ?_⟩
  · rw [hprogram] at hfinite ⊢
    exact TickData.wellFormed_program hfinite
  · intro hsoc
    rw [hcones]
    refine kind_of_mem_tickCones fun contact hcontact hconic => ?_
    have hvalid := ContactSet.valid_of_validate_eq_ok hcontacts hcontact
    rw [hvalid.supported hconic] at hsoc
    cases hsoc

/-- The program of a call of a validated configuration. -/
theorem handed_of_mem_handedBy {config : ControllerConfig α} {robot : RobotModel α} {soc : Bool}
    (hcontacts : config.contacts.validate robot config.settings.defaultFriction
      config.settings.defaultCone soc = .ok ())
    (hconfig : c.config = config) (hsettings : c.assembler.settings = config.settings)
    {t : Turn α} {p : ConeProgram α} (hp : p ∈ c.handedBy t) : Handed config soc t p := by
  have hprepared {inputs : TickInputs α} (ht : t.call = .tick inputs ∨ t.call = .solve inputs)
      (hp : p ∈ ({ c with model := t.robot }).handed inputs) : Handed config soc t p := by
    rw [handed] at hp
    cases hprepare : ({ c with model := t.robot }).prepare inputs with
    | error e => simp [hprepare, Except.toOption] at hp
    | ok prepared =>
      obtain rfl : prepared.program = p := by simpa [hprepare, Except.toOption] using hp
      exact handed_of_prepare_eq_ok hcontacts hconfig hsettings ht hprepare
  rw [handedBy] at hp
  cases ht : t.call with
  | tick inputs => exact hprepared (.inl ht) (by simpa [ht] using hp)
  | solve inputs => exact hprepared (.inr ht) (by simpa [ht] using hp)
  | problem inputs => simp [ht] at hp

end Controller

/-- A solver is only ever handed well-formed programs. With a record of the programs that it is
handed, the results of a run are the same, and each call adds at most one program: it is finite, has
the sizes of its layout and the cones of the active contacts, the loops and the effort limits, and
has second-order cones only if the solver supports them. -/
theorem handed_wellFormed {config : ControllerConfig α} {robot : RobotModel α}
    {solver : Solver σ α} {start : σ} {c : Controller σ α}
    (hcreate : Controller.create config robot solver start = .ok c) (turns : List (Turn α))
    (t : Turn α) :
    let before := (c.recording []).after turns
    let o := before.turn t
    o.result = ((c.after turns).turn t).result ∧
      ∃ handed : Option (ConeProgram α),
        o.controller.solverState.2 = before.solverState.2 ++ handed.toList ∧
        ∀ p ∈ handed, Handed config solver.supportsSecondOrderCones t p := by
  intro before o
  obtain ⟨-, hcontacts, a, ha, hc⟩ := Controller.of_create_eq_ok hcreate
  have hmade := c.madeAlike_after turns
  have hconfig : (c.after turns).config = config := hmade.config.trans (by rw [hc])
  have hsettings : (c.after turns).assembler.settings = config.settings := by
    rw [hmade.assembler, hc]
    exact (Assembler.of_create_eq_ok ha).1
  obtain ⟨record, hbefore⟩ := c.after_recording [] turns
  have hturn : o = ((c.after turns).turn t).recording
      (record ++ ((c.after turns).handedBy t).toList) := by
    simp only [o, before, hbefore, Controller.turn_recording]
  refine ⟨by rw [hturn, Outcome.recording], (c.after turns).handedBy t, ?_, fun p hp => ?_⟩
  · simp only [hturn, before, hbefore, Outcome.recording, Controller.recording]
  · exact Controller.handed_of_mem_handedBy hcontacts hconfig hsettings hp

/-- A motor with a limited effort and a solver without second-order cones: the solver is handed one
program in a tick. -/
theorem handed_wellFormed_motor :
    let motor : RobotModel Float :=
      { faultyRobot with
        massMatrix := fun _ => .ok (.identity 1)
        bias := fun _ => .ok (.zeros 1)
        effortLimits := some (.ofList [5]) }
    let config : ControllerConfig Float :=
      ⟨{ Settings.standard with accelerationRegularization := 1 }, [], .empty⟩
    let solver : Solver Unit Float := ⟨false, fun _ _ _ => (.ok (.ofList [2, 2]), ())⟩
    let still : RobotState Float := ⟨.zeros 1, .zeros 1⟩
    let inputs : TickInputs Float := ⟨1, some still, some ⟨.doubleStance, 0⟩, fun _ => none⟩
    let t : Turn Float := ⟨motor, .tick inputs⟩
    ∃ c, Controller.create config motor solver () = .ok c ∧
      ∃ p, ((c.recording []).turn t).controller.solverState.2 = [p] ∧ Handed config false t p := by
  intro motor config solver still inputs t
  obtain ⟨c, hc⟩ : ∃ c, Controller.create config motor solver () = .ok c :=
    Except.exists_of_isOk (by decide +kernel)
  obtain ⟨-, handed, hrecord, hhanded⟩ := handed_wellFormed hc [] t
  refine ⟨c, hc, ?_⟩
  obtain ⟨-, -, a, ha, rfl⟩ := Controller.of_create_eq_ok hc
  obtain rfl : ⟨config.settings, []⟩ = a := Except.ok.inj ha
  let c : Controller Unit Float :=
    ⟨config, motor, solver, (), ⟨config.settings, []⟩, none, none, .initial⟩
  have hone : ((c.recording []).turn t).controller.solverState.2.length = 1 := by decide +kernel
  cases handed with
  | none =>
    have hnil : ((c.recording []).turn t).controller.solverState.2 = [] := hrecord
    rw [hnil] at hone
    cases hone
  | some p => exact ⟨p, hrecord, hhanded p rfl⟩

end WholeBody
