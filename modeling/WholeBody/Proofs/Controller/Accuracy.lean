import Mathlib
import WholeBody.Proofs.Controller.Held
import WholeBody.Proofs.Controller.Readout
import WholeBody.Proofs.Program.Violation
import WholeBody.Proofs.Robot.PointMass

/-!
# The accuracy of a solution

A solution comes with one number, the largest violation of a constraint. It bounds how far the
reported accelerations, forces and inputs are from the equations of motion, and by how much they
miss the least normal forces and the effort limits. Whether the solver has found an optimum or not
is of no importance.

## Main statements

* `Controller.Prepared.alike_decision` — the decision that a solution reports.
* `Controller.exists_meetsWithin` — what the violation says about it.
* `violation_measures_feasibility` — programs, and the solved ticks of a controller.
-/

namespace WholeBody

/-- The decision that a solution reports. -/
noncomputable def TickSolution.decision (s : TickSolution ℝ) : Decision where
  accelerations := s.accelerations
  force i := (s.contactForces[i]?.map (·.2)).getD 0
  loopForces := s.loopForces
  inputs := s.inputs
  contactSlack i := .ofVec s.contactSlack (3 * i)
  loopSlack := s.loopSlack

namespace Controller

/-- The decision that is read off an answer is the one that the answer stands for. -/
theorem Prepared.alike_decision {p : Prepared ℝ} {d : TickData ℝ} {a : Assembler ℝ}
    (hprogram : p.program = d.program a p.terms) (hcontacts : p.contacts.length = d.contacts.length)
    (x : Vec ℝ) : d.Alike a.settings a.settings ((d.layout a.settings).split x)
      (p.solution x).decision := by
  have hlayout : p.program.layout = d.layout a.settings := by
    rw [hprogram]
    rfl
  refine ⟨?accelerations, ?force, ?loopForces, ?inputs, ?contactSlack, ?loopSlack⟩
  case accelerations => simp only [TickSolution.decision, solution, hlayout]; rfl
  case loopForces => simp only [TickSolution.decision, solution, hlayout]; rfl
  case inputs => simp only [TickSolution.decision, solution, hlayout]; rfl
  case force =>
    intro i hi
    obtain ⟨contact, hcontact⟩ : ∃ contact, p.contacts[i]? = some contact :=
      ⟨_, List.getElem?_eq_getElem (by omega)⟩
    change ((p.solution x).contactForces[i]?.map (·.2)).getD 0 = _
    rw [getElem?_contactForces, hcontact, hlayout]
    rfl
  case contactSlack =>
    intro i hi k hk
    cases hmode : a.settings.contactMode with
    | hard => rfl
    | soft w =>
      have hsize := TickData.size_contactSlack d a.settings
      rw [hmode, ConstraintMode.slackRows] at hsize
      simp only [TickSolution.decision, solution, hlayout, VariableLayout.split, block,
        Vec3.component_ofVec _ hk]
      rw [Vec.entry_slice (by omega), Nat.add_assoc]
  case loopSlack =>
    intro k hk
    simp only [TickSolution.decision, solution, hlayout]
    rfl

/-- What a solve reports holds up to the violation that it reports. -/
theorem exists_meetsWithin {σ : Type} {c : Controller σ ℝ} {inputs : TickInputs ℝ}
    {solution : TickSolution ℝ} (h : (c.solve inputs).result = .ok solution) :
    ∃ (state : RobotState ℝ) (phase : GaitPhase ℝ) (d : TickData ℝ),
      inputs.state = some state ∧ inputs.phase = some phase ∧
      d.Answers c.model state (c.config.contacts.active phase.id) ∧
      solution.contactForces.map (·.1) = (c.config.contacts.active phase.id).map (·.name) ∧
      d.MeetsWithin c.assembler.settings solution.decision solution.violation := by
  obtain ⟨p, hp, hread⟩ := of_solve_eq_ok h
  obtain ⟨x, -, -, -, rfl⟩ := Prepared.of_read_eq_ok hread
  obtain ⟨state, phase, d, hstate, hphase, hd, hactive, hprogram, -⟩ := of_prepare_eq_ok hp
  obtain ⟨hanswers, hshaped⟩ := TickData.of_gather_eq_ok hd
  have hcontacts : p.contacts.length = d.contacts.length := by
    rw [hactive, hanswers.contacts.length_eq]
  have hwithin := TickData.meetsWithin_maxViolation hshaped c.assembler p.terms x
  rw [← hprogram] at hwithin
  refine ⟨state, phase, d, hstate, hphase, hanswers, ?_, ?_⟩
  · rw [p.names_contactForces x, hactive]
  · exact hwithin.of_alike (p.alike_decision hprogram hcontacts x) rfl

/-- A solved tick keeps the solution whose inputs it commands. -/
theorem exists_solution_of_solved {σ α : Type} [Scalar α] {c : Controller σ α}
    {inputs : TickInputs α} {command : TorqueCommand α}
    (hresult : (c.tick inputs).result = some command) (hsolved : command.status = .solved) :
    ∃ solution, (c.solve inputs).result = .ok solution ∧
      (c.tick inputs).controller.lastSolution = some solution ∧
      command.torques = solution.inputs := by
  obtain ⟨command', hcommand, -, -, hlast, hemits⟩ | ⟨hnone, -, -⟩ := c.tick_emits inputs
  · rw [hresult] at hcommand
    obtain rfl := Option.some_inj.1 hcommand
    have hsolve := hemits
    rw [hlast] at hsolve
    obtain ⟨solution, hsolution⟩ := hsolve.solved_iff.1 hsolved
    rw [hsolution] at hlast
    refine ⟨solution, hsolution, hlast, ?_⟩
    rw [hlast, hsolved] at hemits
    generalize command.torques = torques at hemits
    cases hemits
    rfl
  · rw [hresult] at hnone
    cases hnone

/-- The tick of a solve that succeeds is solved. -/
theorem exists_solved_of_solve {σ α : Type} [Scalar α] {c : Controller σ α}
    {inputs : TickInputs α} {solution : TickSolution α}
    (h : (c.solve inputs).result = .ok solution) :
    ∃ command, (c.tick inputs).result = some command ∧ command.status = .solved := by
  obtain ⟨command, hcommand, -, -, hlast, hemits⟩ | ⟨-, hfail, -⟩ := c.tick_emits inputs
  · rw [hlast] at hemits
    exact ⟨command, hcommand, hemits.solved_iff.2 ⟨solution, h⟩⟩
  · rw [h] at hfail
    cases hfail

end Controller

/-- The largest violation of a point is at most `ε` exactly when each equation is off by at most
`ε`, each inequality is missed by at most `ε`, and each second-order cone is missed by at most `ε`;
it is zero exactly at feasible points. So the violation that a solved tick reports bounds how far
its accelerations, forces and inputs are from what the robot can do. -/
theorem violation_measures_feasibility {p : ConeProgram ℝ} (hdim : ∀ c ∈ p.cones, 1 ≤ c.dim)
    (hrows : coneRows p.cones = p.b.size) (x : Vec ℝ) :
    (∀ ε, 0 ≤ ε → (p.maxViolation x ≤ ε ↔ p.FeasibleWithin x ε)) ∧
      (p.maxViolation x = 0 ↔ p.Feasible x) ∧
      ∀ {σ : Type} {config : ControllerConfig ℝ} {robot : RobotModel ℝ} {solver : Solver σ ℝ}
        {start : σ} {c : Controller σ ℝ}, Controller.create config robot solver start = .ok c →
        ∀ (turns : List (Turn ℝ)) (now : RobotModel ℝ) (inputs : TickInputs ℝ)
          (command : TorqueCommand ℝ),
          let o := (c.after turns).turn ⟨now, .tick inputs⟩
          o.result = .command (some command) → command.status = .solved →
          ∃ (solution : TickSolution ℝ) (state : RobotState ℝ) (phase : GaitPhase ℝ)
            (d : TickData ℝ),
            o.controller.lastSolution = some solution ∧ command.torques = solution.inputs ∧
            inputs.state = some state ∧ inputs.phase = some phase ∧
            d.Answers now state (config.contacts.active phase.id) ∧
            solution.contactForces.map (·.1) =
              (config.contacts.active phase.id).map (·.name) ∧
            d.MeetsWithin config.settings solution.decision solution.violation := by
  refine ⟨fun ε hε => ConeProgram.maxViolation_le_iff hdim hε,
    ConeProgram.maxViolation_eq_zero_iff hrows, ?_⟩
  intro σ config robot solver start c hcreate turns now inputs command o hresult hsolved
  obtain ⟨-, -, a, ha, hc⟩ := Controller.of_create_eq_ok hcreate
  obtain ⟨hconfig, hassembler, -⟩ := c.madeAlike_after turns
  have hcommand := Reply.command.inj hresult
  obtain ⟨solution, hsolution, hlast, htorques⟩ :=
    Controller.exists_solution_of_solved hcommand hsolved
  obtain ⟨state, phase, d, hstate, hphase, hanswers, hnames, hwithin⟩ :=
    Controller.exists_meetsWithin hsolution
  have hc' : (c.after turns).config = config := hconfig.trans (by rw [hc])
  have hs : (c.after turns).assembler.settings = config.settings := by
    rw [hassembler, hc]
    exact (Assembler.of_create_eq_ok ha).1
  dsimp only at hanswers hnames hwithin
  rw [hc'] at hanswers hnames
  rw [hs] at hwithin
  exact ⟨solution, state, phase, d, hlast, htorques, hstate, hphase, hanswers, hnames, hwithin⟩

/-- A program of four rows, and a point mass with a thruster on one foot whose solver proposes
nothing but zeros. -/
theorem violation_measures_feasibility_thruster :
    let rows : List (List ℝ) := [[1, 0, 0], [0, 1, 0], [-1, 0, 0], [0, -1, 0]]
    let cones : List ConeBlock := [⟨.zero, 1⟩, ⟨.nonnegative, 1⟩, ⟨.secondOrder, 2⟩]
    let p : ConeProgram ℝ :=
      ⟨.identity 3, .zeros 3, .ofFn 4 3 fun i j => (rows.getD i []).getD j 0, .ofList [1, 2, 0, 0],
        cones, .make 3 0 0 0 (.hard : ConstraintMode ℝ) .hard⟩
    let r : PointMass ℝ := ⟨"mass", 1, 10⟩
    let robot : RobotModel ℝ :=
      { r.model with
        numActuators := 1
        actuation := .ofFn 3 1 fun i _ => if i = 2 then 1 else 0
        effortLimits := some (.ofList [4]) }
    let foot : ContactPoint ℝ := ⟨"foot", ⟨"mass", 0⟩, .unitZ, none, some .conic⟩
    let config : ControllerConfig ℝ :=
      ⟨.standard, [], ContactSet.empty.withPhase .doubleStance [foot]⟩
    let solver : Solver Unit ℝ := ⟨true, fun _ p _ => (.ok (.zeros p.numVariables), ())⟩
    let state : RobotState ℝ := ⟨.zeros 3, .zeros 3⟩
    let inputs : TickInputs ℝ := ⟨0, some state, some ⟨.doubleStance, 0⟩, fun _ => none⟩
    (∀ x : Vec ℝ, p.maxViolation x = 0 ↔ p.Feasible x) ∧
      ∃ (c : Controller Unit ℝ) (command : TorqueCommand ℝ) (solution : TickSolution ℝ)
        (d : TickData ℝ), Controller.create config robot solver () = .ok c ∧
        (c.turn ⟨robot, .tick inputs⟩).result = .command (some command) ∧
        (c.turn ⟨robot, .tick inputs⟩).controller.lastSolution = some solution ∧
        d.Answers robot state [foot] ∧
        d.MeetsWithin config.settings solution.decision solution.violation := by
  intro rows cones p r robot foot config solver state inputs
  have hdim : ∀ c ∈ cones, 1 ≤ c.dim := by decide
  refine ⟨fun x => (violation_measures_feasibility (p := p) hdim rfl x).2.1, ?_⟩
  have hstandard := Settings.valid_standard
  have hfoot : foot.Valid robot config.settings.defaultFriction config.settings.defaultCone
      true := by
    refine ⟨rfl, ⟨rfl, ?_⟩, rfl, hstandard.defaultFriction, nofun, fun _ => rfl⟩
    have hnorm : foot.normal.norm = 1 := Vec3.norm_vertical zero_le_one
    rw [hnorm, Scalar.ofDecimal_real]
    norm_num
  have hcontacts : config.contacts.validate robot config.settings.defaultFriction
      config.settings.defaultCone true = .ok () := by
    refine Except.forM_eq_ok_iff.2 (List.forall_mem_singleton.2 ?_)
    simp only [ContactSet.validatePhase, Except.seq_eq_ok_iff, Except.guard_bind_eq_ok_iff,
      ContactPoint.validate_eq_ok_iff]
    exact ⟨List.not_mem_nil, hfoot, trivial⟩
  have hactuators : Controller.checkActuators robot = .ok () := by
    simp only [Controller.checkActuators, robot, Except.guard_bind_eq_ok_iff,
      Except.guard_eq_ok_iff]
    exact ⟨by simp [r, PointMass.model], by simp, by simp [Vec.toList, Vec.ofList]⟩
  let c : Controller Unit ℝ :=
    ⟨config, robot, solver, (), ⟨.standard, []⟩, none, none, .initial⟩
  have hcreate : Controller.create config robot solver () = .ok c :=
    Controller.create_eq_ok_iff.2 ⟨hstandard, hactuators, rfl, hcontacts, _, rfl, rfl⟩
  -- The thruster answers as the point mass does, but for its actuation.
  let d : TickData ℝ :=
    { r.tickData state [foot] with actuation := robot.actuation, effortLimits := robot.effortLimits }
  have hgather : TickData.gather robot state [foot] = .ok d := by
    have hmass : TickData.gather r.model state [foot] = .ok (r.tickData state [foot]) :=
      PointMass.gather_eq_ok ⟨rfl, rfl⟩ (List.forall_mem_singleton.2 rfl)
    obtain ⟨hanswers, hshaped⟩ := TickData.of_gather_eq_ok hmass
    exact TickData.gather_eq_ok rfl { hanswers with actuation := rfl, effortLimits := rfl }
      { hshaped with actuation := ⟨rfl, rfl⟩ }
  have hbuild : c.assembler.build robot state [] [foot] = .ok (d.program c.assembler []) :=
    Assembler.build_eq_ok hgather (List.forall_mem_nil _) (List.forall_mem_nil _) rfl
  have hfinite : (d.program c.assembler []).allFinite = true := by
    simp [ConeProgram.allFinite, Mat.allFinite, Vec.allFinite]
  have hprepare : c.prepare inputs = .ok ⟨d.program c.assembler [], [], [foot], .doubleStance⟩ :=
    Controller.prepare_eq_ok_iff.2
      ⟨state, ⟨.doubleStance, 0⟩, [], _, rfl, rfl, rfl, hbuild, hfinite, rfl⟩
  have hsolve := Controller.result_solve_eq_ok hprepare (Controller.Prepared.read_eq_ok
    (Controller.fromData_of_prepare hprepare) (Vec.size_zeros _) (by simp [Vec.allFinite]))
  obtain ⟨command, hcommand, hstatus⟩ := Controller.exists_solved_of_solve hsolve
  have hresult : ((c.after []).turn ⟨robot, .tick inputs⟩).result = .command (some command) :=
    congrArg Reply.command hcommand
  obtain ⟨-, -, hticks⟩ := violation_measures_feasibility (p := p) hdim rfl (.zeros 3)
  obtain ⟨solution, _, _, d, hlast, -, ⟨⟩, ⟨⟩, hanswers, -, hwithin⟩ :=
    hticks hcreate [] robot inputs command hresult hstatus
  exact ⟨c, command, solution, d, hcreate, hresult, hlast, hanswers, hwithin⟩

end WholeBody
