import Mathlib
import WholeBody.Controller.Basic
import WholeBody.Proofs.Program.Shape
import WholeBody.Proofs.Tracking.Evaluation

/-!
# Solving one tick

What holds of a solve whatever the robot and the solver answer: it never meets sizes that do not fit
together, a solution has one finite input for each actuator, and only the solver state and the
counters of the controller change.

## Main statements

* `Controller.conforms_prepare`, `Controller.of_prepare_eq_ok` — the program of a tick.
* `Controller.Prepared.conforms_read`, `Controller.Prepared.inputs_of_read_eq_ok` — the answer of a
  solver.
* `Controller.prepare_congr`, `Controller.result_solve_congr` — what a tick does not depend on.
* `Controller.solve_cases`, `Controller.solve_controller` — all that a solve can do, and what it
  leaves as it was.
-/

namespace WholeBody

variable {α : Type} [Scalar α]

theorem Vec.allFinite_iff {v : Vec α} :
    v.allFinite = true ↔ ∀ i < v.size, Scalar.isFinite (v.entry i) = true := by
  simp only [allFinite, toList, List.all_eq_true, Array.mem_toList_iff, Array.mem_iff_getElem,
    size, entry]
  constructor
  · intro h i hi
    simpa [hi] using h _ ⟨i, hi, rfl⟩
  · rintro h _ ⟨i, hi, rfl⟩
    simpa [hi] using h i hi

theorem Vec.allFinite_slice {v : Vec α} (h : v.allFinite = true) {start len : Nat}
    (hfit : start + len ≤ v.size) : (v.slice start len).allFinite = true := by
  rw [allFinite_iff] at h ⊢
  intro i hi
  rw [size_slice] at hi
  rw [slice, entry_ofFn_of_lt hi]
  exact h (start + i) (by omega)

namespace Controller

variable {σ : Type} {c : Controller σ α} {nq nv nu : Nat}

/-! ### The program of a tick -/

/-- What the checks of a configuration leave behind: objectives of consistent dimensions and joint
costs within the velocities. -/
structure Configured (c : Controller σ α) (nv : Nat) : Prop where
  objectives : ∀ o ∈ c.config.objectives, o.WellShaped
  jointCosts : ∀ e ∈ c.assembler.jointCosts, e.1 < nv

section Terms

variable {state : RobotState α} {phase : PhaseId} {timeInPhase : α}
  {samples : String → Option (TrajectorySample α)} {os : List (TrackingObjective α)}

theorem conforms_activeTerms (hos : ∀ o ∈ os, o.WellShaped) (hmodel : c.model.Regular nq nv nu)
    (hq : state.q.size = nq) (hv : state.v.size = nv) :
    Attempt.Conforms (c.activeTerms state phase timeInPhase samples os) := by
  induction os with
  | nil => exact Attempt.conforms_ok _
  | cons o rest ih =>
    obtain ⟨ho, hrest⟩ := List.forall_mem_cons.1 hos
    refine .bind (ho.conforms_evaluate hmodel hq hv) fun _ _ => ?_
    exact .bind (ih hrest) fun _ _ => Attempt.conforms_ok _

theorem fits_of_activeTerms_eq_ok (hos : ∀ o ∈ os, o.WellShaped)
    (hmodel : c.model.Regular nq nv nu) {terms : List (TaskTerm α)}
    (h : c.activeTerms state phase timeInPhase samples os = .ok terms) :
    ∀ t ∈ terms, t.Fits nv := by
  induction os generalizing terms with
  | nil =>
    cases h
    exact nofun
  | cons o rest ih =>
    obtain ⟨ho, hrest⟩ := List.forall_mem_cons.1 hos
    obtain ⟨term, hterm, h⟩ := Except.of_bind_eq_ok h
    obtain ⟨terms', hterms, h⟩ := Except.of_bind_eq_ok h
    cases h
    intro t ht
    rcases List.mem_append.1 ht with ht | ht
    · exact ho.fits_of_evaluate_eq_ok hmodel hterm t (Option.mem_toList.1 ht)
    · exact ih hrest hterms t ht

end Terms

/-- The program of a tick is made from data of the right shape. -/
def Prepared.FromData (p : Prepared α) (nv nu : Nat) : Prop :=
  ∃ (d : TickData α) (a : Assembler α), d.Shaped nv nu ∧
    p.contacts.length = d.contacts.length ∧ p.program = d.program a p.terms

theorem conforms_prepare (hc : c.Configured nv) (hmodel : c.model.Regular nq nv nu)
    (inputs : TickInputs α) : Attempt.Conforms (c.prepare inputs) := by
  refine .bind (Attempt.conforms_ofExcept _ _) fun input _ => ?_
  refine .bind (Attempt.conforms_ofExcept _ _) fun _ hcheck => ?_
  rw [hmodel.checkState] at hcheck
  obtain ⟨hq, hv⟩ := of_checkDimensions_eq_ok (Attempt.of_ofExcept_eq_ok hcheck)
  refine .bind (conforms_activeTerms hc.objectives hmodel hq hv) fun terms hterms => ?_
  have hfits := fits_of_activeTerms_eq_ok hc.objectives hmodel hterms
  have hjoints := hc.jointCosts
  rw [← hmodel.numVelocities] at hfits hjoints
  refine .bind (.mapError (Assembler.conforms_build hfits hjoints) _) fun program _ => ?_
  by_cases hfinite : program.allFinite = false
  · rw [if_pos hfinite]
    exact Attempt.conforms_fail _
  · rw [if_neg hfinite]
    exact Attempt.conforms_ok _

/-- State and phase are read when they are there and everything is finite. -/
theorem readInputs_eq_ok {inputs : TickInputs α} {state : RobotState α} {phase : GaitPhase α}
    (hstate : inputs.state = some state) (hphase : inputs.phase = some phase)
    (htime : Scalar.isFinite inputs.time = true)
    (htransition : Scalar.isFinite phase.transitionTime = true)
    (hfinite : state.allFinite = true) : readInputs inputs = .ok (state, phase) := by
  simp [readInputs, hstate, hphase, htime, htransition, hfinite, pure, Except.pure]

theorem of_readInputs_eq_ok {inputs : TickInputs α} {state : RobotState α} {phase : GaitPhase α}
    (h : readInputs inputs = .ok (state, phase)) :
    inputs.state = some state ∧ inputs.phase = some phase := by
  rw [readInputs] at h
  cases hstate : inputs.state with
  | none => simp [hstate, throw, throwThe, MonadExceptOf.throw] at h
  | some s =>
    cases hphase : inputs.phase with
    | none => simp [hstate, hphase, throw, throwThe, MonadExceptOf.throw] at h
    | some p =>
      simp only [hstate, hphase, Except.guard_bind_eq_ok_iff] at h
      obtain ⟨-, -, h⟩ := h
      cases h
      exact ⟨rfl, rfl⟩

/-- There is a program of a tick exactly when every step towards it succeeds. -/
theorem prepare_eq_ok_iff {inputs : TickInputs α} {p : Prepared α} :
    c.prepare inputs = .ok p ↔ ∃ (state : RobotState α) (phase : GaitPhase α)
      (terms : List (TaskTerm α)) (program : ConeProgram α),
      readInputs inputs = .ok (state, phase) ∧ c.model.checkState state = .ok () ∧
      c.activeTerms state phase.id (phase.timeInPhase inputs.time) inputs.samples
        c.config.objectives = .ok terms ∧
      c.assembler.build c.model state terms (c.config.contacts.active phase.id) = .ok program ∧
      program.allFinite = true ∧
      p = ⟨program, terms, c.config.contacts.active phase.id, phase.id⟩ := by
  constructor
  · intro h
    obtain ⟨⟨state, phase⟩, hinputs, h⟩ := Except.of_bind_eq_ok h
    obtain ⟨_, hcheck, h⟩ := Except.of_bind_eq_ok h
    obtain ⟨terms, hterms, h⟩ := Except.of_bind_eq_ok h
    obtain ⟨program, hprogram, h⟩ := Except.of_bind_eq_ok h
    by_cases hfinite : program.allFinite = false
    · rw [if_pos hfinite] at h
      cases h
    · rw [if_neg hfinite] at h
      exact ⟨state, phase, terms, program, Attempt.of_ofExcept_eq_ok hinputs,
        Attempt.of_ofExcept_eq_ok hcheck, hterms, Attempt.of_mapError_eq_ok hprogram,
        eq_true_of_ne_false hfinite, (Except.ok.inj h).symm⟩
  · rintro ⟨state, phase, terms, program, hinputs, hcheck, hterms, hprogram, hfinite, rfl⟩
    rw [prepare, Except.bind_of_eq_ok (Attempt.ofExcept_eq_ok hinputs)]
    dsimp only
    rw [Except.bind_of_eq_ok (Attempt.ofExcept_eq_ok hcheck), Except.bind_of_eq_ok hterms,
      hprogram, Attempt.mapError, Except.bind_of_eq_ok rfl, if_neg (by simp [hfinite])]
    rfl

/-- The same for the program by itself. -/
theorem problem_eq_ok_iff {inputs : TickInputs α} {p : ConeProgram α} :
    c.problem inputs = .ok p ↔ ∃ (state : RobotState α) (phase : GaitPhase α)
      (terms : List (TaskTerm α)),
      readInputs inputs = .ok (state, phase) ∧ c.model.checkState state = .ok () ∧
      c.activeTerms state phase.id (phase.timeInPhase inputs.time) inputs.samples
        c.config.objectives = .ok terms ∧
      c.assembler.build c.model state terms (c.config.contacts.active phase.id) = .ok p ∧
      p.allFinite = true := by
  constructor
  · intro h
    obtain ⟨prepared, hprepared, h⟩ := Except.of_bind_eq_ok h
    cases h
    obtain ⟨state, phase, terms, program, hinputs, hcheck, hterms, hprogram, hfinite, rfl⟩ :=
      prepare_eq_ok_iff.1 hprepared
    exact ⟨state, phase, terms, hinputs, hcheck, hterms, hprogram, hfinite⟩
  · rintro ⟨state, phase, terms, hinputs, hcheck, hterms, hprogram, hfinite⟩
    exact Except.bind_of_eq_ok (prepare_eq_ok_iff.2
      ⟨state, phase, terms, p, hinputs, hcheck, hterms, hprogram, hfinite, rfl⟩)

/-- The program of a tick is that of what the robot answers for the state and the active contacts
of its inputs, and it is finite. -/
theorem of_prepare_eq_ok {inputs : TickInputs α} {p : Prepared α} (h : c.prepare inputs = .ok p) :
    ∃ (state : RobotState α) (phase : GaitPhase α) (d : TickData α),
      inputs.state = some state ∧ inputs.phase = some phase ∧
      TickData.gather c.model state (c.config.contacts.active phase.id) = .ok d ∧
      p.contacts = c.config.contacts.active phase.id ∧
      p.program = d.program c.assembler p.terms ∧ p.program.allFinite = true := by
  obtain ⟨state, phase, terms, program, hinputs, -, -, hprogram, hfinite, rfl⟩ :=
    prepare_eq_ok_iff.1 h
  obtain ⟨d, hd, -, -, -, rfl⟩ := Assembler.of_build_eq_ok hprogram
  obtain ⟨hstate, hphase⟩ := of_readInputs_eq_ok hinputs
  exact ⟨state, phase, d, hstate, hphase, hd, rfl, rfl, hfinite⟩

theorem fromData_of_prepare {inputs : TickInputs α} {p : Prepared α}
    (h : c.prepare inputs = .ok p) : p.FromData c.model.numVelocities c.model.numActuators := by
  obtain ⟨state, phase, d, -, -, hd, hcontacts, hprogram, -⟩ := of_prepare_eq_ok h
  obtain ⟨hanswers, hshaped⟩ := TickData.of_gather_eq_ok hd
  exact ⟨d, c.assembler, hshaped, hcontacts ▸ hanswers.contacts.length_eq, hprogram⟩

theorem fromData_of_prepare_eq_ok (hmodel : c.model.Regular nq nv nu) {inputs : TickInputs α}
    {p : Prepared α} (h : c.prepare inputs = .ok p) : p.FromData nv nu := by
  rw [← hmodel.numVelocities, ← hmodel.numActuators]
  exact fromData_of_prepare h

/-! ### The answer of a solver -/

namespace Prepared

variable {p : Prepared α}

theorem of_checkAnswer_eq_ok {n : Nat} {x : Vec α} {u : Unit} (h : checkAnswer n x = .ok u) :
    x.size = n ∧ x.allFinite = true := by
  rw [checkAnswer] at h
  by_cases hsize : x.size ≠ n
  · rw [if_pos hsize] at h
    cases h
  · rw [if_neg hsize] at h
    by_cases hfinite : x.allFinite = false
    · rw [if_pos hfinite] at h
      cases h
    · exact ⟨of_not_not hsize, eq_true_of_ne_false hfinite⟩

/-- The layout is that of the data. -/
theorem FromData.exists_layout (h : p.FromData nv nu) : ∃ (d : TickData α) (s : Settings α),
    p.program.layout = d.layout s ∧ p.program.numVariables = (d.layout s).numVariables ∧
      p.contacts.length = d.contacts.length := by
  obtain ⟨d, a, -, hcontacts, hprogram⟩ := h
  refine ⟨d, a.settings, ?_, ?_, hcontacts⟩
  · rw [hprogram]
    rfl
  · rw [hprogram]
    exact TickData.numVariables_program a p.terms

/-- A vector of the right length has all blocks of the layout. -/
theorem FromData.spansFit (h : p.FromData nv nu) : p.SpansFit p.program.numVariables := by
  obtain ⟨d, s, hlayout, hn, hcontacts⟩ := h.exists_layout
  rw [SpansFit, hn, hlayout]
  refine ⟨fun t ht => TickData.start_add_size_le d s ?_, fun e he => ?_⟩
  · simp only [List.mem_cons, List.not_mem_nil, or_false] at ht ⊢
    tauto
  · refine TickData.stop_contact_le ?_
    rw [← hcontacts]
    exact (List.getElem?_eq_some_iff.1 (List.mem_zipIdx_iff_getElem?.1 he)).1

/-- A vector of the right length can be read. -/
theorem FromData.readable (h : p.FromData nv nu) {x : Vec α}
    (hsize : x.size = p.program.numVariables) : p.program.Evaluable x ∧ p.SpansFit x.size := by
  have hspans := h.spansFit
  rw [← hsize] at hspans
  obtain ⟨d, a, -, -, hprogram⟩ := h
  refine ⟨?_, hspans⟩
  rw [hprogram] at hsize ⊢
  exact TickData.evaluable_program a p.terms hsize

theorem conforms_read (h : p.FromData nv nu) (answer : Except SolverError (Vec α)) :
    Attempt.Conforms (p.read answer) := by
  refine .bind (Attempt.conforms_ofExcept _ _) fun x _ => ?_
  refine .bind (Attempt.conforms_ofExcept _ _) fun _ hcheck => ?_
  obtain ⟨hsize, -⟩ := of_checkAnswer_eq_ok (Attempt.of_ofExcept_eq_ok hcheck)
  exact .bind (Attempt.conforms_conforming (h.readable hsize)) fun _ _ => Attempt.conforms_ok _

/-- A finite answer of the right length is read. -/
theorem read_eq_ok (h : p.FromData nv nu) {x : Vec α} (hsize : x.size = p.program.numVariables)
    (hfinite : x.allFinite = true) : p.read (.ok x) = .ok (p.solution x) := by
  have hcheck : checkAnswer p.program.numVariables x = .ok () := by
    rw [checkAnswer, if_neg (not_not_intro hsize), if_neg (by simp [hfinite])]
    rfl
  rw [read, Except.bind_of_eq_ok (Attempt.ofExcept_eq_ok rfl),
    Except.bind_of_eq_ok (Attempt.ofExcept_eq_ok hcheck),
    Except.bind_of_eq_ok (Attempt.conforming_eq_ok (h.readable hsize))]
  rfl

/-- A solution that is read comes from an answer of the right length that is finite. -/
theorem of_read_eq_ok {answer : Except SolverError (Vec α)} {solution : TickSolution α}
    (h : p.read answer = .ok solution) :
    ∃ x, answer = .ok x ∧ x.size = p.program.numVariables ∧ x.allFinite = true ∧
      solution = p.solution x := by
  obtain ⟨x, hx, h⟩ := Except.of_bind_eq_ok h
  obtain ⟨_, hcheck, h⟩ := Except.of_bind_eq_ok h
  obtain ⟨_, -, h⟩ := Except.of_bind_eq_ok h
  cases h
  obtain ⟨hsize, hfinite⟩ := of_checkAnswer_eq_ok (Attempt.of_ofExcept_eq_ok hcheck)
  exact ⟨x, Attempt.of_ofExcept_eq_ok hx, hsize, hfinite, rfl⟩

/-- A solution that is read has one finite input for each actuator. -/
theorem inputs_of_read_eq_ok (h : p.FromData nv nu) {answer : Except SolverError (Vec α)}
    {solution : TickSolution α} (hread : p.read answer = .ok solution) :
    solution.inputs.size = nu ∧ solution.inputs.allFinite = true := by
  obtain ⟨x, -, hsize, hfinite, rfl⟩ := of_read_eq_ok hread
  have hfit : p.program.layout.inputs.start + p.program.layout.inputs.size ≤ x.size := by
    rw [hsize]
    exact h.spansFit.1 _ (by simp)
  refine ⟨?_, Vec.allFinite_slice hfinite hfit⟩
  obtain ⟨d, a, hshaped, -, hprogram⟩ := h
  have hinputs : p.program.layout.inputs.size = nu := by
    rw [hprogram, ← hshaped.numActuators_eq]
    exact TickData.size_inputs d a.settings
  exact (Vec.size_slice _ _ _).trans hinputs

end Prepared

/-! ### What a solve reads -/

section Congruence

variable {τ : Type} {c' : Controller τ α} {inputs : TickInputs α}

/-- The terms of a tick are a matter of the robot and the objectives. -/
theorem activeTerms_congr (hmodel : c'.model = c.model) (state : RobotState α) (phase : PhaseId)
    (timeInPhase : α) (samples : String → Option (TrajectorySample α))
    (os : List (TrackingObjective α)) :
    c'.activeTerms state phase timeInPhase samples os =
      c.activeTerms state phase timeInPhase samples os := by
  induction os with
  | nil => rfl
  | cons o rest ih => simp [activeTerms, hmodel, ih]

/-- The program of a tick does not depend on the solver nor on what was held or counted before. -/
theorem prepare_congr (hconfig : c'.config = c.config) (hmodel : c'.model = c.model)
    (hassembler : c'.assembler = c.assembler) : c'.prepare inputs = c.prepare inputs := by
  simp only [prepare, activeTerms_congr hmodel, hconfig, hmodel, hassembler]

/-- The result of a solve does not depend on what was held or counted before. -/
theorem result_solve_congr {c' : Controller σ α} (hconfig : c'.config = c.config)
    (hmodel : c'.model = c.model) (hassembler : c'.assembler = c.assembler)
    (hsolver : c'.solver = c.solver) (hstate : c'.solverState = c.solverState) :
    (c'.solve inputs).result = (c.solve inputs).result := by
  simp only [solve, prepare_congr hconfig hmodel hassembler, hconfig, hsolver, hstate]
  cases c.prepare inputs with
  | error e => rfl
  | ok p =>
    dsimp only
    cases p.read (c.solver.solve c.solverState p.program c.config.settings.solver).1 <;> rfl

end Congruence

/-! ### Solving -/

/-- All that a solve can do: there is no program, the answer is refused, or it is read. -/
theorem solve_cases (c : Controller σ α) (inputs : TickInputs α) :
    (∃ e, c.prepare inputs = .error e ∧ c.solve inputs = ⟨c, .error e, []⟩) ∨
    ∃ p, c.prepare inputs = .ok p ∧
      let answer := c.solver.solve c.solverState p.program c.config.settings.solver
      (∃ e, p.read answer.1 = .error e ∧
        c.solve inputs = ⟨{ c with solverState := answer.2 }, .error e, []⟩) ∨
      ∃ solution, p.read answer.1 = .ok solution ∧
        let diagnostics := { c.diagnostics with solves := c.diagnostics.solves + 1, timed := true }
        c.solve inputs = ⟨{ c with solverState := answer.2, diagnostics }, .ok solution,
          [p.event inputs.time]⟩ := by
  cases hp : c.prepare inputs with
  | error e => exact .inl ⟨e, rfl, by simp only [solve, hp]⟩
  | ok p =>
    refine .inr ⟨p, rfl, ?_⟩
    cases hread : p.read (c.solver.solve c.solverState p.program c.config.settings.solver).1 with
    | error e => exact .inl ⟨e, hread, by simp only [solve, hp, hread]⟩
    | ok solution => exact .inr ⟨solution, hread, by simp only [solve, hp, hread]⟩

/-- A solve changes nothing but the state of the solver and the counters. -/
theorem solve_controller (c : Controller σ α) (inputs : TickInputs α) :
    ∃ solverState diagnostics,
      (c.solve inputs).controller = { c with solverState, diagnostics } := by
  obtain ⟨e, -, hsolve⟩ | ⟨p, -, ⟨e, -, hsolve⟩ | ⟨solution, -, hsolve⟩⟩ := c.solve_cases inputs
  · exact ⟨c.solverState, c.diagnostics, by rw [hsolve]⟩
  · exact ⟨_, c.diagnostics, by rw [hsolve]⟩
  · exact ⟨_, _, by rw [hsolve]⟩

/-- A solve reports or succeeds. -/
theorem conforms_solve (hc : c.Configured nv) (hmodel : c.model.Regular nq nv nu)
    (inputs : TickInputs α) : Attempt.Conforms (c.solve inputs).result := by
  obtain ⟨e, hprepare, hsolve⟩ | ⟨p, hprepare, ⟨e, hread, hsolve⟩ | ⟨solution, -, hsolve⟩⟩ :=
    c.solve_cases inputs
  · have hconforms := conforms_prepare hc hmodel inputs
    rw [hprepare] at hconforms
    rw [hsolve]
    exact fun he => hconforms (by cases he; rfl)
  · have hconforms := p.conforms_read (fromData_of_prepare_eq_ok hmodel hprepare)
      (c.solver.solve c.solverState p.program c.config.settings.solver).1
    rw [hread] at hconforms
    rw [hsolve]
    exact hconforms
  · rw [hsolve]
    exact Attempt.conforms_ok _

/-- A solve that succeeds has an answer of the solver and reads it. -/
theorem of_solve_eq_ok {inputs : TickInputs α} {solution : TickSolution α}
    (h : (c.solve inputs).result = .ok solution) :
    ∃ p, c.prepare inputs = .ok p ∧
      p.read (c.solver.solve c.solverState p.program c.config.settings.solver).1 =
        .ok solution := by
  obtain ⟨e, -, hsolve⟩ | ⟨p, hprepare, ⟨e, -, hsolve⟩ | ⟨solution', hread, hsolve⟩⟩ :=
    c.solve_cases inputs
  · rw [hsolve] at h
    cases h
  · rw [hsolve] at h
    cases h
  · rw [hsolve] at h
    cases h
    exact ⟨p, hprepare, hread⟩

/-- A solve succeeds when the answer of the solver is read. -/
theorem result_solve_eq_ok {inputs : TickInputs α} {p : Prepared α} {solution : TickSolution α}
    (hp : c.prepare inputs = .ok p)
    (hread : p.read (c.solver.solve c.solverState p.program c.config.settings.solver).1 =
      .ok solution) : (c.solve inputs).result = .ok solution := by
  simp only [solve, hp, hread]

/-- A solution has one finite input for each actuator. -/
theorem inputs_of_solve_eq_ok (hmodel : c.model.Regular nq nv nu) {inputs : TickInputs α}
    {solution : TickSolution α} (h : (c.solve inputs).result = .ok solution) :
    solution.inputs.size = nu ∧ solution.inputs.allFinite = true := by
  obtain ⟨p, hprepare, hread⟩ := of_solve_eq_ok h
  exact p.inputs_of_read_eq_ok (fromData_of_prepare_eq_ok hmodel hprepare) hread

end Controller

end WholeBody
