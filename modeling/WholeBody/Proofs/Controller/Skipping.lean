import Mathlib
import WholeBody.Proofs.Controller.Startup
import WholeBody.Proofs.Tracking.Samples

/-!
# Skipped ticks

For a robot that always answers, a tick is skipped exactly when its inputs are incomplete or not
finite, or when an active objective that follows a trajectory has no sample that it accepts. No
other sample makes a difference to a tick.

## Main statements

* `TickInputs.Unusable`, `TickInputs.AlikeFor` — inputs that are refused, and inputs that a tick
  cannot tell apart.
* `Controller.activeTerms_cases` — the terms of one tick.
* `Controller.exists_prepare_eq_input_iff`, `Controller.tick_skips_iff` — the program of one tick
  and the tick itself.
* `skipped_iff` — the ticks of every run.
-/

namespace WholeBody

variable {σ α : Type} [Scalar α]

/-! ### Inputs -/

/-- State or phase are missing, or a time or an entry of the state is not finite. -/
def TickInputs.Unusable (inputs : TickInputs α) : Prop :=
  inputs.state = none ∨ inputs.phase = none ∨ Scalar.isFinite inputs.time = false ∨
    (∃ phase ∈ inputs.phase, Scalar.isFinite phase.transitionTime = false) ∨
    ∃ state ∈ inputs.state, state.allFinite = false

/-- Inputs that are the same for some objectives: they differ at most in samples that none of the
objectives asks for. -/
structure TickInputs.AlikeFor (objectives : List (TrackingObjective α))
    (inputs inputs' : TickInputs α) : Prop where
  time : inputs'.time = inputs.time
  state : inputs'.state = inputs.state
  phase : inputs'.phase = inputs.phase
  samples : ∀ phase ∈ inputs.phase, ∀ o ∈ objectives,
    o.Consults phase.id (phase.timeInPhase inputs.time) →
      inputs'.samples o.name = inputs.samples o.name

namespace Controller

variable {c : Controller σ α} {inputs inputs' : TickInputs α} {nq nv nu : Nat}
  {loops : Option (LoopConstraints α)}

/-- The inputs are refused before anything is computed, or state and phase are taken as they
are. -/
theorem readInputs_cases (inputs : TickInputs α) :
    (inputs.Unusable ∧ ∃ e, readInputs inputs = .error e) ∨
      ¬ inputs.Unusable ∧ ∃ state phase, inputs.state = some state ∧ inputs.phase = some phase ∧
        readInputs inputs = .ok (state, phase) := by
  rw [readInputs, TickInputs.Unusable]
  cases hstate : inputs.state with
  | none => exact .inl ⟨.inl rfl, _, rfl⟩
  | some state =>
    cases hphase : inputs.phase with
    | none => exact .inl ⟨.inr (.inl rfl), _, rfl⟩
    | some phase =>
      by_cases htime : Scalar.isFinite inputs.time = false ∨
          Scalar.isFinite phase.transitionTime = false
      · refine .inl ⟨by simpa using htime.elim .inl fun h => .inr (.inl h), .nonFinite .time, ?_⟩
        simp only [htime, if_true]
        rfl
      · by_cases hfinite : state.allFinite = false
        · refine .inl ⟨by simp [hfinite], .nonFinite .state, ?_⟩
          simp only [htime, hfinite, if_true, if_false]
          rfl
        · refine .inr ⟨by simp_all, state, phase, rfl, rfl, ?_⟩
          simp only [htime, hfinite, if_false]
          rfl

section Terms

variable {state : RobotState α} {phase : PhaseId} {timeInPhase : α}
  {samples samples' : String → Option (TrajectorySample α)} {os : List (TrackingObjective α)}

/-- Only the samples that are asked for make a difference to the terms. -/
theorem activeTerms_congr_samples (c : Controller σ α) (state : RobotState α)
    (h : ∀ o ∈ os, o.Consults phase timeInPhase → samples' o.name = samples o.name) :
    c.activeTerms state phase timeInPhase samples' os =
      c.activeTerms state phase timeInPhase samples os := by
  induction os with
  | nil => rfl
  | cons o rest ih =>
    obtain ⟨ho, hrest⟩ := List.forall_mem_cons.1 h
    rw [activeTerms, activeTerms, TrackingObjective.evaluate_congr ho, ih hrest]

variable [Spectrum α] (hmodel : c.model.Serves nq nv nu loops)
  (hstate : checkDimensions nq nv state = .ok ()) (hmade : ∀ o ∈ os, o.Made)
  (hknown : ∀ o ∈ os, ∀ t ∈ o.kind.targets, t.Known c.model)

include hmodel hstate hmade hknown

/-- The terms of a tick are there when no objective lacks its sample. Otherwise the first one that
does blames the inputs, since the objectives before it have their terms. -/
theorem activeTerms_cases :
    ((∃ o ∈ os, o.Lacks phase timeInPhase (samples o.name)) ∧
      ∃ e, c.activeTerms state phase timeInPhase samples os = .error (.error (.input e))) ∨
    (∀ o ∈ os, ¬ o.Lacks phase timeInPhase (samples o.name)) ∧
      ∃ terms, c.activeTerms state phase timeInPhase samples os = .ok terms := by
  induction os with
  | nil => exact .inr ⟨by simp, [], rfl⟩
  | cons o rest ih =>
    obtain ⟨ho, hrest⟩ := List.forall_mem_cons.1 hmade
    obtain ⟨hto, htrest⟩ := List.forall_mem_cons.1 hknown
    rw [activeTerms]
    by_cases hlacks : o.Lacks phase timeInPhase (samples o.name)
    · obtain ⟨e, he⟩ : ∃ e, o.evaluate c.model state phase timeInPhase (samples o.name) =
        .error (.error (.input e)) := hlacks.exists_evaluate_eq_input
      rw [he]
      exact .inl ⟨⟨o, by simp, hlacks⟩, e, rfl⟩
    · obtain ⟨term, hterm⟩ :=
        TrackingObjective.exists_evaluate_eq_ok ho hto hmodel hstate hlacks
      rw [hterm]
      obtain ⟨⟨o', ho', hlacks'⟩, e, he⟩ | ⟨hnone, terms, hterms⟩ := ih hrest htrest
      · refine .inl ⟨⟨o', by simp [ho'], hlacks'⟩, e, ?_⟩
        rw [he]
        rfl
      · refine .inr ⟨List.forall_mem_cons.2 ⟨hlacks, hnone⟩, term.toList ++ terms, ?_⟩
        rw [hterms]
        rfl

end Terms

/-! ### The program of a tick -/

/-- The program of a tick is the same for inputs that are the same for its objectives. -/
theorem prepare_congr_inputs (h : inputs.AlikeFor c.config.objectives inputs') :
    c.prepare inputs' = c.prepare inputs := by
  have hread : readInputs inputs' = readInputs inputs := by
    simp only [readInputs, h.time, h.state, h.phase]
  obtain ⟨-, e, he⟩ | ⟨-, state, phase, -, hphase, hinputs⟩ := readInputs_cases inputs
  · rw [prepare, prepare, hread, Except.bind_of_eq_error (Attempt.ofExcept_eq_error he),
      Except.bind_of_eq_error (Attempt.ofExcept_eq_error he)]
  · have hterms := c.activeTerms_congr_samples state (h.samples phase hphase)
    rw [prepare, prepare, hread, Except.bind_of_eq_ok (Attempt.ofExcept_eq_ok hinputs),
      Except.bind_of_eq_ok (Attempt.ofExcept_eq_ok hinputs)]
    simp only [h.time, hterms]

/-- What makes a tick skip: its inputs are refused, or, in a state of the right dimensions, an
objective lacks its sample. -/
def Skips (c : Controller σ α) (inputs : TickInputs α) : Prop :=
  inputs.Unusable ∨ ∃ state ∈ inputs.state, ∃ phase ∈ inputs.phase,
    state.q.size = c.model.numPositions ∧ state.v.size = c.model.numVelocities ∧
    ∃ o ∈ c.config.objectives,
      o.Lacks phase.id (phase.timeInPhase inputs.time) (inputs.samples o.name)

variable [Spectrum α]

/-- There is no program because of the inputs exactly when the tick has to be skipped. -/
theorem exists_prepare_eq_input_iff (hc : c.FitFor c.model)
    (hmade : ∀ o ∈ c.config.objectives, o.Made) (hmodel : c.model.Serves nq nv nu loops) :
    (∃ e, c.prepare inputs = .error (.error (.input e))) ↔ c.Skips inputs := by
  obtain ⟨hunusable, e, he⟩ | ⟨husable, state, phase, hstate, hphase, hinputs⟩ :=
    readInputs_cases inputs
  · refine iff_of_true ⟨e, ?_⟩ (.inl hunusable)
    rw [prepare, Except.bind_of_eq_error (Attempt.ofExcept_eq_error he)]
  have hskips : c.Skips inputs ↔ checkDimensions nq nv state = .ok () ∧
      ∃ o ∈ c.config.objectives,
        o.Lacks phase.id (phase.timeInPhase inputs.time) (inputs.samples o.name) := by
    simp [Skips, husable, hstate, hphase, checkDimensions, hmodel.numPositions,
      hmodel.numVelocities, and_assoc]
  rw [hskips, prepare, Except.bind_of_eq_ok (Attempt.ofExcept_eq_ok hinputs)]
  dsimp only
  rw [hmodel.checkState]
  cases hcheck : checkDimensions nq nv state with
  | error e =>
    refine iff_of_false ?_ (by simp)
    rintro ⟨e', he'⟩
    cases he'
  | ok u =>
    rw [Except.bind_of_eq_ok (Attempt.ofExcept_eq_ok rfl)]
    obtain ⟨hlacks, e, he⟩ | ⟨hnone, terms, hterms⟩ :=
      activeTerms_cases hmodel hcheck hmade hc.targets
    · refine iff_of_true ⟨e, ?_⟩ ⟨rfl, hlacks⟩
      rw [Except.bind_of_eq_error he]
    · refine iff_of_false ?_ (by simpa using hnone)
      rw [Except.bind_of_eq_ok hterms]
      rintro ⟨e, he⟩
      -- From here on only the model is to blame.
      obtain he | ⟨program, -, he⟩ := Except.of_bind_eq_error he
      · obtain ⟨_, -, he⟩ := Attempt.of_mapError_eq_error he
        cases he
      · by_cases hfinite : program.allFinite = false
        · rw [if_pos hfinite] at he
          cases he
        · rw [if_neg hfinite] at he
          cases he

/-! ### Ticks -/

omit [Spectrum α] in
/-- A tick cannot tell inputs apart that are the same for all objectives. -/
theorem tick_congr_inputs (h : inputs.AlikeFor c.config.objectives inputs') :
    c.tick inputs' = c.tick inputs := by
  let start := { c with
    diagnostics := { c.diagnostics with ticks := c.diagnostics.ticks + 1 }, lastSolution := none }
  have hprepare : start.prepare inputs' = start.prepare inputs := prepare_congr_inputs h
  have hsolve : start.solve inputs' = start.solve inputs := by
    simp only [solve, hprepare, h.time]
  simp only [tick, start, hsolve, h.time]

/-- A tick emits a command, and it skips exactly when it has to. -/
theorem tick_skips_iff (hc : c.FitFor c.model) (hmade : ∀ o ∈ c.config.objectives, o.Made)
    (hconfigured : c.Configured nv) (hmodel : c.model.Serves nq nv nu loops)
    (inputs : TickInputs α) : ∃ command, (c.tick inputs).result = some command ∧
      (command.status = .skipped ↔ c.Skips inputs) := by
  let start := { c with
    diagnostics := { c.diagnostics with ticks := c.diagnostics.ticks + 1 }, lastSolution := none }
  have hstart : start.Configured nv := hconfigured.of_eq rfl rfl
  have hconforms := conforms_solve hstart hmodel.toRegular inputs
  have hskips : (∃ e, (start.solve inputs).result = .error (.error (.input e))) ↔
      c.Skips inputs := by
    have hprepare : start.prepare inputs = c.prepare inputs := prepare_congr rfl rfl rfl
    rw [← exists_prepare_eq_input_iff hc hmade hmodel, ← hprepare]
    exact exists_congr fun e => result_solve_eq_error_iff nofun
  rw [← hskips]
  obtain ⟨solution, hresult, htick⟩ | ⟨e, hresult, htick⟩ | ⟨e, hresult, he, htick⟩ |
    ⟨hresult, -⟩ := c.tick_cases inputs
  · rw [htick]
    refine ⟨_, rfl, iff_of_false nofun ?_⟩
    rw [hresult]
    exact nofun
  · rw [htick]
    exact ⟨_, rfl, iff_of_true rfl ⟨e, hresult⟩⟩
  · rw [htick]
    refine ⟨_, rfl, iff_of_false nofun ?_⟩
    rw [hresult]
    rintro ⟨e', he'⟩
    cases he'
    exact he e' rfl
  · exact absurd hresult hconforms

end Controller

/-- A tick for a point mass or a floating body is skipped exactly when state or phase are missing,
a time or the state is not finite, or, in a state of the right dimensions, an active objective that
follows a trajectory has no sample that it accepts. Inputs that differ only in samples that no
objective asks for have the same outcome. -/
theorem skipped_iff [Spectrum α] {config : ControllerConfig α} {robot : RobotModel α}
    {solver : Solver σ α} {start : σ} {c : Controller σ α}
    (hcreate : Controller.create config robot solver start = .ok c)
    (hrobot : (∃ r : PointMass α, robot = r.model) ∨ ∃ r : FloatingBody α, robot = r.model)
    (hobjectives : ∀ o ∈ config.objectives, o.Made) (turns : List (Turn α))
    (inputs : TickInputs α) :
    (∃ command, ((c.after turns).turn ⟨robot, .tick inputs⟩).result = .command (some command) ∧
      (command.status = .skipped ↔ inputs.Unusable ∨
        ∃ state ∈ inputs.state, ∃ phase ∈ inputs.phase,
          state.q.size = robot.numPositions ∧ state.v.size = robot.numVelocities ∧
          ∃ o ∈ config.objectives,
            o.Lacks phase.id (phase.timeInPhase inputs.time) (inputs.samples o.name))) ∧
    ∀ inputs', inputs.AlikeFor config.objectives inputs' →
      (c.after turns).turn ⟨robot, .tick inputs'⟩ =
        (c.after turns).turn ⟨robot, .tick inputs⟩ := by
  obtain ⟨nu, loops, hserves⟩ :
      ∃ nu loops, robot.Serves robot.numPositions robot.numVelocities nu loops := by
    obtain ⟨r, rfl⟩ | ⟨r, rfl⟩ := hrobot
    · exact ⟨_, _, r.serves⟩
    · exact ⟨_, _, r.serves⟩
  have hready := Controller.ready_of_create_eq_ok hcreate hobjectives hserves.toRegular
  have halike := c.madeAlike_after turns
  have hconfig : (c.after turns).config = config := by
    obtain ⟨-, -, a, -, rfl⟩ := Controller.of_create_eq_ok hcreate
    exact halike.config
  have hfit := (Controller.fitFor_of_create_eq_ok hcreate).after turns (fun _ => id) rfl rfl rfl
  let c' := { c.after turns with model := robot }
  have hconfigured : c'.Configured robot.numVelocities :=
    hready.configured.of_eq halike.config halike.assembler
  have hmade : ∀ o ∈ c'.config.objectives, o.Made := hconfig ▸ hobjectives
  refine ⟨?_, fun inputs' h => ?_⟩
  · obtain ⟨command, hresult, hstatus⟩ :=
      Controller.tick_skips_iff hfit hmade hconfigured hserves inputs
    refine ⟨command, congrArg Reply.command hresult, ?_⟩
    rw [hstatus, Controller.Skips, hconfig]
  · have htick : c'.tick inputs' = c'.tick inputs :=
      Controller.tick_congr_inputs (hconfig ▸ h)
    simp only [Controller.turn, c', htick]

/-- A point mass that is to follow a trajectory without a sample. A sample under another name is of
no use to it. -/
theorem skipped_iff_pointMass :
    let r : PointMass Float := ⟨"mass", 1, 10⟩
    let foot : ContactPoint Float := ⟨"foot", ⟨"mass", 0⟩, .unitZ, none, none⟩
    let balance : TrackingObjective Float :=
      ⟨"balance", .centerOfMass (.always ()), .uniform 3 1 1, .identity 3, .empty, none,
        .trajectory⟩
    let config : ControllerConfig Float :=
      ⟨.standard, [balance], ContactSet.empty.insert .doubleStance foot⟩
    let solver : Solver Unit Float := ⟨true, fun _ _ _ => (.error .nonFinite, ())⟩
    let still : Vec Float := .zeros 3
    let inputs : TickInputs Float :=
      ⟨0, some ⟨still, still⟩, some ⟨.doubleStance, 0⟩, fun _ => none⟩
    let inputs' : TickInputs Float := { inputs with
      samples := fun name => if name = "swing" then some ⟨still, still, still⟩ else none }
    ∃ c, Controller.create config r.model solver () = .ok c ∧
      (∃ command, ((c.after []).turn ⟨r.model, .tick inputs⟩).result = .command (some command) ∧
        command.status = .skipped) ∧
      (c.after []).turn ⟨r.model, .tick inputs'⟩ = (c.after []).turn ⟨r.model, .tick inputs⟩ := by
  intro r foot balance config solver still inputs inputs'
  have hmade : balance.Made := by
    obtain ⟨o, ho⟩ : ∃ o, TrackingObjective.create "balance" (.centerOfMass (.always ()))
        (.uniform 3 1 1) (.identity 3) = .ok (o : TrackingObjective Float) :=
      Except.exists_of_isOk (by decide +kernel)
    have heq : o = balance := TrackingObjective.eq_of_create_eq_ok ho
    exact heq ▸ .create ho
  obtain ⟨c, hc⟩ : ∃ c, Controller.create config r.model solver () = .ok c :=
    Except.exists_of_isOk (by decide +kernel)
  obtain ⟨⟨command, hresult, hstatus⟩, hcongr⟩ :=
    skipped_iff hc (.inl ⟨r, rfl⟩) (List.forall_mem_singleton.2 hmade) [] inputs
  refine ⟨c, hc, ⟨command, hresult, hstatus.2 (.inr ?_)⟩, hcongr inputs' ⟨rfl, rfl, rfl, ?_⟩⟩
  · have hlacks : balance.Lacks .doubleStance ((0 : Float) - 0) none :=
      ⟨⟨rfl, trivial, _, rfl⟩, nofun⟩
    exact ⟨_, rfl, _, rfl, rfl, rfl, balance, List.mem_singleton_self _, hlacks⟩
  · rintro phase - o ho -
    rw [List.mem_singleton.1 ho]
    rfl

end WholeBody
