import Mathlib
import WholeBody.Proofs.Controller.Objectives
import WholeBody.Proofs.Controller.Run
import WholeBody.Proofs.Program.Terms
import WholeBody.Proofs.Robot.PointMass
import WholeBody.Proofs.Robot.Serving

/-!
# Changing the objectives

The program of a tick depends on the active objectives alone. In exact arithmetic it does not depend
on their order either, nor on those without weight.

## Main statements

* `Controller.problem_filter_idle` — objectives that have nothing to track.
* `Controller.problem_perm_iff` — another order.
* `Controller.problem_filter_weightless` — objectives without weight.
* `objectives_leave_no_trace` — all three, for controllers that are made anew.
-/

namespace WholeBody

variable {σ α : Type}

/-- The configuration with other objectives. -/
def ControllerConfig.withObjectives (config : ControllerConfig α)
    (os : List (TrackingObjective α)) : ControllerConfig α :=
  { config with objectives := os }

/-- The controller with other objectives. -/
def Controller.withObjectives (c : Controller σ α) (os : List (TrackingObjective α)) :
    Controller σ α :=
  { c with config := c.config.withObjectives os }

/-! ### Objectives -/

namespace TrackingObjective

variable [Scalar α] {o : TrackingObjective α} {phase : PhaseId} {timeInPhase : α}

/-- An objective that has nothing to track: it is out of its window, or not bound in the phase. -/
def Idle (o : TrackingObjective α) (phase : PhaseId) (timeInPhase : α) : Prop :=
  ¬ o.InWindow timeInPhase ∨ o.kind.resolve phase = none

theorem activeTarget_eq_none_iff :
    o.activeTarget phase timeInPhase = none ↔ o.Idle phase timeInPhase := by
  by_cases hwindow : o.InWindow timeInPhase <;> simp [activeTarget, Idle, hwindow]

theorem Idle.evaluate_eq (h : o.Idle phase timeInPhase) (model : RobotModel α)
    (state : RobotState α) (sample : Option (TrajectorySample α)) :
    o.evaluate model state phase timeInPhase sample = .ok none := by
  rw [evaluate, activeTarget_eq_none_iff.2 h]

end TrackingObjective

/-- An objective whose weight in a phase is zero. -/
def TrackingObjective.Weightless (o : TrackingObjective ℝ) (phase : PhaseId) : Prop :=
  ∀ i j, (o.effectiveWeight phase).entry i j = 0

/-- An objective has no weight in a phase when it has none at all, or is scaled to zero. -/
theorem TrackingObjective.weightless_iff {o : TrackingObjective ℝ} {phase : PhaseId} :
    o.Weightless phase ↔
      (∀ i j, o.weight.entry i j = 0) ∨ o.phaseScales.get? phase = some 0 := by
  rw [Weightless, effectiveWeight]
  cases o.phaseScales.get? phase with
  | none => simp
  | some scale =>
    simp only [Mat.entry_smul, mul_eq_zero, Option.some.injEq]
    constructor
    · intro h
      by_cases hscale : scale = 0
      · exact .inr hscale
      · exact .inl fun i j => (h i j).resolve_left hscale
    · rintro (h | h) i j
      · exact .inr (h i j)
      · exact .inl h

namespace Controller

variable [Scalar α] {c : Controller σ α} {state : RobotState α} {phase : PhaseId} {timeInPhase : α}
  {samples : String → Option (TrajectorySample α)} {os os' : List (TrackingObjective α)}
  {terms : List (TaskTerm α)}

/-! ### Terms -/

/-- Objectives that have nothing to track have no terms and report nothing. -/
theorem activeTerms_filter {keep : TrackingObjective α → Bool}
    (h : ∀ o ∈ os, keep o = false → o.Idle phase timeInPhase) :
    c.activeTerms state phase timeInPhase samples (os.filter keep) =
      c.activeTerms state phase timeInPhase samples os := by
  induction os with
  | nil => rfl
  | cons o rest ih =>
    obtain ⟨ho, hrest⟩ := List.forall_mem_cons.1 h
    cases hkeep : keep o with
    | true => rw [List.filter_cons_of_pos hkeep, activeTerms, activeTerms, ih hrest]
    | false =>
      rw [List.filter_cons_of_neg (by simp [hkeep]), ih hrest, activeTerms,
        (ho hkeep).evaluate_eq, Except.bind_of_eq_ok rfl]
      exact (bind_pure _).symm

/-- The terms of the same objectives in another order. -/
theorem exists_activeTerms_perm (hos : os'.Perm os)
    (h : c.activeTerms state phase timeInPhase samples os = .ok terms) :
    ∃ terms', c.activeTerms state phase timeInPhase samples os' = .ok terms' ∧
      terms'.Perm terms := by
  obtain ⟨results, hresults, rfl⟩ := activeTerms_eq_ok_iff.1 h
  obtain ⟨results', hresults', hperm⟩ := List.perm_comp_forall₂ hos hresults
  exact ⟨_, activeTerms_eq_ok_iff.2 ⟨results', hresults', rfl⟩, hperm.flatMap_right _⟩

/-- The terms of fewer objectives, when the others have no weight. -/
theorem exists_activeTerms_weightless {c : Controller σ ℝ} {state : RobotState ℝ} {timeInPhase : ℝ}
    {samples : String → Option (TrajectorySample ℝ)} {os : List (TrackingObjective ℝ)}
    {terms : List (TaskTerm ℝ)} {keep : TrackingObjective ℝ → Bool}
    (hos : ∀ o ∈ os, keep o = false → o.Weightless phase)
    (h : c.activeTerms state phase timeInPhase samples os = .ok terms) :
    ∃ terms', c.activeTerms state phase timeInPhase samples (os.filter keep) = .ok terms' ∧
      terms' ⊆ terms ∧ SameShare terms terms' := by
  induction os generalizing terms with
  | nil => exact ⟨terms, h, List.Subset.refl _, .refl _⟩
  | cons o rest ih =>
    obtain ⟨ho, hrest⟩ := List.forall_mem_cons.1 hos
    obtain ⟨term, hterm, h⟩ := Except.of_bind_eq_ok h
    obtain ⟨terms₁, hterms₁, h⟩ := Except.of_bind_eq_ok h
    cases h
    obtain ⟨terms', hterms', hsubset, hshare⟩ := ih hrest hterms₁
    cases hkeep : keep o with
    | true =>
      refine ⟨term.toList ++ terms', ?_, ?_, hshare.append_left _⟩
      · rw [List.filter_cons_of_pos hkeep, activeTerms, hterm, Except.bind_of_eq_ok rfl, hterms']
        rfl
      · exact List.append_subset_of_subset_of_subset (List.subset_append_left _ _)
          (List.subset_append_of_subset_right _ hsubset)
    | false =>
      -- An objective without weight may still have a term, which adds nothing.
      rw [List.filter_cons_of_neg (by simp [hkeep])]
      refine ⟨terms', hterms', List.subset_append_of_subset_right _ hsubset, ?_⟩
      obtain ⟨-, rfl⟩ | ⟨target, s, m, -, rfl⟩ := TrackingObjective.of_evaluate_eq_ok hterm
      · exact hshare
      · exact hshare.cons_of_weightless (ho hkeep)

/-! ### Programs -/

theorem activeTerms_withObjectives (os : List (TrackingObjective α)) :
    (c.withObjectives os).activeTerms state phase timeInPhase samples os' =
      c.activeTerms state phase timeInPhase samples os' :=
  have hmodel : (c.withObjectives os).model = c.model := rfl
  activeTerms_congr hmodel _ _ _ _ _

/-- The program of a tick with other objectives that have the same terms and report the same. -/
theorem problem_withObjectives_of_eq {inputs : TickInputs α}
    (h : ∀ state, ∀ phase ∈ inputs.phase,
      c.activeTerms state phase.id (phase.timeInPhase inputs.time) inputs.samples os =
        c.activeTerms state phase.id (phase.timeInPhase inputs.time) inputs.samples
          c.config.objectives) :
    (c.withObjectives os).problem inputs = c.problem inputs := by
  have hprepare : (c.withObjectives os).prepare inputs = c.prepare inputs := by
    cases hinputs : readInputs inputs with
    | error e => rw [prepare, prepare, Except.bind_of_eq_error (Attempt.ofExcept_eq_error hinputs),
        Except.bind_of_eq_error (Attempt.ofExcept_eq_error hinputs)]
    | ok input =>
      have hterms := h input.1 input.2 (of_readInputs_eq_ok hinputs).2
      rw [← activeTerms_withObjectives os] at hterms
      rw [prepare, prepare, Except.bind_of_eq_ok (Attempt.ofExcept_eq_ok hinputs),
        Except.bind_of_eq_ok (Attempt.ofExcept_eq_ok hinputs)]
      dsimp only
      rw [← hterms]
      rfl
  rw [problem, problem, hprepare]

/-- There is a program of a tick with other objectives when their terms add the same. -/
theorem problem_withObjectives_of_sameShare {inputs : TickInputs α} {p : ConeProgram α}
    (hos : ∀ state, ∀ phase ∈ inputs.phase, ∀ terms,
      c.activeTerms state phase.id (phase.timeInPhase inputs.time) inputs.samples
        c.config.objectives = .ok terms →
      ∃ terms', c.activeTerms state phase.id (phase.timeInPhase inputs.time) inputs.samples os =
        .ok terms' ∧ terms' ⊆ terms ∧ SameShare terms terms')
    (h : c.problem inputs = .ok p) : (c.withObjectives os).problem inputs = .ok p := by
  obtain ⟨state, phase, terms, hinputs, hcheck, hterms, hprogram, hfinite⟩ := problem_eq_ok_iff.1 h
  obtain ⟨terms', hterms', hsubset, hshare⟩ :=
    hos state phase (of_readInputs_eq_ok hinputs).2 terms hterms
  rw [← activeTerms_withObjectives os] at hterms'
  exact problem_eq_ok_iff.2 ⟨state, phase, terms', hinputs, hcheck, hterms',
    hshare.build_eq_ok hsubset hprogram, hfinite⟩

/-- Objectives that have nothing to track leave no trace. -/
theorem problem_filter_idle {inputs : TickInputs α} {keep : TrackingObjective α → Bool}
    (h : ∀ phase ∈ inputs.phase, ∀ o ∈ c.config.objectives, keep o = false →
      o.Idle phase.id (phase.timeInPhase inputs.time)) :
    (c.withObjectives (c.config.objectives.filter keep)).problem inputs = c.problem inputs :=
  problem_withObjectives_of_eq fun _ phase hphase => activeTerms_filter (h phase hphase)

section Exact

variable {c : Controller σ ℝ} {inputs : TickInputs ℝ} {p : ConeProgram ℝ}
  {os : List (TrackingObjective ℝ)} {keep : TrackingObjective ℝ → Bool}

theorem problem_perm (hos : os.Perm c.config.objectives) (h : c.problem inputs = .ok p) :
    (c.withObjectives os).problem inputs = .ok p := by
  refine problem_withObjectives_of_sameShare (fun state phase _ terms hterms => ?_) h
  obtain ⟨terms', hterms', hperm⟩ := exists_activeTerms_perm hos hterms
  exact ⟨terms', hterms', hperm.subset, .of_perm hperm⟩

/-- The order of the objectives is of no importance. -/
theorem problem_perm_iff (hos : os.Perm c.config.objectives) :
    (c.withObjectives os).problem inputs = .ok p ↔ c.problem inputs = .ok p := by
  refine ⟨fun h => ?_, problem_perm hos⟩
  -- The old order is a permutation of the new one.
  have hback : (c.withObjectives os).withObjectives c.config.objectives = c := rfl
  rw [← hback]
  exact problem_perm hos.symm h

/-- Objectives without weight leave no trace in a program. -/
theorem problem_filter_weightless (h : ∀ phase ∈ inputs.phase, ∀ o ∈ c.config.objectives,
      keep o = false → o.Weightless phase.id) (hp : c.problem inputs = .ok p) :
    (c.withObjectives (c.config.objectives.filter keep)).problem inputs = .ok p :=
  problem_withObjectives_of_sameShare
    (fun _ phase hphase _ hterms => exists_activeTerms_weightless (h phase hphase) hterms) hp

end Exact

/-! ### Controllers made anew -/

/-- A controller can be made with fewer objectives, and with its objectives in another order. -/
theorem create_withObjectives {config : ControllerConfig α} {robot : RobotModel α}
    {solver : Solver σ α} {start : σ} (h : create config robot solver start = .ok c)
    (hos : os.Subperm config.objectives) :
    create (config.withObjectives os) robot solver start = .ok (c.withObjectives os) := by
  obtain ⟨hsettings, hactuators, hobjectives, hcontacts, a, ha, rfl⟩ := create_eq_ok_iff.1 h
  obtain ⟨-, hnodup, hvalid⟩ := checkObjectives_eq_ok_iff.1 hobjectives
  have hnames : (os.map (·.name)).Nodup := by
    obtain ⟨os', hperm, hsublist⟩ := hos
    exact (hperm.map _).nodup ((hsublist.map _).nodup hnodup)
  have hcheck : checkObjectives robot [] os = .ok () :=
    checkObjectives_eq_ok_iff.2 ⟨fun _ _ => List.not_mem_nil, hnames,
      fun o ho => hvalid o (hos.subset ho)⟩
  exact create_eq_ok_iff.2 ⟨hsettings, hactuators, hcheck, hcontacts, a, ha, rfl⟩

/-- What was called before is of no importance to the program of a tick. -/
theorem result_problem_after (c : Controller σ α) (turns : List (Turn α)) (now : RobotModel α)
    (inputs : TickInputs α) : ((c.after turns).turn ⟨now, .problem inputs⟩).result =
      .program (({ c with model := now }).problem inputs) := by
  obtain ⟨hconfig, hassembler, -⟩ := c.madeAlike_after turns
  have hprepare : ({ c.after turns with model := now }).prepare inputs =
      ({ c with model := now }).prepare inputs := prepare_congr hconfig rfl hassembler
  simp only [turn, problem, hprepare]

end Controller

/-- Objectives that have nothing to track leave no trace in the program of a tick, nor in what is
reported instead of one. In exact arithmetic the order of the objectives is of no importance to
whether there is a program and to the program itself, and objectives without weight leave no trace
in it. -/
theorem objectives_leave_no_trace {σ : Type} :
    (∀ {α : Type} [Scalar α] {config : ControllerConfig α} {robot : RobotModel α}
      {solver : Solver σ α} {start : σ} {c : Controller σ α},
      Controller.create config robot solver start = .ok c →
      ∀ (inputs : TickInputs α) (keep : TrackingObjective α → Bool),
        (∀ phase ∈ inputs.phase, ∀ o ∈ config.objectives, keep o = false →
          o.Idle phase.id (phase.timeInPhase inputs.time)) →
        ∃ c', Controller.create (config.withObjectives (config.objectives.filter keep)) robot
            solver start = .ok c' ∧
          ∀ turns turns' now, ((c'.after turns').turn ⟨now, .problem inputs⟩).result =
            ((c.after turns).turn ⟨now, .problem inputs⟩).result) ∧
    ∀ {config : ControllerConfig ℝ} {robot : RobotModel ℝ} {solver : Solver σ ℝ} {start : σ}
      {c : Controller σ ℝ}, Controller.create config robot solver start = .ok c →
      (∀ os, os.Perm config.objectives →
        ∃ c', Controller.create (config.withObjectives os) robot solver start = .ok c' ∧
          ∀ turns turns' now inputs p,
            ((c'.after turns').turn ⟨now, .problem inputs⟩).result = .program (.ok p) ↔
              ((c.after turns).turn ⟨now, .problem inputs⟩).result = .program (.ok p)) ∧
      ∀ (inputs : TickInputs ℝ) (keep : TrackingObjective ℝ → Bool),
        (∀ phase ∈ inputs.phase, ∀ o ∈ config.objectives, keep o = false →
          o.Weightless phase.id) →
        ∃ c', Controller.create (config.withObjectives (config.objectives.filter keep)) robot
            solver start = .ok c' ∧
          ∀ turns turns' now p,
            ((c.after turns).turn ⟨now, .problem inputs⟩).result = .program (.ok p) →
              ((c'.after turns').turn ⟨now, .problem inputs⟩).result = .program (.ok p) := by
  refine ⟨?idle, ?exact⟩
  case idle =>
    intro α _ config robot solver start c hcreate inputs keep hidle
    obtain rfl := Controller.config_of_create_eq_ok hcreate
    refine ⟨_, Controller.create_withObjectives hcreate List.filter_sublist.subperm,
      fun turns turns' now => ?_⟩
    rw [Controller.result_problem_after, Controller.result_problem_after]
    exact congrArg Reply.program
      (Controller.problem_filter_idle (c := { c with model := now }) hidle)
  case exact =>
    intro config robot solver start c hcreate
    obtain rfl := Controller.config_of_create_eq_ok hcreate
    refine ⟨fun os hos => ?_, fun inputs keep hweight => ?_⟩
    · refine ⟨_, Controller.create_withObjectives hcreate hos.subperm,
        fun turns turns' now inputs p => ?_⟩
      rw [Controller.result_problem_after, Controller.result_problem_after, Reply.program.injEq,
        Reply.program.injEq]
      exact Controller.problem_perm_iff (c := { c with model := now }) hos
    · refine ⟨_, Controller.create_withObjectives hcreate List.filter_sublist.subperm,
        fun turns turns' now p hp => ?_⟩
      rw [Controller.result_problem_after] at hp ⊢
      exact congrArg Reply.program (Controller.problem_filter_weightless
        (c := { c with model := now }) hweight (Reply.program.inj hp))

/-- A point mass with an objective that counts, one that is scaled to zero, and one that is bound in
another phase. -/
theorem objectives_leave_no_trace_pointMass :
    let r : PointMass ℝ := ⟨"mass", 1, 10⟩
    let balance : TrackingObjective ℝ :=
      ⟨"balance", .centerOfMass (.always ()), .uniform 3 1 1, .identity 3, .empty, none,
        .trajectory⟩
    let scaled : TrackingObjective ℝ :=
      { balance with name := "scaled", phaseScales := SortedMap.empty.insert .doubleStance 0 }
    let later : TrackingObjective ℝ :=
      { balance with
        name := "later", kind := .centerOfMass (.perPhase (SortedMap.empty.insert .leftStance ())) }
    let config (os : List (TrackingObjective ℝ)) : ControllerConfig ℝ := ⟨.standard, os, .empty⟩
    let solver : Solver Unit ℝ := ⟨true, fun _ _ _ => (.error .nonFinite, ())⟩
    let still : Vec ℝ := .zeros 3
    let inputs : TickInputs ℝ :=
      ⟨0, some ⟨still, still⟩, some ⟨.doubleStance, 0⟩, fun _ => some ⟨still, still, still⟩⟩
    let Poses (os : List (TrackingObjective ℝ)) (p : ConeProgram ℝ) : Prop :=
      ∃ c, Controller.create (config os) r.model solver () = .ok c ∧
        (c.turn ⟨r.model, .problem inputs⟩).result = .program (.ok p)
    ∃ p, Poses [balance, scaled, later] p ∧ Poses [balance, scaled] p ∧
      Poses [later, scaled, balance] p ∧ Poses [balance, later] p := by
  intro r balance scaled later config solver still inputs Poses
  let os := [balance, scaled, later]
  let c : Controller Unit ℝ :=
    ⟨config os, r.model, solver, (), ⟨.standard, []⟩, none, none, .initial⟩
  have hcreate : Controller.create (config os) r.model solver () = .ok c :=
    Controller.create_eq_ok_iff.2 ⟨Settings.valid_standard, rfl, rfl, rfl, _, rfl, rfl⟩
  obtain ⟨p, hp⟩ : ∃ p, c.problem inputs = .ok p := by
    obtain ⟨terms, hterms⟩ : ∃ terms, c.activeTerms ⟨still, still⟩ .doubleStance ((0 : ℝ) - 0)
      inputs.samples os = .ok terms := ⟨_, rfl⟩
    have hshaped : ∀ o ∈ os, o.WellShaped := by
      simp only [os, List.forall_mem_cons]
      refine ⟨?_, ?_, ?_, List.forall_mem_nil _⟩ <;>
        exact ⟨⟨rfl, rfl⟩, ⟨rfl, rfl⟩, ⟨rfl, rfl⟩⟩
    have hfits := Controller.fits_of_activeTerms_eq_ok hshaped r.serves.toRegular hterms
    have hfinite (p : ConeProgram ℝ) : p.allFinite = true := by
      simp [ConeProgram.allFinite, Mat.allFinite, Vec.allFinite]
    exact ⟨_, Controller.problem_eq_ok_iff.2 ⟨_, _, terms, rfl, rfl, hterms,
      PointMass.build_eq_ok ⟨rfl, rfl⟩ (List.forall_mem_nil _) hfits (List.forall_mem_nil _),
      hfinite _⟩⟩
  have hresult : ((c.after []).turn ⟨r.model, .problem inputs⟩).result = .program (.ok p) :=
    congrArg Reply.program hp
  obtain ⟨hidle, hexact⟩ := @objectives_leave_no_trace Unit
  refine ⟨p, ⟨c, hcreate, hresult⟩, ?_, ?_, ?_⟩
  · have hlater : ∀ phase ∈ inputs.phase, ∀ o ∈ os, (o.name != "later") = false →
        o.Idle phase.id (phase.timeInPhase inputs.time) := by
      rintro _ ⟨⟩ o ho hname
      simp only [os, List.mem_cons, List.not_mem_nil, or_false] at ho
      obtain rfl | rfl | rfl := ho
      · exact absurd hname (by decide)
      · exact absurd hname (by decide)
      · exact .inr rfl
    obtain ⟨c', hcreate', hsame⟩ := hidle hcreate inputs _ hlater
    exact ⟨c', hcreate', (hsame [] [] r.model).trans hresult⟩
  · obtain ⟨c', hcreate', hsame⟩ := (hexact hcreate).1 [later, scaled, balance] os.reverse_perm
    exact ⟨c', hcreate', (hsame [] [] r.model inputs p).2 hresult⟩
  · have hscaled : ∀ phase ∈ inputs.phase, ∀ o ∈ os, (o.name != "scaled") = false →
        o.Weightless phase.id := by
      rintro _ ⟨⟩ o ho hname
      simp only [os, List.mem_cons, List.not_mem_nil, or_false] at ho
      obtain rfl | rfl | rfl := ho
      · exact absurd hname (by decide)
      · exact TrackingObjective.weightless_iff.2 (.inr rfl)
      · exact absurd hname (by decide)
    obtain ⟨c', hcreate', hsame⟩ := (hexact hcreate).2 inputs _ hscaled
    exact ⟨c', hcreate', hsame [] [] r.model p hresult⟩

end WholeBody
