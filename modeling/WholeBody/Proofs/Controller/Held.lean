import Mathlib
import WholeBody.Proofs.Controller.Run

/-!
# Held commands

What a tick emits is a matter of how the ticks before it have ended, and of nothing else. A policy
that holds repeats the inputs of the latest solution; one that falls back to zero repeats those of
the latest tick that was not skipped, if it was solved. Calls between the ticks leave no trace.

## Main statements

* `Controller.tick_emits` — one tick, in terms of the command before it.
* `Controller.Holds.turn` — one call keeps the last command in step with the history.
* `torques_eq_held` — every tick of a run.
-/

namespace WholeBody

/-- How a tick has ended: the status of its command, and the solution that the controller keeps. -/
structure TickReport (α : Type) where
  status : CommandStatus
  solution : Option (TickSolution α)

/-- The inputs of a solved tick. -/
def TickReport.inputs? {α : Type} (r : TickReport α) : Option (Vec α) :=
  if r.status = .solved then r.solution.map (·.inputs) else none

/-- The report of a call that has emitted a command. -/
def Outcome.report? {σ α : Type} (o : Outcome σ α (Reply α)) : Option (TickReport α) :=
  match o.result with
  | .command (some command) => some ⟨command.status, o.controller.lastSolution⟩
  | _ => none

variable {σ α : Type} [Scalar α]

/-- The torques that a policy holds after ticks that have ended in the given way: the inputs of the
latest solution, or those of the latest tick that was not skipped. -/
def FallbackPolicy.held (policy : FallbackPolicy) (nu : Nat) (history : List (TickReport α)) :
    Vec α :=
  match policy with
  | holdPrevious => (history.filterMap (·.inputs?)).getLast?.getD (.zeros nu)
  | zero => ((history.filter (·.status ≠ .skipped)).getLast?.bind (·.inputs?)).getD (.zeros nu)

namespace FallbackPolicy

variable {nu : Nat} {history : List (TickReport α)} {r : TickReport α}

theorem held_nil (policy : FallbackPolicy) : policy.held nu ([] : List (TickReport α)) =
    .zeros nu := by
  cases policy <;> rfl

/-- A solved tick is what is held from then on. -/
theorem held_append_of_inputs (policy : FallbackPolicy) {inputs : Vec α}
    (h : r.inputs? = some inputs) : policy.held nu (history ++ [r]) = inputs := by
  have hstatus : r.status ≠ .skipped := by
    intro hs
    simp [TickReport.inputs?, hs] at h
  cases policy <;> simp [held, h, hstatus]

/-- A skipped tick changes nothing. -/
theorem held_append_of_skipped (policy : FallbackPolicy) (h : r.status = .skipped) :
    policy.held nu (history ++ [r]) = policy.held nu history := by
  cases policy <;> simp [held, TickReport.inputs?, h]

/-- A tick that falls back is where the policies differ. -/
theorem held_append_of_fallback (policy : FallbackPolicy) (h : r.status = .fallback) :
    policy.held nu (history ++ [r]) =
      match policy with
      | holdPrevious => holdPrevious.held nu history
      | zero => .zeros nu := by
  cases policy <;> simp [held, TickReport.inputs?, h]

end FallbackPolicy

namespace Controller

/-! ### One tick -/

/-- What a tick can emit, with the report of how it has ended: the inputs of its solution, the
command before it, or what the policy asks for. -/
inductive Emits (c : Controller σ α) : TickReport α → Vec α → Prop
  | solved (solution : TickSolution α) : c.Emits ⟨.solved, some solution⟩ solution.inputs
  | skipped : c.Emits ⟨.skipped, none⟩ c.previousOrZero
  | fallback : c.Emits ⟨.fallback, none⟩ c.fallbackTorques

/-- A tick emits a command for the time of its inputs and remembers it, unless the sizes of its data
do not fit together. It keeps the solution of its solve. -/
theorem tick_emits (c : Controller σ α) (inputs : TickInputs α) :
    let o := c.tick inputs
    let result := (c.solve inputs).result
    (∃ command, o.result = some command ∧ command.time = inputs.time ∧
      o.controller.lastCommand = some command.torques ∧
      o.controller.lastSolution = result.toOption ∧
      c.Emits ⟨command.status, o.controller.lastSolution⟩ command.torques) ∨
    o.result = none ∧ result = .error .nonconforming ∧
      o.controller.lastCommand = c.lastCommand := by
  intro o result
  let diagnostics := { c.diagnostics with ticks := c.diagnostics.ticks + 1 }
  let start := { c with diagnostics, lastSolution := none }
  have hresult : result = (start.solve inputs).result :=
    result_solve_congr rfl rfl rfl rfl rfl
  -- The solve leaves the last command alone, and the last solution is cleared before it.
  obtain ⟨solverState, counters, hcontroller⟩ := start.solve_controller inputs
  have hcases := c.tick_cases inputs
  dsimp only [start, diagnostics] at hresult hcontroller hcases
  generalize ({ c with diagnostics, lastSolution := none } : Controller σ α).solve inputs = s
    at hresult hcontroller hcases
  obtain ⟨after, result', log⟩ := s
  subst hcontroller
  obtain ⟨solution, rfl, htick⟩ | ⟨e, rfl, htick⟩ | ⟨e, rfl, -, htick⟩ | ⟨rfl, htick⟩ := hcases
  · left
    simp only [o, hresult, htick]
    exact ⟨_, rfl, rfl, rfl, rfl, .solved solution⟩
  · left
    simp only [o, hresult, htick]
    exact ⟨_, rfl, rfl, rfl, rfl, .skipped⟩
  · left
    simp only [o, hresult, htick]
    exact ⟨_, rfl, rfl, rfl, rfl, .fallback⟩
  · right
    simp only [o, hresult, htick]
    exact ⟨trivial, trivial, trivial⟩

/-! ### The history of a run -/

/-- The reports of the ticks of a run. -/
def history (c : Controller σ α) (turns : List (Turn α)) : List (TickReport α) :=
  (c.run turns).filterMap (·.report?)

theorem history_append (c : Controller σ α) (ts us : List (Turn α)) :
    c.history (ts ++ us) = c.history ts ++ (c.after ts).history us := by
  simp [history, run_append]

/-- The last command is the one that the policy holds after the ticks so far. -/
def Holds (c : Controller σ α) (nu : Nat) (history : List (TickReport α)) : Prop :=
  c.lastCommand.getD (.zeros nu) = c.config.settings.fallback.held nu history

variable {c : Controller σ α} {nu : Nat} {history : List (TickReport α)}

theorem Emits.solved_iff {status : CommandStatus} {result : Attempt TickError (TickSolution α)}
    {torques : Vec α} (h : c.Emits ⟨status, result.toOption⟩ torques) :
    status = .solved ↔ ∃ solution, result = .ok solution := by
  cases result <;> cases h <;> simp

theorem Emits.eq_held {r : TickReport α} {torques : Vec α} (h : c.Emits r torques)
    (hc : c.Holds nu history) (hnu : c.model.numActuators = nu) :
    torques = c.config.settings.fallback.held nu (history ++ [r]) := by
  have hprevious : c.previousOrZero = c.config.settings.fallback.held nu history := by
    rw [← hc, previousOrZero, zeroCommand, hnu]
  cases h with
  | solved solution => exact (FallbackPolicy.held_append_of_inputs _ rfl).symm
  | skipped => rw [FallbackPolicy.held_append_of_skipped _ rfl, hprevious]
  | fallback =>
    rw [FallbackPolicy.held_append_of_fallback _ rfl, fallbackTorques]
    cases hpolicy : c.config.settings.fallback with
    | holdPrevious => simpa [hpolicy] using hprevious
    | zero => simp [zeroCommand, hnu]

/-- A call that is no tick leaves the last command as it is, and no report. -/
theorem turn_of_not_tick (c : Controller σ α) {t : Turn α}
    (ht : ∀ inputs, t.call ≠ .tick inputs) :
    (c.turn t).controller.lastCommand = c.lastCommand ∧ (c.turn t).report? = none := by
  rw [turn]
  cases hcall : t.call with
  | tick inputs => exact absurd hcall (ht inputs)
  | solve inputs =>
    obtain ⟨solverState, diagnostics, hcontroller⟩ :=
      ({ c with model := t.robot }).solve_controller inputs
    dsimp only
    rw [hcontroller]
    exact ⟨rfl, rfl⟩
  | problem inputs => exact ⟨rfl, rfl⟩

/-- What a tick of a run emits: a command for the time of its inputs with the torques that the
policy holds after it, unless its solve stops at sizes that do not fit together. -/
theorem Holds.command_of_tick (h : c.Holds nu history) {t : Turn α}
    (hnu : t.robot.numActuators = nu) {inputs : TickInputs α} (ht : t.call = .tick inputs) :
    let o := c.turn t
    let result := ({ c with model := t.robot }.solve inputs).result
    (∃ command, o.result = .command (some command) ∧ command.time = inputs.time ∧
      (command.status = .solved ↔ ∃ solution, result = .ok solution) ∧
      o.controller.lastCommand = some command.torques ∧
      o.report? = some ⟨command.status, result.toOption⟩ ∧
      command.torques =
        c.config.settings.fallback.held nu (history ++ [⟨command.status, result.toOption⟩])) ∨
    o.result = .command none ∧ result = .error .nonconforming ∧ o.report? = none ∧
      o.controller.lastCommand = c.lastCommand := by
  intro o result
  let tick := { c with model := t.robot }.tick inputs
  have ho : o = ⟨tick.controller, .command tick.result, tick.log⟩ := by
    simp only [o, turn, ht, tick]
  obtain ⟨command, hcommand, htime, hlast, hsolution, hemits⟩ | ⟨hnone, hstop, hlast⟩ :=
    ({ c with model := t.robot }).tick_emits inputs
  · left
    rw [hsolution] at hemits
    refine ⟨command, ?_, htime, hemits.solved_iff, ?_, ?_, hemits.eq_held h hnu⟩
    · rw [ho, hcommand]
    · rw [ho, hlast]
    · rw [ho, Outcome.report?, hcommand, hsolution]
  · right
    refine ⟨?_, hstop, ?_, ?_⟩
    · rw [ho, hnone]
    · rw [ho, Outcome.report?, hnone]
    · rw [ho, hlast]

/-- A call keeps the last command in step with the history. -/
theorem Holds.turn (h : c.Holds nu history) {t : Turn α} (hnu : t.robot.numActuators = nu) :
    (c.turn t).controller.Holds nu (history ++ (c.turn t).report?.toList) := by
  rw [Holds, (c.madeAlike_turn t).config]
  by_cases ht : ∃ inputs, t.call = .tick inputs
  · obtain ⟨inputs, ht⟩ := ht
    obtain ⟨command, -, -, -, hlast, hreport, htorques⟩ | ⟨-, -, hreport, hlast⟩ :=
      h.command_of_tick hnu ht
    · rw [hlast, hreport]
      exact htorques
    · rw [hlast, hreport]
      simpa [Holds] using h
  · obtain ⟨hlast, hreport⟩ := c.turn_of_not_tick (not_exists.1 ht)
    rw [hlast, hreport]
    simpa [Holds] using h

/-- All calls of a run do. -/
theorem Holds.after (h : c.Holds nu history) {turns : List (Turn α)}
    (hnu : ∀ t ∈ turns, t.robot.numActuators = nu) :
    (c.after turns).Holds nu (history ++ c.history turns) := by
  induction turns generalizing c history with
  | nil => simpa [Controller.history, run, Controller.after] using h
  | cons t rest ih =>
    obtain ⟨ht, hrest⟩ := List.forall_mem_cons.1 hnu
    have hnext := ih (h.turn ht) hrest
    have hhistory : c.history (t :: rest) =
        (c.turn t).report?.toList ++ (c.turn t).controller.history rest := by
      cases hreport : (c.turn t).report? <;> simp [Controller.history, run, hreport]
    rw [hhistory, ← List.append_assoc]
    exact hnext

/-- A controller holds nothing when it is made. -/
theorem holds_of_create_eq_ok {config : ControllerConfig α} {robot : RobotModel α}
    {solver : Solver σ α} {start : σ} (h : create config robot solver start = .ok c) (nu : Nat) :
    c.Holds nu [] ∧ c.config = config := by
  obtain ⟨-, -, a, -, rfl⟩ := of_create_eq_ok h
  exact ⟨(FallbackPolicy.held_nil _).symm, rfl⟩

end Controller

/-- What every tick of a run emits follows from how the ticks have ended, up to and with this one:
the torques are those that the policy holds, and the time is that of its inputs. Only a tick whose
sizes do not fit together has no command. Any other call changes nothing of what is held. -/
theorem torques_eq_held {config : ControllerConfig α} {robot : RobotModel α}
    {solver : Solver σ α} {start : σ} {c : Controller σ α}
    (hcreate : Controller.create config robot solver start = .ok c) {nu : Nat}
    (turns : List (Turn α)) (t : Turn α) (hnu : ∀ u ∈ turns ++ [t], u.robot.numActuators = nu) :
    let before := c.after turns
    let o := before.turn t
    let history := c.history (turns ++ [t])
    (∀ inputs, t.call = .tick inputs →
      let result := ({ before with model := t.robot }.solve inputs).result
      (∃ command, o.result = .command (some command) ∧ command.time = inputs.time ∧
        command.torques = config.settings.fallback.held nu history ∧
        history = c.history turns ++ [⟨command.status, result.toOption⟩] ∧
        (command.status = .solved ↔ ∃ solution, result = .ok solution)) ∨
      o.result = .command none ∧ result = .error .nonconforming) ∧
    ((∀ inputs, t.call ≠ .tick inputs) →
      o.controller.lastCommand = before.lastCommand ∧ history = c.history turns) := by
  intro before o history
  obtain ⟨hstart, hconfig⟩ := Controller.holds_of_create_eq_ok hcreate nu
  have hbefore : before.Holds nu (c.history turns) :=
    hstart.after fun u hu => hnu u (List.mem_append_left _ hu)
  have hpolicy : before.config = config := (c.madeAlike_after turns).config.trans hconfig
  have hhistory : history = c.history turns ++ o.report?.toList := by
    cases hreport : o.report? <;>
      simp [history, Controller.history_append, Controller.history, Controller.run, before, o,
        hreport]
  constructor
  · intro inputs ht result
    obtain ⟨command, hcommand, htime, hstatus, -, hreport, htorques⟩ | ⟨hnone, hstop, -⟩ :=
      hbefore.command_of_tick (hnu t (by simp)) ht
    · left
      rw [hreport] at hhistory
      refine ⟨command, hcommand, htime, ?_, hhistory, hstatus⟩
      rw [hhistory, ← hpolicy]
      exact htorques
    · exact .inr ⟨hnone, hstop⟩
  · intro ht
    obtain ⟨hlast, hreport⟩ := before.turn_of_not_tick ht
    rw [hreport] at hhistory
    exact ⟨hlast, hhistory.trans (List.append_nil _)⟩

/-- A motor that is solved for, then asked directly, and then left without a phase: it still gets
the torques of its solution. -/
theorem torques_eq_held_motor :
    let motor : RobotModel Float :=
      { faultyRobot with massMatrix := fun _ => .ok (.identity 1), bias := fun _ => .ok (.zeros 1) }
    let config : ControllerConfig Float :=
      ⟨{ Settings.standard with accelerationRegularization := 1 }, [], .empty⟩
    let solver : Solver Unit Float := ⟨true, fun _ _ _ => (.ok (.ofList [2, 2]), ())⟩
    let still : RobotState Float := ⟨.zeros 1, .zeros 1⟩
    let inputs : TickInputs Float := ⟨1, some still, some ⟨.doubleStance, 0⟩, fun _ => none⟩
    let turns : List (Turn Float) := [⟨motor, .tick inputs⟩, ⟨motor, .solve inputs⟩]
    let last : TickInputs Float := ⟨2, some still, none, fun _ => none⟩
    ∃ c, Controller.create config motor solver () = .ok c ∧
      let o := (c.after turns).turn ⟨motor, .tick last⟩
      ∃ command, o.result = .command (some command) ∧ command.time = 2 ∧
        command.torques =
          FallbackPolicy.holdPrevious.held 1 (c.history turns ++ [⟨command.status, none⟩]) := by
  intro motor config solver still inputs turns last
  obtain ⟨c, hc⟩ : ∃ c, Controller.create config motor solver () = .ok c :=
    Except.exists_of_isOk (by decide +kernel)
  have hnu : ∀ u ∈ turns ++ [⟨motor, .tick last⟩], u.robot.numActuators = 1 := by
    simp [turns, motor, faultyRobot]
  have hskip : ({ c.after turns with model := motor }.solve last).result =
      .error (.error (.input .missingPhase)) := rfl
  refine ⟨c, hc, ?_⟩
  obtain ⟨command, hcommand, htime, htorques, hhistory, -⟩ | ⟨-, hstop⟩ :=
    (torques_eq_held hc turns ⟨motor, .tick last⟩ hnu).1 last rfl
  · rw [hskip] at hhistory
    exact ⟨command, hcommand, htime, hhistory ▸ htorques⟩
  · rw [hskip] at hstop
    cases hstop

end WholeBody
