import Mathlib
import WholeBody.Proofs.Controller.Run

/-!
# Accounting

The counters of a controller are those of its replies, whatever the order of the calls: a tick
counts once, by how it has ended, and a solve that is asked for directly counts when it succeeds and
leaves nothing else behind.

## Main statements

* `Controller.turn_effect` — all that one call can change.
* `Controller.Accounts.of_effect` — one call keeps the books.
* `diagnostics_eq_counts` — so do all calls of a run.
-/

namespace WholeBody

variable {σ α : Type}

/-! ### Replies -/

def Call.isTick : Call α → Bool
  | .tick _ => true
  | _ => false

namespace Reply

/-- What a tick has emitted, when this is the reply to a tick. -/
def tick? : Reply α → Option (Option (TorqueCommand α))
  | .command emitted => some emitted
  | _ => none

/-- The status of a command. -/
def status? (r : Reply α) : Option CommandStatus := r.tick?.join.map (·.status)

/-- Whether this is the solution of a solve that was asked for directly. -/
def isSolution : Reply α → Bool
  | .solution (.ok _) => true
  | _ => false

@[simp]
theorem tick?_command (emitted : Option (TorqueCommand α)) :
    (Reply.command emitted).tick? = some emitted :=
  rfl

@[simp]
theorem tick?_solution (result : Attempt TickError (TickSolution α)) :
    (Reply.solution result).tick? = none :=
  rfl

@[simp]
theorem tick?_program (result : Attempt TickError (ConeProgram α)) :
    (Reply.program result).tick? = none :=
  rfl

@[simp]
theorem status?_command (emitted : Option (TorqueCommand α)) :
    (Reply.command emitted).status? = emitted.map (·.status) :=
  rfl

@[simp]
theorem status?_solution (result : Attempt TickError (TickSolution α)) :
    (Reply.solution result).status? = none :=
  rfl

@[simp]
theorem status?_program (result : Attempt TickError (ConeProgram α)) :
    (Reply.program result).status? = none :=
  rfl

/-- The statuses of the commands among some replies. -/
def statuses (replies : List (Reply α)) : List CommandStatus := replies.filterMap (·.status?)

/-- What the latest tick has emitted. -/
def lastTick? (replies : List (Reply α)) : Option (Option (TorqueCommand α)) :=
  (replies.filterMap (·.tick?)).getLast?

@[simp]
theorem statuses_append (rs ss : List (Reply α)) :
    statuses (rs ++ ss) = statuses rs ++ statuses ss :=
  List.filterMap_append

@[simp]
theorem statuses_singleton (r : Reply α) : statuses [r] = r.status?.toList := by
  cases h : r.status? <;> simp [statuses, h]

@[simp]
theorem lastTick?_concat (replies : List (Reply α)) (r : Reply α) :
    lastTick? (replies ++ [r]) = r.tick?.or (lastTick? replies) := by
  cases h : r.tick? <;> simp [lastTick?, h]

/-- Each tick that emits a command has one of the three statuses. -/
theorem count_statuses {replies : List (Reply α)} (h : ∀ r ∈ replies, r.tick? ≠ some none) :
    (statuses replies).count .solved + (statuses replies).count .skipped +
      (statuses replies).count .fallback = replies.countP (·.tick?.isSome) := by
  induction replies using List.reverseRecOn with
  | nil => rfl
  | append_singleton rest r ih =>
    have hcount := ih fun r hr => h r (List.mem_append_left _ hr)
    have hr := h r (by simp)
    rcases r with (_ | ⟨time, torques, status⟩) | result | result
    · exact absurd rfl hr
    · cases status <;> simp <;> omega
    · simpa using hcount
    · simpa using hcount

end Reply

variable [Scalar α]

namespace Controller

/-! ### One call -/

/-- All that a call can reply, with what it changes besides the state of the solver. -/
inductive Effect (c : Controller σ α) : Reply α → Controller σ α → Prop
  | solved (time : α) (solution : TickSolution α) (solverState : σ) :
    c.Effect (.command (some ⟨time, solution.inputs, .solved⟩)) { c with
      solverState, lastCommand := some solution.inputs, lastSolution := some solution
      diagnostics := { c.diagnostics with
        ticks := c.diagnostics.ticks + 1, solves := c.diagnostics.solves + 1, timed := true } }
  | skipped (time : α) (torques : Vec α) (message : String) (solverState : σ) :
    c.Effect (.command (some ⟨time, torques, .skipped⟩)) { c with
      solverState, lastCommand := some torques, lastSolution := none
      diagnostics := { c.diagnostics with
        ticks := c.diagnostics.ticks + 1, skipped := c.diagnostics.skipped + 1
        lastFailure := some message } }
  | fallback (time : α) (torques : Vec α) (message : String) (solverState : σ) :
    c.Effect (.command (some ⟨time, torques, .fallback⟩)) { c with
      solverState, lastCommand := some torques, lastSolution := none
      diagnostics := { c.diagnostics with
        ticks := c.diagnostics.ticks + 1, failures := c.diagnostics.failures + 1
        lastFailure := some message } }
  | stopped (solverState : σ) :
    c.Effect (.command none) { c with
      solverState, lastSolution := none
      diagnostics := { c.diagnostics with ticks := c.diagnostics.ticks + 1 } }
  | answered (solution : TickSolution α) (solverState : σ) :
    c.Effect (.solution (.ok solution)) { c with
      solverState
      diagnostics := { c.diagnostics with
        solves := c.diagnostics.solves + 1, timed := true } }
  | refused (e : Failure TickError) (solverState : σ) :
    c.Effect (.solution (.error e)) { c with solverState }
  | posed (result : Attempt TickError (ConeProgram α)) : c.Effect (.program result) c

theorem solve_effect (c : Controller σ α) (inputs : TickInputs α) :
    c.Effect (.solution (c.solve inputs).result) (c.solve inputs).controller := by
  obtain ⟨e, -, hsolve⟩ | ⟨p, -, ⟨e, -, hsolve⟩ | ⟨solution, -, hsolve⟩⟩ := c.solve_cases inputs
  · rw [hsolve]
    exact .refused e c.solverState
  · rw [hsolve]
    exact .refused e _
  · rw [hsolve]
    exact .answered solution _

theorem tick_effect (c : Controller σ α) (inputs : TickInputs α) :
    c.Effect (.command (c.tick inputs).result) (c.tick inputs).controller := by
  have hsolve := ({ c with
    diagnostics := { c.diagnostics with ticks := c.diagnostics.ticks + 1 },
    lastSolution := none }).solve_effect inputs
  have hcases := c.tick_cases inputs
  dsimp only at hsolve hcases
  generalize Controller.solve _ inputs = o at hsolve hcases
  obtain ⟨after, result, log⟩ := o
  obtain ⟨solution, rfl, htick⟩ | ⟨e, rfl, htick⟩ | ⟨e, rfl, -, htick⟩ | ⟨rfl, htick⟩ := hcases
  · rw [htick]
    cases hsolve with
    | answered _ solverState => exact .solved inputs.time solution solverState
  · rw [htick]
    cases hsolve with
    | refused _ solverState => exact .skipped inputs.time _ _ solverState
  · rw [htick]
    cases hsolve with
    | refused _ solverState => exact .fallback inputs.time _ _ solverState
  · rw [htick]
    cases hsolve with
    | refused _ solverState => exact .stopped solverState

omit [Scalar α] in
theorem Effect.of_error {c c' : Controller σ α} {e : Failure TickError}
    (h : c.Effect (.solution (.error e)) c') : c' = { c with solverState := c'.solverState } := by
  cases h
  rfl

omit [Scalar α] in
theorem Effect.of_ok {c c' : Controller σ α} {solution : TickSolution α}
    (h : c.Effect (.solution (.ok solution)) c') : c' = { c with
      solverState := c'.solverState
      diagnostics := { c.diagnostics with
        solves := c.diagnostics.solves + 1, timed := true } } := by
  cases h
  rfl

theorem turn_effect (c : Controller σ α) (t : Turn α) :
    ({ c with model := t.robot }).Effect (c.turn t).result (c.turn t).controller := by
  rw [turn]
  cases t.call with
  | tick inputs => exact tick_effect _ inputs
  | solve inputs => exact solve_effect _ inputs
  | problem inputs => exact .posed _

/-! ### The books -/

/-- The counters and the last solution of a controller are those of the replies so far. -/
structure Accounts (c : Controller σ α) (replies : List (Reply α)) : Prop where
  ticks : c.diagnostics.ticks = replies.countP (·.tick?.isSome)
  skipped : c.diagnostics.skipped = (Reply.statuses replies).count .skipped
  failures : c.diagnostics.failures = (Reply.statuses replies).count .fallback
  solves : c.diagnostics.solves =
    (Reply.statuses replies).count .solved + replies.countP (·.isSolution)
  lastFailure : c.diagnostics.lastFailure = none ↔
    .skipped ∉ Reply.statuses replies ∧ .fallback ∉ Reply.statuses replies
  lastSolution : (∃ solution, c.lastSolution = some solution) ↔
    ∃ command, Reply.lastTick? replies = some (some command) ∧ command.status = .solved
  lastCommand : ∀ solution, c.lastSolution = some solution → c.lastCommand = some solution.inputs

variable {c c' : Controller σ α} {replies : List (Reply α)}

omit [Scalar α] in
/-- A call keeps the books. -/
theorem Accounts.of_effect (h : c.Accounts replies) {reply : Reply α}
    (heffect : c.Effect reply c') : c'.Accounts (replies ++ [reply]) := by
  obtain ⟨hticks, hskipped, hfailures, hsolves, hlastFailure, hlastSolution, hlastCommand⟩ := h
  cases heffect with
  | solved =>
    constructor <;> simp [Reply.isSolution, *]
    omega
  | skipped | fallback | stopped => constructor <;> simp [Reply.isSolution, *]
  | answered =>
    refine ⟨?_, ?_, ?_, ?_, ?_, ?_, hlastCommand⟩ <;> simp [Reply.isSolution, *]
    omega
  | refused | posed =>
    refine ⟨?_, ?_, ?_, ?_, ?_, ?_, hlastCommand⟩ <;> simp [Reply.isSolution, *]

/-- All calls of a run do. -/
theorem Accounts.after (h : c.Accounts replies) (turns : List (Turn α)) :
    (c.after turns).Accounts (replies ++ (c.run turns).map (·.result)) := by
  induction turns generalizing c replies with
  | nil => simpa [Controller.after, run] using h
  | cons t rest ih =>
    obtain ⟨hticks, hskipped, hfailures, hsolves, hlastFailure, hlastSolution, hlastCommand⟩ := h
    have hrobot : ({ c with model := t.robot }).Accounts replies :=
      ⟨hticks, hskipped, hfailures, hsolves, hlastFailure, hlastSolution, hlastCommand⟩
    have hrest := ih (hrobot.of_effect (c.turn_effect t))
    rw [List.append_assoc] at hrest
    exact hrest

/-- A controller has nothing on its books when it is made. -/
theorem accounts_of_create_eq_ok {config : ControllerConfig α} {robot : RobotModel α}
    {solver : Solver σ α} {start : σ} (h : create config robot solver start = .ok c) :
    c.Accounts [] := by
  obtain ⟨-, -, a, -, rfl⟩ := of_create_eq_ok h
  exact ⟨rfl, rfl, rfl, rfl, by simp [Diagnostics.initial, Reply.statuses],
    by simp [Reply.lastTick?], nofun⟩

/-- A run replies to a tick where it is asked for one. -/
theorem countP_tick_run (c : Controller σ α) (turns : List (Turn α)) :
    ((c.run turns).map (·.result)).countP (·.tick?.isSome) = turns.countP (·.call.isTick) := by
  induction turns generalizing c with
  | nil => rfl
  | cons t rest ih =>
    have ht : (c.turn t).result.tick?.isSome = t.call.isTick := by
      rw [turn]
      cases t.call <;> rfl
    simp [run, List.countP_cons, ht, ← ih (c.turn t).controller]

/-- A ready controller emits a command at every tick. -/
theorem Ready.emits (hzero : Scalar.isFinite (0 : α) = true) {nq nv nu : Nat} (h : c.Ready nv nu)
    {turns : List (Turn α)} (hturns : ∀ t ∈ turns, t.robot.Regular nq nv nu) :
    ∀ r ∈ (c.run turns).map (·.result), r.tick? ≠ some none := by
  intro r hr hnone
  obtain ⟨o, ho, rfl⟩ := List.mem_map.1 hr
  have hsafe := h.run hzero hturns o ho
  rw [Outcome.Safe] at hsafe
  cases hresult : o.result <;> simp_all

end Controller

/-- The counters after any calls are those of the replies: each tick counts once, as solved, skipped
or fallen back once it has emitted a command, which every tick does that meets no sizes that do not
fit together; and each solve that is asked for directly counts if it succeeds. There is a last
failure once a tick was skipped or has fallen back, and a last solution just when the latest tick
was solved; it is then behind the last command. A solve that is asked for directly leaves all of
this as it is, but for counting itself when it succeeds. -/
theorem diagnostics_eq_counts {config : ControllerConfig α} {robot : RobotModel α}
    {solver : Solver σ α} {start : σ} {c : Controller σ α}
    (hcreate : Controller.create config robot solver start = .ok c) (turns : List (Turn α)) :
    let after := c.after turns
    let d := after.diagnostics
    let replies := (c.run turns).map (·.result)
    let statuses := Reply.statuses replies
    (d.ticks = turns.countP (·.call.isTick) ∧ d.skipped = statuses.count .skipped ∧
      d.failures = statuses.count .fallback ∧
      ((∀ r ∈ replies, r.tick? ≠ some none) → d.skipped + d.failures ≤ d.ticks ∧
        d.solves = (d.ticks - d.skipped - d.failures) + replies.countP (·.isSolution))) ∧
    (d.lastFailure = none ↔ .skipped ∉ statuses ∧ .fallback ∉ statuses) ∧
    ((∃ solution, after.lastSolution = some solution) ↔
      ∃ command, Reply.lastTick? replies = some (some command) ∧ command.status = .solved) ∧
    (∀ solution, after.lastSolution = some solution →
      after.lastCommand = some solution.inputs) ∧
    ∀ robot' inputs,
      let o := after.turn ⟨robot', .solve inputs⟩
      (∀ e, o.result = .solution (.error (.error e)) →
        o.controller = { after with
          model := robot', solverState := o.controller.solverState }) ∧
      ∀ solution, o.result = .solution (.ok solution) →
        o.controller = { after with
          model := robot', solverState := o.controller.solverState
          diagnostics := { d with solves := d.solves + 1, timed := true } } := by
  intro after d replies statuses
  have hbooks : after.Accounts replies := (Controller.accounts_of_create_eq_ok hcreate).after turns
  have hticks : d.ticks = turns.countP (·.call.isTick) :=
    hbooks.ticks.trans (c.countP_tick_run turns)
  refine ⟨⟨hticks, hbooks.skipped, hbooks.failures, fun hcommands => ?_⟩, hbooks.lastFailure,
    hbooks.lastSolution, hbooks.lastCommand, fun robot' inputs => ?_⟩
  · have hsum := Reply.count_statuses hcommands
    rw [← hbooks.skipped, ← hbooks.failures, ← hbooks.ticks] at hsum
    have hsolves := hbooks.solves
    dsimp only [d]
    omega
  · intro o
    have heffect := after.turn_effect ⟨robot', .solve inputs⟩
    constructor
    · intro e he
      exact (he ▸ heffect).of_error
    · intro solution hsolution
      exact (hsolution ▸ heffect).of_ok

/-- A motor that is solved for, then asked directly, and then left without a phase. -/
theorem diagnostics_eq_counts_motor :
    let motor : RobotModel Float :=
      { faultyRobot with massMatrix := fun _ => .ok (.identity 1), bias := fun _ => .ok (.zeros 1) }
    let config : ControllerConfig Float :=
      ⟨{ Settings.standard with accelerationRegularization := 1 }, [], .empty⟩
    let solver : Solver Unit Float := ⟨true, fun _ _ _ => (.ok (.ofList [2, 2]), ())⟩
    let still : RobotState Float := ⟨.zeros 1, .zeros 1⟩
    let inputs : TickInputs Float := ⟨1, some still, some ⟨.doubleStance, 0⟩, fun _ => none⟩
    let turns : List (Turn Float) :=
      [⟨motor, .tick inputs⟩, ⟨motor, .solve inputs⟩, ⟨motor, .tick { inputs with phase := none }⟩]
    ∃ c, Controller.create config motor solver () = .ok c ∧
      let d := (c.after turns).diagnostics
      d.ticks = 2 ∧ d.skipped + d.failures ≤ 2 ∧ d.solves = (2 - d.skipped - d.failures) +
        ((c.run turns).map (·.result)).countP (·.isSolution) := by
  intro motor config solver still inputs turns
  obtain ⟨c, hc⟩ : ∃ c, Controller.create config motor solver () = .ok c :=
    Except.exists_of_isOk (by decide +kernel)
  have hrobot : motor.Regular 1 1 1 := by
    refine ⟨rfl, rfl, rfl, rfl, ?_⟩
    rintro name _ ⟨⟩
    decide
  have hturns : ∀ t ∈ turns, t.robot.Regular 1 1 1 := by
    simpa [turns] using hrobot
  have hready := Controller.ready_of_create_eq_ok hc nofun hrobot
  obtain ⟨⟨hticks, -, -, hsolves⟩, -⟩ := diagnostics_eq_counts hc turns
  have hcount : turns.countP (·.call.isTick) = 2 := rfl
  rw [hcount] at hticks
  obtain ⟨hle, hsum⟩ := hsolves (hready.emits (by decide) hturns)
  rw [hticks] at hle hsum
  exact ⟨c, hc, hticks, hle, hsum⟩

end WholeBody
