import Mathlib
import WholeBody.Proofs.Controller.Objectives
import WholeBody.Proofs.Controller.Run
import WholeBody.Robot.PointMass

/-!
# Reading a solution

The blocks of a solution are the answer of the solver, cut into pieces: nothing is lost, nothing is
read twice, and the force under the name of a contact is the one in its columns.

## Main statements

* `Controller.Prepared.toList_solution` — the pieces make up the answer.
* `Controller.Prepared.contactForce_eq_some` — the force under a name.
* `solution_reads_answer` — every solution that a controller reports.
-/

namespace WholeBody

variable {σ α : Type} [Scalar α]

/-! ### Slices -/

namespace Vec

theorem toList_slice (x : Vec α) (start len : Nat) :
    (x.slice start len).toList = (List.range len).map fun i => x.entry (start + i) := by
  refine List.ext_getElem (by simp) fun i hi _ => ?_
  simp [slice, ofFn, toList]

/-- A slice and the one behind it. -/
theorem toList_slice_append (x : Vec α) (start m n : Nat) :
    (x.slice start m).toList ++ (x.slice (start + m) n).toList =
      (x.slice start (m + n)).toList := by
  simp [toList_slice, List.range_add, Nat.add_assoc]

theorem slice_zero_size (x : Vec α) : x.slice 0 x.size = x := by
  refine ext_entry (size_slice _ _ _) fun i hi => ?_
  rw [size_slice] at hi
  rw [slice, entry_ofFn_of_lt hi, Nat.zero_add]

/-- The triples of consecutive contacts. -/
theorem flatMap_zipIdx_ofVec {τ : Type} (x : Vec α) (start : Nat) (es : List τ) (first : Nat) :
    ((es.zipIdx first).flatMap fun e => (Vec3.ofVec x (start + 3 * e.2)).toList) =
      (x.slice (start + 3 * first) (3 * es.length)).toList := by
  induction es generalizing first with
  | nil => simp [toList_slice]
  | cons e es ih =>
    have htriple : (Vec3.ofVec x (start + 3 * first)).toList =
        (x.slice (start + 3 * first) 3).toList := by
      simp [toList_slice, Vec3.ofVec, Vec3.toList, List.range_succ]
    rw [List.zipIdx_cons, List.flatMap_cons, ih, htriple, Nat.mul_succ, ← Nat.add_assoc,
      toList_slice_append, List.length_cons, Nat.mul_succ, Nat.add_comm 3]

end Vec

namespace Controller

/-- A block, and all that is before it. -/
theorem toList_block_append (x : Vec α) (start len : Nat) :
    (block x ⟨0, start⟩).toList ++ (block x ⟨start, start + len⟩).toList =
      (block x ⟨0, start + len⟩).toList := by
  have happend := x.toList_slice_append 0 start len
  rw [Nat.zero_add] at happend
  simpa only [block, Span.size, Nat.sub_zero, Nat.add_sub_cancel_left] using happend

end Controller

/-- All numbers of a solution, block by block. -/
def TickSolution.toList (s : TickSolution α) : List α :=
  s.accelerations.toList ++ s.contactForces.flatMap (·.2.toList) ++ s.loopForces.toList
    ++ s.inputs.toList ++ s.contactSlack.toList ++ s.loopSlack.toList

namespace Controller

namespace Prepared

variable {p : Prepared α} {nv nu : Nat} {x : Vec α}

/-- The forces of all contacts are one block. -/
theorem toList_contactForces (h : p.FromData nv nu) :
    (p.solution x).contactForces.flatMap (·.2.toList) =
      (block x p.program.layout.contactForces).toList := by
  obtain ⟨d, s, hlayout, -, hcontacts⟩ := h.exists_layout
  rw [solution, hlayout, List.flatMap_map, block, TickData.layout_contactForces, Span.size,
    Nat.add_sub_cancel_left, ← hcontacts]
  simp only [TickData.layout_contact]
  exact x.flatMap_zipIdx_ofVec d.numVelocities p.contacts 0

/-- The pieces of a solution make up the answer. -/
theorem toList_solution (h : p.FromData nv nu) (hx : x.size = p.program.numVariables) :
    (p.solution x).toList = x.toList := by
  have hforces := toList_contactForces (x := x) h
  obtain ⟨d, s, hlayout, hn, -⟩ := h.exists_layout
  rw [← hx, TickData.layout_numVariables, TickData.numHardVariables] at hn
  rw [TickSolution.toList, hforces]
  simp only [solution, hlayout, TickData.layout_accelerations, TickData.layout_contactForces,
    TickData.layout_loopForces, TickData.layout_inputs, TickData.layout_contactSlack,
    TickData.layout_loopSlack, TickData.numHardVariables]
  -- Each block starts where the one before it stops.
  simp only [toList_block_append]
  rw [← hn, block, Span.size, Nat.sub_zero, x.slice_zero_size]

theorem getElem?_contactForces (p : Prepared α) (x : Vec α) (i : Nat) :
    (p.solution x).contactForces[i]? = p.contacts[i]?.map fun contact =>
      (contact.name, Vec3.ofVec x (p.program.layout.contact i).start) := by
  simp [solution, List.getElem?_zipIdx, Function.comp_def]

/-- The forces are under the names of the contacts, in order. -/
theorem names_contactForces (p : Prepared α) (x : Vec α) :
    (p.solution x).contactForces.map (·.1) = p.contacts.map (·.name) := by
  refine List.ext_getElem? fun i => ?_
  rw [List.getElem?_map, List.getElem?_map, getElem?_contactForces, Option.map_map]
  rfl

/-- The force under the name of a contact is the one in its columns, as long as no two contacts
share a name. -/
theorem contactForce_eq_some (x : Vec α) (hnodup : (p.contacts.map (·.name)).Nodup) {i : Nat}
    {contact : ContactPoint α} (hi : p.contacts[i]? = some contact) :
    (p.solution x).contactForce? contact.name =
      some (Vec3.ofVec x (p.program.layout.contact i).start) := by
  rw [← names_contactForces p x] at hnodup
  have hforce := getElem?_contactForces p x i
  rw [hi] at hforce
  rw [TickSolution.contactForce?,
    find?_eq_some_of_nodup (e := (contact.name, _)) hnodup (List.mem_of_getElem? hforce)]
  rfl

/-- There is no force under a name exactly when no contact has it. -/
theorem contactForce_eq_none_iff (p : Prepared α) (x : Vec α) {name : String} :
    (p.solution x).contactForce? name = none ↔ ∀ contact ∈ p.contacts, contact.name ≠ name := by
  rw [TickSolution.contactForce?, Option.map_eq_none_iff, List.find?_eq_none]
  calc (∀ e ∈ (p.solution x).contactForces, ¬ decide (e.1 = name) = true)
    _ ↔ name ∉ (p.solution x).contactForces.map (·.1) := by
      simp only [List.mem_map, not_exists, not_and, decide_eq_true_eq]
    _ ↔ name ∉ p.contacts.map (·.name) := by rw [names_contactForces]
    _ ↔ ∀ contact ∈ p.contacts, contact.name ≠ name := by simp

end Prepared

end Controller

/-! ### Solutions of a controller -/

/-- A solution that has all of an answer `x`, with the force of each contact under its name. -/
structure TickSolution.Reads (s : TickSolution α) (x : Vec α) (l : VariableLayout)
    (contacts : List (ContactPoint α)) : Prop where
  toList : s.toList = x.toList
  names : s.contactForces.map (·.1) = contacts.map (·.name)
  nodup : (contacts.map (·.name)).Nodup
  contactForce : ∀ i contact, contacts[i]? = some contact →
    s.contactForce? contact.name = some (Vec3.ofVec x (l.contact i).start)
  contactForce_eq_none : ∀ name, s.contactForce? name = none ↔
    ∀ contact ∈ contacts, contact.name ≠ name

/-- A solution that has the terms of the active objectives under their names. -/
structure TickSolution.Tracks (s : TickSolution α) (robot : RobotModel α) (state : RobotState α)
    (timeInPhase : α) (samples : String → Option (TrajectorySample α))
    (os : List (TrackingObjective α)) : Prop where
  nodup : (os.map (·.name)).Nodup
  term : ∀ o ∈ os,
    o.evaluate robot state s.phase timeInPhase (samples o.name) = .ok (s.term? o.name)
  term_eq_none : ∀ name, s.term? name = none ↔
    ∀ o ∈ os, o.name = name → o.activeTarget s.phase timeInPhase = none

namespace Controller

variable {c : Controller σ α} {inputs : TickInputs α} {p : Prepared α} {x : Vec α}

/-- A solution that is read off an answer has all of it. -/
theorem reads_solution (hp : c.prepare inputs = .ok p)
    (hnodup : (p.contacts.map (·.name)).Nodup) (hx : x.size = p.program.numVariables) :
    (p.solution x).Reads x p.program.layout p.contacts where
  toList := Prepared.toList_solution (fromData_of_prepare hp) hx
  names := p.names_contactForces x
  nodup := hnodup
  contactForce _ _ hi := Prepared.contactForce_eq_some x hnodup hi
  contactForce_eq_none _ := p.contactForce_eq_none_iff x

/-- A solution has the terms that its program was made with. -/
theorem exists_tracks_solution (hp : c.prepare inputs = .ok p)
    (hnodup : (c.config.objectives.map (·.name)).Nodup) (x : Vec α) :
    ∃ state phase, inputs.state = some state ∧ inputs.phase = some phase ∧
      (p.solution x).phase = phase.id ∧ p.contacts = c.config.contacts.active phase.id ∧
      (p.solution x).Tracks c.model state (phase.timeInPhase inputs.time) inputs.samples
        c.config.objectives := by
  obtain ⟨state, phase, terms, program, hinputs, -, hterms, -, -, rfl⟩ := prepare_eq_ok_iff.1 hp
  obtain ⟨hstate, hphase⟩ := of_readInputs_eq_ok hinputs
  exact ⟨state, phase, hstate, hphase, rfl, rfl, hnodup,
    fun _ ho => evaluate_eq_find hterms hnodup ho, fun _ => find_eq_none_iff hterms⟩

end Controller

/-- A solution that a controller reports has all of the answer of the solver, once: the blocks make
up the answer in order, the force under the name of an active contact is that in its columns, and
the term under the name of an active objective is its own. Under other names there is nothing. -/
theorem solution_reads_answer {config : ControllerConfig α} {robot now : RobotModel α}
    {solver : Solver σ α} {start : σ} {c : Controller σ α}
    (hcreate : Controller.create config robot solver start = .ok c) (turns : List (Turn α))
    {inputs : TickInputs α} {solution : TickSolution α}
    (hsolve : ((c.after turns).turn ⟨now, .solve inputs⟩).result = .solution (.ok solution)) :
    ∃ state phase p x, inputs.state = some state ∧ inputs.phase = some phase ∧
      solution.phase = phase.id ∧
      ((c.after turns).turn ⟨now, .problem inputs⟩).result = .program (.ok p) ∧
      (solver.solve (c.after turns).solverState p config.settings.solver).1 = .ok x ∧
      solution.Reads x p.layout (config.contacts.active phase.id) ∧
      solution.Tracks now state (phase.timeInPhase inputs.time) inputs.samples
        config.objectives := by
  obtain ⟨-, -, hobjectives, hcontacts, a, -, hc⟩ := Controller.create_eq_ok_iff.1 hcreate
  obtain ⟨-, hnames, -⟩ := Controller.checkObjectives_eq_ok_iff.1 hobjectives
  have halike := c.madeAlike_after turns
  let c' := { c.after turns with model := now }
  have hconfig : c'.config = config := halike.config.trans (by rw [hc])
  have hsolver : c'.solver = solver := halike.solver.trans (by rw [hc])
  obtain ⟨p, hp, hread⟩ := Controller.of_solve_eq_ok (c := c') (Reply.solution.inj hsolve)
  obtain ⟨x, hx, hsize, -, rfl⟩ := Controller.Prepared.of_read_eq_ok hread
  have hproblem : c'.problem inputs = .ok p.program := Except.bind_of_eq_ok hp
  obtain ⟨state, phase, hstate, hphase, hid, hactive, htracks⟩ :=
    Controller.exists_tracks_solution hp (hconfig ▸ hnames) x
  have hreads := Controller.reads_solution hp (x := x)
  rw [hconfig] at hactive htracks hx
  rw [hsolver] at hx
  rw [hactive] at hreads
  have hdistinct := ContactSet.nodup_active_of_validate_eq_ok hcontacts phase.id
  exact ⟨state, phase, p.program, x, hstate, hphase, hid, congrArg Reply.program hproblem, hx,
    hreads hdistinct hsize, htracks⟩

/-- A point mass on one foot that is to be kept in place, after a tick. -/
theorem solution_reads_answer_pointMass :
    let r : PointMass Float := ⟨"mass", 1, 10⟩
    let foot : ContactPoint Float := ⟨"foot", ⟨"mass", 0⟩, .unitZ, none, some .conic⟩
    let balance : TrackingObjective Float :=
      ⟨"balance", .centerOfMass (.always ()), .uniform 3 1 1, .identity 3, .empty, none,
        .trajectory⟩
    let config : ControllerConfig Float :=
      ⟨.standard, [balance], ContactSet.empty.insert .doubleStance foot⟩
    let answer : Vec Float := .ofList [0, 0, 0, 1, 2, 10, 0, 0, 0]
    let solver : Solver Nat Float := ⟨true, fun n _ _ => (.ok answer, n + 1)⟩
    let still : Vec Float := .zeros 3
    let inputs : TickInputs Float :=
      ⟨0, some ⟨still, still⟩, some ⟨.doubleStance, 0⟩, fun _ => some ⟨still, still, still⟩⟩
    ∃ c solution p, Controller.create config r.model solver 0 = .ok c ∧
      ((c.after [⟨r.model, .tick inputs⟩]).turn ⟨r.model, .problem inputs⟩).result =
        .program (.ok p) ∧
      ((c.after [⟨r.model, .tick inputs⟩]).turn ⟨r.model, .solve inputs⟩).result =
        .solution (.ok solution) ∧
      solution.toList = answer.toList ∧ solution.contactForces.map (·.1) = ["foot"] ∧
      solution.contactForce? "foot" = some (Vec3.ofVec answer (p.layout.contact 0).start) ∧
      solution.contactForce? "hand" = none ∧ solution.term? "posture" = none ∧
      balance.evaluate r.model ⟨still, still⟩ .doubleStance ((0 : Float) - 0)
        (some ⟨still, still, still⟩) = .ok (solution.term? "balance") := by
  intro r foot balance config answer solver still inputs
  obtain ⟨c, hc⟩ : ∃ c, Controller.create config r.model solver 0 = .ok c :=
    Except.exists_of_isOk (by decide +kernel)
  have hsolved : (Controller.create config r.model solver 0).toOption.any fun c =>
      ({ c.after [⟨r.model, .tick inputs⟩] with model := r.model }.solve inputs).result.isOk := by
    decide +kernel
  rw [hc] at hsolved
  obtain ⟨solution, hsolution⟩ := Except.exists_of_isOk hsolved
  have hresult : ((c.after [⟨r.model, .tick inputs⟩]).turn ⟨r.model, .solve inputs⟩).result =
      .solution (.ok solution) := congrArg Reply.solution hsolution
  obtain ⟨state, phase, p, x, hstate, hphase, hid, hproblem, hx, hreads, htracks⟩ :=
    solution_reads_answer hc [⟨r.model, .tick inputs⟩] hresult
  cases hstate
  cases hphase
  cases hx
  refine ⟨c, solution, p, hc, hproblem, hresult, hreads.toList, hreads.names, ?_, ?_, ?_, ?_⟩
  · exact hreads.contactForce 0 foot rfl
  · exact (hreads.contactForce_eq_none "hand").2 (by decide)
  · exact (htracks.term_eq_none "posture").2 (by simp [config, balance])
  · have hterm := htracks.term balance (List.mem_singleton_self _)
    rw [hid] at hterm
    exact hterm

end WholeBody
