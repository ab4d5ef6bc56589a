import Mathlib
import WholeBody.Program.Assembly
import WholeBody.Proofs.Attempt

/-!
# Gathering the answers of a robot

What is known of the data of a tick once it is gathered: each part is the robot's own answer, and
all parts have the shapes that the program is made for.
-/

namespace WholeBody

variable {α : Type}

namespace TickData

/-- Every part is what the robot answers for a state and a list of contacts. -/
structure Answers (d : TickData α) (model : RobotModel α) (state : RobotState α)
    (contacts : List (ContactPoint α)) : Prop where
  massMatrix : model.massMatrix state = .ok d.massMatrix
  bias : model.bias state = .ok d.bias
  actuation : d.actuation = model.actuation
  contacts : List.Forall₂ (fun c e => e.1 = c ∧ model.point state c.point = .ok e.2) contacts
    d.contacts
  loops : model.loopConstraints state = .ok d.loops
  effortLimits : d.effortLimits = model.effortLimits

/-- The contacts of a tick are those that were asked for. -/
theorem Answers.map_fst_contacts {d : TickData α} {model : RobotModel α} {state : RobotState α}
    {contacts : List (ContactPoint α)} (h : d.Answers model state contacts) :
    d.contacts.map (·.1) = contacts := by
  obtain ⟨-, -, -, hall, -, -⟩ := h
  generalize d.contacts = es at hall
  induction hall with
  | nil => rfl
  | cons he _ ih => simp [he.1, ih]

/-- The contacts of a tick, when the robot has only one answer for each. -/
theorem Answers.contacts_eq {d : TickData α} {model : RobotModel α} {state : RobotState α}
    {contacts : List (ContactPoint α)} (h : d.Answers model state contacts)
    (answer : ContactPoint α → PointKinematics α)
    (hanswer : ∀ c kin, model.point state c.point = .ok kin → kin = answer c) :
    d.contacts = contacts.map fun c => (c, answer c) := by
  obtain ⟨-, -, -, hall, -, -⟩ := h
  generalize d.contacts = es at hall
  induction hall with
  | nil => rfl
  | cons he _ ih => rw [List.map_cons, ih, ← hanswer _ _ he.2, ← he.1]

/-- Every part has the shape for `nv` velocities and `nu` actuators. -/
structure Shaped (d : TickData α) (nv nu : Nat) : Prop where
  massMatrix : d.massMatrix.rows = nv ∧ d.massMatrix.cols = nv
  bias : d.bias.size = nv
  actuation : d.actuation.rows = nv ∧ d.actuation.cols = nu
  contacts : ∀ e ∈ d.contacts, e.2.jacobian.length = nv
  loops : ∀ l ∈ d.loops, l.jacobian.cols = nv ∧ l.jdotV.size = l.jacobian.rows

theorem of_checkShape_eq_ok {what : String} {got expected : Nat × Nat} {u : Unit}
    (h : checkShape what got expected = .ok u) : got = expected := by
  rw [checkShape] at h
  split at h
  · assumption
  · cases h

theorem of_checkColumns_eq_ok {what : String} {got expected : Nat} {u : Unit}
    (h : checkColumns what got expected = .ok u) : got = expected := by
  rw [checkColumns] at h
  split at h
  · assumption
  · cases h

theorem of_contactKinematics_eq_ok {model : RobotModel α} {state : RobotState α}
    {c : ContactPoint α} {e : ContactPoint α × PointKinematics α}
    (h : contactKinematics model state c = .ok e) :
    (e.1 = c ∧ model.point state c.point = .ok e.2) ∧
      e.2.jacobian.length = model.numVelocities := by
  obtain ⟨kin, hkin, h⟩ := Except.of_bind_eq_ok h
  obtain ⟨_, hcols, h⟩ := Except.of_bind_eq_ok h
  cases h
  exact ⟨⟨rfl, hkin⟩, of_checkColumns_eq_ok hcols⟩

theorem contactKinematics_eq_ok {model : RobotModel α} {state : RobotState α}
    {c : ContactPoint α} {kin : PointKinematics α} (hkin : model.point state c.point = .ok kin)
    (hcols : kin.jacobian.length = model.numVelocities) :
    contactKinematics model state c = .ok (c, kin) := by
  rw [contactKinematics, Except.bind_of_eq_ok hkin, checkColumns, if_pos hcols]
  rfl

theorem of_checkLoops_eq_ok {nv : Nat} {loops : Option (LoopConstraints α)} {u : Unit}
    (h : checkLoops nv loops = .ok u) :
    ∀ l ∈ loops, l.jacobian.cols = nv ∧ l.jdotV.size = l.jacobian.rows := by
  cases loops with
  | none => exact nofun
  | some l =>
    intro l' hl
    cases hl
    obtain ⟨_, hcols, h⟩ := Except.of_bind_eq_ok h
    exact ⟨of_checkColumns_eq_ok hcols, congrArg Prod.fst (of_checkShape_eq_ok h)⟩

theorem of_gather_eq_ok {model : RobotModel α} {state : RobotState α}
    {contacts : List (ContactPoint α)} {d : TickData α}
    (h : gather model state contacts = .ok d) :
    d.Answers model state contacts ∧ d.Shaped model.numVelocities model.numActuators := by
  obtain ⟨_, -, h⟩ := Except.of_bind_eq_ok h
  obtain ⟨M, hM, h⟩ := Except.of_bind_eq_ok h
  obtain ⟨_, hMshape, h⟩ := Except.of_bind_eq_ok h
  obtain ⟨c, hc, h⟩ := Except.of_bind_eq_ok h
  obtain ⟨_, hcshape, h⟩ := Except.of_bind_eq_ok h
  obtain ⟨_, hBshape, h⟩ := Except.of_bind_eq_ok h
  obtain ⟨kinematics, hkin, h⟩ := Except.of_bind_eq_ok h
  obtain ⟨loops, hloops, h⟩ := Except.of_bind_eq_ok h
  obtain ⟨_, hloopshape, h⟩ := Except.of_bind_eq_ok h
  cases h
  have hpoints := Except.of_mapM_eq_ok hkin
  refine ⟨⟨hM, hc, rfl, ?_, hloops, rfl⟩, ?_, ?_, ?_, ?_, ?_⟩
  · exact hpoints.imp fun _ _ h => (of_contactKinematics_eq_ok h).1
  · exact Prod.ext_iff.1 (of_checkShape_eq_ok hMshape)
  · exact congrArg Prod.fst (of_checkShape_eq_ok hcshape)
  · exact Prod.ext_iff.1 (of_checkShape_eq_ok hBshape)
  · intro e he
    obtain ⟨c, -, hce⟩ := Except.exists_of_mem_mapM hkin he
    exact (of_contactKinematics_eq_ok hce).2
  · exact of_checkLoops_eq_ok hloopshape

theorem checkLoops_eq_ok {nv : Nat} {loops : Option (LoopConstraints α)}
    (h : ∀ l ∈ loops, l.jacobian.cols = nv ∧ l.jdotV.size = l.jacobian.rows) :
    checkLoops nv loops = .ok () := by
  cases loops with
  | none => rfl
  | some l =>
    obtain ⟨hcols, hsize⟩ := h l rfl
    rw [checkLoops, checkColumns, if_pos hcols, checkShape, hsize, if_pos rfl]
    rfl

/-- Answers that have the right shapes pass all checks. -/
theorem gather_eq_ok {model : RobotModel α} {state : RobotState α}
    {contacts : List (ContactPoint α)} {d : TickData α}
    (hstate : model.checkState state = .ok ()) (hanswers : d.Answers model state contacts)
    (hshaped : d.Shaped model.numVelocities model.numActuators) :
    gather model state contacts = .ok d := by
  obtain ⟨hM, hc, hB, hpoints, hloops, heffort⟩ := hanswers
  obtain ⟨hMshape, hcshape, hBshape, hcols, hloopshape⟩ := hshaped
  have hkin : contacts.mapM (contactKinematics model state) = .ok d.contacts := by
    generalize d.contacts = es at hpoints hcols
    induction hpoints with
    | nil => rfl
    | cons he _ ih =>
      obtain ⟨hlength, hcols⟩ := List.forall_mem_cons.1 hcols
      rw [List.mapM_cons, contactKinematics_eq_ok he.2 hlength, ih hcols, ← he.1]
      rfl
  have hshape {what : String} {rows cols rows' cols' : Nat} (h : rows = rows' ∧ cols = cols') :
      checkShape what (rows, cols) (rows', cols') = .ok () := if_pos (Prod.ext h.1 h.2)
  rw [gather, Except.bind_of_eq_ok hstate, Except.bind_of_eq_ok hM,
    Except.bind_of_eq_ok (hshape hMshape), Except.bind_of_eq_ok hc,
    Except.bind_of_eq_ok (hshape ⟨hcshape, rfl⟩), ← hB, Except.bind_of_eq_ok (hshape hBshape),
    Except.bind_of_eq_ok hkin, Except.bind_of_eq_ok hloops,
    Except.bind_of_eq_ok (checkLoops_eq_ok hloopshape), ← heffort]
  rfl

theorem of_checkEffort_eq_ok {d : TickData α} {u : Unit} (h : d.checkEffort = .ok u) :
    ∀ limits ∈ d.effortLimits, limits.size = d.numActuators := by
  rw [checkEffort] at h
  intro limits hl
  rw [Option.mem_def.1 hl] at h
  by_cases hs : limits.size = d.numActuators
  · exact hs
  · simp [hs] at h

theorem checkEffort_eq_ok {d : TickData α}
    (h : ∀ limits ∈ d.effortLimits, limits.size = d.numActuators) : d.checkEffort = .ok () := by
  rw [checkEffort]
  cases hl : d.effortLimits with
  | none => rfl
  | some limits => exact if_pos (h limits hl)

end TickData

/-- An assembler knows the velocity of every joint with an extra cost. -/
theorem Assembler.of_create_eq_ok [Scalar α] {settings : Settings α} {robot : RobotModel α}
    {a : Assembler α}
    (h : Assembler.create settings robot = .ok a) :
    a.settings = settings ∧ List.Forall₂ (fun e c => ∃ index, robot.jointIndex e.1 = some index ∧
      c = (index.velocity, e.2)) settings.jointAccelerationCosts.entries a.jointCosts := by
  obtain ⟨costs, hcosts, h⟩ := Except.of_bind_eq_ok h
  cases h
  refine ⟨rfl, (Except.of_mapM_eq_ok hcosts).imp fun e c hc => ?_⟩
  cases hindex : robot.jointIndex e.1 with
  | none =>
    rw [hindex] at hc
    cases hc
  | some index =>
    rw [hindex] at hc
    cases hc
    exact ⟨index, rfl, rfl⟩

theorem Assembler.exists_of_mem_jointCosts [Scalar α] {settings : Settings α} {robot : RobotModel α}
    {a : Assembler α} (h : Assembler.create settings robot = .ok a) {c : Nat × α}
    (hc : c ∈ a.jointCosts) : ∃ e ∈ settings.jointAccelerationCosts.entries, ∃ index,
      robot.jointIndex e.1 = some index ∧ c = (index.velocity, e.2) :=
  exists_of_mem_forall₂ (of_create_eq_ok h).2 hc

/-- A program that was built is the program of data that fit together. -/
theorem Assembler.of_build_eq_ok [Scalar α] {a : Assembler α} {model : RobotModel α}
    {state : RobotState α} {terms : List (TaskTerm α)} {contacts : List (ContactPoint α)}
    {p : ConeProgram α} (h : a.build model state terms contacts = .ok p) :
    ∃ d : TickData α, TickData.gather model state contacts = .ok d ∧
      a.CostFits terms (d.layout a.settings) ∧ d.RowsFit a.settings ∧
      (∀ limits ∈ d.effortLimits, limits.size = d.numActuators) ∧ p = d.program a terms := by
  obtain ⟨d, hd, h⟩ := Except.of_bind_eq_ok h
  obtain ⟨_, hcost, h⟩ := Except.of_bind_eq_ok h
  obtain ⟨_, hrows, h⟩ := Except.of_bind_eq_ok h
  obtain ⟨_, heffort, h⟩ := Except.of_bind_eq_ok h
  cases h
  exact ⟨d, Attempt.of_ofExcept_eq_ok hd, Attempt.of_conforming_eq_ok hcost,
    Attempt.of_conforming_eq_ok hrows,
    TickData.of_checkEffort_eq_ok (Attempt.of_ofExcept_eq_ok heffort), rfl⟩

end WholeBody
