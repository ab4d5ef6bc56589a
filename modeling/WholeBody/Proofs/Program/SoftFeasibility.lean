import Mathlib
import WholeBody.Proofs.Contact.Frame
import WholeBody.Proofs.Linear.Form
import WholeBody.Proofs.Program.Join

/-!
# Feasibility of soft programs

A tick can be solved whenever its holonomic families are soft, however contradictory their rows are.
Without inputs, and with contacts that push along their normals as little as they may, the equations
of motion give the accelerations, and the slack takes what is left of the other rows.

## Main statements

* `TickData.rest` — a decision that meets the constraints.
* `exists_feasible` — every program that is built with soft families has a feasible point.
-/

namespace WholeBody

namespace TickData

variable {d : TickData ℝ} {s : Settings ℝ} {nv nu : ℕ}

/-- The decision without inputs and loop forces, with contacts that push along their normals with
the least force, and with the slack that given accelerations leave. -/
noncomputable def rest (d : TickData ℝ) (s : Settings ℝ) (accelerations : Vec ℝ) : Decision where
  accelerations := accelerations
  force i := d.contacts[i]?.elim 0 fun e => s.minNormalForce • e.1.frame.normal
  loopForces := .zeros d.numLoopRows
  inputs := .zeros d.numActuators
  contactSlack i := d.contacts[i]?.elim 0 fun e =>
    .ofVec (e.2.jacobian.toMat.mulVec accelerations) 0 + e.2.jdotV
  loopSlack := d.loops.elim (.zeros 0) fun l => l.jacobian.mulVec accelerations + l.jdotV

theorem force_rest {e : (ContactPoint ℝ × PointKinematics ℝ) × ℕ} (he : e ∈ d.numbered)
    (accelerations : Vec ℝ) :
    (d.rest s accelerations).force e.2 = s.minNormalForce • e.1.1.frame.normal := by
  simp only [rest, mem_numbered.1 he, Option.elim_some]

theorem contactSlack_rest {e : (ContactPoint ℝ × PointKinematics ℝ) × ℕ} (he : e ∈ d.numbered)
    (accelerations : Vec ℝ) {k : ℕ} (hk : k < 3) :
    ((d.rest s accelerations).contactSlack e.2).component k =
      (e.1.2.jacobian.toMat.mulVec accelerations).entry k + e.1.2.jdotV.component k := by
  simp only [rest, mem_numbered.1 he, Option.elim_some, Vec3.component_add,
    Vec3.component_ofVec _ hk, Nat.zero_add]

theorem loopSlack_rest {loops : LoopConstraints ℝ} (hl : d.loops = some loops)
    (hsize : loops.jdotV.size = loops.jacobian.rows) (accelerations : Vec ℝ) (k : ℕ) :
    (d.rest s accelerations).loopSlack.entry k =
      (loops.jacobian.mulVec accelerations).entry k + loops.jdotV.entry k := by
  simp only [rest, hl, Option.elim_some]
  exact Vec.entry_add (by rw [hsize, Mat.size_mulVec])

/-- Some accelerations obey the equations of motion of the decision that they make. -/
theorem exists_accelerations (h : d.Shaped nv nu) (hM : d.massMatrix.IsInvertible) :
    ∃ accelerations : Vec ℝ, accelerations.size = d.numVelocities ∧
      ∀ k < d.numVelocities, (d.massMatrix.mulVec accelerations).entry k + d.bias.entry k =
        d.contactTorque (d.rest s accelerations) k := by
  -- The contact forces do not depend on the accelerations.
  let torque : Vec ℝ := .ofFn d.numVelocities (d.contactTorque (d.rest s (.zeros 0)))
  obtain ⟨accelerations, hsize, hsolve⟩ :=
    hM.exists_mulVec_eq (v := torque - d.bias) ((Vec.size_sub _ _).trans (Vec.size_ofFn _ _))
  have hbias : d.bias.size ≤ torque.size := by
    rw [h.bias, ← h.numVelocities_eq, Vec.size_ofFn]
  refine ⟨accelerations, ?_, fun k hk => ?_⟩
  · rw [hsize, ← hM.1]
    rfl
  · rw [hsolve, Vec.entry_sub hbias, sub_add_cancel, Vec.entry_ofFn_of_lt hk]
    rfl

/-- Soft families can always be met. -/
theorem exists_meets (h : d.Shaped nv nu) (hM : d.massMatrix.IsInvertible)
    (hleast : 0 ≤ s.minNormalForce)
    (hcontacts : ∀ e ∈ d.contacts, e.1.normal.norm ≠ 0 ∧ (e.1.coneOr s.defaultCone).Valid)
    (hslip : d.contacts = [] ∨ ∃ w, s.contactMode = .soft w)
    (hclosed : d.numLoopRows = 0 ∨ ∃ w, s.loopMode = .soft w)
    (heffort : ∀ limits ∈ d.effortLimits, ∀ k < d.numActuators, 0 ≤ limits.entry k) :
    ∃ z, d.Sized z ∧ d.Meets s z := by
  obtain ⟨accelerations, hsize, hmotion⟩ := exists_accelerations (s := s) h hM
  refine ⟨d.rest s accelerations, ⟨hsize, Vec.size_zeros _, Vec.size_zeros _⟩, ?_⟩
  have hcontact {e : (ContactPoint ℝ × PointKinematics ℝ) × ℕ} (he : e ∈ d.numbered) :=
    hcontacts e.1 (mem_contacts_of_mem_numbered he)
  refine ⟨fun k hk => ?_, fun e he k hk => ?_, fun loops hl k hk => ?_, fun e he => ?_,
    fun e he => ?_, fun limits hl k hk => ?_⟩
  · have hinputs : (d.actuation.mulVec (d.rest s accelerations).inputs).entry k = 0 := by
      simp [Mat.entry_mulVec, rest]
    have hloopTorque : d.loopTorque (d.rest s accelerations) k = 0 := by
      rw [loopTorque]
      cases d.loops <;> simp [Mat.entry_mulVec, rest]
    rw [hinputs, hloopTorque, zero_add, add_zero]
    exact hmotion k hk
  · obtain hnone | ⟨w, hmode⟩ := hslip
    · have hmem := mem_contacts_of_mem_numbered he
      simp [hnone] at hmem
    · rw [hmode, ConstraintMode.slack, contactSlack_rest he accelerations hk]
      rfl
  · have hcount : d.numLoopRows = loops.jacobian.rows := by rw [numLoopRows, hl]
    obtain hnone | ⟨w, hmode⟩ := hclosed
    · omega
    · rw [hmode, ConstraintMode.slack, loopSlack_rest hl (h.loops loops hl).2]
      rfl
  · rw [force_rest he]
    exact (ContactFrame.ofNormal_normal_dot (hcontact he).1 _).ge
  · rw [force_rest he, ContactPoint.frame, ContactFrame.load_normal (hcontact he).1]
    exact (hcontact he).2.accepts_normal hleast
  · simpa [rest] using heffort limits hl k hk

end TickData

/-- Every program that is built from validated settings and contacts has a feasible point, provided
that the mass matrix is invertible, no effort limit is negative, and a family that has any rows is
soft. -/
theorem exists_feasible {settings : Settings ℝ} (hsettings : settings.validate = .ok ())
    {robot model : RobotModel ℝ} {a : Assembler ℝ}
    (hcreate : Assembler.create settings robot = .ok a) {set : ContactSet ℝ} {soc : Bool}
    (hset : set.validate robot settings.defaultFriction settings.defaultCone soc = .ok ())
    {state : RobotState ℝ} {terms : List (TaskTerm ℝ)} {contacts : List (ContactPoint ℝ)}
    (hactive : ∀ c ∈ contacts, ∃ phase, c ∈ set.active phase) {p : ConeProgram ℝ}
    (hbuild : a.build model state terms contacts = .ok p)
    (hmass : ∀ M, model.massMatrix state = .ok M → M.IsInvertible)
    (hslip : contacts = [] ∨ ∃ w, settings.contactMode = .soft w)
    (hclosed : (∀ loops, model.loopConstraints state = .ok (some loops) → loops.jacobian.rows = 0) ∨
      ∃ w, settings.loopMode = .soft w)
    (heffort : ∀ limits ∈ model.effortLimits, ∀ k < model.numActuators, 0 ≤ limits.entry k) :
    ∃ x : Vec ℝ, x.size = p.numVariables ∧ p.Feasible x := by
  obtain ⟨d, hd, -, -, -, rfl⟩ := Assembler.of_build_eq_ok hbuild
  obtain ⟨hanswers, hshaped⟩ := TickData.of_gather_eq_ok hd
  obtain ⟨rfl, -⟩ := Assembler.of_create_eq_ok hcreate
  have hleast := (Settings.validate_eq_ok_iff.1 hsettings).minNormalForce
  rw [Scalar.isNonnegative_real] at hleast
  have hcontacts : ∀ e ∈ d.contacts,
      e.1.normal.norm ≠ 0 ∧ (e.1.coneOr a.settings.defaultCone).Valid := by
    intro e he
    have hmem : e.1 ∈ contacts := by
      rw [← hanswers.map_fst_contacts]
      exact List.mem_map_of_mem he
    obtain ⟨phase, hphase⟩ := hactive e.1 hmem
    have hvalid := ContactSet.valid_of_validate_eq_ok hset hphase
    refine ⟨fun hzero => hvalid.normal.2 ?_, hvalid.cone⟩
    rw [hzero, Scalar.ofDecimal_real]
    norm_num
  have hslip : d.contacts = [] ∨ ∃ w, a.settings.contactMode = .soft w := by
    refine hslip.imp_left fun hnone => ?_
    rwa [← hanswers.map_fst_contacts, List.map_eq_nil_iff] at hnone
  have hclosed : d.numLoopRows = 0 ∨ ∃ w, a.settings.loopMode = .soft w := by
    refine hclosed.imp_left fun hnone => ?_
    rw [TickData.numLoopRows]
    cases hl : d.loops with
    | none => rfl
    | some loops => exact hnone loops (hl ▸ hanswers.loops)
  rw [← hanswers.effortLimits, ← hshaped.numActuators_eq] at heffort
  obtain ⟨z, hz, hmeets⟩ := TickData.exists_meets hshaped (hmass _ hanswers.massMatrix) hleast
    hcontacts hslip hclosed heffort
  refine ⟨(d.layout a.settings).join z, ?_, ?_⟩
  · rw [TickData.numVariables_program]
    exact Vec.size_ofFn _ _
  · exact (TickData.feasible_program_iff hshaped a terms).2 (hmeets.split_join hz)

/-- A point mass that has to push with two feet at once, one of them with a conic cone. -/
theorem exists_feasible_pointMass :
    let r : PointMass ℝ := ⟨"mass", 2, 10⟩
    let settings : Settings ℝ := { Settings.standard with minNormalForce := 5 }
    let foot : ContactPoint ℝ := ⟨"foot", ⟨"mass", 0⟩, ⟨0, 0, 1⟩, none, some .conic⟩
    let toe : ContactPoint ℝ := ⟨"toe", ⟨"mass", 0⟩, ⟨0, 0, 2⟩, none, none⟩
    let state : RobotState ℝ := ⟨.zeros 3, .zeros 3⟩
    ∃ a p, Assembler.create settings r.model = .ok a ∧
      a.build r.model state [] [foot, toe] = .ok p ∧
      ∃ x : Vec ℝ, x.size = p.numVariables ∧ p.Feasible x := by
  intro r settings foot toe state
  let a : Assembler ℝ := ⟨settings, []⟩
  let set : ContactSet ℝ := ContactSet.empty.withPhase .doubleStance [foot, toe]
  have hstandard := Settings.valid_standard
  have hsettings : settings.validate = .ok () :=
    Settings.validate_eq_ok_iff.2 { hstandard with
      minNormalForce := Scalar.isNonnegative_real.2 (by norm_num [settings]) }
  have hcreate : Assembler.create settings r.model = .ok a := rfl
  have hvalid {name : String} {h : ℝ} (hh : 1 ≤ h) {cone : Option ConeModel}
      (hcone : (cone.getD settings.defaultCone).Valid) :
      (⟨name, ⟨"mass", 0⟩, ⟨0, 0, h⟩, none, cone⟩ : ContactPoint ℝ).Valid r.model
        settings.defaultFriction settings.defaultCone true := by
    have hnonneg : 0 ≤ h := by linarith
    refine ⟨by simp [r, PointMass.model], ⟨rfl, ?_⟩, rfl, hstandard.defaultFriction, hcone,
      fun _ => rfl⟩
    rw [Vec3.norm_vertical hnonneg, Scalar.ofDecimal_real]
    norm_num
    linarith
  have hset : set.validate r.model settings.defaultFriction settings.defaultCone true = .ok () := by
    refine Except.forM_eq_ok_iff.2 (List.forall_mem_singleton.2 ?_)
    simp only [ContactSet.validatePhase, Except.seq_eq_ok_iff, Except.guard_bind_eq_ok_iff,
      ContactPoint.validate_eq_ok_iff]
    refine ⟨by simp, hvalid le_rfl (by simp [ConeModel.Valid]), by simp [foot, toe],
      hvalid one_le_two ?_, trivial⟩
    exact hstandard.defaultCone
  have hactive : ∀ c ∈ [foot, toe], ∃ phase, c ∈ set.active phase :=
    fun c hc => ⟨.doubleStance, hc⟩
  have hbuild : a.build r.model state [] [foot, toe] =
      .ok ((r.tickData state [foot, toe]).program a []) :=
    PointMass.build_eq_ok ⟨rfl, rfl⟩ (by simp [foot, toe, r]) (List.forall_mem_nil _)
      (List.forall_mem_nil _)
  refine ⟨a, _, hcreate, hbuild, exists_feasible hsettings hcreate hset hactive hbuild ?_
    (.inr ⟨_, rfl⟩) (.inl ?_) ?_⟩
  · intro M hM
    cases hM
    exact Mat.isInvertible_scalarMatrix 3 two_ne_zero
  · intro loops hloops
    cases hloops
  · intro limits hlimits
    cases hlimits

end WholeBody
