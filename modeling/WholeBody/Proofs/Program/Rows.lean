import Mathlib
import WholeBody.Proofs.Linear.Entry
import WholeBody.Proofs.Program.Shape

/-!
# Rows of the program of a tick

Each family of rows, multiplied with a vector of decision variables, in terms of the blocks of that
vector.

## Main statements

* `TickData.mulVec_dynamicsBlock` — the rows of the equations of motion.
* `mulVec_holonomicRows` — the rows of a holonomic family, with or without slack.
* `TickData.mulVec_forceRows`, `TickData.mulVec_inputRows` — rows over one block.
-/

namespace WholeBody

/-- One value for each block of decision variables. -/
structure Decision where
  accelerations : Vec ℝ
  /-- The force of each contact, by its number. -/
  force : ℕ → Vec3 ℝ
  loopForces : Vec ℝ
  inputs : Vec ℝ
  /-- The slack of each contact, by its number. -/
  contactSlack : ℕ → Vec3 ℝ
  loopSlack : Vec ℝ

/-- The blocks of a vector of decision variables. -/
noncomputable def VariableLayout.split (l : VariableLayout) (x : Vec ℝ) : Decision where
  accelerations := x.slice l.accelerations.start l.accelerations.size
  force i := .ofVec x (l.contact i).start
  loopForces := x.slice l.loopForces.start l.loopForces.size
  inputs := x.slice l.inputs.start l.inputs.size
  contactSlack i := .ofVec x (l.contactSlack.start + 3 * i)
  loopSlack := x.slice l.loopSlack.start l.loopSlack.size

variable {x : Vec ℝ} {i k n : ℕ}

namespace Vec3

theorem component_ofVec (start : ℕ) (hk : k < 3) :
    (ofVec x start).component k = x.entry (start + k) := by
  match k, hk with
  | 0, _ | 1, _ | 2, _ => rfl

/-- Three entries of which one is not zero. -/
theorem ofVec_ne_zero {start : ℕ} (hk : k < 3) (h : x.entry (start + k) ≠ 0) :
    ofVec x start ≠ 0 := by
  intro hzero
  have hcomponent := component_ofVec (x := x) start hk
  rw [hzero, component_zero] at hcomponent
  exact h hcomponent.symm

theorem toVec_ofVec (start : ℕ) : (ofVec x start).toVec = x.slice start 3 := by
  refine Vec.ext_entry (by simp [toVec, toList]) fun k hk => ?_
  have hk3 : k < 3 := hk
  rw [entry_toVec, component_ofVec start hk3, Vec.entry_slice hk3]

end Vec3

/-! ### Rows over one or two blocks -/

/-- The rows of a family: its Jacobian times the accelerations, minus its slack if it has any. -/
theorem mulVec_holonomicRows {J : Mat ℝ} {accel : Span} {slack : Option Span}
    (h : HolonomicFits J accel slack n) (horder : ∀ s ∈ slack, accel.start + accel.size ≤ s.start)
    (hi : i < J.rows) :
    ((holonomicRows J accel slack n).mulVec x).entry i =
      (J.mulVec (x.slice accel.start accel.size)).entry i
        - slack.elim 0 fun s => x.entry (s.start + i) := by
  obtain ⟨hcols, haccel, hslack⟩ := h
  have hzero : (Mat.zeros J.rows n : Mat ℝ).ZeroFrom accel.start :=
    (Mat.zeroFrom_zeros _ _).mono (Nat.zero_le _)
  have hfit : accel.start + J.cols ≤ (Mat.zeros J.rows n : Mat ℝ).cols := by
    rw [hcols]
    exact haccel
  have hJ : (((Mat.zeros J.rows n).setBlock 0 accel.start J).mulVec x).entry i =
      (J.mulVec (x.slice accel.start accel.size)).entry i := by
    rw [Mat.mulVec_setBlock (b := J) hzero le_rfl hfit, Mat.mulVec_zeros, zero_add, hcols]
  cases slack with
  | none => exact hJ.trans (sub_zero _).symm
  | some s =>
    obtain ⟨hsize, hstop⟩ := hslack s rfl
    have hafter : ((Mat.zeros J.rows n).setBlock 0 accel.start J).ZeroFrom s.start := by
      refine (hzero.setBlock (b := J) le_rfl hfit).mono ?_
      rw [hcols]
      exact horder s rfl
    have hid : ((-Mat.identity J.rows : Mat ℝ).mulVec (x.slice s.start J.rows)).entry i =
        -x.entry (s.start + i) := by
      rw [Mat.mulVec_neg, Mat.mulVec_identity hi, Vec.entry_slice hi]
    have hslackFit : s.start + J.rows ≤ n := by
      rw [← hsize]
      exact hstop
    rw [holonomicRows, Mat.mulVec_setBlock (b := -Mat.identity J.rows) hafter (le_refl J.rows)
      hslackFit, hJ]
    exact congrArg _ hid

namespace TickData

variable {d : TickData ℝ} {s : Settings ℝ} {nv nu : ℕ}

/-- Rows over the force of a contact. -/
theorem mulVec_forceRows {l : VariableLayout} {G : Mat ℝ} (hcols : G.cols = 3)
    (hstop : (l.contact i).stop ≤ l.numVariables) :
    ((forceRows l i G).mulVec x).entry k = (G.mulVec ((l.split x).force i).toVec).entry k := by
  have hfit : (l.contact i).start + G.cols ≤ (Mat.zeros G.rows l.numVariables : Mat ℝ).cols := by
    rw [hcols]
    exact hstop
  have hzero : (Mat.zeros G.rows l.numVariables : Mat ℝ).ZeroFrom (l.contact i).start :=
    (Mat.zeroFrom_zeros _ _).mono (Nat.zero_le _)
  rw [forceRows, Mat.mulVec_setBlock hzero (le_refl G.rows) hfit, Mat.mulVec_zeros, zero_add,
    VariableLayout.split, Vec3.toVec_ofVec, hcols]

/-- The rows of the effort limits: the inputs, and after them the inputs with the sign changed. -/
theorem mulVec_inputRows {l : VariableLayout} (hstart : l.inputs.start + nu = l.inputs.stop)
    (hstop : l.inputs.stop ≤ l.numVariables) (hk : k < nu) :
    let A : Mat ℝ := .ofFn (2 * nu) l.numVariables fun i j =>
      if i < nu then if j = l.inputs.start + i then 1 else 0
      else if j = l.inputs.start + (i - nu) then -1 else 0
    (A.mulVec x).entry k = (l.split x).inputs.entry k ∧
      (A.mulVec x).entry (nu + k) = -(l.split x).inputs.entry k := by
  intro A
  have hcol : l.inputs.start + k < l.numVariables := by omega
  have hinput : (l.split x).inputs.entry k = x.entry (l.inputs.start + k) := by
    refine Vec.entry_slice ?_
    rw [Span.size]
    omega
  rw [hinput]
  constructor
  · have hrow : ∀ j ∈ Finset.range l.numVariables, A.entry k j * x.entry j =
        if j = l.inputs.start + k then x.entry j else 0 := by
      intro j hj
      rw [Mat.entry_ofFn_of_lt (by omega) (Finset.mem_range.1 hj), if_pos hk, ite_mul, one_mul,
        zero_mul]
    rw [Mat.entry_mulVec]
    refine (Finset.sum_congr rfl hrow).trans ?_
    rw [Finset.sum_ite_eq', if_pos (Finset.mem_range.2 hcol)]
  · have hrow : ∀ j ∈ Finset.range l.numVariables, A.entry (nu + k) j * x.entry j =
        if j = l.inputs.start + k then -x.entry j else 0 := by
      intro j hj
      rw [Mat.entry_ofFn_of_lt (by omega) (Finset.mem_range.1 hj), if_neg (by omega),
        Nat.add_sub_cancel_left, ite_mul, neg_one_mul, zero_mul]
    rw [Mat.entry_mulVec]
    refine (Finset.sum_congr rfl hrow).trans ?_
    rw [Finset.sum_ite_eq', if_pos (Finset.mem_range.2 hcol)]

/-! ### The equations of motion -/

/-- The generalized forces of the contacts, `Σ Jᵢᵀ λᵢ`. -/
noncomputable def contactTorque (d : TickData ℝ) (z : Decision) (k : ℕ) : ℝ :=
  (d.numbered.map fun e =>
    (e.1.2.jacobian.toMat.transpose.mulVec (z.force e.2).toVec).entry k).sum

/-- The generalized forces of the loops, `J_hᵀ λ_h`. -/
noncomputable def loopTorque (d : TickData ℝ) (z : Decision) (k : ℕ) : ℝ :=
  d.loops.elim 0 fun loops => (loops.jacobian.transpose.mulVec z.loopForces).entry k

/-- Blocks of three columns that are written one after the other. -/
theorem mulVec_foldl_setBlock {τ : Type} {block : τ → Mat ℝ} {start : ℕ} (es : List τ)
    (first : ℕ) {m : Mat ℝ} (hblock : ∀ e ∈ es, (block e).rows = m.rows ∧ (block e).cols = 3)
    (hm : m.ZeroFrom (start + 3 * first)) (hfit : start + 3 * (first + es.length) ≤ m.cols) :
    let m' := (es.zipIdx first).foldl
      (fun m e => m.setBlock 0 (start + 3 * e.2) (block e.1)) m
    m'.ZeroFrom (start + 3 * (first + es.length)) ∧
      (m'.mulVec x).entry k = (m.mulVec x).entry k +
        ((es.zipIdx first).map fun e =>
          ((block e.1).mulVec (x.slice (start + 3 * e.2) 3)).entry k).sum := by
  induction es generalizing first m with
  | nil => exact ⟨hm, (add_zero _).symm⟩
  | cons e es ih =>
    obtain ⟨⟨hrows, hcols⟩, hrest⟩ := List.forall_mem_cons.1 hblock
    rw [List.length_cons] at hfit
    have hnext : (m.setBlock 0 (start + 3 * first) (block e)).ZeroFrom
        (start + 3 * (first + 1)) := by
      refine (hm.setBlock hrows.le ?_).mono ?_ <;> omega
    have hfits : start + 3 * (first + 1 + es.length) ≤
        (m.setBlock 0 (start + 3 * first) (block e)).cols := by
      change _ ≤ m.cols
      omega
    obtain ⟨hzero, hsum⟩ := ih (m := m.setBlock 0 (start + 3 * first) (block e)) (first + 1) hrest
      hnext hfits
    refine ⟨?_, hsum.trans ?_⟩
    · rw [List.length_cons, Nat.add_comm es.length, ← Nat.add_assoc]
      exact hzero
    · rw [Mat.mulVec_setBlock hm hrows.le (by omega), hcols, List.zipIdx_cons, List.map_cons,
        List.sum_cons, add_assoc]

/-- The columns of the accelerations, which are written first. -/
theorem mulVec_accelerationColumns (h : d.Shaped nv nu) :
    let l := d.layout s
    let m := (Mat.zeros d.numVelocities l.numVariables).setBlock 0 l.accelerations.start
      d.massMatrix
    m.ZeroFrom d.numVelocities ∧
      (m.mulVec x).entry k = (d.massMatrix.mulVec (l.split x).accelerations).entry k := by
  intro l m
  have hsize : l.accelerations.size = d.massMatrix.cols :=
    (size_accelerations d s).trans (h.numVelocities_eq.trans h.massMatrix.2.symm)
  have hnone : (Mat.zeros d.numVelocities l.numVariables : Mat ℝ).ZeroFrom
      l.accelerations.start := (Mat.zeroFrom_zeros _ _).mono (Nat.zero_le _)
  have hstop : l.accelerations.start + d.massMatrix.cols = d.numVelocities :=
    hsize ▸ accelerations_stop d s
  have hfit : l.accelerations.start + d.massMatrix.cols ≤ l.numVariables := by
    rw [hstop]
    simp only [l, layout_numVariables, numHardVariables]
    omega
  constructor
  · rw [← hstop]
    exact hnone.setBlock (b := d.massMatrix) (le_refl d.massMatrix.rows) hfit
  · refine (Mat.mulVec_setBlock (b := d.massMatrix) hnone (le_refl d.massMatrix.rows) hfit).trans ?_
    rw [Mat.mulVec_zeros, zero_add, VariableLayout.split, hsize]

/-- The columns of the contact forces. -/
theorem mulVec_contactColumns (h : d.Shaped nv nu) {m : Mat ℝ} (hm : m.ZeroFrom d.numVelocities)
    (hrows : m.rows = d.numVelocities) (hcols : m.cols = (d.layout s).numVariables) :
    let l := d.layout s
    let m' := d.numbered.foldl
      (fun m e => m.setBlock 0 (l.contact e.2).start (-e.1.2.jacobian.toMat.transpose)) m
    m'.ZeroFrom l.loopForces.start ∧
      (m'.mulVec x).entry k = (m.mulVec x).entry k - d.contactTorque (l.split x) k := by
  intro l m'
  have hstart (i : ℕ) : (l.contact i).start = d.numVelocities + 3 * i := by
    simp only [l, layout_contact]
  have hblock : ∀ e ∈ d.contacts, (-e.2.jacobian.toMat.transpose).rows = m.rows ∧
      (-e.2.jacobian.toMat.transpose).cols = 3 := by
    intro e he
    rw [hrows, h.numVelocities_eq]
    exact ⟨h.contacts e he, rfl⟩
  have hfit : d.numVelocities + 3 * (0 + d.contacts.length) ≤ m.cols := by
    rw [hcols, layout_numVariables, numHardVariables]
    omega
  have hfirst : m.ZeroFrom (d.numVelocities + 3 * 0) := hm
  obtain ⟨hzero, hsum⟩ := mulVec_foldl_setBlock (x := x) (k := k) d.contacts 0 hblock hfirst hfit
  have hfold : m' = (d.contacts.zipIdx 0).foldl (fun m e =>
      m.setBlock 0 (d.numVelocities + 3 * e.2) (-e.1.2.jacobian.toMat.transpose)) m := by
    simp only [m', hstart, numbered]
  rw [hfold]
  refine ⟨?_, hsum.trans ?_⟩
  · simp only [l, layout_loopForces]
    rwa [Nat.zero_add] at hzero
  · rw [sub_eq_add_neg, contactTorque, List.sum_neg, List.map_map]
    congr 2
    refine List.map_congr_left fun e _ => ?_
    simp only [Function.comp_apply, VariableLayout.split, Vec3.toVec_ofVec, Mat.mulVec_neg, l,
      layout_contact]

/-- The columns of the loop forces. -/
theorem mulVec_loopColumns (h : d.Shaped nv nu) {loops : LoopConstraints ℝ}
    (hl : d.loops = some loops) {m : Mat ℝ} (hm : m.ZeroFrom (d.layout s).loopForces.start)
    (hrows : m.rows = d.numVelocities) (hcols : m.cols = (d.layout s).numVariables) :
    let l := d.layout s
    let m' := m.setBlock 0 l.loopForces.start (-loops.jacobian.transpose)
    m'.ZeroFrom l.inputs.start ∧
      (m'.mulVec x).entry k = (m.mulVec x).entry k - d.loopTorque (l.split x) k := by
  intro l m'
  have hcount : loops.jacobian.rows = d.numLoopRows := by rw [numLoopRows, hl]
  have hsize : l.loopForces.size = loops.jacobian.rows := (size_loopForces d s).trans hcount.symm
  have hfirst : loops.jacobian.cols ≤ m.rows := by
    rw [hrows, h.numVelocities_eq]
    exact (h.loops loops hl).1.le
  have hfit : l.loopForces.start + loops.jacobian.rows ≤ m.cols := by
    rw [hcols, hcount, layout_numVariables, numHardVariables]
    simp only [l, layout_loopForces]
    omega
  constructor
  · refine (hm.setBlock (b := -loops.jacobian.transpose) hfirst hfit).mono ?_
    change _ + loops.jacobian.rows ≤ _
    rw [hcount, layout_loopForces]
    simp only [l, layout_inputs]
    exact le_rfl
  · refine (Mat.mulVec_setBlock (b := -loops.jacobian.transpose) hm hfirst hfit).trans ?_
    rw [Mat.mulVec_neg, ← sub_eq_add_neg, loopTorque, hl, Option.elim_some, VariableLayout.split,
      hsize]
    rfl

/-- The columns of the inputs. -/
theorem mulVec_inputColumns (h : d.Shaped nv nu) {m : Mat ℝ}
    (hm : m.ZeroFrom (d.layout s).inputs.start) (hrows : m.rows = d.numVelocities)
    (hcols : m.cols = (d.layout s).numVariables) :
    let l := d.layout s
    ((m.setBlock 0 l.inputs.start (-d.actuation)).mulVec x).entry k =
      (m.mulVec x).entry k - (d.actuation.mulVec (l.split x).inputs).entry k := by
  intro l
  have hsize : l.inputs.size = d.actuation.cols := size_inputs d s
  have hfirst : d.actuation.rows ≤ m.rows := by
    rw [hrows, h.numVelocities_eq]
    exact h.actuation.1.le
  have hfit : l.inputs.start + d.actuation.cols ≤ m.cols := by
    rw [hcols, layout_numVariables, numHardVariables, numActuators]
    simp only [l, layout_inputs]
    omega
  rw [Mat.mulVec_setBlock (b := -d.actuation) hm hfirst hfit, Mat.mulVec_neg, ← sub_eq_add_neg,
    VariableLayout.split, hsize]
  rfl

/-- The rows of the equations of motion. -/
theorem mulVec_dynamicsBlock (h : d.Shaped nv nu) :
    let z := (d.layout s).split x
    ((d.dynamicsBlock (d.layout s)).A.mulVec x).entry k =
      (d.massMatrix.mulVec z.accelerations).entry k - d.contactTorque z k - d.loopTorque z k
        - (d.actuation.mulVec z.inputs).entry k := by
  intro z
  let l := d.layout s
  let accel := (Mat.zeros d.numVelocities l.numVariables).setBlock 0 l.accelerations.start
    d.massMatrix
  obtain ⟨hzero, haccel⟩ := mulVec_accelerationColumns (s := s) (x := x) (k := k) h
  obtain ⟨hcontactZero, hcontact⟩ :=
    mulVec_contactColumns (s := s) (x := x) (k := k) h hzero rfl rfl
  let step (rows : Mat ℝ) (e : (ContactPoint ℝ × PointKinematics ℝ) × ℕ) : Mat ℝ :=
    rows.setBlock 0 (l.contact e.2).start (-e.1.2.jacobian.toMat.transpose)
  obtain ⟨hrows, hcols⟩ := shape_foldl step (fun _ _ => ⟨rfl, rfl⟩) d.numbered accel
  rw [haccel] at hcontact
  rw [dynamicsBlock]
  cases hl : d.loops with
  | none =>
    have hinputs : l.inputs.start = l.loopForces.start := by
      simp [l, layout_inputs, layout_loopForces, numLoopRows, hl]
    refine (mulVec_inputColumns h (hinputs ▸ hcontactZero) hrows hcols).trans ?_
    rw [hcontact, loopTorque, hl, Option.elim_none, sub_zero]
  | some loops =>
    obtain ⟨hloopZero, hloop⟩ := mulVec_loopColumns (x := x) (k := k) h hl hcontactZero hrows hcols
    refine (mulVec_inputColumns h hloopZero hrows hcols).trans ?_
    rw [hloop, hcontact]

end TickData

end WholeBody
