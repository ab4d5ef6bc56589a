import Mathlib
import WholeBody.Proofs.Tracking.Evaluation
import WholeBody.Robot.FloatingBody
import WholeBody.Robot.PointMass

/-!
# Robots that always answer

A point mass and a floating body refuse a state only for its dimensions, and what they answer for
any other state has the right shape. Only the loops of a floating body are given by the user, who
may get their shape wrong.

## Main statements

* `RobotModel.Serves` — a robot that answers in every state of its dimensions.
* `PointMass.serves`, `FloatingBody.serves` — the robots at hand do.
-/

namespace WholeBody

variable {α : Type} [Scalar α]

/-- A query that fails only for the dimensions of a state, and whose answers are good. -/
structure Served {β : Type} (nq nv : Nat) (query : RobotState α → Except ModelError β)
    (good : β → Prop) : Prop where
  error : ∀ s e, query s = .error e → checkDimensions nq nv s = .error e
  ok : ∀ s b, query s = .ok b → good b

omit [Scalar α] in
/-- A query that checks the dimensions and then computes its answer. -/
theorem Served.of_check {β : Type} {nq nv : Nat} {answer : RobotState α → β} {good : β → Prop}
    (h : ∀ s, good (answer s)) : Served nq nv
      (fun s => do checkDimensions nq nv s; return answer s) good where
  error s e he := by
    obtain he | ⟨_, -, he⟩ := Except.of_bind_eq_error he
    · exact he
    · cases he
  ok s b hb := by
    obtain ⟨_, -, hb⟩ := Except.of_bind_eq_ok hb
    cases hb
    exact h s

/-- A robot that answers in every state of its dimensions, with the right shapes. Its loops are the
same in every state, and may have any shape. -/
structure RobotModel.Serves (m : RobotModel α) (nq nv nu : Nat)
    (loops : Option (LoopConstraints α)) : Prop extends m.Regular nq nv nu where
  actuation : m.actuation.rows = nv ∧ m.actuation.cols = nu
  massMatrix : Served nq nv m.massMatrix (·.IsSize nv)
  bias : Served nq nv m.bias (·.size = nv)
  centerOfMass : Served nq nv m.centerOfMass (·.jacobian.length = nv)
  point : ∀ p, m.hasBody p.body = true → Served nq nv (m.point · p) (·.jacobian.length = nv)
  frame : ∀ body, m.hasBody body = true →
    Served nq nv (m.frame · body) (·.jacobian.length = nv)
  loopConstraints : Served nq nv m.loopConstraints (· = loops)

theorem PointMass.serves (r : PointMass α) : r.model.Serves 3 3 0 none where
  numPositions := rfl
  numVelocities := rfl
  numActuators := rfl
  checkState := rfl
  jointIndex := nofun
  actuation := ⟨rfl, rfl⟩
  massMatrix := .of_check fun _ => ⟨rfl, rfl⟩
  bias := .of_check fun _ => rfl
  centerOfMass := .of_check fun _ => rfl
  point p hp := by
    have hbody : p.body = r.body := of_decide_eq_true hp
    have hquery : (r.model.point · p) =
        fun s => do checkDimensions 3 3 s; return kinematics s := by
      funext s
      simp [model, hbody]
    rw [hquery]
    exact .of_check fun _ => rfl
  frame b hb := by
    have hbody : b = r.body := of_decide_eq_true hb
    have hquery : (r.model.frame · b) = fun s => do
        checkDimensions 3 3 s
        return { orientation := .one, jacobian := .ofBlocks 3 .zero .zero, jdotV := 0 } := by
      funext s
      simp [model, hbody]
    rw [hquery]
    exact .of_check fun _ => rfl
  loopConstraints := ⟨nofun, fun _ _ h => by cases h; rfl⟩

theorem FloatingBody.serves (r : FloatingBody α) :
    r.model.Serves r.numPositions r.numVelocities r.numActuators r.loops where
  numPositions := rfl
  numVelocities := rfl
  numActuators := rfl
  checkState := rfl
  jointIndex name index h := by
    obtain ⟨k, hk, rfl⟩ := Option.map_eq_some_iff.1 h
    have hlt := (List.findIdx?_eq_some_iff_findIdx_eq.1 hk).1
    simp only [numPositions, numVelocities]
    omega
  actuation := ⟨rfl, rfl⟩
  massMatrix := .of_check fun _ => ⟨rfl, rfl⟩
  bias := .of_check fun _ => Vec.size_ofFn _ _
  centerOfMass := .of_check fun _ => List.length_ofFn
  point p hp := by
    have hbody : p.body = r.body := of_decide_eq_true hp
    have hquery : (r.model.point · p) = fun s => do
        checkDimensions r.numPositions r.numVelocities s
        return r.pointKinematics s p.offset := by
      funext s
      simp [model, checkBody, check, hbody]
      rfl
    rw [hquery]
    exact .of_check fun _ => List.length_ofFn
  frame b hb := by
    have hbody : b = r.body := of_decide_eq_true hb
    have hquery : (r.model.frame · b) = fun s => do
        checkDimensions r.numPositions r.numVelocities s
        return {
          orientation := orientation s
          jacobian := .ofBlocks r.numVelocities .zero .identity
          jdotV := 0 } := by
      funext s
      simp [model, checkBody, check, hbody]
      rfl
    rw [hquery]
    exact .of_check fun _ => List.length_ofFn
  loopConstraints := .of_check fun _ => rfl

end WholeBody
