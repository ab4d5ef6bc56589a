import Mathlib
import WholeBody.Proofs.Program.Shape
import WholeBody.Robot.FloatingBody

/-!
# Programs of a floating body

A floating body answers in every state of its dimensions, so its program can be built whenever the
loops that it was given have the right shape.
-/

namespace WholeBody

variable {α : Type} [Scalar α] {state : RobotState α} {contacts : List (ContactPoint α)}

namespace FloatingBody

variable {r : FloatingBody α}

/-- What a floating body answers. -/
def tickData (r : FloatingBody α) (state : RobotState α) (contacts : List (ContactPoint α)) :
    TickData α where
  massMatrix := r.massMatrix state
  bias := r.bias state
  actuation := r.actuation
  contacts := contacts.map fun c => (c, r.pointKinematics state c.point.offset)
  loops := r.loops
  effortLimits := r.effortLimit.map (.replicate r.numActuators)

theorem shaped_tickData
    (hloops : ∀ l ∈ r.loops, l.jacobian.cols = r.numVelocities ∧ l.jdotV.size = l.jacobian.rows) :
    (r.tickData state contacts).Shaped r.numVelocities r.numActuators :=
  ⟨⟨rfl, rfl⟩, Vec.size_ofFn _ _, ⟨rfl, rfl⟩, List.forall_mem_map.2 fun _ _ => List.length_ofFn,
    hloops⟩

theorem gather_eq_ok (hstate : state.q.size = r.numPositions ∧ state.v.size = r.numVelocities)
    (hbody : ∀ c ∈ contacts, c.point.body = r.body)
    (hloops : ∀ l ∈ r.loops, l.jacobian.cols = r.numVelocities ∧ l.jdotV.size = l.jacobian.rows) :
    TickData.gather r.model state contacts = .ok (r.tickData state contacts) := by
  have hcheck : r.check state = .ok () := if_pos hstate
  have hpoint (c : ContactPoint α) (hc : c ∈ contacts) :
      r.model.point state c.point = .ok (r.pointKinematics state c.point.offset) := by
    have hown : r.checkBody c.point.body = .ok () := if_pos (hbody c hc)
    simp only [model, hown, hcheck]
    rfl
  have hanswers : (r.tickData state contacts).Answers r.model state contacts := by
    refine ⟨?_, ?_, rfl, ?_, ?_, rfl⟩
    · simp only [model, hcheck]
      rfl
    · simp only [model, hcheck]
      rfl
    · refine List.forall₂_map_right_iff.2 (List.forall₂_same.2 fun c hc => ⟨rfl, hpoint c hc⟩)
    · simp only [model, hcheck]
      rfl
  exact TickData.gather_eq_ok hcheck hanswers (shaped_tickData hloops)

/-- A floating body has no other answers. -/
theorem eq_tickData {d : TickData α} (h : TickData.gather r.model state contacts = .ok d) :
    d = r.tickData state contacts := by
  obtain ⟨hanswers, -⟩ := TickData.of_gather_eq_ok h
  have hcontacts := hanswers.contacts_eq (fun c => r.pointKinematics state c.point.offset)
    fun c kin hkin => by
      obtain ⟨_, -, hkin⟩ := Except.of_bind_eq_ok hkin
      obtain ⟨_, -, hkin⟩ := Except.of_bind_eq_ok hkin
      exact (Except.ok.inj hkin).symm
  obtain ⟨hmass, hbias, hactuation, -, hloops, heffort⟩ := hanswers
  obtain ⟨_, -, hmass⟩ := Except.of_bind_eq_ok hmass
  obtain ⟨_, -, hbias⟩ := Except.of_bind_eq_ok hbias
  obtain ⟨_, -, hloops⟩ := Except.of_bind_eq_ok hloops
  obtain ⟨M, c, B, es, loops, limits⟩ := d
  cases hmass
  cases hbias
  cases hloops
  cases hactuation
  cases heffort
  cases hcontacts
  rfl

/-- The program of a floating body can be built whenever terms, joint costs and loops fit. -/
theorem build_eq_ok {a : Assembler α} {terms : List (TaskTerm α)}
    (hstate : state.q.size = r.numPositions ∧ state.v.size = r.numVelocities)
    (hbody : ∀ c ∈ contacts, c.point.body = r.body)
    (hloops : ∀ l ∈ r.loops, l.jacobian.cols = r.numVelocities ∧ l.jdotV.size = l.jacobian.rows)
    (hterms : ∀ t ∈ terms, t.Fits r.numVelocities)
    (hcosts : ∀ e ∈ a.jointCosts, e.1 < r.numVelocities) :
    a.build r.model state terms contacts = .ok ((r.tickData state contacts).program a terms) := by
  refine Assembler.build_eq_ok (gather_eq_ok hstate hbody hloops) hterms hcosts
    (TickData.checkEffort_eq_ok fun limits hlimits => ?_)
  obtain ⟨limit, -, rfl⟩ := Option.map_eq_some_iff.1 hlimits
  exact Vec.size_replicate _ _

end FloatingBody

end WholeBody
