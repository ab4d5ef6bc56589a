import Mathlib
import WholeBody.Proofs.Program.Shape
import WholeBody.Robot.PointMass

/-!
# Programs of a point mass

A point mass answers in every state of three positions and three velocities, so its program can
always be built.
-/

namespace WholeBody

namespace PointMass

variable {α : Type} [Scalar α]

/-- What a point mass answers. -/
def tickData (r : PointMass α) (state : RobotState α) (contacts : List (ContactPoint α)) :
    TickData α where
  massMatrix := .scalarMatrix 3 r.mass
  bias := .ofList [0, 0, r.mass * r.gravity]
  actuation := .zeros 3 0
  contacts := contacts.map fun c => (c, kinematics state)
  loops := none
  effortLimits := none

variable {r : PointMass α} {state : RobotState α} {contacts : List (ContactPoint α)}

theorem shaped_tickData : (r.tickData state contacts).Shaped 3 0 :=
  ⟨⟨rfl, rfl⟩, rfl, ⟨rfl, rfl⟩, List.forall_mem_map.2 fun _ _ => List.length_ofFn, nofun⟩

theorem gather_eq_ok (hstate : state.q.size = 3 ∧ state.v.size = 3)
    (hbody : ∀ c ∈ contacts, c.point.body = r.body) :
    TickData.gather r.model state contacts = .ok (r.tickData state contacts) := by
  have hcheck : checkDimensions 3 3 state = .ok () := if_pos hstate
  have hpoint (c : ContactPoint α) (hc : c ∈ contacts) :
      r.model.point state c.point = .ok (kinematics state) := by
    simp only [model, hbody c hc, hcheck, ne_eq, not_true, if_false]
    rfl
  have hanswers : (r.tickData state contacts).Answers r.model state contacts := by
    refine ⟨?_, ?_, rfl, ?_, rfl, rfl⟩
    · simp only [model, hcheck]
      rfl
    · simp only [model, hcheck]
      rfl
    · exact List.forall₂_map_right_iff.2 (List.forall₂_same.2 fun c hc => ⟨rfl, hpoint c hc⟩)
  exact TickData.gather_eq_ok hcheck hanswers shaped_tickData

/-- A point mass has no other answers. -/
theorem eq_tickData {d : TickData α} (h : TickData.gather r.model state contacts = .ok d) :
    d = r.tickData state contacts := by
  obtain ⟨hanswers, -⟩ := TickData.of_gather_eq_ok h
  have hcontacts := hanswers.contacts_eq (fun _ => kinematics state) fun c kin hkin => by
    obtain ⟨-, hkin⟩ := Except.guard_bind_eq_ok_iff.1 hkin
    obtain ⟨_, -, hkin⟩ := Except.of_bind_eq_ok hkin
    exact (Except.ok.inj hkin).symm
  obtain ⟨hmass, hbias, hactuation, -, hloops, heffort⟩ := hanswers
  obtain ⟨_, -, hmass⟩ := Except.of_bind_eq_ok hmass
  obtain ⟨_, -, hbias⟩ := Except.of_bind_eq_ok hbias
  obtain ⟨M, c, B, es, loops, limits⟩ := d
  cases hmass
  cases hbias
  cases hloops
  cases hactuation
  cases heffort
  cases hcontacts
  rfl

/-- The program of a point mass can be built whenever terms and joint costs fit. -/
theorem build_eq_ok {a : Assembler α} {terms : List (TaskTerm α)}
    (hstate : state.q.size = 3 ∧ state.v.size = 3)
    (hbody : ∀ c ∈ contacts, c.point.body = r.body) (hterms : ∀ t ∈ terms, t.Fits 3)
    (hcosts : ∀ e ∈ a.jointCosts, e.1 < 3) :
    a.build r.model state terms contacts = .ok ((r.tickData state contacts).program a terms) :=
  Assembler.build_eq_ok (gather_eq_ok hstate hbody) hterms hcosts rfl

end PointMass

end WholeBody
