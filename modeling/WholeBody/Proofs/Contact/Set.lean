import Mathlib
import WholeBody.Proofs.SortedMap
import WholeBody.Proofs.Validation

/-!
# The contacts of a set

Which contacts are in a phase after insertions, how the phases make up the list of all contacts, and
which error a set is refused with: the one of the first contact in that list that repeats a name of
its phase or fails its own check.

## Main statements

* `ContactSet.active_insert` — insertion adds to the end of one phase.
* `ContactSet.sorted_toList`, `ContactSet.filter_toList` — all contacts, by ascending phase.
* `ContactSet.stopsAt_of_validate_eq_error` — the first contact at fault.
-/

namespace WholeBody

namespace ContactSet

variable {α : Type} {s : ContactSet α} {p q : PhaseId} {c : ContactPoint α}

theorem active_insert (s : ContactSet α) (p q : PhaseId) (c : ContactPoint α) :
    (s.insert p c).active q = if p = q then s.active q ++ [c] else s.active q := by
  rw [insert, withPhase, active, SortedMap.get?_insert]
  by_cases hpq : p = q
  · rw [if_pos hpq, if_pos hpq, hpq]
    rfl
  · rw [if_neg hpq, if_neg hpq, active]

/-- The phases of all contacts ascend. -/
theorem sorted_toList (s : ContactSet α) :
    (s.toList.map (·.1.number)).Pairwise (· ≤ ·) := by
  rw [toList, List.pairwise_map, List.pairwise_flatMap]
  refine ⟨fun e he => ?_, s.phases.sorted.imp fun {e e'} hlt x hx y hy => ?_⟩
  · refine List.pairwise_map.2 (List.pairwise_of_forall fun c c' => ?_)
    exact UInt32.le_refl _
  · obtain ⟨c, -, rfl⟩ := List.mem_map.1 hx
    obtain ⟨c', -, rfl⟩ := List.mem_map.1 hy
    exact UInt32.le_of_lt hlt

/-- The contacts of one phase, among all contacts, are the active ones in their order. -/
theorem filter_toList (s : ContactSet α) (p : PhaseId) :
    (s.toList.filter (·.1 = p)).map (·.2) = s.active p := by
  have hentries (es : List (PhaseId × List (ContactPoint α))) :
      ((es.flatMap fun e => e.2.map fun c => (e.1, c)).filter (·.1 = p)).map (·.2) =
        (es.filter (·.1 = p)).flatMap (·.2) := by
    induction es with
    | nil => rfl
    | cons e es ih =>
      rw [List.flatMap_cons, List.filter_append, List.map_append, ih, List.filter_map]
      by_cases hp : e.1 = p
      · rw [List.filter_cons_of_pos (by simpa using hp), List.flatMap_cons]
        simp [Function.comp_def, hp]
      · rw [List.filter_cons_of_neg (by simpa using hp)]
        simp [Function.comp_def, hp]
  rw [toList, hentries, SortedMap.filter_key, active]
  cases s.phases.get? p with
  | none => rfl
  | some cs => simp

/-! ### Sets at fault -/

variable [Scalar α] {robot : RobotModel α} {friction : Friction α} {cone : ConeModel} {soc : Bool}
  {e : ConfigError α}

/-- The walk over contacts with their phases stops with an error at the first contact that repeats a
name of its phase or fails its own check. -/
def StopsAt (robot : RobotModel α) (friction : Friction α) (cone : ConeModel) (soc : Bool)
    (contacts : List (PhaseId × ContactPoint α)) (e : ConfigError α) : Prop :=
  ∃ (before : List (PhaseId × ContactPoint α)) (x : PhaseId × ContactPoint α)
    (after : List (PhaseId × ContactPoint α)), contacts = before ++ x :: after ∧
    (∀ y ∈ before, y.2.validate robot friction cone soc = .ok ()) ∧
    (before.map fun y => (y.1, y.2.name)).Nodup ∧
    ((∃ y ∈ before, y.1 = x.1 ∧ y.2.name = x.2.name) ∧ e = .duplicateContact x.2.name x.1 ∨
      (¬ ∃ y ∈ before, y.1 = x.1 ∧ y.2.name = x.2.name) ∧
        x.2.validate robot friction cone soc = .error e)

theorem of_validatePhase_eq_error {phase : PhaseId} {seen : List String}
    {cs : List (ContactPoint α)}
    (h : validatePhase robot friction cone soc phase seen cs = .error e) :
    ∃ (before : List (ContactPoint α)) (c : ContactPoint α) (after : List (ContactPoint α)),
      cs = before ++ c :: after ∧
      (∀ d ∈ before, d.validate robot friction cone soc = .ok () ∧ d.name ∉ seen) ∧
      (before.map (·.name)).Nodup ∧
      ((c.name ∈ seen ∨ ∃ d ∈ before, d.name = c.name) ∧ e = .duplicateContact c.name phase ∨
        ¬ (c.name ∈ seen ∨ ∃ d ∈ before, d.name = c.name) ∧
          c.validate robot friction cone soc = .error e) := by
  induction cs generalizing seen with
  | nil => cases h
  | cons c rest ih =>
    by_cases hseen : c.name ∈ seen
    · rw [validatePhase, if_pos hseen] at h
      cases h
      exact ⟨[], c, rest, rfl, List.forall_mem_nil _, .nil, .inl ⟨.inl hseen, rfl⟩⟩
    · rw [validatePhase, if_neg hseen] at h
      obtain hc | ⟨u, hc, h⟩ := Except.of_bind_eq_error h
      · exact ⟨[], c, rest, rfl, List.forall_mem_nil _, .nil, .inr ⟨by simpa using hseen, hc⟩⟩
      · obtain ⟨before, d, after, rfl, hbefore, hnodup, hfault⟩ := ih h
        have hmoved : (d.name ∈ c.name :: seen ∨ ∃ d' ∈ before, d'.name = d.name) ↔
            (d.name ∈ seen ∨ ∃ d' ∈ c :: before, d'.name = d.name) := by
          rw [List.mem_cons, List.exists_mem_cons_iff, eq_comm, or_left_comm, or_assoc]
        rw [hmoved] at hfault
        refine ⟨c :: before, d, after, rfl, List.forall_mem_cons.2 ⟨⟨hc, hseen⟩, ?_⟩,
          List.nodup_cons.2 ⟨?_, hnodup⟩, hfault⟩
        · exact fun d' hd' => ⟨(hbefore d' hd').1, fun hmem =>
            (hbefore d' hd').2 (List.mem_cons_of_mem _ hmem)⟩
        · intro hmem
          obtain ⟨d', hd', hname⟩ := List.mem_map.1 hmem
          exact (hbefore d' hd').2 (hname ▸ List.mem_cons_self)

omit [Scalar α] in
/-- Names that differ within each phase differ, with their phases, among all contacts. -/
theorem nodup_names_of_entries {es : List (PhaseId × List (ContactPoint α))}
    (hs : es.Pairwise (·.1 < ·.1)) (hnames : ∀ e ∈ es, (e.2.map (·.name)).Nodup) :
    ((es.flatMap fun e => e.2.map fun c => (e.1, c)).map fun y => (y.1, y.2.name)).Nodup := by
  rw [List.map_flatMap, List.nodup_flatMap]
  refine ⟨fun e he => ?_, hs.imp fun {e e'} hlt => ?_⟩
  · have hinj : Function.Injective (Prod.mk e.1 : String → PhaseId × String) :=
      Prod.mk_right_injective e.1
    simpa [Function.comp_def] using (hnames e he).map hinj
  · intro y hy hy'
    simp only [List.map_map, List.mem_map, Function.comp_apply] at hy hy'
    obtain ⟨c, -, rfl⟩ := hy
    obtain ⟨c', -, hkey⟩ := hy'
    exact SortedMap.ne_of_lt hlt (congrArg Prod.fst hkey).symm

/-- A set is refused with the error of the first contact at fault. -/
theorem stopsAt_of_validate_eq_error (h : s.validate robot friction cone soc = .error e) :
    StopsAt robot friction cone soc s.toList e := by
  obtain ⟨entries, b, rest, hsplit, hentries, hb⟩ := Except.of_forM_eq_error h
  obtain ⟨before, c, after, hcontacts, hbefore, hnodup, hfault⟩ := of_validatePhase_eq_error hb
  have hsorted : (entries ++ b :: rest).Pairwise (·.1 < ·.1) := hsplit ▸ s.phases.sorted
  obtain ⟨hfirst, -, hcross⟩ := List.pairwise_append.1 hsorted
  let tag (e : PhaseId × List (ContactPoint α)) := e.2.map fun c => (e.1, c)
  -- what comes before the fault: whole phases, then the beginning of the phase of the fault
  let done := entries ++ [(b.1, before)]
  have hdone : done.Pairwise (·.1 < ·.1) := by
    refine List.pairwise_append.2 ⟨hfirst, List.pairwise_singleton .., fun e he e' he' => ?_⟩
    obtain rfl := List.mem_singleton.1 he'
    exact hcross e he b List.mem_cons_self
  have hmem {y : PhaseId × ContactPoint α} :
      y ∈ done.flatMap tag ↔ (∃ e ∈ entries, y ∈ tag e) ∨ ∃ d ∈ before, (b.1, d) = y := by
    simp [done, tag]
  have hrepeated : (∃ y ∈ done.flatMap tag, y.1 = b.1 ∧ y.2.name = c.name) ↔
      (c.name ∈ [] ∨ ∃ d ∈ before, d.name = c.name) := by
    constructor
    · rintro ⟨y, hy, hphase, hname⟩
      obtain ⟨e, he, hy⟩ | ⟨d, hd, rfl⟩ := hmem.1 hy
      · obtain ⟨d, -, rfl⟩ := List.mem_map.1 hy
        exact absurd hphase (SortedMap.ne_of_lt (hcross e he b List.mem_cons_self))
      · exact .inr ⟨d, hd, hname⟩
    · rintro (hseen | ⟨d, hd, hname⟩)
      · cases hseen
      · exact ⟨(b.1, d), hmem.2 (.inr ⟨d, hd, rfl⟩), rfl, hname⟩
  rw [← hrepeated] at hfault
  refine ⟨done.flatMap tag, (b.1, c), after.map (fun d => (b.1, d)) ++ rest.flatMap tag, ?_, ?_,
    nodup_names_of_entries hdone ?_, hfault⟩
  · rw [toList, hsplit]
    simp [done, tag, hcontacts]
  · intro y hy
    obtain ⟨e, he, hy⟩ | ⟨d, hd, rfl⟩ := hmem.1 hy
    · obtain ⟨d, hd, rfl⟩ := List.mem_map.1 hy
      exact ContactPoint.validate_eq_ok_iff.2 (valid_of_validatePhase_eq_ok (hentries e he) d hd)
    · exact (hbefore d hd).1
  · intro e he
    obtain he | he := List.mem_append.1 he
    · exact (nodup_of_validatePhase_eq_ok (hentries e he)).2
    · obtain rfl := List.mem_singleton.1 he
      exact hnodup

end ContactSet

end WholeBody
