import Mathlib
import WholeBody.Error

/-!
# Computations that may fail

How a chain of checks is taken apart. A chain with a result has passed every check, one without has
stopped at one of them, and a chain conforms when each of its links does, given the results of the
links before it.
-/

namespace WholeBody

section Except

variable {ε β γ : Type}

theorem Except.of_bind_eq_ok {x : Except ε β} {f : β → Except ε γ} {c : γ}
    (h : (x >>= f) = .ok c) : ∃ b, x = .ok b ∧ f b = .ok c := by
  cases x with
  | error e => cases h
  | ok b => exact ⟨b, rfl, h⟩

/-- A chain without a result has stopped at one of its links. -/
theorem Except.of_bind_eq_error {x : Except ε β} {f : β → Except ε γ} {e : ε}
    (h : (x >>= f) = .error e) : x = .error e ∨ ∃ b, x = .ok b ∧ f b = .error e := by
  cases x with
  | error e' =>
    cases h
    exact .inl rfl
  | ok b => exact .inr ⟨b, rfl, h⟩

/-- Checks one after the other: the first failing one gives the error. -/
theorem Except.of_seq_eq_error {x : Except ε Unit} {f : Unit → Except ε β} {e : ε}
    (h : (x >>= f) = .error e) : x = .error e ∨ x = .ok () ∧ f () = .error e := by
  obtain hx | ⟨⟨⟩, hx, hf⟩ := Except.of_bind_eq_error h
  · exact .inl hx
  · exact .inr ⟨hx, hf⟩

theorem Except.bind_of_eq_ok {x : Except ε β} {f : β → Except ε γ} {b : β} (h : x = .ok b) :
    (x >>= f) = f b := by
  rw [h]
  rfl

theorem Except.bind_of_eq_error {x : Except ε β} {f : β → Except ε γ} {e : ε}
    (h : x = .error e) : (x >>= f) = .error e := by
  rw [h]
  rfl

/-- A chain has a result when each of its links has one. -/
theorem Except.bind_eq_ok_iff {x : Except ε β} {f : β → Except ε γ} {c : γ} :
    (x >>= f) = .ok c ↔ ∃ b, x = .ok b ∧ f b = .ok c := by
  refine ⟨Except.of_bind_eq_ok, ?_⟩
  rintro ⟨b, hx, hf⟩
  rw [Except.bind_of_eq_ok hx, hf]

theorem Except.exists_bind_eq_ok_iff {x : Except ε β} {f : β → Except ε γ} :
    (∃ c, (x >>= f) = .ok c) ↔ ∃ b, x = .ok b ∧ ∃ c, f b = .ok c := by
  simp only [Except.bind_eq_ok_iff, ← exists_and_left]
  exact exists_comm

theorem Except.exists_bind_pure_eq_ok_iff {x : Except ε β} {f : β → γ} :
    (∃ c, (x >>= fun b => pure (f b)) = .ok c) ↔ ∃ b, x = .ok b := by
  rw [Except.exists_bind_eq_ok_iff]
  exact exists_congr fun b => and_iff_left ⟨f b, rfl⟩

/-- Two checks pass one after the other when both do. -/
theorem Except.seq_eq_ok_iff {x : Except ε Unit} {f : Unit → Except ε β} {b : β} :
    (x >>= f) = .ok b ↔ x = .ok () ∧ f () = .ok b := by
  constructor
  · intro h
    obtain ⟨⟨⟩, hx, hf⟩ := Except.of_bind_eq_ok h
    exact ⟨hx, hf⟩
  · rintro ⟨rfl, hf⟩
    exact hf

/-- A choice between an error and a result. -/
theorem Except.ite_error_eq_ok_iff {p : Prop} [Decidable p] {e : ε} {b c : β} :
    (if p then .error e else .ok b : Except ε β) = .ok c ↔ ¬ p ∧ c = b := by
  by_cases hp : p
  · simp [hp]
  · simp [hp, eq_comm]

/-- A check that throws, in front of others. -/
theorem Except.guard_bind_eq_ok_iff {p : Prop} [Decidable p] {e : ε} {f : PUnit → Except ε β}
    {x : Except ε β} {b : β} :
    (if p then throw e >>= f else x) = .ok b ↔ ¬ p ∧ x = .ok b := by
  by_cases hp : p
  · simp only [hp, not_true, false_and, iff_false]
    exact nofun
  · simp [hp]

/-- A check that throws, as the last one. -/
theorem Except.guard_eq_ok_iff {p : Prop} [Decidable p] {e : ε} {u : Unit} :
    (if p then throw e else pure ()) = (.ok u : Except ε Unit) ↔ ¬ p := by
  by_cases hp : p
  · simp only [hp, not_true, iff_false]
    exact nofun
  · simp only [hp, not_false_iff, iff_true]
    rfl

theorem Except.forM_eq_ok_iff {f : β → Except ε Unit} {bs : List β} :
    bs.forM f = .ok () ↔ ∀ b ∈ bs, f b = .ok () := by
  induction bs with
  | nil => simp [pure, Except.pure]
  | cons b bs ih =>
    have hcons : (b :: bs).forM f = f b >>= fun _ => bs.forM f := rfl
    rw [hcons, Except.seq_eq_ok_iff, ih, List.forall_mem_cons]

/-- A chain of checks stops at the first one that fails. -/
theorem Except.of_forM_eq_error {f : β → Except ε Unit} {bs : List β} {e : ε}
    (h : bs.forM f = .error e) : ∃ before b after, bs = before ++ b :: after ∧
      (∀ b' ∈ before, f b' = .ok ()) ∧ f b = .error e := by
  induction bs with
  | nil => cases h
  | cons b bs ih =>
    have hcons : (b :: bs).forM f = f b >>= fun _ => bs.forM f := rfl
    rw [hcons] at h
    obtain hb | ⟨u, hb, h⟩ := Except.of_bind_eq_error h
    · exact ⟨[], b, bs, rfl, List.forall_mem_nil _, hb⟩
    · obtain ⟨before, b', after, rfl, hbefore, hb'⟩ := ih h
      exact ⟨b :: before, b', after, rfl, List.forall_mem_cons.2 ⟨hb, hbefore⟩, hb'⟩

theorem Except.exists_of_isOk {x : Except ε β} (h : x.isOk = true) : ∃ b, x = .ok b := by
  cases x with
  | error e => cases h
  | ok b => exact ⟨b, rfl⟩

theorem Except.of_mapM_eq_ok {f : β → Except ε γ} {bs : List β} {cs : List γ}
    (h : bs.mapM f = .ok cs) : List.Forall₂ (fun b c => f b = .ok c) bs cs := by
  induction bs generalizing cs with
  | nil =>
    rw [List.mapM_nil] at h
    cases h
    exact .nil
  | cons b bs ih =>
    rw [List.mapM_cons] at h
    obtain ⟨c, hc, h⟩ := Except.of_bind_eq_ok h
    obtain ⟨cs', hcs, h⟩ := Except.of_bind_eq_ok h
    cases h
    exact .cons hc (ih hcs)

theorem Except.exists_mapM_eq_ok_iff {f : β → Except ε γ} {bs : List β} :
    (∃ cs, bs.mapM f = .ok cs) ↔ ∀ b ∈ bs, ∃ c, f b = .ok c := by
  induction bs with
  | nil => simp [pure, Except.pure]
  | cons b bs ih =>
    rw [List.mapM_cons, Except.exists_bind_eq_ok_iff, List.forall_mem_cons, ← ih]
    simp only [Except.exists_bind_eq_ok_iff]
    constructor
    · rintro ⟨c, hc, cs, hcs, -⟩
      exact ⟨⟨c, hc⟩, cs, hcs⟩
    · rintro ⟨⟨c, hc⟩, cs, hcs⟩
      exact ⟨c, hc, cs, hcs, _, rfl⟩

/-- Steps that succeed on the same items in every state succeed one after the other. -/
theorem Except.exists_foldlM_eq_ok_iff {f : γ → β → Except ε γ} {good : β → Prop}
    (hf : ∀ c b, (∃ c', f c b = .ok c') ↔ good b) {bs : List β} {c : γ} :
    (∃ c', bs.foldlM f c = .ok c') ↔ ∀ b ∈ bs, good b := by
  induction bs generalizing c with
  | nil => simp [pure, Except.pure]
  | cons b bs ih =>
    simp only [List.foldlM_cons, Except.exists_bind_eq_ok_iff, ih, List.forall_mem_cons, ← hf c b,
      exists_and_right]

/-- Related inputs have related results. -/
theorem Except.exists_mapM_of_forall₂ {β' γ' : Type} {R : β → β' → Prop} {S : γ → γ' → Prop}
    {f : β → Except ε γ} {g : β' → Except ε γ'} {bs : List β} {bs' : List β'} {cs : List γ}
    (h : List.Forall₂ R bs bs') (hcs : bs.mapM f = .ok cs)
    (hstep : ∀ b b' c, R b b' → f b = .ok c → ∃ c', g b' = .ok c' ∧ S c c') :
    ∃ cs', bs'.mapM g = .ok cs' ∧ List.Forall₂ S cs cs' := by
  induction h generalizing cs with
  | nil =>
    rw [List.mapM_nil] at hcs
    cases hcs
    exact ⟨[], rfl, .nil⟩
  | cons hb _ ih =>
    rw [List.mapM_cons] at hcs
    obtain ⟨c, hc, hcs⟩ := Except.of_bind_eq_ok hcs
    obtain ⟨cs₀, hcs₀, hcs⟩ := Except.of_bind_eq_ok hcs
    cases hcs
    obtain ⟨c', hc', hcc'⟩ := hstep _ _ c hb hc
    obtain ⟨cs', hcs', hall⟩ := ih hcs₀
    refine ⟨c' :: cs', ?_, .cons hcc' hall⟩
    rw [List.mapM_cons, hc', hcs']
    rfl

theorem Except.of_mapM_eq_error {f : β → Except ε γ} {bs : List β} {e : ε}
    (h : bs.mapM f = .error e) : ∃ b ∈ bs, f b = .error e := by
  induction bs with
  | nil =>
    rw [List.mapM_nil] at h
    cases h
  | cons b bs ih =>
    rw [List.mapM_cons] at h
    obtain hb | ⟨c, -, h⟩ := Except.of_bind_eq_error h
    · exact ⟨b, by simp, hb⟩
    · obtain hbs | ⟨cs, -, h⟩ := Except.of_bind_eq_error h
      · obtain ⟨b', hb', he⟩ := ih hbs
        exact ⟨b', by simp [hb'], he⟩
      · cases h

theorem exists_of_mem_forall₂ {R : β → γ → Prop} {bs : List β} {cs : List γ}
    (h : List.Forall₂ R bs cs) {c : γ} (hc : c ∈ cs) : ∃ b ∈ bs, R b c := by
  obtain ⟨i, hi, rfl⟩ := List.getElem_of_mem hc
  have hi' : i < bs.length := h.length_eq ▸ hi
  exact ⟨bs[i], List.getElem_mem hi', h.get hi' hi⟩

theorem Except.exists_of_mem_mapM {f : β → Except ε γ} {bs : List β} {cs : List γ}
    (h : bs.mapM f = .ok cs) {c : γ} (hc : c ∈ cs) : ∃ b ∈ bs, f b = .ok c :=
  exists_of_mem_forall₂ (Except.of_mapM_eq_ok h) hc

end Except

namespace Attempt

variable {ε ε' β γ : Type}

theorem of_ofExcept_eq_ok {f : ε → ε'} {x : Except ε β} {b : β} (h : ofExcept f x = .ok b) :
    x = .ok b := by
  cases x with
  | error e => cases h
  | ok b' => cases h; rfl

theorem ofExcept_eq_ok {f : ε → ε'} {x : Except ε β} {b : β} (h : x = .ok b) :
    ofExcept f x = .ok b := by
  rw [h, ofExcept]

theorem ofExcept_eq_ok_iff {f : ε → ε'} {x : Except ε β} {b : β} :
    ofExcept f x = .ok b ↔ x = .ok b :=
  ⟨of_ofExcept_eq_ok, ofExcept_eq_ok⟩

theorem ofExcept_eq_error {f : ε → ε'} {x : Except ε β} {e : ε} (h : x = .error e) :
    ofExcept f x = .error (.error (f e)) := by
  rw [h, ofExcept]

theorem of_conforming_eq_ok {fits : Prop} [Decidable fits] {u : Unit}
    (h : (conforming fits : Attempt ε Unit) = .ok u) : fits := by
  by_cases hf : fits
  · exact hf
  · rw [conforming, if_neg hf] at h
    cases h

theorem conforming_eq_ok {fits : Prop} [Decidable fits] (h : fits) :
    (conforming fits : Attempt ε Unit) = .ok () :=
  if_pos h

theorem of_mapError_eq_ok {f : ε → ε'} {x : Attempt ε β} {b : β} (h : mapError f x = .ok b) :
    x = .ok b := by
  match x, h with
  | .ok _, h => cases h; rfl

theorem of_ofExcept_eq_error {f : ε → ε'} {x : Except ε β} {e : ε'}
    (h : ofExcept f x = .error (.error e)) : ∃ e', x = .error e' ∧ e = f e' := by
  cases x with
  | error e' =>
    cases h
    exact ⟨e', rfl, rfl⟩
  | ok b => cases h

theorem conforming_ne_error {fits : Prop} [Decidable fits] {e : ε} :
    (conforming fits : Attempt ε Unit) ≠ .error (.error e) := by
  rw [conforming]
  split <;> exact nofun

theorem of_mapError_eq_error {f : ε → ε'} {x : Attempt ε β} {e : ε'}
    (h : mapError f x = .error (.error e)) : ∃ e', x = .error (.error e') ∧ e = f e' := by
  match x, h with
  | .error (.error e'), h =>
    cases h
    exact ⟨e', rfl, rfl⟩

/-- The computation does not stop at sizes that do not fit together. -/
def Conforms (x : Attempt ε β) : Prop := x ≠ .error .nonconforming

theorem conforms_ok (b : β) : Conforms (.ok b : Attempt ε β) := nofun

theorem conforms_fail (e : ε) : Conforms (fail e : Attempt ε β) := nofun

theorem conforms_conforming {fits : Prop} [Decidable fits] (h : fits) :
    Conforms (conforming fits : Attempt ε Unit) := by
  rw [conforming_eq_ok h]
  exact conforms_ok ()

theorem conforms_guard {p : Prop} [Decidable p] {e : ε} {f : PUnit → Attempt ε β}
    {x : Attempt ε β} (h : Conforms x) : Conforms (if p then fail e >>= f else x) := by
  by_cases hp : p
  · rw [if_pos hp]
    exact conforms_fail e
  · rwa [if_neg hp]

theorem conforms_ofExcept (f : ε → ε') (x : Except ε β) : Conforms (ofExcept f x) := by
  cases x <;> exact nofun

theorem Conforms.mapError {x : Attempt ε β} (h : Conforms x) (f : ε → ε') :
    Conforms (Attempt.mapError f x) := by
  match x, h with
  | .ok b, _ => exact conforms_ok b
  | .error (.error e), _ => exact conforms_fail (f e)
  | .error .nonconforming, h => exact absurd rfl h

theorem Conforms.bind {x : Attempt ε β} {f : β → Attempt ε γ} (h : Conforms x)
    (hf : ∀ b, x = .ok b → Conforms (f b)) : Conforms (x >>= f) := by
  cases x with
  | error e => exact fun he => h (by cases he; rfl)
  | ok b => exact hf b rfl

end Attempt

end WholeBody
