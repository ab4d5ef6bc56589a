import Mathlib
import WholeBody.Proofs.Config.Contacts

/-!
# Texts of phases

A text denotes a phase when it is the name of one of the first three or the number of any: decimal
digits, of which zeros may come first, after at most one plus sign. Numbers end at `2 ^ 32 - 1`, so
a text of many digits denotes a phase only if nearly all of them are leading zeros.

## Main statements

* `PhaseId.digitsValue?_eq_some_iff` — digits are read at their decimal value.
* `PhaseId.ofText?_eq_some_iff` — reading follows the grammar `PhaseId.Denotes`.
* `readPhase_accepts_grammar` — the texts that are read, and the error of all others.
-/

namespace WholeBody

namespace PhaseId

/-! ### Decimal digits -/

/-- Decimal notation of a number: at least one digit, the most significant one first. -/
def IsDecimal (cs : List Char) (n : ℕ) : Prop :=
  ∃ ds : List ℕ, ds ≠ [] ∧ (∀ d ∈ ds, d < 10) ∧ cs = ds.map Nat.digitChar ∧
    n = Nat.ofDigits 10 ds.reverse

theorem digitChar_of_isDigit {c : Char} (h : c.isDigit = true) :
    c.toNat - '0'.toNat < 10 ∧ (c.toNat - '0'.toNat).digitChar = c := by
  obtain ⟨hlow, hhigh⟩ : 48 ≤ c.toNat ∧ c.toNat ≤ 57 := Char.isDigit_iff_toNat.1 h
  have hdigit : c.toNat - 48 < 10 := by omega
  refine ⟨hdigit, Char.toNat_inj.1 ?_⟩
  exact (Nat.toNat_digitChar_of_lt_ten hdigit).trans (Nat.add_sub_cancel' hlow)

/-- Reading from the left multiplies what was read by ten for each further digit. -/
theorem foldl_digitChar {ds : List ℕ} (h : ∀ d ∈ ds, d < 10) :
    (ds.map Nat.digitChar).foldl (fun n c => 10 * n + (c.toNat - '0'.toNat)) 0 =
      Nat.ofDigits 10 ds.reverse := by
  induction ds using List.reverseRecOn with
  | nil => rfl
  | append_singleton ds d ih =>
    obtain ⟨hds, hd⟩ := List.forall_mem_append.1 h
    have hvalue : d.digitChar.toNat - '0'.toNat = d :=
      Nat.toNat_digitChar_sub_48_of_lt_ten (hd d (List.mem_singleton_self d))
    rw [List.map_append, List.foldl_append, ih hds, List.reverse_append, List.reverse_singleton,
      List.singleton_append, Nat.ofDigits_cons, List.map_singleton, List.foldl_cons, List.foldl_nil,
      hvalue, Nat.add_comm]

/-- Digits are read at their decimal value. -/
theorem digitsValue?_eq_some_iff {cs : List Char} {n : ℕ} :
    digitsValue? cs = some n ↔ IsDecimal cs n := by
  rw [digitsValue?]
  constructor
  · intro h
    split at h
    · rename_i hcs
      obtain ⟨hne, hall⟩ := hcs
      cases h
      have hdigits : ∀ c ∈ cs, c.toNat - '0'.toNat < 10 ∧ (c.toNat - '0'.toNat).digitChar = c :=
        fun c hc => digitChar_of_isDigit (List.all_eq_true.1 hall c hc)
      have hlt : ∀ d ∈ cs.map fun c => c.toNat - '0'.toNat, d < 10 := by
        intro d hd
        obtain ⟨c, hc, rfl⟩ := List.mem_map.1 hd
        exact (hdigits c hc).1
      have hsame : (cs.map fun c => c.toNat - '0'.toNat).map Nat.digitChar = cs := by
        rw [List.map_map]
        exact (List.map_congr_left fun c hc => (hdigits c hc).2).trans (List.map_id cs)
      refine ⟨_, by simpa using hne, hlt, hsame.symm, ?_⟩
      rw [← foldl_digitChar hlt, hsame]
    · cases h
  · rintro ⟨ds, hne, hds, rfl, rfl⟩
    have hall : (ds.map Nat.digitChar).all Char.isDigit = true := by
      rw [List.all_map, List.all_eq_true]
      intro d hd
      simpa [Nat.isDigit_digitChar] using hds d hd
    rw [if_pos ⟨by simpa using hne, hall⟩, foldl_digitChar hds]

/-- A number starts with one of its digits. -/
theorem not_isDecimal_plus {cs : List Char} {n : ℕ} : ¬ IsDecimal ('+' :: cs) n := by
  rw [← digitsValue?_eq_some_iff, digitsValue?, if_neg fun h => by simp at h]
  exact nofun

theorem toUInt32_eq_iff {n : ℕ} {p : PhaseId} (h : n < UInt32.size) :
    (⟨n.toUInt32⟩ : PhaseId) = p ↔ p.number.toNat = n := by
  have hn : n.toUInt32.toNat = n := UInt32.toNat_ofNat_of_lt' h
  constructor
  · rintro rfl
    exact hn
  · intro hp
    cases p
    exact congrArg mk (UInt32.toNat_inj.1 (hn.trans hp.symm))

theorem ofDigits?_plus (digits : List Char) :
    ofDigits? ('+' :: digits) = (digitsValue? digits).bind fun n =>
      if n < UInt32.size then some ⟨n.toUInt32⟩ else none := by
  rw [ofDigits?]
  cases digitsValue? digits <;> rfl

theorem ofDigits?_of_ne_plus {cs : List Char} (h : ∀ digits, cs ≠ '+' :: digits) :
    ofDigits? cs = (digitsValue? cs).bind fun n =>
      if n < UInt32.size then some ⟨n.toUInt32⟩ else none := by
  rw [ofDigits?]
  · cases digitsValue? cs <;> rfl
  · exact h

/-- A value in the range of the phases is the number of the phase. -/
theorem bind_digitsValue?_eq_some_iff {digits : List Char} {p : PhaseId} :
    ((digitsValue? digits).bind fun n =>
        if n < UInt32.size then some (⟨n.toUInt32⟩ : PhaseId) else none) = some p ↔
      ∃ n ≤ 4294967295, IsDecimal digits n ∧ p.number.toNat = n := by
  rw [Option.bind_eq_some_iff]
  refine exists_congr fun n => ?_
  rw [digitsValue?_eq_some_iff, Option.ite_none_right_eq_some, Option.some_inj]
  constructor
  · rintro ⟨hdigits, hn, hp⟩
    exact ⟨Nat.le_of_lt_succ hn, hdigits, (toUInt32_eq_iff hn).1 hp⟩
  · rintro ⟨hn, hdigits, hp⟩
    have hn : n < UInt32.size := Nat.lt_succ_of_le hn
    exact ⟨hdigits, hn, (toUInt32_eq_iff hn).2 hp⟩

/-- The number of a phase is decimal, after at most one plus sign. -/
theorem ofDigits?_eq_some_iff {cs : List Char} {p : PhaseId} :
    ofDigits? cs = some p ↔ ∃ digits, (cs = digits ∨ cs = '+' :: digits) ∧
      ∃ n ≤ 4294967295, IsDecimal digits n ∧ p.number.toNat = n := by
  by_cases hplus : ∃ digits, cs = '+' :: digits
  · obtain ⟨rest, rfl⟩ := hplus
    rw [ofDigits?_plus, bind_digitsValue?_eq_some_iff]
    constructor
    · exact fun h => ⟨rest, .inr rfl, h⟩
    · rintro ⟨digits, rfl | hsame, n, hn, hdigits, hp⟩
      · exact absurd hdigits not_isDecimal_plus
      · cases hsame
        exact ⟨n, hn, hdigits, hp⟩
  · rw [ofDigits?_of_ne_plus (not_exists.1 hplus), bind_digitsValue?_eq_some_iff]
    constructor
    · exact fun h => ⟨cs, .inl rfl, h⟩
    · rintro ⟨digits, rfl | rfl, h⟩
      · exact h
      · exact absurd ⟨digits, rfl⟩ hplus

/-! ### The grammar -/

/-- The texts of a phase: its name, its number, and its number after a plus sign. -/
inductive Denotes : String → PhaseId → Prop
  | leftStance : Denotes "left_stance" ⟨0⟩
  | rightStance : Denotes "right_stance" ⟨1⟩
  | doubleStance : Denotes "double_stance" ⟨2⟩
  | number {digits : List Char} {n : ℕ} {p : PhaseId} (hdigits : IsDecimal digits n)
    (hn : n ≤ 4294967295) (hp : p.number.toNat = n) : Denotes (.ofList digits) p
  | plusNumber {digits : List Char} {n : ℕ} {p : PhaseId} (hdigits : IsDecimal digits n)
    (hn : n ≤ 4294967295) (hp : p.number.toNat = n) : Denotes (.ofList ('+' :: digits)) p

theorem denotes_of_ofDigits? {s : String} {p : PhaseId} (h : ofDigits? s.toList = some p) :
    Denotes s p := by
  obtain ⟨digits, hs, n, hn, hdigits, hp⟩ := ofDigits?_eq_some_iff.1 h
  rw [← String.ofList_toList (s := s)]
  obtain hs | hs := hs
  · rw [hs]
    exact .number hdigits hn hp
  · rw [hs]
    exact .plusNumber hdigits hn hp

/-- The names are no numbers. -/
theorem ofText?_of_ofDigits? {s : String} {p : PhaseId} (h : ofDigits? s.toList = some p) :
    ofText? s = some p := by
  rw [ofText?, if_neg, if_neg, if_neg, h]
  all_goals
    rintro rfl
    cases h

/-- A text is read as the phase that it denotes. -/
theorem ofText?_eq_some_iff {s : String} {p : PhaseId} : ofText? s = some p ↔ Denotes s p := by
  constructor
  · intro h
    by_cases hleft : s = "left_stance"
    · subst hleft
      cases h
      exact .leftStance
    by_cases hright : s = "right_stance"
    · subst hright
      cases h
      exact .rightStance
    by_cases hdouble : s = "double_stance"
    · subst hdouble
      cases h
      exact .doubleStance
    rw [ofText?, if_neg hleft, if_neg hright, if_neg hdouble] at h
    exact denotes_of_ofDigits? h
  · intro h
    cases h with
    | leftStance | rightStance | doubleStance => rfl
    | @number digits n _ hdigits hn hp =>
      apply ofText?_of_ofDigits?
      rw [String.toList_ofList]
      exact ofDigits?_eq_some_iff.2 ⟨digits, .inl rfl, n, hn, hdigits, hp⟩
    | @plusNumber digits n _ hdigits hn hp =>
      apply ofText?_of_ofDigits?
      rw [String.toList_ofList]
      exact ofDigits?_eq_some_iff.2 ⟨digits, .inr rfl, n, hn, hdigits, hp⟩

end PhaseId

variable {α : Type}

/-- A text that denotes no phase is reported as an unknown phase. -/
theorem readPhase_eq_error_iff {s : String} {e : ConfigError α} :
    readPhase s = .error e ↔
      e = .invalidValue "phase" (.unknownPhase s) ∧ ∀ p, PhaseId.ofText? s ≠ some p := by
  rw [readPhase]
  cases PhaseId.ofText? s with
  | none => simp [eq_comm]
  | some q => simp

/-- Exactly the texts of the grammar are read, each as the phase that it denotes. Every other text
is an invalid value of a phase. -/
theorem readPhase_accepts_grammar (s : String) :
    (∀ p, (readPhase s : Except (ConfigError α) PhaseId) = .ok p ↔ PhaseId.Denotes s p) ∧
    ∀ e : ConfigError α, readPhase s = .error e ↔
      e = .invalidValue "phase" (.unknownPhase s) ∧ ∀ p, ¬ PhaseId.Denotes s p := by
  refine ⟨fun p => ?_, fun e => ?_⟩
  · rw [readPhase_eq_ok_iff, PhaseId.ofText?_eq_some_iff]
  · simp only [readPhase_eq_error_iff, ne_eq, PhaseId.ofText?_eq_some_iff]

example : (readPhase "+004294967295" : Except (ConfigError α) PhaseId) = .ok ⟨4294967295⟩ := by
  cbv

example : readPhase "4294967296" =
    .error (.invalidValue "phase" (.unknownPhase "4294967296") : ConfigError α) := by
  cbv

end WholeBody
