import Mathlib
import WholeBody.SortedMap

/-!
# Lookups in maps

The value of a key is the one of its only entry. Of the entries that a map is made of, the last one
with a key gives its value.

## Main statements

* `SortedMap.get?_eq_some_iff` — a lookup finds exactly the entries.
* `SortedMap.get?_insert`, `SortedMap.get?_ofList` — lookups in maps made of entries.
* `SortedMap.greatest?_eq_some_iff` — the entry of the greatest key with a property.
-/

namespace WholeBody

namespace SortedMap

variable {κ β : Type} [KeyOrder κ] {m : SortedMap κ β} {k : κ} {b : β} {e e' : κ × β}

theorem ne_of_lt {k k' : κ} (h : k < k') : k ≠ k' := by
  rintro rfl
  exact KeyOrder.lt_irrefl k h

theorem nodup_keys (m : SortedMap κ β) : m.keys.Nodup :=
  List.pairwise_map.2 (m.sorted.imp ne_of_lt)

/-- A key has one entry. -/
theorem eq_of_mem_of_key_eq (he : e ∈ m.entries) (he' : e' ∈ m.entries) (hkey : e.1 = e'.1) :
    e = e' :=
  List.inj_on_of_nodup_map m.nodup_keys he he' hkey

theorem get?_eq_some_iff : m.get? k = some b ↔ (k, b) ∈ m.entries := by
  constructor
  · intro h
    obtain ⟨e, hfind, rfl⟩ := Option.map_eq_some_iff.1 h
    obtain ⟨hle, hge⟩ : ¬ e.1 < k ∧ ¬ k < e.1 := by simpa using List.find?_some hfind
    obtain rfl : e.1 = k := KeyOrder.eq_of_not_lt hle hge
    exact List.mem_of_find?_eq_some hfind
  · intro h
    have hsome : (m.entries.find? fun e => ¬ e.1 < k ∧ ¬ k < e.1).isSome :=
      List.find?_isSome.2 ⟨(k, b), h, by simp [KeyOrder.lt_irrefl]⟩
    obtain ⟨e, hfind⟩ := Option.isSome_iff_exists.1 hsome
    have hget : m.get? k = some e.2 := by rw [get?, hfind, Option.map_some]
    obtain ⟨hle, hge⟩ : ¬ e.1 < k ∧ ¬ k < e.1 := by simpa using List.find?_some hfind
    have hkey : e.1 = k := KeyOrder.eq_of_not_lt hle hge
    rw [hget, eq_of_mem_of_key_eq (List.mem_of_find?_eq_some hfind) h hkey]

theorem mem_insertEntry_iff {es : List (κ × β)} (hs : es.Pairwise (·.1 < ·.1)) :
    e ∈ insertEntry k b es ↔ e = (k, b) ∨ e ∈ es ∧ e.1 ≠ k := by
  induction es with
  | nil => simp [insertEntry]
  | cons d rest ih =>
    obtain ⟨hd, hrest⟩ := List.pairwise_cons.1 hs
    -- the entries after one with a key that is not below `k` have other keys
    have hother (hk : ¬ d.1 < k) {e : κ × β} (he : e ∈ rest) : e.1 ≠ k := by
      rintro rfl
      exact hk (hd e he)
    simp only [insertEntry]
    split
    · rename_i hk
      have hle : ¬ d.1 < k := fun h => KeyOrder.lt_irrefl k (KeyOrder.lt_trans hk h)
      have hne {e : κ × β} (he : e ∈ d :: rest) : e.1 ≠ k := by
        obtain rfl | he := List.mem_cons.1 he
        · exact (ne_of_lt hk).symm
        · exact hother hle he
      rw [List.mem_cons]
      exact or_congr_right ⟨fun he => ⟨he, hne he⟩, And.left⟩
    · rename_i hk
      split
      · rename_i hk'
        have hne : e = d → e.1 ≠ k := by
          rintro rfl
          exact ne_of_lt hk'
        rw [List.mem_cons, ih hrest, List.mem_cons, or_and_right, and_iff_left_of_imp hne,
          or_left_comm]
      · rename_i hk'
        obtain rfl := KeyOrder.eq_of_not_lt hk hk'
        have hsame : ¬ (e = d ∧ e.1 ≠ d.1) := by
          rintro ⟨rfl, hne⟩
          exact hne rfl
        rw [List.mem_cons, List.mem_cons, or_and_right, and_iff_left_of_imp (hother hk'),
          or_iff_right hsame]

theorem mem_entries_insert_iff :
    e ∈ (m.insert k b).entries ↔ e = (k, b) ∨ e ∈ m.entries ∧ e.1 ≠ k :=
  mem_insertEntry_iff m.sorted

@[simp] theorem get?_empty : (empty : SortedMap κ β).get? k = none := rfl

theorem get?_insert [DecidableEq κ] {k' : κ} :
    (m.insert k b).get? k' = if k = k' then some b else m.get? k' := by
  refine Option.ext fun b' => ?_
  rw [get?_eq_some_iff, mem_entries_insert_iff, Prod.mk.injEq]
  by_cases hk : k = k'
  · simp [hk, eq_comm]
  · simp [hk, Ne.symm hk, get?_eq_some_iff]

/-- Of the entries with a key, the last one counts. -/
theorem get?_ofList [DecidableEq κ] (es : List (κ × β)) :
    (ofList es).get? k = (es.reverse.find? fun e => e.1 = k).map (·.2) := by
  induction es using List.reverseRecOn with
  | nil => rfl
  | append_singleton es e ih =>
    have hlast : ofList (es ++ [e]) = (ofList es).insert e.1 e.2 := by
      rw [ofList, List.foldl_append]
      rfl
    rw [hlast, get?_insert, ih, List.reverse_append, List.reverse_singleton,
      List.singleton_append, List.find?_cons]
    by_cases hk : e.1 = k
    · simp [hk]
    · simp [hk]

/-- The entries of a key are its value, if it has one. -/
theorem filter_key [DecidableEq κ] (m : SortedMap κ β) (k : κ) :
    m.entries.filter (·.1 = k) = (m.get? k).toList.map (k, ·) := by
  cases hget : m.get? k with
  | none =>
    refine List.filter_eq_nil_iff.2 fun e he hkey => ?_
    obtain rfl := of_decide_eq_true hkey
    rw [get?_eq_some_iff.2 he] at hget
    cases hget
  | some b =>
    obtain ⟨before, after, hsplit⟩ := List.append_of_mem (get?_eq_some_iff.1 hget)
    have hsorted : (before ++ (k, b) :: after).Pairwise (·.1 < ·.1) := hsplit ▸ m.sorted
    obtain ⟨-, htail, hcross⟩ := List.pairwise_append.1 hsorted
    have hbefore : ∀ e ∈ before, ¬ e.1 = k := fun e he =>
      ne_of_lt (hcross e he (k, b) List.mem_cons_self)
    have hafter : ∀ e ∈ after, ¬ e.1 = k := fun e he =>
      (ne_of_lt ((List.pairwise_cons.1 htail).1 e he)).symm
    rw [hsplit, List.filter_append, List.filter_cons_of_pos (by simp),
      List.filter_eq_nil_iff.2 (by simpa using hbefore),
      List.filter_eq_nil_iff.2 (by simpa using hafter)]
    rfl

/-- The entry of the greatest key with a property. -/
def greatest? (m : SortedMap κ β) (P : κ → Prop) [DecidablePred P] : Option (κ × β) :=
  m.entries.reverse.find? fun e => P e.1

variable {P : κ → Prop} [DecidablePred P]

theorem of_greatest?_eq_some (h : m.greatest? P = some e) :
    e ∈ m.entries ∧ P e.1 ∧ ∀ e' ∈ m.entries, P e'.1 → ¬ e.1 < e'.1 := by
  obtain ⟨hP, before, after, hsplit, hbefore⟩ := List.find?_eq_some_iff_append.1 h
  have hmem {e' : κ × β} : e' ∈ m.entries ↔ e' ∈ before ∨ e' = e ∨ e' ∈ after := by
    rw [← List.mem_reverse, hsplit, List.mem_append, List.mem_cons]
  -- read backwards, the keys descend
  have hdescending : (before ++ e :: after).Pairwise fun e e' => e'.1 < e.1 :=
    hsplit ▸ List.pairwise_reverse.2 m.sorted
  have hafter := (List.pairwise_cons.1 (List.pairwise_append.1 hdescending).2.1).1
  refine ⟨hmem.2 (.inr (.inl rfl)), of_decide_eq_true hP, fun e' he' hP' hlt => ?_⟩
  obtain he' | rfl | he' := hmem.1 he'
  · simpa [hP'] using hbefore e' he'
  · exact KeyOrder.lt_irrefl _ hlt
  · exact KeyOrder.lt_irrefl _ (KeyOrder.lt_trans hlt (hafter e' he'))

theorem greatest?_eq_none_iff : m.greatest? P = none ↔ ∀ e ∈ m.entries, ¬ P e.1 := by
  simp [greatest?]

theorem greatest?_eq_some_iff :
    m.greatest? P = some e ↔
      e ∈ m.entries ∧ P e.1 ∧ ∀ e' ∈ m.entries, P e'.1 → ¬ e.1 < e'.1 := by
  refine ⟨of_greatest?_eq_some, fun ⟨he, hP, hgreatest⟩ => ?_⟩
  cases hfound : m.greatest? P with
  | none => exact absurd hP (greatest?_eq_none_iff.1 hfound e he)
  | some d =>
    obtain ⟨hd, hPd, hgreatest'⟩ := of_greatest?_eq_some hfound
    have hkey := KeyOrder.eq_of_not_lt (hgreatest' e he hP) (hgreatest d hd hPd)
    rw [eq_of_mem_of_key_eq hd he hkey]

end SortedMap

end WholeBody
