/-!
# Maps in key order

Finite maps kept as a list of entries in strictly ascending key order. A map has one list, so two
maps with the same entries are equal, and walking a map is walking its list.
-/

namespace WholeBody

/-- What the keys of a map need: a total order without equal elements. -/
class KeyOrder (κ : Type) extends LT κ where
  decidableLT : DecidableLT κ
  lt_trans : ∀ {a b c : κ}, a < b → b < c → a < c
  lt_irrefl : ∀ a : κ, ¬ a < a
  eq_of_not_lt : ∀ {a b : κ}, ¬ a < b → ¬ b < a → a = b

instance KeyOrder.toDecidableLT {κ : Type} [KeyOrder κ] : DecidableLT κ := KeyOrder.decidableLT

instance : KeyOrder String where
  decidableLT := inferInstance
  lt_trans := String.lt_trans
  lt_irrefl a := String.lt_irrefl a
  eq_of_not_lt h h' := String.le_antisymm (String.not_lt.1 h') (String.not_lt.1 h)

/-- A finite map, its entries in ascending key order. -/
@[ext] structure SortedMap (κ β : Type) [KeyOrder κ] where
  entries : List (κ × β)
  sorted : entries.Pairwise (·.1 < ·.1)

namespace SortedMap

variable {κ β : Type} [KeyOrder κ]

/-- Puts an entry in its place, over an entry with the same key. -/
def insertEntry (k : κ) (b : β) : List (κ × β) → List (κ × β)
  | [] => [(k, b)]
  | e :: rest =>
    if k < e.1 then (k, b) :: e :: rest
    else if e.1 < k then e :: insertEntry k b rest
    else (k, b) :: rest

theorem mem_insertEntry {k : κ} {b : β} {es : List (κ × β)} {e : κ × β}
    (h : e ∈ insertEntry k b es) : e = (k, b) ∨ e ∈ es := by
  induction es with
  | nil => exact .inl (List.mem_singleton.1 h)
  | cons d rest ih =>
    simp only [insertEntry] at h
    split at h
    · exact List.mem_cons.1 h
    · split at h
      · rcases List.mem_cons.1 h with rfl | h
        · simp
        · rcases ih h with h | h
          · exact .inl h
          · simp [h]
      · rcases List.mem_cons.1 h with h | h
        · exact .inl h
        · simp [h]

theorem sorted_insertEntry {k : κ} {b : β} {es : List (κ × β)}
    (hs : es.Pairwise (·.1 < ·.1)) : (insertEntry k b es).Pairwise (·.1 < ·.1) := by
  induction es with
  | nil => exact List.pairwise_singleton ..
  | cons d rest ih =>
    obtain ⟨hd, hrest⟩ := List.pairwise_cons.1 hs
    simp only [insertEntry]
    split
    · rename_i hk
      refine List.pairwise_cons.2 ⟨fun e he => ?_, hs⟩
      rcases List.mem_cons.1 he with rfl | he
      · exact hk
      · exact KeyOrder.lt_trans hk (hd e he)
    · rename_i hk
      split
      · rename_i hk'
        refine List.pairwise_cons.2 ⟨fun e he => ?_, ih hrest⟩
        rcases mem_insertEntry he with rfl | he
        · exact hk'
        · exact hd e he
      · rename_i hk'
        obtain rfl := KeyOrder.eq_of_not_lt hk hk'
        exact List.pairwise_cons.2 ⟨hd, hrest⟩

def empty : SortedMap κ β := ⟨[], .nil⟩

/-- Sets the value of a key. -/
def insert (m : SortedMap κ β) (k : κ) (b : β) : SortedMap κ β :=
  ⟨insertEntry k b m.entries, sorted_insertEntry m.sorted⟩

/-- The map of a list of entries, of which a later one wins over an earlier one with its key. -/
def ofList (es : List (κ × β)) : SortedMap κ β := es.foldl (fun m e => m.insert e.1 e.2) empty

/-- The value of a key. -/
def get? (m : SortedMap κ β) (k : κ) : Option β :=
  (m.entries.find? fun e => ¬ e.1 < k ∧ ¬ k < e.1).map (·.2)

def keys (m : SortedMap κ β) : List κ := m.entries.map (·.1)

def values (m : SortedMap κ β) : List β := m.entries.map (·.2)

def isEmpty (m : SortedMap κ β) : Bool := m.entries.isEmpty

def size (m : SortedMap κ β) : Nat := m.entries.length

end SortedMap

end WholeBody
