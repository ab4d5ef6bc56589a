import WholeBody.Scalar

/-!
# Vectors

Column vectors of any length. A vector is read entry by entry: `v.entry i` is zero beyond its end,
and `Vec.ofFn` is the one way to make a vector, so `size_ofFn` and `entry_ofFn` say all there is to
know about each operation. An operation on two vectors follows the length of the first.
-/

namespace WholeBody

/-- A column vector. -/
structure Vec (α : Type) where
  entries : Array α

namespace Vec

variable {α : Type}

def size (v : Vec α) : Nat := v.entries.size

/-- The vector of length `n` with the entries `f 0`, `f 1`, …. -/
def ofFn (n : Nat) (f : Nat → α) : Vec α := ⟨Array.ofFn fun i : Fin n => f i⟩

def ofList (xs : List α) : Vec α := ⟨xs.toArray⟩

def toList (v : Vec α) : List α := v.entries.toList

/-- The entry at an index, zero beyond the end. -/
def entry [Zero α] (v : Vec α) (i : Nat) : α := v.entries.getD i 0

/-- The vector of length `n` whose entries are all `c`. -/
def replicate (n : Nat) (c : α) : Vec α := ofFn n fun _ => c

@[simp] theorem size_ofFn (n : Nat) (f : Nat → α) : (ofFn n f).size = n := by
  simp [size, ofFn]

@[simp] theorem size_replicate (n : Nat) (c : α) : (replicate n c).size = n := size_ofFn _ _

@[simp] theorem size_ofList (xs : List α) : (ofList xs).size = xs.length := by
  simp [size, ofList]

@[simp] theorem length_toList (v : Vec α) : v.toList.length = v.size := by
  simp [size, toList]

variable [Scalar α]

@[simp] theorem entry_ofFn (n : Nat) (f : Nat → α) (i : Nat) :
    (ofFn n f).entry i = if i < n then f i else 0 := by
  by_cases h : i < n <;> simp [entry, ofFn, h]

theorem entry_ofFn_of_lt {n : Nat} {f : Nat → α} {i : Nat} (h : i < n) :
    (ofFn n f).entry i = f i := by
  simp [h]

theorem entry_of_size_le {v : Vec α} {i : Nat} (h : v.size ≤ i) : v.entry i = 0 := by
  simp only [size] at h
  simp [entry, Array.getElem?_eq_none h]

/-- Vectors of one length with the same entries are equal. -/
theorem ext_entry {v w : Vec α} (hs : v.size = w.size)
    (h : ∀ i < v.size, v.entry i = w.entry i) : v = w := by
  obtain ⟨a⟩ := v
  obtain ⟨b⟩ := w
  simp only [size, entry] at hs h
  congr 1
  refine Array.ext hs fun i ha hb => ?_
  simpa [ha, hb] using h i ha

def zeros (n : Nat) : Vec α := ofFn n fun _ => 0

instance : Neg (Vec α) := ⟨fun v => ofFn v.size fun i => -v.entry i⟩

instance : Add (Vec α) := ⟨fun v w => ofFn v.size fun i => v.entry i + w.entry i⟩

instance : Sub (Vec α) := ⟨fun v w => ofFn v.size fun i => v.entry i - w.entry i⟩

instance : SMul α (Vec α) := ⟨fun c v => ofFn v.size fun i => c * v.entry i⟩

theorem neg_def (v : Vec α) : -v = ofFn v.size fun i => -v.entry i := rfl

theorem add_def (v w : Vec α) : v + w = ofFn v.size fun i => v.entry i + w.entry i := rfl

theorem sub_def (v w : Vec α) : v - w = ofFn v.size fun i => v.entry i - w.entry i := rfl

theorem smul_def (c : α) (v : Vec α) : c • v = ofFn v.size fun i => c * v.entry i := rfl

@[simp] theorem size_zeros (n : Nat) : (zeros n : Vec α).size = n := size_ofFn _ _

@[simp] theorem size_neg (v : Vec α) : (-v).size = v.size := size_ofFn _ _

@[simp] theorem size_add (v w : Vec α) : (v + w).size = v.size := size_ofFn _ _

@[simp] theorem size_sub (v w : Vec α) : (v - w).size = v.size := size_ofFn _ _

@[simp] theorem size_smul (c : α) (v : Vec α) : (c • v).size = v.size := size_ofFn _ _

/-- Sum of the products of equal positions, over the length of the first vector. -/
def dot (v w : Vec α) : α := Scalar.sum v.size fun i => v.entry i * w.entry i

/-- Euclidean length. -/
def norm (v : Vec α) : α := Scalar.sqrt (v.dot v)

/-- The `len` entries from index `start` on. -/
def slice (v : Vec α) (start len : Nat) : Vec α := ofFn len fun i => v.entry (start + i)

@[simp] theorem size_slice (v : Vec α) (start len : Nat) : (v.slice start len).size = len :=
  size_ofFn _ _

/-- The entries of both vectors, one after the other. -/
def append (v w : Vec α) : Vec α := ⟨v.entries ++ w.entries⟩

instance : Append (Vec α) := ⟨append⟩

/-- Adds `w` to the entries from index `start` on. -/
def addAt (v : Vec α) (start : Nat) (w : Vec α) : Vec α :=
  ofFn v.size fun i =>
    if start ≤ i ∧ i < start + w.size then v.entry i + w.entry (i - start) else v.entry i

@[simp] theorem size_addAt (v : Vec α) (start : Nat) (w : Vec α) :
    (v.addAt start w).size = v.size := size_ofFn _ _

def allFinite (v : Vec α) : Bool := v.toList.all Scalar.isFinite

/-- Largest magnitude of an entry. -/
def maxAbs (v : Vec α) : α := Scalar.maxAbs v.toList

/-- Smallest entry. -/
def minimum (v : Vec α) : α := Scalar.minimum v.toList

end Vec

end WholeBody
