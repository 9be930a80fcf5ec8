/-
  RuleEngine/Guest/Memory.lean
  ============================
  **The memory of a guest.**

  A guest has some pages of bytes, and may ask for more of them.  The host reads and
  writes ranges; a range that does not lie inside is refused as a whole, so a failed
  write changes nothing.
-/
import RuleEngine.Text.Utf8

namespace RuleEngine.Guest

abbrev pageSize : Nat := 65536

def maxPages : Nat := 65536

structure Memory where
  bytes : Array UInt8

namespace Memory

def ofPages (pages : Nat) : Memory := ⟨Array.replicate (pages * pageSize) 0⟩

def zero : Memory := ofPages 1

instance : Inhabited Memory := ⟨zero⟩

def size (m : Memory) : Nat := m.bytes.size

def pages (m : Memory) : Nat := m.size / pageSize

/-- The memory with more pages, if it may have so many. -/
def grow? (m : Memory) (more : Nat) : Option Memory :=
  if m.pages + more ≤ maxPages then some ⟨m.bytes ++ Array.replicate (more * pageSize) 0⟩ else none

def byte? (m : Memory) (address : Nat) : Option UInt8 := m.bytes[address]?

def read? (m : Memory) (start length : Nat) : Option (List UInt8) :=
  if start + length ≤ m.size then
    some ((List.range length).map fun i => (m.bytes[start + i]?).getD 0)
  else none

/-- The memory with bytes written from an address on, as far as they lie inside. -/
def put (m : Memory) (start : Nat) : List UInt8 → Memory
  | [] => m
  | b :: rest => put ⟨m.bytes.setIfInBounds start b⟩ (start + 1) rest

/-- The memory with a range written, if it lies inside. -/
def write? (m : Memory) (start : Nat) (bytes : List UInt8) : Option Memory :=
  if start + bytes.length ≤ m.size then some (m.put start bytes) else none

@[simp] theorem size_put (m : Memory) (start : Nat) (bytes : List UInt8) :
    (m.put start bytes).size = m.size := by
  induction bytes generalizing m start with
  | nil => rfl
  | cons b rest ih =>
    rw [put, ih]
    exact Array.size_setIfInBounds

theorem byte?_put_outside (m : Memory) (start : Nat) (bytes : List UInt8) (address : Nat)
    (h : address < start ∨ start + bytes.length ≤ address) :
    (m.put start bytes).byte? address = m.byte? address := by
  induction bytes generalizing m start with
  | nil => rfl
  | cons b rest ih =>
    have hne : start ≠ address := by
      rcases h with h | h
      · omega
      · simp at h; omega
    have hrest : address < start + 1 ∨ start + 1 + rest.length ≤ address := by
      rcases h with h | h
      · omega
      · simp at h; omega
    simp only [put]
    rw [ih _ _ hrest]
    simp [byte?, hne]

theorem byte?_put_inside (m : Memory) (start : Nat) (bytes : List UInt8) (i : Nat)
    (hi : i < bytes.length) (fits : start + bytes.length ≤ m.size) :
    (m.put start bytes).byte? (start + i) = bytes[i]? := by
  induction bytes generalizing m start i with
  | nil => simp at hi
  | cons b rest ih =>
    simp only [List.length_cons] at hi fits
    cases i with
    | zero =>
      simp only [put, Nat.add_zero]
      rw [byte?_put_outside _ _ _ _ (Or.inl (by omega))]
      have : start < m.bytes.size := Nat.lt_of_lt_of_le (by omega) fits
      simp [byte?, this]
    | succ j =>
      simp only [put]
      have hsize : (⟨m.bytes.setIfInBounds start b⟩ : Memory).size = m.size :=
        Array.size_setIfInBounds
      have := ih ⟨m.bytes.setIfInBounds start b⟩ (start + 1) j (by omega) (by omega)
      rw [show start + (j + 1) = start + 1 + j by omega, this]
      simp

/-- Reading a range back gives what was written to it. -/
theorem read?_write?_same {m written : Memory} {start : Nat} {bytes : List UInt8}
    (h : m.write? start bytes = some written) :
    written.read? start bytes.length = some bytes := by
  unfold write? at h
  split at h
  · rename_i fits
    cases h
    simp only [read?, size_put, fits, if_true, Option.some.injEq]
    apply List.ext_getElem
    · simp
    · intro i _ inside
      have := byte?_put_inside m start bytes i inside fits
      simp only [byte?] at this
      simp [this, inside]
  · cases h

end Memory

end RuleEngine.Guest
