/-!
# Byte buffers

Frames and encoded frames are flat byte buffers.  They are built by appending:
`append` adds a run of bytes given by a function of their position, `appendRows`
adds rows one after the other.  A buffer is read through `read`, which is total:
past the end it sees zero bytes.

The view of a buffer is the list of its bytes, and every operation here has a
lemma that says what it does to that view: `toList_append`, `toList_zeros`,
`toList_appendRows`.
-/

namespace Scanout.Bytes

/-- Buffers are compared by their bytes. -/
instance decEqBuffer : DecidableEq ByteArray := ByteArray.instDecidableEq

/-- The bytes of a buffer, first byte first. -/
def toList (b : ByteArray) : List UInt8 := b.data.toList

theorem length_toList (b : ByteArray) : (toList b).length = b.size := rfl

theorem ext_toList {a b : ByteArray} (h : toList a = toList b) : a = b := by
  cases a; cases b
  simpa [toList, Array.toList_inj] using h

@[simp] theorem toList_empty : toList ByteArray.empty = [] := rfl

@[simp] theorem toList_push (b : ByteArray) (x : UInt8) : toList (b.push x) = toList b ++ [x] := by
  simp [toList]

@[simp] theorem toList_concat (a b : ByteArray) : toList (a ++ b) = toList a ++ toList b := by
  simp [toList]

@[simp] theorem toList_extract (b : ByteArray) (start stop : Nat) :
    toList (b.extract start stop) = ((toList b).take stop).drop start := by
  simp [toList, List.drop_take]

/-! ## Reading -/

/-- The byte at a position, zero past the end. -/
@[inline] def read (b : ByteArray) (i : Nat) : UInt8 := if h : i < b.size then b[i] else 0

theorem read_eq (b : ByteArray) (i : Nat) : read b i = (toList b).getD i 0 := by
  unfold read
  by_cases h : i < b.size
  · have h' : i < (toList b).length := by rw [length_toList]; exact h
    rw [dif_pos h, List.getD_eq_getElem?_getD, List.getElem?_eq_getElem h']
    rfl
  · have h' : (toList b).length ≤ i := by rw [length_toList]; omega
    rw [dif_neg h, List.getD_eq_getElem?_getD, List.getElem?_eq_none h']
    rfl

/-- The `length` bytes from `start`, if the buffer has them all. -/
def slice? (b : ByteArray) (start length : Nat) : Option ByteArray :=
  if start + length ≤ b.size then some (b.extract start (start + length)) else none

/-- Some byte among the first `n` differs from zero. -/
def anyNonzero (b : ByteArray) : (n : Nat) → Bool
  | 0 => false
  | n + 1 => read b n != 0 || anyNonzero b n

/-! ## Overwriting -/

/-- The buffer with the bytes from `start` on replaced by a chunk, if they all
lie inside it. -/
def overwrite? (b : ByteArray) (start : Nat) (chunk : ByteArray) : Option ByteArray :=
  if start + chunk.size ≤ b.size then some (chunk.copySlice 0 b start chunk.size) else none

/-- The bytes before and after the chunk stay as they were. -/
theorem toList_overwrite? {b c chunk : ByteArray} {start : Nat}
    (h : overwrite? b start chunk = some c) :
    toList c = (toList b).take start ++ toList chunk ++ (toList b).drop (start + chunk.size) := by
  unfold overwrite? at h
  split at h
  · injection h with h
    subst h
    have hs : chunk.data.toList.length = chunk.size := length_toList chunk
    simp [toList, ByteArray.copySlice, hs, List.take_of_length_le]
  · cases h

/-! ## Appending -/

/-- Append `n` bytes, the one at position `i` being `f i`. -/
@[inline] def append (b : ByteArray) (n : Nat) (f : Nat → UInt8) : ByteArray :=
  Nat.fold n (fun i _ acc => acc.push (f i)) b

theorem toList_append (b : ByteArray) (n : Nat) (f : Nat → UInt8) :
    toList (append b n f) = toList b ++ (List.range n).map f := by
  induction n with
  | zero => simp [append]
  | succ n ih =>
      simp only [append] at ih
      simp [append, Nat.fold_succ, ih, List.range_succ]

@[simp] theorem size_append (b : ByteArray) (n : Nat) (f : Nat → UInt8) :
    (append b n f).size = b.size + n := by
  rw [← length_toList, toList_append]
  simp [length_toList]

/-- Append `n` zero bytes. -/
def zeros (b : ByteArray) (n : Nat) : ByteArray := append b n fun _ => 0

theorem toList_zeros (b : ByteArray) (n : Nat) :
    toList (zeros b n) = toList b ++ List.replicate n 0 := by
  rw [zeros, toList_append, List.map_const']
  simp

@[simp] theorem size_zeros (b : ByteArray) (n : Nat) : (zeros b n).size = b.size + n := by
  rw [← length_toList, toList_zeros]
  simp [length_toList]

theorem size_zeros_empty (n : Nat) : (zeros ByteArray.empty n).size = n := by
  rw [size_zeros, ByteArray.size_empty, Nat.zero_add]

/-- Append `n` rows, each written by `row`. -/
@[inline] def appendRows (b : ByteArray) (n : Nat) (row : Nat → ByteArray → ByteArray) :
    ByteArray :=
  Nat.fold n (fun i _ acc => row i acc) b

/-- If every row appends a run of bytes, all rows append those runs in order. -/
theorem toList_appendRows (b : ByteArray) (n : Nat) (row : Nat → ByteArray → ByteArray)
    (run : Nat → List UInt8) (h : ∀ i < n, ∀ acc, toList (row i acc) = toList acc ++ run i) :
    toList (appendRows b n row) = toList b ++ (List.range n).flatMap run := by
  induction n with
  | zero => simp [appendRows]
  | succ n ih =>
      have ih := ih fun i hi => h i (by omega)
      simp only [appendRows] at ih
      simp [appendRows, Nat.fold_succ, h n (by omega), ih, List.range_succ]

/-- If every row appends `k` bytes, `n` rows append `n * k`. -/
theorem size_appendRows (b : ByteArray) (n k : Nat) (row : Nat → ByteArray → ByteArray)
    (h : ∀ i < n, ∀ acc, (row i acc).size = acc.size + k) :
    (appendRows b n row).size = b.size + n * k := by
  induction n with
  | zero => simp [appendRows]
  | succ n ih =>
      have ih := ih fun i hi => h i (by omega)
      simp only [appendRows] at ih
      rw [appendRows, Nat.fold_succ, h n (by omega), ih, Nat.succ_mul]
      omega

end Scanout.Bytes
