/-!
# Byte streams that can fail

A `Reader` is what is still to come of a stream: its bytes, and whether the end behind them is an
error. An end that was reached stays reached. A source may hand out its end together with the last
byte or only on the next read (`eager`); a bounded read sees the difference when the bound falls on
the last byte.
-/

namespace Lib

structure Reader (B : Type) where
  data : List B
  fails : Bool
  eager : Bool

namespace Reader

variable {B : Type}

/-- What somebody who reads to the end gets: the bytes, and how they end. -/
def content (r : Reader B) : List B × Bool := (r.data, r.fails)

def ofBytes (buf : List B) : Reader B := ⟨buf, false, false⟩

def prepend (buf : List B) (r : Reader B) : Reader B :=
  ⟨buf ++ r.data, r.fails, r.eager && !r.data.isEmpty⟩

/-- What a bounded or unbounded read to the end returns, and the stream it leaves behind. -/
structure Got (B : Type) where
  bytes : List B
  failed : Bool
  rest : Reader B

def drained (r : Reader B) : Reader B := { r with data := [] }

def readAll (r : Reader B) : Got B := ⟨r.data, r.fails, r.drained⟩

/-- Whether a read of at most `n` bytes meets the end of the stream. -/
def ends (n : Nat) (r : Reader B) : Bool :=
  r.data.length < n || (r.data.length == n && r.eager && n != 0)

def readUpTo (n : Nat) (r : Reader B) : Got B :=
  ⟨r.data.take n, r.fails && r.ends n, { r with data := r.data.drop n }⟩

@[simp] theorem content_ofBytes (buf : List B) : (ofBytes buf).content = (buf, false) := rfl

@[simp] theorem content_drained (r : Reader B) : r.drained.content = ([], r.fails) := rfl

theorem content_prepend_readUpTo (n : Nat) (r : Reader B) :
    (prepend (r.readUpTo n).bytes (r.readUpTo n).rest).content = r.content := by
  show (r.data.take n ++ r.data.drop n, r.fails) = _
  rw [List.take_append_drop]
  rfl

variable {r : Reader B} {n : Nat}

theorem length_le_of_ends (h : r.ends n = true) : r.data.length ≤ n := by
  unfold ends at h
  simp only [Bool.or_eq_true, decide_eq_true_eq, Bool.and_eq_true, beq_iff_eq] at h
  omega

theorem ends_of_length_lt (h : r.data.length < n) : r.ends n = true := by
  simp [ends, h]

theorem rest_readUpTo_of_ends (h : r.ends n = true) : (r.readUpTo n).rest = r.drained := by
  rw [readUpTo, List.drop_eq_nil_of_le (length_le_of_ends h)]
  rfl

def weight (c : List B × Bool) : Nat := c.1.length + c.2.toNat

theorem weight_drained_lt (hd : r.data ≠ []) : weight r.drained.content < weight r.content := by
  have hpos : 0 < r.data.length := List.length_pos_iff.mpr hd
  show 0 + r.fails.toNat < r.data.length + r.fails.toNat
  omega

/-- Putting back only bytes loses weight, when an error ended them or some are missing. -/
theorem weight_ofBytes_take_lt (n : Nat) (h : r.fails = true ∨ n < r.data.length) :
    weight (ofBytes (r.data.take n)).content < weight r.content := by
  show (r.data.take n).length + 0 < r.data.length + r.fails.toNat
  rw [List.length_take]
  rcases h with hf | hlt
  · rw [hf, Bool.toNat_true]
    omega
  · omega

theorem content_ofBytes_data (h : r.fails = false) : (ofBytes r.data).content = r.content := by
  rw [content_ofBytes, content, h]

theorem content_drained_of_nil (h : r.data = []) : r.drained.content = r.content := by
  rw [content_drained, content, h]

end Reader

end Lib
