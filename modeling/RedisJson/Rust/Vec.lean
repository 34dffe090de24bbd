import RedisJson.Rust.Machine
import Mathlib.Data.List.InsertIdx

/-!
# `Rust/Vec.lean` — the `Vec` operations the array transforms call

A `Vec<Value>` is a `List`. Each operation below is the standard-library method the
transforms call, with the precondition the method itself asserts: `remove` past the end,
`splice` with a range past the end and `rotate_left` by more than the length all panic. What
the transforms need from them is collected here once — the positional form of each result,
and the two facts the array commands rest on: a rotate followed by a truncating `resize` is a
contiguous slice (`resize_rotate`), and putting a removed element back where it was restores
the vector (`insertIdx_remove`).
-/

set_option autoImplicit false

namespace RedisJson
namespace Vec

variable {α : Type}

/-- The method `Vec::remove(index)`: the element at `index` and the vector without it. -/
def remove (v : List α) (index : Nat) : Outcome (α × List α) :=
  if h : index < v.length then .done (v[index], v.eraseIdx index)
  else .panic "removal index should be < len"

/-- The method `Vec::splice(index..index, items)`: `items` spliced in before `index`. -/
def splice (v : List α) (index : Nat) (items : List α) : Outcome (List α) :=
  if index ≤ v.length then .done (v.take index ++ items ++ v.drop index)
  else .panic "range end index out of range for slice"

/-- The method `slice::rotate_left(mid)`. -/
def rotateLeft (v : List α) (mid : Nat) : Outcome (List α) :=
  if mid ≤ v.length then .done (v.drop mid ++ v.take mid)
  else .panic "assertion failed: mid <= self.len()"

/-- The method `Vec::resize(newLen, value)`: truncate, or pad with copies of `value`. -/
def resize (v : List α) (newLen : Nat) (value : α) : List α :=
  if newLen ≤ v.length then v.take newLen else v ++ List.replicate (newLen - v.length) value

theorem remove_of_lt {v : List α} {index : Nat} (h : index < v.length) :
    remove v index = .done (v[index], v.eraseIdx index) := by
  simp [remove, h]

theorem splice_of_le {v : List α} {index : Nat} (items : List α) (h : index ≤ v.length) :
    splice v index items = .done (v.take index ++ items ++ v.drop index) := by
  simp [splice, h]

theorem rotateLeft_of_le {v : List α} {mid : Nat} (h : mid ≤ v.length) :
    rotateLeft v mid = .done (v.drop mid ++ v.take mid) := by
  simp [rotateLeft, h]

theorem resize_of_le {v : List α} {newLen : Nat} (value : α) (h : newLen ≤ v.length) :
    resize v newLen value = v.take newLen := by
  simp [resize, h]

/-- Rotating `s` to the front and truncating to `n` keeps the `n` elements from `s` on. -/
theorem resize_rotate {v : List α} {s n : Nat} (value : α) (h : s + n ≤ v.length) :
    resize (v.drop s ++ v.take s) n value = (v.drop s).take n := by
  have hn : n ≤ (v.drop s).length := by simp; omega
  rw [resize_of_le value (by simp; omega), List.take_append_of_le_length hn]

/-- Putting the removed element back at its index gives the vector back. -/
theorem insertIdx_remove {v : List α} {index : Nat} (h : index < v.length) :
    (v.eraseIdx index).insertIdx index v[index] = v := by
  induction v generalizing index with
  | nil => simp at h
  | cons x xs ih =>
    cases index with
    | zero => rfl
    | succ k => simp [ih (Nat.lt_of_succ_lt_succ h)]

/-- Removing the one item a splice put in gives the vector back. -/
theorem remove_splice {v : List α} {index : Nat} (x : α) (h : index ≤ v.length) :
    remove (v.take index ++ [x] ++ v.drop index) index = .done (x, v) := by
  have hlen : (v.take index).length = index := List.length_take_of_le h
  have hlt : index < (v.take index ++ [x] ++ v.drop index).length := by simp; omega
  have hget : (v.take index ++ [x] ++ v.drop index)[index] = x := by
    simp only [List.append_assoc]
    rw [List.getElem_append_right (by omega)]
    simp [hlen]
  rw [remove, dif_pos hlt, hget, List.append_assoc, List.eraseIdx_append_of_length_le hlen.le]
  simp [hlen]

end Vec
end RedisJson
