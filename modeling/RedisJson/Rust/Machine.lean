import Mathlib.Tactic.NormNum

/-!
# `Rust/Machine.lean` — panics, and the machine integers of the transforms

The transforms of `lib.rs` are Rust functions returning `Result<Value, Error>`. Two things can
end such a call: it returns (`Ok` or `Err`, both ordinary values here, `Except Error _`), or it
**panics** — an `unwrap` on `None`, an out-of-range `Vec` index, an arithmetic overflow. A panic
inside a module command aborts the server, so it is a separate outcome, `Outcome.panic`, and
never folded into the command's errors.

Integers are modelled at their Rust types. `I64` carries its range as fields, so an
out-of-range `i64` cannot be built; `usize` values are `Nat`s. Arithmetic is **checked**:
`checkedI64` answers `panic` exactly when the exact result leaves the type's range — the
semantics of a build with overflow checks on. The release reading of `+` and `*` on `i64`
(silent wrap-around, `wrapI64`) is given beside it, so that what a release build does at an
overflow can be stated too. The two casts
the code performs, `usize as i64` and `i64 as usize`, are bit reinterpretations (`ofUsize`,
`toUsize`).

Allocation failure is not modelled: a `Vec` that would need more than `isize::MAX` bytes is
outside what this development says anything about, and the one bound it does rely on —
every `Vec` length is at most `isize::MAX` — appears as an explicit hypothesis `hcap`.
-/

set_option autoImplicit false

namespace RedisJson

/-! ## 1. Outcomes -/

/-- What a call of Rust code ends in: it returns `a`, or it panics with a message. -/
inductive Outcome (α : Type) where
  | done (a : α)
  | panic (msg : String)
deriving Repr, DecidableEq

namespace Outcome

variable {α β : Type}

/-- Sequencing: a panic stops everything after it. -/
def bind : Outcome α → (α → Outcome β) → Outcome β
  | done a, f => f a
  | panic m, _ => panic m

instance : Monad Outcome where
  pure := done
  bind := bind

@[simp] theorem pure_eq (a : α) : (pure a : Outcome α) = done a := rfl

@[simp] theorem done_bind (a : α) (f : α → Outcome β) : (done a >>= f) = f a := rfl

@[simp] theorem panic_bind (m : String) (f : α → Outcome β) : (panic m >>= f) = panic m := rfl

@[simp] theorem map_done (g : α → β) (a : α) : (g <$> done a) = done (g a) := rfl

@[simp] theorem map_panic (g : α → β) (m : String) : (g <$> panic m) = (panic m : Outcome β) :=
  rfl

theorem bind_eq_done {x : Outcome α} {f : α → Outcome β} {b : β} :
    (x >>= f) = done b ↔ ∃ a, x = done a ∧ f a = done b := by
  cases x <;> simp [bind, Outcome.bind]

theorem map_eq_done {x : Outcome α} {g : α → β} {b : β} :
    (g <$> x) = done b ↔ ∃ a, x = done a ∧ g a = b := by
  cases x <;> simp [Functor.map, Outcome.bind]

theorem map_map {γ : Type} (f : α → β) (g : β → γ) (x : Outcome α) :
    g <$> (f <$> x) = (g ∘ f) <$> x := by
  cases x <;> rfl

end Outcome

/-- `Option::unwrap`: the value, or the standard panic on `None`. -/
def unwrap {α : Type} : Option α → Outcome α
  | some a => .done a
  | none => .panic "called Option::unwrap() on a None value"

@[simp] theorem unwrap_some {α : Type} (a : α) : unwrap (some a) = .done a := rfl

@[simp] theorem unwrap_none {α : Type} : unwrap (none : Option α) = .panic
    "called Option::unwrap() on a None value" := rfl

/-! ## 2. `i64` -/

/-- The value of `i64::MAX`. -/
def i64Max : Int := 2 ^ 63 - 1

/-- The value of `isize::MAX`: no `Vec` holds more bytes than this, so no `Vec` is longer. -/
def isizeMax : Nat := 2 ^ 63 - 1

/-- A Rust `i64`: an integer that carries its range. -/
@[ext]
structure I64 where
  val : Int
  min_le : -2 ^ 63 ≤ val
  lt_max : val < 2 ^ 63
deriving DecidableEq

/-- Reading an integer as the `i64` with the same low 64 bits (two's complement wrap). -/
def wrapI64 (r : Int) : Int := (r + 2 ^ 63) % 2 ^ 64 - 2 ^ 63

theorem wrapI64_of_mem {r : Int} (h1 : -2 ^ 63 ≤ r) (h2 : r < 2 ^ 63) : wrapI64 r = r := by
  unfold wrapI64; omega

namespace I64

/-- The `i64` with the low 64 bits of `r`; the identity on the range. -/
def ofInt (r : Int) : I64 := ⟨wrapI64 r, by unfold wrapI64; omega, by unfold wrapI64; omega⟩

/-- The cast `n as i64` of a `usize`. -/
def ofUsize (n : Nat) : I64 := ofInt n

/-- The cast `i as usize` of an `i64`: a negative `i` reads as `i + 2^64`. -/
def toUsize (i : I64) : Nat := if 0 ≤ i.val then i.val.toNat else (i.val + 2 ^ 64).toNat

/-- The constant `i64::MAX`. -/
def maxValue : I64 := ofInt i64Max

/-- The method `Ord::max` on `i64`. -/
def max (a b : I64) : I64 := if a.val ≤ b.val then b else a

/-- The method `Ord::min` on `i64`. -/
def min (a b : I64) : I64 := if a.val ≤ b.val then a else b

@[simp] theorem max_val (a b : I64) : (max a b).val = Max.max a.val b.val := by
  unfold max; split <;> omega

@[simp] theorem min_val (a b : I64) : (min a b).val = Min.min a.val b.val := by
  unfold min; split <;> omega

theorem ofInt_val {r : Int} (h1 : -2 ^ 63 ≤ r) (h2 : r < 2 ^ 63) : (ofInt r).val = r :=
  wrapI64_of_mem h1 h2

/-- A `Vec` length survives `as i64` unchanged. -/
theorem ofUsize_val {n : Nat} (h : n ≤ isizeMax) : (ofUsize n).val = n :=
  ofInt_val (by omega) (by unfold isizeMax at h; omega)

theorem toUsize_of_nonneg {i : I64} (h : 0 ≤ i.val) : (i.toUsize : Int) = i.val := by
  simp [toUsize, h]

/-- A non-negative `i64` casts to the `usize` of the same value. -/
theorem toUsize_ofInt {r : Int} (h0 : 0 ≤ r) (h1 : r < 2 ^ 63) : (ofInt r).toUsize = r.toNat := by
  have := toUsize_of_nonneg (i := ofInt r)
  rw [ofInt_val (by omega) h1] at this; omega

@[simp] theorem maxValue_val : maxValue.val = i64Max := ofInt_val (by decide) (by decide)

end I64

/-- The exact result `r` of an `i64` operation `op`, as a build with overflow checks
computes it: a panic when `r` is out of range. -/
def checkedI64 (op : String) (r : Int) : Outcome I64 :=
  if h : -2 ^ 63 ≤ r ∧ r < 2 ^ 63 then .done ⟨r, h.1, h.2⟩
  else .panic ("attempt to " ++ op ++ " with overflow")

/-- The operator `a + b` on `i64`. -/
def i64Add (a b : I64) : Outcome I64 := checkedI64 "add" (a.val + b.val)

/-- The operator `a - b` on `i64`. -/
def i64Sub (a b : I64) : Outcome I64 := checkedI64 "subtract" (a.val - b.val)

/-- The operator `a * b` on `i64`. -/
def i64Mul (a b : I64) : Outcome I64 := checkedI64 "multiply" (a.val * b.val)

/-- An operation whose exact result is in range returns it. -/
theorem checkedI64_of_mem {op : String} {r : Int} (h1 : -2 ^ 63 ≤ r) (h2 : r < 2 ^ 63) :
    checkedI64 op r = .done (I64.ofInt r) := by
  simp only [checkedI64, dif_pos (And.intro h1 h2)]
  exact congrArg Outcome.done (I64.ext (I64.ofInt_val h1 h2).symm)

/-- What the checked operation returns is the exact result. -/
theorem val_of_checkedI64 {op : String} {r : Int} {x : I64} (h : checkedI64 op r = .done x) :
    x.val = r := by
  unfold checkedI64 at h
  split at h
  · cases h; rfl
  · cases h

theorem checkedI64_of_not_mem {op : String} {r : Int} (h : ¬ (-2 ^ 63 ≤ r ∧ r < 2 ^ 63)) :
    checkedI64 op r = .panic ("attempt to " ++ op ++ " with overflow") := by
  simp only [checkedI64, dif_neg h]

/-! ## 3. `usize` -/

/-- The value of `usize::MAX` on the 64-bit targets the module is built for. -/
def usizeMax : Nat := 2 ^ 64 - 1

/-- The operator `a + b` on `usize`, checked. -/
def usizeAdd (a b : Nat) : Outcome Nat :=
  if a + b ≤ usizeMax then .done (a + b) else .panic "attempt to add with overflow"

/-- The operator `a - b` on `usize`, checked. -/
def usizeSub (a b : Nat) : Outcome Nat :=
  if b ≤ a then .done (a - b) else .panic "attempt to subtract with overflow"

theorem usizeAdd_of_le {a b : Nat} (h : a + b ≤ usizeMax) : usizeAdd a b = .done (a + b) := by
  simp [usizeAdd, h]

theorem usizeSub_of_le {a b : Nat} (h : b ≤ a) : usizeSub a b = .done (a - b) := by
  simp [usizeSub, h]

theorem usizeSub_of_lt {a b : Nat} (h : a < b) :
    usizeSub a b = .panic "attempt to subtract with overflow" := by
  simp [usizeSub, Nat.not_le.mpr h]

end RedisJson
