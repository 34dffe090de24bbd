import RedisJson.Rust.Machine
import Mathlib.Algebra.Order.Ring.Rat

/-!
# `Json/Value.lean` — serde_json's `Value`, and the library calls around it

`Value` is serde_json's tree: `Null | Bool | Number | String | Array | Object`, an object
being its entries in iteration order. `Number` is serde_json's private representation
`N = PosInt(u64) | NegInt(i64) | Float(f64)` together with the invariants serde keeps on it
(a `u64`; a strictly negative `i64`; a finite `f64`), so a number serde could not build
cannot be written down.

## Doubles

An `f64` is modelled as the arithmetic of the number transforms sees it: a finite double is
a rational, and an operation whose exact result `q` rounds to a magnitude beyond the largest
finite double, `(2 - 2^-52) * 2^1023`, gives an infinity. Under round-to-nearest that happens
exactly when `|q| ≥ 2^1024 - 2^970` (`overflowThreshold`). The casts `u as f64` and
`i as f64` that `as_f64` applies to an integer round it to 53 significant bits, to the
nearest, ties to even (`natAsF64`); a `u64` or `i64` never rounds past the double range.
Rounding of an in-range result of an operation is not modelled: no theorem here depends on a
finite result's last bits. No modelled operation produces a NaN: the sum or product of two
finite doubles is finite or an infinity.

## What is a parameter

`Lib` collects the functions the transforms call that this repository does not define:
`serde_json::from_str` (a parse error carries its text), `Value`'s `Display`, and
`RedisJSON::value_name`, which lives in `redisjson.rs`, outside the sources. Every theorem
of the development holds for every choice of them.
-/

set_option autoImplicit false

namespace RedisJson

/-! ## 1. Doubles -/

/-- The least magnitude that rounds past the largest finite double. -/
def overflowThreshold : ℚ := 2 ^ 1024 - 2 ^ 970

/-- An `f64` result: finite (a rational), or an infinity of a sign. -/
inductive F64 where
  | finite (q : ℚ)
  | inf (neg : Bool)
deriving DecidableEq

/-- The double an exact result `q` rounds to, as far as finiteness goes. -/
def F64.ofRat (q : ℚ) : F64 :=
  if overflowThreshold ≤ |q| then .inf (decide (q < 0)) else .finite q

/-- The closure `|f1, f2| f1 + f2` on two finite doubles. -/
def f64Add (x y : ℚ) : F64 := F64.ofRat (x + y)

/-- The closure `|f1, f2| f1 * f2` on two finite doubles. -/
def f64Mul (x y : ℚ) : F64 := F64.ofRat (x * y)

theorem F64.ofRat_of_lt {q : ℚ} (h : |q| < overflowThreshold) : F64.ofRat q = .finite q := by
  simp [F64.ofRat, not_le.mpr h]

theorem F64.ofRat_of_le {q : ℚ} (h : overflowThreshold ≤ |q|) :
    F64.ofRat q = .inf (decide (q < 0)) := by
  simp [F64.ofRat, h]

/-- `n` rounded to a multiple of `2 ^ k`: to the nearest one, and on a tie to the one whose
quotient by `2 ^ k` is even. -/
def roundNearestEven (n k : Nat) : Nat :=
  if 2 * (n % 2 ^ k) < 2 ^ k ∨ 2 * (n % 2 ^ k) = 2 ^ k ∧ n / 2 ^ k % 2 = 0 then
    n / 2 ^ k * 2 ^ k
  else (n / 2 ^ k + 1) * 2 ^ k

/-- The cast `u as f64` of an unsigned integer: `u` has `u.log2 + 1` binary digits, and all
but the 53 leading ones are rounded off, to the nearest, ties to even. -/
def natAsF64 (u : Nat) : Nat := roundNearestEven u (u.log2 + 1 - 53)

/-- The cast `i as f64` of a signed integer: the magnitude rounds as `natAsF64` rounds it. -/
def intAsF64 (i : Int) : Int := if i < 0 then -(natAsF64 i.natAbs : Int) else natAsF64 i.natAbs

/-- An integer below `2^53` is a double: the cast keeps it. -/
theorem natAsF64_of_lt {u : Nat} (h : u < 2 ^ 53) : natAsF64 u = u := by
  have hlog : u.log2 + 1 - 53 = 0 := by
    rcases Nat.eq_zero_or_pos u with rfl | hu
    · rw [Nat.log2_zero]
    · have := (Nat.log2_lt hu.ne').mpr h; omega
  simp [natAsF64, roundNearestEven, hlog, Nat.mod_one]

/-! ## 2. Numbers -/

/-- The representation `N` inside serde_json's `Number`. -/
inductive N where
  | posInt (u : Nat)
  | negInt (i : Int)
  | float (f : ℚ)
deriving DecidableEq

/-- The invariants serde_json keeps on `N`. -/
def N.Wf : N → Prop
  | .posInt u => u ≤ usizeMax
  | .negInt i => -2 ^ 63 ≤ i ∧ i < 0
  | .float _ => True

instance N.decWf : DecidablePred N.Wf
  | .posInt u => inferInstanceAs (Decidable (u ≤ usizeMax))
  | .negInt i => inferInstanceAs (Decidable (-2 ^ 63 ≤ i ∧ i < 0))
  | .float _ => inferInstanceAs (Decidable True)

/-- A serde_json `Number`: a representation with its invariant. -/
structure Number where
  n : N
  wf : n.Wf
deriving DecidableEq

namespace Number

/-- The method `as_i64`: `PosInt` up to `i64::MAX`, and every `NegInt`. -/
def asI64 (x : Number) : Option I64 :=
  match x with
  | ⟨.posInt u, _⟩ => if h : (u : Int) < 2 ^ 63 then some ⟨u, by omega, h⟩ else none
  | ⟨.negInt i, h⟩ => some ⟨i, h.1, by have := h.2; omega⟩
  | ⟨.float _, _⟩ => none

/-- The method `as_f64`, which is `Some` on every number, so the `unwrap` after it in the
code never panics: `u as f64` of a `PosInt`, `i as f64` of a `NegInt`, a `Float` as it is. -/
def asF64 (x : Number) : ℚ :=
  match x.n with
  | .posInt u => natAsF64 u
  | .negInt i => intAsF64 i
  | .float f => f

/-- The function `Number::from_f64`: `Some` exactly on finite doubles. -/
def fromF64 : F64 → Option Number
  | .finite q => some ⟨.float q, trivial⟩
  | _ => none

/-- The conversion `impl From<i64> for Number`: negative values are `NegInt`. -/
def ofI64 (i : I64) : Number :=
  if h : i.val < 0 then ⟨.negInt i.val, i.min_le, h⟩
  else ⟨.posInt i.val.toNat, by
    show i.val.toNat ≤ usizeMax; have := i.lt_max; unfold usizeMax; omega⟩

/-- The integer a number is, when it is one of `i64`'s. -/
theorem asI64_ofI64 (i : I64) : (ofI64 i).asI64 = some i := by
  obtain ⟨v, h1, h2⟩ := i
  by_cases h : v < 0
  · simp [ofI64, asI64, h]
  · have hv : ((v.toNat : Nat) : Int) = v := Int.toNat_of_nonneg (by omega)
    simp only [ofI64, dif_neg h, asI64, hv, dif_pos h2]

/-- Building a number from a non-float `as_i64` gives it back: `ofI64` inverts `asI64`. -/
theorem ofI64_asI64 {x : Number} {i : I64} (h : x.asI64 = some i) : ofI64 i = x := by
  obtain ⟨n, wf⟩ := x
  cases n with
  | posInt u =>
    simp only [asI64] at h
    split at h
    · cases h
      simp only [ofI64, dif_neg (Int.not_lt.mpr (Int.natCast_nonneg u)), Int.toNat_ofNat]
    · cases h
  | negInt j => simp only [asI64, Option.some.injEq] at h; subst h; simp [ofI64, wf.2]
  | float f => simp [asI64] at h

end Number

/-! ## 3. Values -/

/-- serde_json's `Value`; an object is its entries in iteration order. -/
inductive Value where
  | null
  | bool (b : Bool)
  | number (n : Number)
  | string (s : String)
  | array (a : List Value)
  | object (m : List (String × Value))

namespace Value

/-- The method `is_number`. -/
def isNumber : Value → Bool
  | .number _ => true
  | _ => false

/-- The method `is_string`. -/
def isString : Value → Bool
  | .string _ => true
  | _ => false

/-- The method `is_boolean`. -/
def isBoolean : Value → Bool
  | .bool _ => true
  | _ => false

/-- The method `is_array`. -/
def isArray : Value → Bool
  | .array _ => true
  | _ => false

end Value

/-- Modelled from the spec: the crate's `Error` (error.rs) is not among the sources; it carries
the message the client receives (§7). -/
structure Error where
  msg : String
deriving DecidableEq

/-- The library calls the transforms make whose code is not under the sources. -/
structure Lib where
  fromStr : String → Except String Value
  display : Value → String
  valueName : Value → String

namespace Lib

variable (L : Lib)

/-- The call `serde_json::from_str(json)?`: a parse error becomes the crate's `Error`. -/
def parse (json : String) : Except Error Value :=
  match L.fromStr json with
  | .ok v => .ok v
  | .error e => .error ⟨e⟩

/-- The expression `args.map(|json| serde_json::from_str(&json)).collect::<Result<_, _>>()`:
every item parsed, or the first parse error. -/
def parseAll (args : List String) : Except Error (List Value) := args.mapM L.parse

/-- The literal `json` parses, to a value the test `p` accepts. -/
def parsesTo (json : String) (p : Value → Bool) : Bool :=
  match L.fromStr json with
  | .ok v => p v
  | .error _ => false

variable {L}

@[simp] theorem parseAll_nil : L.parseAll [] = .ok [] := rfl

theorem parseAll_cons (x : String) (xs : List String) :
    L.parseAll (x :: xs) = (match L.parse x with
      | .ok v => (L.parseAll xs).map (v :: ·)
      | .error e => .error e) := by
  simp only [parseAll, List.mapM_cons]
  cases L.parse x <;> rfl

/-- The collect fails exactly when one of the items does not parse. -/
theorem parseAll_isError_iff (xs : List String) :
    (L.parseAll xs).toBool = false ↔ ∃ x ∈ xs, (L.fromStr x).toBool = false := by
  induction xs with
  | nil => simp [Except.toBool]
  | cons x xs ih =>
    simp only [parseAll_cons, List.mem_cons, exists_eq_or_imp, ← ih, parse]
    cases L.fromStr x <;> cases L.parseAll xs <;> simp [Except.toBool, Except.map]

/-- Items that each parse to their value are collected in order. -/
theorem parseAll_of_forall₂ {xs : List String} {ys : List Value}
    (h : List.Forall₂ (fun x y => L.fromStr x = .ok y) xs ys) : L.parseAll xs = .ok ys := by
  induction h with
  | nil => rfl
  | cons hxy _ ih => simp [parseAll_cons, parse, hxy, ih, Except.map]

end Lib

/-- The function `err_json`: the type error naming what was expected and what was found. -/
def errJson (L : Lib) (value : Value) (expectedValue : String) : Error :=
  ⟨"ERR wrong type of path value - expected " ++ expectedValue ++ " but found " ++
    L.valueName value⟩

end RedisJson
