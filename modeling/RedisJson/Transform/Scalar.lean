import RedisJson.Json.Value

/-!
# `Transform/Scalar.lean` — the transforms on numbers, strings and booleans

Three of the write commands hand `value_op` a transform that reads the target through a
shared reference (`&Value`) and returns the replacement: `do_json_num_op` (for
`JSON.NUMINCRBY` and `JSON.NUMMULTBY`), `do_json_str_append` (for `JSON.STRAPPEND`) and the
closure of `json_bool_toggle`. Because the target is borrowed immutably, none of them can
leave it changed; what there is to know is *when* they fail, and what they return.

`do_json_num_op` is the one with content. It takes the two operators as parameters, exactly
as the source does, and chooses between them on `as_i64` of both operands:

* both are `i64` integers — the `i64` operator, whose overflow is a panic
  (`doJsonNumOp_int`);
* otherwise — the `f64` operator on the values `as_f64` gives (an integer operand goes
  through `u as f64` or `i as f64`, which round it to 53 significant bits), then
  `Number::from_f64(..).unwrap()`, which panics on a non-finite result
  (`doJsonNumOp_float`).

The commands' operators are `i64Add`/`f64Add` and `i64Mul`/`f64Mul`. A release build
evaluates the `i64` closures with wrap-around instead; that reading is `i64AddWrapping`.
-/

set_option autoImplicit false

namespace RedisJson

/-! ## 1. `do_json_num_op` -/

/-- The function `do_json_num_op`, with its operators as parameters. -/
def doJsonNumOp (L : Lib) (inValue : String) (currValue : Value)
    (opI64 : I64 → I64 → Outcome I64) (opF64 : ℚ → ℚ → F64) : Outcome (Except Error Value) :=
  match currValue with
  | .number curr =>
    match L.parse inValue with
    | .error e => pure (.error e)
    | .ok (.number inV) => do
      let numRes ← match curr.asI64, inV.asI64 with
        | some num1, some num2 => Number.ofI64 <$> opI64 num1 num2
        | _, _ => unwrap (Number.fromF64 (opF64 curr.asF64 inV.asF64))
      pure (.ok (.number numRes))
    | .ok v => pure (.error (errJson L v "number"))
  | v => pure (.error (errJson L v "number"))

/-- The transform `json_num_incrby` runs: `|i1, i2| i1 + i2` and `|f1, f2| f1 + f2`. -/
def jsonNumIncrbyOp (L : Lib) (number : String) (value : Value) : Outcome (Except Error Value) :=
  doJsonNumOp L number value i64Add f64Add

/-- The transform `json_num_multby` runs: `|i1, i2| i1 * i2` and `|f1, f2| f1 * f2`. -/
def jsonNumMultbyOp (L : Lib) (number : String) (value : Value) : Outcome (Except Error Value) :=
  doJsonNumOp L number value i64Mul f64Mul

/-- The closure `|i1, i2| i1 + i2` as a release build runs it: wrap-around. -/
def i64AddWrapping (a b : I64) : Outcome I64 := .done (I64.ofInt (a.val + b.val))

section NumOp

variable {L : Lib} {inValue : String} {opI64 : I64 → I64 → Outcome I64} {opF64 : ℚ → ℚ → F64}

/-- Two `i64` operands: the `i64` operator's result, as a number. -/
theorem doJsonNumOp_int {curr inV : Number} {num1 num2 : I64}
    (hp : L.fromStr inValue = .ok (.number inV)) (h1 : curr.asI64 = some num1)
    (h2 : inV.asI64 = some num2) :
    doJsonNumOp L inValue (.number curr) opI64 opF64 =
      (fun r => .ok (.number (Number.ofI64 r))) <$> opI64 num1 num2 := by
  simp only [doJsonNumOp, Lib.parse, hp, h1, h2]
  cases opI64 num1 num2 <;> rfl

/-- Not both `i64`: the `f64` operator on the `as_f64` values, through `from_f64(..).unwrap()`. -/
theorem doJsonNumOp_float {curr inV : Number} (hp : L.fromStr inValue = .ok (.number inV))
    (h : ¬ (curr.asI64.isSome ∧ inV.asI64.isSome)) :
    doJsonNumOp L inValue (.number curr) opI64 opF64 =
      (fun r => .ok (.number r)) <$> unwrap (Number.fromF64 (opF64 curr.asF64 inV.asF64)) := by
  simp only [doJsonNumOp, Lib.parse, hp]
  cases h1 : curr.asI64 <;> cases h2 : inV.asI64 <;> simp_all <;>
    cases Number.fromF64 (opF64 curr.asF64 inV.asF64) <;> rfl

/-- A number target with a literal that does not parse to a number: an error, no panic. -/
theorem doJsonNumOp_not_parsed {curr : Number} (h : L.parsesTo inValue Value.isNumber = false) :
    ∃ e, doJsonNumOp L inValue (.number curr) opI64 opF64 = .done (.error e) := by
  simp only [Lib.parsesTo] at h
  simp only [doJsonNumOp, Lib.parse]
  split at h
  · next v hv => cases v <;> simp_all [Value.isNumber]
  · next e hv => simp [hv]

/-- The result of a call that returns is an `Ok` number. -/
theorem doJsonNumOp_ok {curr inV : Number} (hp : L.fromStr inValue = .ok (.number inV))
    {r : Except Error Value} (h : doJsonNumOp L inValue (.number curr) opI64 opF64 = .done r) :
    ∃ n, r = .ok (.number n) := by
  by_cases hb : curr.asI64.isSome ∧ inV.asI64.isSome
  · obtain ⟨num1, h1⟩ := Option.isSome_iff_exists.mp hb.1
    obtain ⟨num2, h2⟩ := Option.isSome_iff_exists.mp hb.2
    rw [doJsonNumOp_int hp h1 h2] at h
    revert h
    cases opI64 num1 num2 <;> simp only [Outcome.map_done, Outcome.map_panic,
      Outcome.done.injEq, reduceCtorEq, false_imp_iff]
    exact fun h => ⟨_, h.symm⟩
  · rw [doJsonNumOp_float hp hb] at h
    revert h
    cases Number.fromF64 (opF64 curr.asF64 inV.asF64) <;> simp only [unwrap, Outcome.map_done,
      Outcome.map_panic, Outcome.done.injEq, reduceCtorEq, false_imp_iff]
    exact fun h => ⟨_, h.symm⟩

/-- Two `i64` operands under a checked operator: the exact result when it is an `i64`,
the overflow panic otherwise. -/
theorem doJsonNumOp_checked {curr inV : Number} {num1 num2 : I64} (op : String) (f : Int → Int → Int)
    (hop : ∀ a b : I64, opI64 a b = checkedI64 op (f a.val b.val))
    (hp : L.fromStr inValue = .ok (.number inV)) (h1 : curr.asI64 = some num1)
    (h2 : inV.asI64 = some num2) :
    doJsonNumOp L inValue (.number curr) opI64 opF64 =
      if -2 ^ 63 ≤ f num1.val num2.val ∧ f num1.val num2.val < 2 ^ 63 then
        .done (.ok (.number (Number.ofI64 (I64.ofInt (f num1.val num2.val)))))
      else .panic ("attempt to " ++ op ++ " with overflow") := by
  rw [doJsonNumOp_int hp h1 h2, hop]
  split
  · next h => rw [checkedI64_of_mem h.1 h.2]; rfl
  · next h => rw [checkedI64_of_not_mem h]; rfl

/-- Not both `i64`: the call panics exactly when the exact result overflows the double range,
and otherwise returns it as a finite number. -/
theorem doJsonNumOp_float_spec {curr inV : Number} (f : ℚ → ℚ → ℚ)
    (hop : ∀ x y, opF64 x y = F64.ofRat (f x y)) (hp : L.fromStr inValue = .ok (.number inV))
    (h : ¬ (curr.asI64.isSome ∧ inV.asI64.isSome)) :
    doJsonNumOp L inValue (.number curr) opI64 opF64 =
      if overflowThreshold ≤ |f curr.asF64 inV.asF64| then
        .panic "called Option::unwrap() on a None value"
      else .done (.ok (.number ⟨.float (f curr.asF64 inV.asF64), trivial⟩)) := by
  rw [doJsonNumOp_float hp h, hop]
  split
  · next hq => rw [F64.ofRat_of_le hq]; rfl
  · next hq => rw [F64.ofRat_of_lt (not_le.mp hq)]; rfl

/-- As far as it returns, `do_json_num_op` fails exactly on a target that is not a number or a
literal that does not parse to one. -/
theorem doJsonNumOp_err_iff (v : Value) {r : Except Error Value}
    (h : doJsonNumOp L inValue v opI64 opF64 = .done r) :
    r.toBool = false ↔ (v.isNumber = false ∨ L.parsesTo inValue Value.isNumber = false) := by
  cases v with
  | number curr =>
    cases hp : L.parsesTo inValue Value.isNumber
    · obtain ⟨e, he⟩ : ∃ e, doJsonNumOp L inValue (.number curr) opI64 opF64 = .done (.error e) :=
        doJsonNumOp_not_parsed hp
      rw [he] at h; cases h; simp [Except.toBool]
    · simp only [Lib.parsesTo] at hp
      split at hp
      · next w hw =>
        cases w <;> simp only [Value.isNumber, reduceCtorEq] at hp
        obtain ⟨n, rfl⟩ := doJsonNumOp_ok hw h
        simp [Except.toBool, Value.isNumber]
      · cases hp
  | _ =>
    simp only [doJsonNumOp, Outcome.pure_eq, Outcome.done.injEq] at h
    subst h; simp [Except.toBool, Value.isNumber]

end NumOp

/-! ## 2. The number commands at the edges of their ranges -/

/-- `JSON.NUMINCRBY` on `i64::MAX` with a literal that parses to `1`: a debug build panics on
the `i64` addition, and a release build stores the wrapped `i64::MIN`; neither is `Err` nor
the exact sum `2^63`. -/
theorem jsonNumIncrbyOp_overflow (L : Lib)
    (hp : L.fromStr "1" = .ok (.number (Number.ofI64 (I64.ofInt 1)))) :
    jsonNumIncrbyOp L "1" (.number (Number.ofI64 I64.maxValue)) =
      .panic "attempt to add with overflow" ∧
    doJsonNumOp L "1" (.number (Number.ofI64 I64.maxValue)) i64AddWrapping f64Add =
      .done (.ok (.number (Number.ofI64 (I64.ofInt (-2 ^ 63))))) := by
  have h1 := Number.asI64_ofI64 I64.maxValue
  have h2 := Number.asI64_ofI64 (I64.ofInt 1)
  constructor
  · refine (doJsonNumOp_checked "add" (· + ·) (fun _ _ => rfl) hp h1 h2).trans (if_neg ?_)
    simp only [I64.maxValue_val, I64.ofInt_val (show (-2 : Int) ^ 63 ≤ 1 by decide) (by decide),
      i64Max]
    omega
  · rw [doJsonNumOp_int hp h1 h2, i64AddWrapping]
    simp only [Outcome.map_done, I64.maxValue_val, i64Max,
      I64.ofInt_val (show (-2 : Int) ^ 63 ≤ 1 by decide) (by decide)]
    rfl

theorem jsonNumIncrbyOp_overflow_at_max :
    jsonNumIncrbyOp ⟨fun _ => .ok (.number (Number.ofI64 (I64.ofInt 1))), fun _ => "", fun _ => ""⟩
        "1" (.number (Number.ofI64 I64.maxValue)) = .panic "attempt to add with overflow" :=
  (jsonNumIncrbyOp_overflow _ rfl).1

/-- `JSON.NUMINCRBY` and `JSON.NUMMULTBY` on operands that are not both `i64` integers panic
in `Number::from_f64(..).unwrap()` whenever the exact sum (product) of the two doubles
`as_f64` gives is past the double range, which is when the rounded `f64` result is an
infinity. -/
theorem jsonNumOp_float_overflow (L : Lib) (t : String) (curr inV : Number)
    (hp : L.fromStr t = .ok (.number inV)) (hf : ¬ (curr.asI64.isSome ∧ inV.asI64.isSome)) :
    (overflowThreshold ≤ |curr.asF64 + inV.asF64| →
      jsonNumIncrbyOp L t (.number curr) = .panic "called Option::unwrap() on a None value") ∧
    (overflowThreshold ≤ |curr.asF64 * inV.asF64| →
      jsonNumMultbyOp L t (.number curr) = .panic "called Option::unwrap() on a None value") :=
  ⟨fun hq => (doJsonNumOp_float_spec (· + ·) (fun _ _ => rfl) hp hf).trans (if_pos hq),
   fun hq => (doJsonNumOp_float_spec (· * ·) (fun _ _ => rfl) hp hf).trans (if_pos hq)⟩

theorem jsonNumMultbyOp_overflow_at_pow :
    jsonNumMultbyOp ⟨fun _ => .ok (.number ⟨.posInt 2, by decide⟩), fun _ => "", fun _ => ""⟩
        "2" (.number ⟨.float (2 ^ 1023), trivial⟩) =
      .panic "called Option::unwrap() on a None value" :=
  (jsonNumOp_float_overflow _ "2" ⟨.float (2 ^ 1023), trivial⟩ _ rfl (by simp [Number.asI64])).2
    (by norm_num [Number.asF64, natAsF64_of_lt (show 2 < 2 ^ 53 by norm_num), overflowThreshold])

/-! ## 3. `do_json_str_append` and the toggle -/

/-- The function `do_json_str_append`. -/
def doJsonStrAppend (L : Lib) (json : String) (value : Value) : Except Error Value :=
  match value with
  | .string curr =>
    match L.parse json with
    | .ok (.string s) => .ok (.string (curr ++ s))
    | .ok v => .error ⟨"ERR wrong type of value - expected string but found " ++ L.display v⟩
    | .error e => .error e
  | v => .error (errJson L v "string")

/-- The transform closure of `json_bool_toggle`: `curr ^ true`. -/
def jsonBoolToggleOp (L : Lib) (value : Value) : Except Error Value :=
  match value with
  | .bool curr => .ok (.bool (curr ^^ true))
  | v => .error (errJson L v "boolean")

/-- String append fails exactly on a non-string target or a literal that is not a string. -/
theorem doJsonStrAppend_isOk_iff (L : Lib) (json : String) (value : Value) :
    (doJsonStrAppend L json value).toBool = true ↔
      value.isString = true ∧ L.parsesTo json Value.isString = true := by
  unfold doJsonStrAppend Lib.parsesTo Lib.parse
  cases value <;> simp only [Value.isString] <;> try simp [Except.toBool]
  cases L.fromStr json with
  | error e => simp [Except.toBool]
  | ok v => cases v <;> simp [Except.toBool, Value.isString]

/-- The toggle fails exactly on a non-boolean target. -/
theorem jsonBoolToggleOp_err_iff (L : Lib) (value : Value) :
    (jsonBoolToggleOp L value).toBool = false ↔ value.isBoolean = false := by
  cases value <;> simp [jsonBoolToggleOp, Except.toBool, Value.isBoolean]

end RedisJson
