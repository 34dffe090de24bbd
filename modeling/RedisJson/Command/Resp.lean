import RedisJson.Json.Value

/-!
# `Command/Resp.lean` — `JSON.RESP`: a value as a Redis protocol reply

`resp_serialize` (lib.rs) turns a JSON value into a `RedisValue` reply tree: `null` to
`Null`, a boolean to the simple string of its name, a number to an `Integer` when `as_i64`
gives one and to a `Float` otherwise, a string to a bulk string, and a container to an
`Array` headed by a static marker, `"["` or `"{"`, followed by the elements, or by each key
(a bulk string) and its value.

The reply is **faithful** on every value whose integers are `i64`s: `respDecode`, the inverse
that reads the markers back, recovers the value (`respDecode_respSerialize`), and it accepts
nothing else (`respSerialize_of_respDecode`), so replies and such values are in bijection.
Outside that range the reply forgets a number's kind: a `u64` above `i64::MAX` goes out as the
`Float` of the double `u as f64` rounds it to, and that is all the reply loses
(`respSerialize_eq_iff_roundBigInts`).

Booleans and strings never collide although both become strings: a boolean is a **simple**
string, a JSON string a **bulk** string, and the markers are static simple strings.
-/

set_option autoImplicit false

namespace RedisJson

/-- The variants of the redis-module crate's `RedisValue` that `resp_serialize` builds; a
`Float` carries a finite double. -/
inductive RedisValue where
  | null
  | simpleStringStatic (s : String)
  | simpleString (s : String)
  | bulkString (s : String)
  | integer (i : I64)
  | float (f : ℚ)
  | array (a : List RedisValue)

/-! ## 1. The encoder -/

mutual

/-- The function `resp_serialize`. -/
def respSerialize : Value → RedisValue
  | .null => .null
  | .bool b => .simpleString (toString b)
  | .number n =>
    match n.asI64 with
    | some i => .integer i
    | none => .float n.asF64
  | .string s => .bulkString s
  | .array arr => .array (.simpleStringStatic "[" :: respSerializeElems arr)
  | .object obj => .array (.simpleStringStatic "\x7b" :: respSerializeEntries obj)

/-- The loop `arr.iter().for_each(|v| res.push(resp_serialize(v)))`. -/
def respSerializeElems : List Value → List RedisValue
  | [] => []
  | v :: vs => respSerialize v :: respSerializeElems vs

/-- The loop pushing `BulkString(key)` then `resp_serialize(value)` for each entry. -/
def respSerializeEntries : List (String × Value) → List RedisValue
  | [] => []
  | (key, value) :: es => .bulkString key :: respSerialize value :: respSerializeEntries es

end

/-! ## 2. Which values the reply is faithful on -/

mutual

/-- Every integer in `v` is an `i64`: no `PosInt` above `i64::MAX`. -/
def Value.intsFitI64 : Value → Bool
  | .number ⟨.posInt u, _⟩ => decide ((u : Int) ≤ i64Max)
  | .array a => Value.intsFitI64Elems a
  | .object m => Value.intsFitI64Entries m
  | _ => true

/-- Every element fits. -/
def Value.intsFitI64Elems : List Value → Bool
  | [] => true
  | v :: vs => v.intsFitI64 && Value.intsFitI64Elems vs

/-- Every entry's value fits. -/
def Value.intsFitI64Entries : List (String × Value) → Bool
  | [] => true
  | (_, v) :: es => v.intsFitI64 && Value.intsFitI64Entries es

end

/-- A number that fits is an integer `as_i64` reads, or a float. -/
theorem Number.asI64_or_float (n : Number) (h : (Value.number n).intsFitI64 = true) :
    (∃ i, n.asI64 = some i) ∨ ∃ f, n = ⟨.float f, trivial⟩ := by
  obtain ⟨n, wf⟩ := n
  cases n with
  | posInt u =>
    simp only [Value.intsFitI64, decide_eq_true_eq, i64Max] at h
    have hu : (u : Int) < 2 ^ 63 := by omega
    exact .inl ⟨⟨u, by omega, hu⟩, by simp only [Number.asI64, dif_pos hu]⟩
  | negInt i => exact .inl ⟨_, rfl⟩
  | float f => exact .inr ⟨f, rfl⟩

/-- An `i64` made a number fits. -/
theorem intsFitI64_ofI64 (i : I64) : (Value.number (Number.ofI64 i)).intsFitI64 = true := by
  unfold Number.ofI64
  split
  · rfl
  · have := i.lt_max
    simp only [Value.intsFitI64, decide_eq_true_eq, i64Max]
    omega

/-! ## 3. The decoder, and the round trip -/

mutual

/-- Reading a reply back as the value `resp_serialize` meant: `Integer` to the integer
(`NegInt` below zero, `PosInt` otherwise, as serde builds it), `Float` to the float, and an
`Array` by its marker. -/
def respDecode : RedisValue → Option Value
  | .null => some .null
  | .simpleString "true" => some (.bool true)
  | .simpleString "false" => some (.bool false)
  | .integer i => some (.number (Number.ofI64 i))
  | .float f => some (.number ⟨.float f, trivial⟩)
  | .bulkString s => some (.string s)
  | .array (.simpleStringStatic "[" :: rs) => .array <$> respDecodeElems rs
  | .array (.simpleStringStatic "\x7b" :: rs) => .object <$> respDecodeEntries rs
  | _ => none

/-- The elements of an array reply. -/
def respDecodeElems : List RedisValue → Option (List Value)
  | [] => some []
  | r :: rs => do
    let v ← respDecode r
    let vs ← respDecodeElems rs
    pure (v :: vs)

/-- The key and value pairs of an object reply. -/
def respDecodeEntries : List RedisValue → Option (List (String × Value))
  | [] => some []
  | .bulkString key :: r :: rs => do
    let v ← respDecode r
    let es ← respDecodeEntries rs
    pure ((key, v) :: es)
  | _ => none

end

theorem respDecode_simpleString_of_ne {s : String} (ht : s ≠ "true") (hf : s ≠ "false") :
    respDecode (.simpleString s) = none := by
  rw [respDecode] <;> simp [ht, hf]

theorem respDecode_array_of_ne {r : RedisValue} {rs : List RedisValue}
    (ha : r ≠ .simpleStringStatic "[") (ho : r ≠ .simpleStringStatic "\x7b") :
    respDecode (.array (r :: rs)) = none := by
  rw [respDecode] <;> simp [ha, ho]

theorem respDecode_bracket (rs : List RedisValue) :
    respDecode (.array (.simpleStringStatic "[" :: rs)) = .array <$> respDecodeElems rs := rfl

theorem respDecode_brace (rs : List RedisValue) :
    respDecode (.array (.simpleStringStatic "\x7b" :: rs)) = .object <$> respDecodeEntries rs :=
  rfl

theorem respDecodeElems_cons (r : RedisValue) (rs : List RedisValue) :
    respDecodeElems (r :: rs) =
      respDecode r >>= fun v => respDecodeElems rs >>= fun vs => pure (v :: vs) := rfl

theorem respDecodeEntries_cons (key : String) (r : RedisValue) (rs : List RedisValue) :
    respDecodeEntries (.bulkString key :: r :: rs) =
      respDecode r >>= fun v => respDecodeEntries rs >>= fun es => pure ((key, v) :: es) := rfl

mutual

/-- Decoding the reply of a value whose integers are `i64`s gives the value back. -/
theorem respDecode_respSerialize : ∀ v : Value, v.intsFitI64 = true →
    respDecode (respSerialize v) = some v
  | .null, _ => rfl
  | .bool b, _ => by cases b <;> rfl
  | .number n, h => by
    rcases Number.asI64_or_float n h with ⟨i, hi⟩ | ⟨f, rfl⟩
    · simp only [respSerialize, hi]
      exact congrArg (fun n => some (Value.number n)) (Number.ofI64_asI64 hi)
    · rfl
  | .string _, _ => rfl
  | .array a, h => by
    rw [respSerialize, respDecode_bracket, respDecodeElems_respSerializeElems a h]; rfl
  | .object m, h => by
    rw [respSerialize, respDecode_brace, respDecodeEntries_respSerializeEntries m h]; rfl

theorem respDecodeElems_respSerializeElems : ∀ a : List Value, Value.intsFitI64Elems a = true →
    respDecodeElems (respSerializeElems a) = some a
  | [], _ => rfl
  | v :: vs, h => by
    simp only [Value.intsFitI64Elems, Bool.and_eq_true] at h
    rw [respSerializeElems, respDecodeElems_cons, respDecode_respSerialize v h.1,
      respDecodeElems_respSerializeElems vs h.2]
    rfl

theorem respDecodeEntries_respSerializeEntries : ∀ m : List (String × Value),
    Value.intsFitI64Entries m = true → respDecodeEntries (respSerializeEntries m) = some m
  | [], _ => rfl
  | (k, v) :: es, h => by
    simp only [Value.intsFitI64Entries, Bool.and_eq_true] at h
    rw [respSerializeEntries, respDecodeEntries_cons, respDecode_respSerialize v h.1,
      respDecodeEntries_respSerializeEntries es h.2]
    rfl

end

mutual

/-- The decoder accepts exactly the replies of values whose integers are `i64`s. -/
theorem respSerialize_of_respDecode : ∀ (r : RedisValue) {v : Value}, respDecode r = some v →
    respSerialize v = r ∧ v.intsFitI64 = true
  | .null, _, h => by cases h; exact ⟨rfl, rfl⟩
  | .simpleString s, _, h => by
    by_cases ht : s = "true"
    · subst ht; cases h; exact ⟨rfl, rfl⟩
    by_cases hf : s = "false"
    · subst hf; cases h; exact ⟨rfl, rfl⟩
    · rw [respDecode_simpleString_of_ne ht hf] at h; cases h
  | .integer i, _, h => by
    cases h
    exact ⟨by simp [respSerialize, Number.asI64_ofI64], intsFitI64_ofI64 i⟩
  | .float f, _, h => by cases h; exact ⟨rfl, rfl⟩
  | .bulkString s, _, h => by cases h; exact ⟨rfl, rfl⟩
  | .array (r :: rs), _, h => by
    by_cases ha : r = .simpleStringStatic "["
    · subst ha
      rw [respDecode_bracket, Option.map_eq_map, Option.map_eq_some'] at h
      obtain ⟨a, ha, rfl⟩ := h
      obtain ⟨h1, h2⟩ := respSerializeElems_of_respDecodeElems rs ha
      exact ⟨by rw [respSerialize, h1], h2⟩
    by_cases ho : r = .simpleStringStatic "\x7b"
    · subst ho
      rw [respDecode_brace, Option.map_eq_map, Option.map_eq_some'] at h
      obtain ⟨m, hm, rfl⟩ := h
      obtain ⟨h1, h2⟩ := respSerializeEntries_of_respDecodeEntries rs hm
      exact ⟨by rw [respSerialize, h1], h2⟩
    · rw [respDecode_array_of_ne ha ho] at h; cases h
  | .simpleStringStatic _, _, h | .array [], _, h => by cases h

theorem respSerializeElems_of_respDecodeElems : ∀ (rs : List RedisValue) {a : List Value},
    respDecodeElems rs = some a → respSerializeElems a = rs ∧ Value.intsFitI64Elems a = true
  | [], _, h => by cases h; exact ⟨rfl, rfl⟩
  | r :: rs, _, h => by
    simp only [respDecodeElems_cons, Option.bind_eq_bind, Option.bind_eq_some, Option.pure_def,
      Option.some.injEq] at h
    obtain ⟨v, hv, vs, hvs, rfl⟩ := h
    obtain ⟨h1, h2⟩ := respSerialize_of_respDecode r hv
    obtain ⟨h3, h4⟩ := respSerializeElems_of_respDecodeElems rs hvs
    exact ⟨by rw [respSerializeElems, h1, h3], by simp [Value.intsFitI64Elems, h2, h4]⟩

theorem respSerializeEntries_of_respDecodeEntries : ∀ (rs : List RedisValue)
    {m : List (String × Value)}, respDecodeEntries rs = some m →
    respSerializeEntries m = rs ∧ Value.intsFitI64Entries m = true
  | [], _, h => by cases h; exact ⟨rfl, rfl⟩
  | .bulkString key :: r :: rs, _, h => by
    simp only [respDecodeEntries_cons, Option.bind_eq_bind, Option.bind_eq_some,
      Option.pure_def, Option.some.injEq] at h
    obtain ⟨v, hv, es, hes, rfl⟩ := h
    obtain ⟨h1, h2⟩ := respSerialize_of_respDecode r hv
    obtain ⟨h3, h4⟩ := respSerializeEntries_of_respDecodeEntries rs hes
    exact ⟨by rw [respSerializeEntries, h1, h3], by simp [Value.intsFitI64Entries, h2, h4]⟩
  | [.bulkString _], _, h | .null :: _, _, h | .simpleStringStatic _ :: _, _, h
  | .simpleString _ :: _, _, h | .integer _ :: _, _, h | .float _ :: _, _, h
  | .array _ :: _, _, h => by cases h

end

/-! ## 4. The reply is faithful -/

/-- `JSON.RESP` on a value whose integers are `i64`s: decoding the reply gives the value back,
and no other such value has the same reply. -/
theorem respSerialize_faithful (v : Value) (hv : v.intsFitI64 = true) :
    respDecode (respSerialize v) = some v ∧
      ∀ w : Value, w.intsFitI64 = true → respSerialize w = respSerialize v → w = v := by
  refine ⟨respDecode_respSerialize v hv, fun w hw hwv => Option.some.inj ?_⟩
  rw [← respDecode_respSerialize w hw, hwv, respDecode_respSerialize v hv]

/-- The boolean `true` and the string `"true"` side by side come back apart. -/
theorem respSerialize_faithful_bool_string :
    (Value.array [.bool true, .string "true"]).intsFitI64 = true ∧
      (respDecode (respSerialize (.array [.bool true, .string "true"])) =
          some (.array [.bool true, .string "true"]) ∧
        ∀ w : Value, w.intsFitI64 = true →
          respSerialize w = respSerialize (.array [.bool true, .string "true"]) →
            w = .array [.bool true, .string "true"]) :=
  ⟨rfl, respSerialize_faithful _ rfl⟩

/-- The decoder accepts exactly the replies of values whose integers are `i64`s, and gives
back the value each came from. -/
theorem respDecode_eq_some_iff (r : RedisValue) (v : Value) :
    respDecode r = some v ↔ respSerialize v = r ∧ v.intsFitI64 = true :=
  ⟨respSerialize_of_respDecode r, fun ⟨h, hv⟩ => h ▸ respDecode_respSerialize v hv⟩

/-! ## 5. What the reply loses

A number `as_i64` rejects goes out as a `Float`: a `u64` above `i64::MAX` is sent as the
double `u as f64` rounds it to. The reply of any value therefore reads back as the value with
each such integer replaced by that double, and that is all it loses. -/

mutual

/-- The value with every integer above `i64::MAX` replaced by the float `u as f64` rounds it
to. -/
def Value.roundBigInts : Value → Value
  | .number ⟨.posInt u, hu⟩ =>
    if (u : Int) ≤ i64Max then .number ⟨.posInt u, hu⟩ else .number ⟨.float (natAsF64 u), trivial⟩
  | .array a => .array (Value.roundBigIntsElems a)
  | .object m => .object (Value.roundBigIntsEntries m)
  | v => v

/-- Every element rounded. -/
def Value.roundBigIntsElems : List Value → List Value
  | [] => []
  | v :: vs => v.roundBigInts :: Value.roundBigIntsElems vs

/-- Every entry's value rounded. -/
def Value.roundBigIntsEntries : List (String × Value) → List (String × Value)
  | [] => []
  | (k, v) :: es => (k, v.roundBigInts) :: Value.roundBigIntsEntries es

end

/-- An integer above `i64::MAX` fails `as_i64` and goes out as the float `u as f64` rounds it
to. -/
theorem respSerialize_posInt_big {u : Nat} (hu : u ≤ usizeMax) (h : ¬ (u : Int) ≤ i64Max) :
    respSerialize (.number ⟨.posInt u, hu⟩) = .float (natAsF64 u) := by
  have hn : ¬ (u : Int) < 2 ^ 63 := by unfold i64Max at h; omega
  have ha : (⟨.posInt u, hu⟩ : Number).asI64 = none := by simp only [Number.asI64, dif_neg hn]
  rw [respSerialize, ha]
  rfl

mutual

/-- Rounding the big integers first does not change the reply. -/
theorem respSerialize_roundBigInts : ∀ v : Value, respSerialize v.roundBigInts = respSerialize v
  | .number ⟨.posInt u, hu⟩ => by
    by_cases h : (u : Int) ≤ i64Max
    · rw [Value.roundBigInts, if_pos h]
    · rw [Value.roundBigInts, if_neg h, respSerialize_posInt_big hu h]; rfl
  | .number ⟨.negInt _, _⟩ | .number ⟨.float _, _⟩ | .null | .bool _ | .string _ => rfl
  | .array a => by
    rw [Value.roundBigInts, respSerialize, respSerialize, respSerializeElems_roundBigIntsElems a]
  | .object m => by
    rw [Value.roundBigInts, respSerialize, respSerialize, respSerializeEntries_roundBigIntsEntries m]

theorem respSerializeElems_roundBigIntsElems : ∀ a : List Value,
    respSerializeElems (Value.roundBigIntsElems a) = respSerializeElems a
  | [] => rfl
  | v :: vs => by
    rw [Value.roundBigIntsElems, respSerializeElems, respSerializeElems, respSerialize_roundBigInts v,
      respSerializeElems_roundBigIntsElems vs]

theorem respSerializeEntries_roundBigIntsEntries : ∀ m : List (String × Value),
    respSerializeEntries (Value.roundBigIntsEntries m) = respSerializeEntries m
  | [] => rfl
  | (k, v) :: es => by
    rw [Value.roundBigIntsEntries, respSerializeEntries, respSerializeEntries,
      respSerialize_roundBigInts v, respSerializeEntries_roundBigIntsEntries es]

end

mutual

/-- After rounding, every integer is an `i64`. -/
theorem intsFitI64_roundBigInts : ∀ v : Value, v.roundBigInts.intsFitI64 = true
  | .number ⟨.posInt u, hu⟩ => by
    by_cases h : (u : Int) ≤ i64Max
    · rw [Value.roundBigInts, if_pos h]; exact decide_eq_true h
    · rw [Value.roundBigInts, if_neg h]; rfl
  | .number ⟨.negInt _, _⟩ | .number ⟨.float _, _⟩ | .null | .bool _ | .string _ => rfl
  | .array a => by
    rw [Value.roundBigInts, Value.intsFitI64, intsFitI64Elems_roundBigIntsElems a]
  | .object m => by
    rw [Value.roundBigInts, Value.intsFitI64, intsFitI64Entries_roundBigIntsEntries m]

theorem intsFitI64Elems_roundBigIntsElems : ∀ a : List Value,
    Value.intsFitI64Elems (Value.roundBigIntsElems a) = true
  | [] => rfl
  | v :: vs => by
    rw [Value.roundBigIntsElems, Value.intsFitI64Elems, intsFitI64_roundBigInts v,
      intsFitI64Elems_roundBigIntsElems vs]; rfl

theorem intsFitI64Entries_roundBigIntsEntries : ∀ m : List (String × Value),
    Value.intsFitI64Entries (Value.roundBigIntsEntries m) = true
  | [] => rfl
  | (k, v) :: es => by
    rw [Value.roundBigIntsEntries, Value.intsFitI64Entries, intsFitI64_roundBigInts v,
      intsFitI64Entries_roundBigIntsEntries es]; rfl

end

/-- `JSON.RESP` loses exactly the integer kind, and the low bits, of the numbers above
`i64::MAX`: decoding the reply of any value gives the value back with each such integer
turned into the double `u as f64` rounds it to, and two values get the same reply exactly when
they agree once that is done. Integers that round to one double get one reply. -/
theorem respSerialize_eq_iff_roundBigInts (v : Value) :
    respDecode (respSerialize v) = some v.roundBigInts ∧
      ∀ w : Value, respSerialize w = respSerialize v ↔ w.roundBigInts = v.roundBigInts := by
  have hdec : ∀ u : Value, respDecode (respSerialize u) = some u.roundBigInts := fun u => by
    rw [← respSerialize_roundBigInts u, respDecode_respSerialize _ (intsFitI64_roundBigInts u)]
  refine ⟨hdec v, fun w => ⟨fun h => Option.some.inj ?_, fun h => ?_⟩⟩
  · rw [← hdec w, h, hdec v]
  · rw [← respSerialize_roundBigInts w, h, respSerialize_roundBigInts v]

end RedisJson
