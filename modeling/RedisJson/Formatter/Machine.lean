import RedisJson.Json.Value

/-!
# `Formatter/Machine.lean` — `RedisJsonFormatter`, and the calls serde_json makes on it

`formatter.rs` implements serde_json's `Formatter` trait. serde_json's serializer drives it
with a fixed protocol of calls (`Event`): `begin_array`, then per element
`begin_array_value(first)`, the element, `end_array_value`, then `end_array`; objects the same
with `begin_object_key(first)`, the key, `end_object_key`, `begin_object_value`, the value,
`end_object_value`. Scalars and keys are written by the trait's default methods, which never
touch the formatter's state; they appear here as `fragment`s carrying their compact text.

The formatter keeps two pieces of state, `current_indent` and **one** `has_value` flag shared
by every nesting level, which nested containers overwrite. Each method is modelled as what it
does to that state and the bytes it writes (`step`); a method whose `usize` decrement
underflows panics. `run` feeds a list of calls to the formatter.

`events` is the call sequence serialising a `Value` produces. For an empty container serde
calls `end_array` (`end_object`) straight after `begin_array` from `serialize_seq`
(`serialize_map`) and nothing from `end`; the sequence is the same as for any container with
no elements, so one equation covers both.

`begin_array`/`begin_object`, `end_array`/`end_object`, `begin_array_value`/`begin_object_key`
and `end_array_value`/`end_object_value` are pairwise identical but for the bracket; each pair
is one definition with the bracket as a parameter.
-/

set_option autoImplicit false

namespace RedisJson

/-- The string `s` written `n` times over: the loop `for _ in 0..n` of `new_line`. -/
def repeatStr (s : String) : Nat → String
  | 0 => ""
  | n + 1 => repeatStr s n ++ s

@[simp] theorem repeatStr_empty (n : Nat) : repeatStr "" n = "" := by
  induction n with
  | zero => rfl
  | succ n ih => simp [repeatStr, ih]

/-- The loop writes the library's repetition: `n` copies of `s`, joined. -/
theorem repeatStr_eq_join (s : String) (n : Nat) :
    repeatStr s n = String.join (List.replicate n s) := by
  induction n with
  | zero => rfl
  | succ n ih =>
    rw [repeatStr, ih, ← List.append_replicate_replicate, String.join, String.join, List.foldl_append]
    rfl

/-- The calls serde_json's serializer makes on its `Formatter`. -/
inductive Event where
  | beginArray
  | endArray
  | beginArrayValue (first : Bool)
  | endArrayValue
  | beginObject
  | endObject
  | beginObjectKey (first : Bool)
  | endObjectKey
  | beginObjectValue
  | endObjectValue
  | fragment (text : String)

/-- The struct `RedisJsonFormatter`. -/
structure RedisJsonFormatter where
  currentIndent : Nat
  hasValue : Bool
  indent : Option String
  space : Option String
  newline : Option String

/-- The three whitespace strings a formatter writes, absent options read as empty. -/
structure Layout where
  nl : String
  ind : String
  sp : String

namespace RedisJsonFormatter

variable (f : RedisJsonFormatter)

/-- The function `RedisJsonFormatter::new`. -/
def new (indent space newline : Option String) : RedisJsonFormatter :=
  ⟨0, false, indent, space, newline⟩

/-- The whitespace the options configure. -/
def layout : Layout := ⟨f.newline.getD "", f.indent.getD "", f.space.getD ""⟩

/-- The method `new_line`: the newline, then the indent `current_indent` times. -/
def newLine : String :=
  f.newline.getD "" ++
    match f.indent with
    | some s => repeatStr s f.currentIndent
    | none => ""

/-- The body of `begin_array` and `begin_object`. -/
def beginContainer (bracket : String) : RedisJsonFormatter × String :=
  ({ f with currentIndent := f.currentIndent + 1, hasValue := false }, bracket)

/-- The body of `end_array` and `end_object`: `current_indent -= 1`, the new line when a
child was written, then the bracket. -/
def endContainer (bracket : String) : Outcome (RedisJsonFormatter × String) :=
  (fun ci =>
    let g := { f with currentIndent := ci }
    (g, (if g.hasValue then g.newLine else "") ++ bracket)) <$> usizeSub f.currentIndent 1

/-- The body of `begin_array_value` and `begin_object_key`. -/
def beginElement (first : Bool) : String := (if first then "" else ",") ++ f.newLine

/-- The body of `end_array_value` and `end_object_value`. -/
def endElement : RedisJsonFormatter := { f with hasValue := true }

/-- The method `begin_object_value`. -/
def beginObjectValue : String :=
  ":" ++
    match f.space with
    | some s => s
    | none => ""

/-- One call of the protocol: the formatter after it, and the bytes it wrote. -/
def step : Event → Outcome (RedisJsonFormatter × String)
  | .beginArray => .done (f.beginContainer "[")
  | .endArray => f.endContainer "]"
  | .beginArrayValue first => .done (f, f.beginElement first)
  | .endArrayValue => .done (f.endElement, "")
  | .beginObject => .done (f.beginContainer "\x7b")
  | .endObject => f.endContainer "\x7d"
  | .beginObjectKey first => .done (f, f.beginElement first)
  | .endObjectKey => .done (f, "")
  | .beginObjectValue => .done (f, f.beginObjectValue)
  | .endObjectValue => .done (f.endElement, "")
  | .fragment s => .done (f, s)

end RedisJsonFormatter

/-- A list of calls, in order: the formatter at the end and everything written. -/
def RedisJsonFormatter.run (f : RedisJsonFormatter) :
    List Event → Outcome (RedisJsonFormatter × String)
  | [] => .done (f, "")
  | e :: es =>
    f.step e >>= fun (p : RedisJsonFormatter × String) =>
      (fun (q : RedisJsonFormatter × String) => (q.1, p.2 ++ q.2)) <$> p.1.run es

namespace RedisJsonFormatter

variable (f : RedisJsonFormatter)

@[simp] theorem layout_with_indent_hasValue (n : Nat) (b : Bool) :
    ({ f with currentIndent := n, hasValue := b } : RedisJsonFormatter).layout = f.layout := rfl

@[simp] theorem layout_with_indent (n : Nat) :
    ({ f with currentIndent := n } : RedisJsonFormatter).layout = f.layout := rfl

@[simp] theorem layout_with_hasValue (b : Bool) :
    ({ f with hasValue := b } : RedisJsonFormatter).layout = f.layout := rfl

/-- `new_line` is the configured newline and `current_indent` indents. -/
theorem newLine_eq : f.newLine = f.layout.nl ++ repeatStr f.layout.ind f.currentIndent := by
  unfold newLine layout
  cases f.indent <;> simp

/-- `begin_object_value` writes the colon and the configured space. -/
theorem beginObjectValue_eq : f.beginObjectValue = ":" ++ f.layout.sp := by
  unfold beginObjectValue layout
  cases f.space <;> rfl

variable {f}

theorem run_cons_of_done {e : Event} {es : List Event} {g h : RedisJsonFormatter} {s t : String}
    (h1 : f.step e = .done (g, s)) (h2 : g.run es = .done (h, t)) :
    f.run (e :: es) = .done (h, s ++ t) := by
  simp [run, h1, h2]

/-- Running two call lists one after the other writes the two outputs one after the other. -/
theorem run_append_of_done {es es' : List Event} {g h : RedisJsonFormatter} {s t : String}
    (h1 : f.run es = .done (g, s)) (h2 : g.run es' = .done (h, t)) :
    f.run (es ++ es') = .done (h, s ++ t) := by
  induction es generalizing f s with
  | nil => cases h1; simpa [run] using h2
  | cons e es ih =>
    simp only [run] at h1
    obtain ⟨⟨f', s'⟩, hs, h1⟩ := Outcome.bind_eq_done.mp h1
    obtain ⟨⟨g', t'⟩, hr, hq⟩ := Outcome.map_eq_done.mp h1
    simp only [Prod.mk.injEq] at hq
    obtain ⟨rfl, rfl⟩ := hq
    rw [List.cons_append, run_cons_of_done hs (ih hr), String.append_assoc]

end RedisJsonFormatter

/-! ## The call sequence of a serialisation -/

section Events

variable (text : Value → String)

mutual

/-- The calls serialising `v` makes; `text` is the compact text serde writes for a scalar
(and, through the same `format_escaped_str`, for a key as the string it is). -/
def events : Value → List Event
  | .array a => .beginArray :: arrayEvents true a ++ [.endArray]
  | .object m => .beginObject :: objectEvents true m ++ [.endObject]
  | v => [.fragment (text v)]

/-- The calls `SerializeSeq::serialize_element` makes, element by element. -/
def arrayEvents : Bool → List Value → List Event
  | _, [] => []
  | first, x :: xs => .beginArrayValue first :: events x ++ .endArrayValue :: arrayEvents false xs

/-- The calls `SerializeMap::serialize_entry` makes, entry by entry. -/
def objectEvents : Bool → List (String × Value) → List Event
  | _, [] => []
  | first, (k, v) :: es =>
    .beginObjectKey first :: .fragment (text (.string k)) :: .endObjectKey :: .beginObjectValue ::
      events v ++ .endObjectValue :: objectEvents false es

end

end Events

end RedisJson
