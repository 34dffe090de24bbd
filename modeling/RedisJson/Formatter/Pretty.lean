import RedisJson.Formatter.Machine

/-!
# `Formatter/Pretty.lean` — what the formatter prints, and why one flag is enough

§4.6 describes the formatter as a depth counter with a has-child flag **per nesting level**,
pushed on entering a container and reset there. `formatter.rs` keeps a single `has_value`
that every nested container overwrites. This file shows the two agree, by showing both print
the same reference text `pp`:

    pp v d = scalar text                                 (scalars)
           = "[]" / "{}"                                 (empty containers)
           = "[" ++ ⋯ (sep ++ NL ++ IND^(d+1) ++ pp xᵢ (d+1)) ⋯ ++ NL ++ IND^d ++ "]"

(objects alike, each entry `key ++ ":" ++ SP ++ pp v (d+1)`). `IND^d` is the library's
`String.join (List.replicate d IND)`, not the loop of `new_line`; `repeatStr_eq_join` ties the
two.

The reason the single flag works is in `run_arrayEvents`: every element ends with
`end_array_value`, which sets the flag **after** the element's own containers have cleared
and set it, so at `end_array` the flag says exactly whether the array had an element. The
statements carry an arbitrary starting formatter, so they hold at every depth and under every
flag; `redisJsonFormatter_pp` instantiates them at a fresh formatter.

`SpecFormatter` is the design §4.6 states, modelled from the spec's words; it is proved
against the same `pp`.
-/

set_option autoImplicit false

namespace RedisJson

section Pp

variable (L : Layout) (text : Value → String)

mutual

/-- The reference printer: `v` laid out at depth `d`. -/
def pp : Value → Nat → String
  | .array a, d =>
    if a.isEmpty then "[]" else "[" ++ ppElems true a (d + 1) ++ L.nl ++ String.join (List.replicate d L.ind) ++ "]"
  | .object m, d =>
    if m.isEmpty then "\x7b\x7d"
    else "\x7b" ++ ppEntries true m (d + 1) ++ L.nl ++ String.join (List.replicate d L.ind) ++ "\x7d"
  | v, _ => text v

/-- The elements of an array, each on its own line at depth `d`. -/
def ppElems : Bool → List Value → Nat → String
  | _, [], _ => ""
  | first, x :: xs, d =>
    (if first then "" else ",") ++ L.nl ++ String.join (List.replicate d L.ind) ++ pp x d ++ ppElems false xs d

/-- The entries of an object, each on its own line at depth `d`. -/
def ppEntries : Bool → List (String × Value) → Nat → String
  | _, [], _ => ""
  | first, (k, v) :: es, d =>
    (if first then "" else ",") ++ L.nl ++ String.join (List.replicate d L.ind) ++ text (.string k) ++ ":" ++ L.sp ++
      pp v d ++ ppEntries false es d

end

end Pp

/-- The `has_value` flag after serialising `v` from a flag `hv`: a container leaves whether it
had a child; a scalar leaves the flag alone. -/
def hasValueAfter : Value → Bool → Bool
  | .array a, _ => !a.isEmpty
  | .object m, _ => !m.isEmpty
  | _, hv => hv

/-! ## 1. The code's formatter prints `pp` -/

namespace RedisJsonFormatter

variable {f : RedisJsonFormatter}

theorem run_fragment (s : String) : f.run [.fragment s] = .done (f, s) := by
  simp [run, step]

/-- Leaving a container one level in: back to the outer depth, with the new line only when
the flag is set. -/
theorem endContainer_of_succ {n : Nat} (h : f.currentIndent = n + 1) (bracket : String) :
    f.endContainer bracket = .done ({ f with currentIndent := n },
      (if f.hasValue then f.layout.nl ++ repeatStr f.layout.ind n else "") ++ bracket) := by
  simp only [endContainer, h, usizeSub_of_le (Nat.le_add_left 1 n), Nat.add_sub_cancel,
    Outcome.map_done, newLine_eq]
  rfl

/-- A whole container: its opening call, its children's calls, its closing call. -/
theorem run_container (openE closeE : Event) {bo bc : String}
    (hopen : ∀ f' : RedisJsonFormatter, f'.step openE = .done (f'.beginContainer bo))
    (hclose : ∀ f' : RedisJsonFormatter, f'.step closeE = f'.endContainer bc)
    {inner : List Event} {g : RedisJsonFormatter} {body : String}
    (hinner : (f.beginContainer bo).1.run inner = .done (g, body))
    (hg : g.currentIndent = f.currentIndent + 1) (hlay : g.layout = f.layout) :
    f.run (openE :: inner ++ [closeE]) = .done ({ g with currentIndent := f.currentIndent },
      bo ++ (body ++ ((if g.hasValue then f.layout.nl ++ repeatStr f.layout.ind f.currentIndent
        else "") ++ bc ++ ""))) := by
  rw [List.cons_append, ← hlay]
  exact run_cons_of_done (hopen f)
    (run_append_of_done hinner (run_cons_of_done ((hclose g).trans (endContainer_of_succ hg bc)) rfl))

section Run

variable (text : Value → String)

mutual

/-- Serialising `v` writes `pp v` at the current depth, returns to that depth, and leaves
the flag as `hasValueAfter` says. -/
theorem run_events : ∀ (v : Value) (f : RedisJsonFormatter),
    f.run (events text v) =
      .done ({ f with hasValue := hasValueAfter v f.hasValue }, pp f.layout text v f.currentIndent)
  | .array a, f => by
    rw [events, run_container .beginArray .endArray (fun _ => rfl) (fun _ => rfl)
      (run_arrayEvents true a (f.beginContainer "[").1) rfl rfl]
    cases a <;> simp [pp, ppElems, hasValueAfter, beginContainer, repeatStr_eq_join, String.append_assoc]
  | .object m, f => by
    rw [events, run_container .beginObject .endObject (fun _ => rfl) (fun _ => rfl)
      (run_objectEvents true m (f.beginContainer "\x7b").1) rfl rfl]
    cases m <;> simp [pp, ppEntries, hasValueAfter, beginContainer, repeatStr_eq_join, String.append_assoc]
  | .null, f | .bool _, f | .number _, f | .string _, f => run_fragment _

/-- The elements of an array: each on its own line, one level in; the flag is set once there
was one. -/
theorem run_arrayEvents : ∀ (first : Bool) (a : List Value) (f : RedisJsonFormatter),
    f.run (arrayEvents text first a) = .done ({ f with hasValue := !a.isEmpty || f.hasValue },
      ppElems f.layout text first a f.currentIndent)
  | _, [], _ => rfl
  | first, x :: xs, f => by
    have h := run_cons_of_done (rfl : f.step (.beginArrayValue first) = _)
      (run_append_of_done (run_events x f) (run_cons_of_done (rfl : step _ .endArrayValue = _)
        (run_arrayEvents false xs { f with hasValue := true })))
    simpa [arrayEvents, ppElems, beginElement, newLine_eq, repeatStr_eq_join, String.append_assoc] using h

/-- The entries of an object, likewise. -/
theorem run_objectEvents : ∀ (first : Bool) (m : List (String × Value)) (f : RedisJsonFormatter),
    f.run (objectEvents text first m) = .done ({ f with hasValue := !m.isEmpty || f.hasValue },
      ppEntries f.layout text first m f.currentIndent)
  | _, [], _ => rfl
  | first, (k, v) :: es, f => by
    have h := run_cons_of_done (rfl : f.step (.beginObjectKey first) = _)
      (run_cons_of_done (rfl : f.step (.fragment (text (.string k))) = _)
      (run_cons_of_done (rfl : f.step .endObjectKey = _)
      (run_cons_of_done (rfl : f.step .beginObjectValue = _)
      (run_append_of_done (run_events v f) (run_cons_of_done (rfl : step _ .endObjectValue = _)
        (run_objectEvents false es { f with hasValue := true }))))))
    simpa [objectEvents, ppEntries, beginElement, beginObjectValue_eq, newLine_eq,
      repeatStr_eq_join, String.append_assoc] using h

end

end Run

end RedisJsonFormatter

/-! ## 2. The formatter §4.6 describes

Modelled from the spec: a depth counter and a stack with one "has emitted a child yet" flag
per open container, pushed (reset) on entering a container and popped on leaving it. Unlike
the code, this machine marks a child when the child **starts**, and decides the comma from its
own flag rather than from serde's `first` argument. A step that would pop an empty stack has
no meaning in the spec and is `none`. -/

/-- The state of the formatter of §4.6. -/
structure SpecFormatter where
  depth : Nat
  flags : List Bool
  layout : Layout

namespace SpecFormatter

variable (f : SpecFormatter)

/-- The newline, then the indent once per level of depth. -/
def newLine : String := f.layout.nl ++ String.join (List.replicate f.depth f.layout.ind)

/-- Entering a container: one level deeper, a fresh flag, the opening bracket. -/
def enter (bracket : String) : SpecFormatter × String :=
  ({ f with depth := f.depth + 1, flags := false :: f.flags }, bracket)

/-- Leaving a container: its flag popped, one level up, and the new line only if it had a
child. -/
def leave (bracket : String) : Option (SpecFormatter × String) :=
  match f.flags with
  | [] => none
  | hv :: rest =>
    let g := { f with depth := f.depth - 1, flags := rest }
    some (g, (if hv then g.newLine else "") ++ bracket)

/-- Starting a child of the innermost container: a comma unless it is the first, the new
line, and the container's flag set. -/
def child : Option (SpecFormatter × String) :=
  match f.flags with
  | [] => none
  | hv :: rest => some ({ f with flags := true :: rest }, (if hv then "," else "") ++ f.newLine)

/-- One event, as §4.6 handles it. -/
def step : Event → Option (SpecFormatter × String)
  | .beginArray => some (f.enter "[")
  | .endArray => f.leave "]"
  | .beginArrayValue _ => f.child
  | .endArrayValue => some (f, "")
  | .beginObject => some (f.enter "\x7b")
  | .endObject => f.leave "\x7d"
  | .beginObjectKey _ => f.child
  | .endObjectKey => some (f, "")
  | .beginObjectValue => some (f, ":" ++ f.layout.sp)
  | .endObjectValue => some (f, "")
  | .fragment s => some (f, s)

end SpecFormatter

/-- A list of events, in order. -/
def SpecFormatter.run (f : SpecFormatter) : List Event → Option (SpecFormatter × String)
  | [] => some (f, "")
  | e :: es =>
    f.step e >>= fun (p : SpecFormatter × String) =>
      (fun (q : SpecFormatter × String) => (q.1, p.2 ++ q.2)) <$> p.1.run es

namespace SpecFormatter

variable {f : SpecFormatter}

theorem run_cons_of_some {e : Event} {es : List Event} {g h : SpecFormatter} {s t : String}
    (h1 : f.step e = some (g, s)) (h2 : g.run es = some (h, t)) :
    f.run (e :: es) = some (h, s ++ t) := by
  simp [run, h1, h2]

theorem run_append_of_some {es es' : List Event} {g h : SpecFormatter} {s t : String}
    (h1 : f.run es = some (g, s)) (h2 : g.run es' = some (h, t)) :
    f.run (es ++ es') = some (h, s ++ t) := by
  induction es generalizing f s with
  | nil => cases h1; simpa [run] using h2
  | cons e es ih =>
    simp only [run, Option.bind_eq_bind, Option.bind_eq_some, Option.map_eq_map,
      Option.map_eq_some'] at h1
    obtain ⟨⟨f', s'⟩, hs, ⟨g', t'⟩, hr, hq⟩ := h1
    simp only [Prod.mk.injEq] at hq
    obtain ⟨rfl, rfl⟩ := hq
    rw [List.cons_append, run_cons_of_some hs (ih hr), String.append_assoc]

/-- Starting a child: the comma exactly when the container's flag says it is not the first. -/
theorem child_eq {hv : Bool} {rest : List Bool} (hf : f.flags = hv :: rest) :
    f.child = some ({ f with flags := true :: rest }, (if !hv then "" else ",") ++ f.newLine) := by
  cases hv <;> simp [child, hf]

/-- A whole container: the flag pushed by entering it is the one popped by leaving it. -/
theorem run_container (openE closeE : Event) {bo bc : String}
    (hopen : ∀ f' : SpecFormatter, f'.step openE = some (f'.enter bo))
    (hclose : ∀ f' : SpecFormatter, f'.step closeE = f'.leave bc)
    {inner : List Event} {hv : Bool} {body : String}
    (hinner : (f.enter bo).1.run inner =
      some ({ (f.enter bo).1 with flags := hv :: f.flags }, body)) :
    f.run (openE :: inner ++ [closeE]) = some (f,
      bo ++ (body ++ ((if hv then f.newLine else "") ++ bc ++ ""))) := by
  rw [List.cons_append]
  exact run_cons_of_some (hopen f) (run_append_of_some hinner
    (run_cons_of_some ((hclose _).trans rfl) rfl))

section Run

variable (text : Value → String)

mutual

/-- Serialising `v` writes `pp v` at the current depth and leaves the machine as it was. -/
theorem run_events : ∀ (v : Value) (f : SpecFormatter),
    f.run (events text v) = some (f, pp f.layout text v f.depth)
  | .array a, f => by
    rw [events, run_container .beginArray .endArray (fun _ => rfl) (fun _ => rfl)
      (run_arrayEvents true a (f.enter "[").1 rfl rfl)]
    cases a <;> simp [pp, ppElems, enter, newLine, String.append_assoc]
  | .object m, f => by
    rw [events, run_container .beginObject .endObject (fun _ => rfl) (fun _ => rfl)
      (run_objectEvents true m (f.enter "\x7b").1 rfl rfl)]
    cases m <;> simp [pp, ppEntries, enter, newLine, String.append_assoc]
  | .null, f | .bool _, f | .number _, f | .string _, f => by simp [events, run, step, pp]

/-- The elements of an array, when serde's `first` agrees with the container's flag. -/
theorem run_arrayEvents : ∀ (first : Bool) (a : List Value) (f : SpecFormatter) {hv : Bool}
    {rest : List Bool}, f.flags = hv :: rest → first = !hv →
    f.run (arrayEvents text first a) = some ({ f with flags := (!a.isEmpty || hv) :: rest },
      ppElems f.layout text first a f.depth)
  | _, [], f, _, _, hf, _ => by simp [arrayEvents, run, ppElems, ← hf]
  | _, x :: xs, f, hv, rest, hf, hfirst => by
    subst hfirst
    have h := run_cons_of_some (show f.step (.beginArrayValue !hv) = _ from child_eq hf)
      (run_append_of_some (run_events x _) (run_cons_of_some (rfl : step _ .endArrayValue = _)
        (run_arrayEvents false xs { f with flags := true :: rest } rfl rfl)))
    simpa [arrayEvents, ppElems, newLine, String.append_assoc] using h

/-- The entries of an object, likewise. -/
theorem run_objectEvents : ∀ (first : Bool) (m : List (String × Value)) (f : SpecFormatter)
    {hv : Bool} {rest : List Bool}, f.flags = hv :: rest → first = !hv →
    f.run (objectEvents text first m) = some ({ f with flags := (!m.isEmpty || hv) :: rest },
      ppEntries f.layout text first m f.depth)
  | _, [], f, _, _, hf, _ => by simp [objectEvents, run, ppEntries, ← hf]
  | _, (k, v) :: es, f, hv, rest, hf, hfirst => by
    subst hfirst
    have h := run_cons_of_some (show f.step (.beginObjectKey !hv) = _ from child_eq hf)
      (run_cons_of_some (rfl : step _ (.fragment (text (.string k))) = _)
      (run_cons_of_some (rfl : step _ .endObjectKey = _)
      (run_cons_of_some (rfl : step _ .beginObjectValue = _)
      (run_append_of_some (run_events v _) (run_cons_of_some (rfl : step _ .endObjectValue = _)
        (run_objectEvents false es { f with flags := true :: rest } rfl rfl))))))
    simpa [objectEvents, ppEntries, newLine, String.append_assoc] using h

end

end Run

end SpecFormatter

/-! ## 3. A fresh formatter -/

/-- A fresh `RedisJsonFormatter` fed the calls that serialise `v` returns, never underflowing
`current_indent`, ends at depth `0` with the flag `hasValueAfter` gives, and writes
`pp v 0` under the configured (or empty) strings; the per-level-flag formatter of §4.6
writes the same text. -/
theorem redisJsonFormatter_pp (text : Value → String) (indent space newline : Option String)
    (v : Value) :
    (RedisJsonFormatter.new indent space newline).run (events text v) =
      .done ({ RedisJsonFormatter.new indent space newline with hasValue := hasValueAfter v false },
        pp ⟨newline.getD "", indent.getD "", space.getD ""⟩ text v 0) ∧
    (SpecFormatter.mk 0 [] ⟨newline.getD "", indent.getD "", space.getD ""⟩).run (events text v) =
      some (⟨0, [], ⟨newline.getD "", indent.getD "", space.getD ""⟩⟩,
        pp ⟨newline.getD "", indent.getD "", space.getD ""⟩ text v 0) :=
  ⟨RedisJsonFormatter.run_events text v _, SpecFormatter.run_events text v _⟩

end RedisJson
