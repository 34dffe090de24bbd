import RedisJson.Json.Value

/-!
# `Command/Args.lean` — paths, and the argument handling of `JSON.ARRPOP` and `JSON.GET`

Three pieces of `lib.rs` that turn a command's arguments into what the engine is called with.

* `backwards_compat_path` rewrites a legacy path into the `$`-anchored form (§3: `.` becomes
  `$`, a leading `.` is prefixed with `$`, anything else with `$.`), a pure string transform.
* `json_arr_pop` picks its path and index: the root and `i64::MAX` with no path, `-1` with a
  path and no (valid) index.
* `json_get` scans its options. The scan has a fast path (issue #390): an argument longer
  than every keyword is a path without being compared to any. `jsonGetArm_eq` is the
  reason the fast path is sound — `eq_ignore_ascii_case` compares lengths first, and
  `max_strlen` bounds every keyword — and `jsonGetLoop` run with and without it agree on
  every argument list.

Strings are Rust strings: `len` is the UTF-8 byte length, and `eq_ignore_ascii_case` compares
byte by byte after folding ASCII capitals.
-/

set_option autoImplicit false

namespace RedisJson

/-! ## 1. `backwards_compat_path` -/

/-- The constant `JSON_ROOT_PATH`. -/
def jsonRootPath : String := "$"

/-- The method `str::starts_with` with a `char` pattern. -/
def startsWithChar (s : String) (c : Char) : Bool := s.data.head? == some c

/-- The function `backwards_compat_path`. -/
def backwardsCompatPath (path : String) : String :=
  if !startsWithChar path '$' then
    if path = "." then "$"
    else if startsWithChar path '.' then "$" ++ path
    else "$." ++ path
  else path

/-! ## 2. `json_arr_pop`'s arguments -/

/-- The argument handling of `json_arr_pop` after the key: the path and the index.
`parseI64` is `str::parse::<i64>`, which `next_i64` applies to the next argument. -/
def jsonArrPopArgs (parseI64 : String → Option I64) : List String → String × I64
  | [] => (jsonRootPath, I64.maxValue)
  | p :: rest =>
    (backwardsCompatPath p, match rest with
      | x :: _ => (parseI64 x).getD (I64.ofInt (-1))
      | [] => I64.ofInt (-1))

/-! ## 3. Rust strings -/

/-- The bytes of a Rust string. -/
def asBytes (s : String) : List UInt8 := s.toUTF8.data.toList

/-- The method `str::len`: the length in bytes. -/
def len (s : String) : Nat := (asBytes s).length

/-- The method `u8::to_ascii_lowercase`. -/
def toAsciiLowercase (b : UInt8) : UInt8 := if 65 ≤ b ∧ b ≤ 90 then b + 32 else b

/-- The method `str::eq_ignore_ascii_case`: equal lengths, then byte-wise equality up to
ASCII case. -/
def eqIgnoreAsciiCase (a b : String) : Bool :=
  len a == len b &&
    ((asBytes a).zip (asBytes b)).all (fun p => toAsciiLowercase p.1 == toAsciiLowercase p.2)

theorem len_eq_of_eqIgnoreAsciiCase {a b : String} (h : eqIgnoreAsciiCase a b = true) :
    len a = len b := by
  simp only [eqIgnoreAsciiCase, Bool.and_eq_true, beq_iff_eq] at h
  exact h.1

/-! ## 4. `max_strlen` -/

/-- The `while` loop of `max_strlen`, over the entries from position `pos` on, with the
running maximum. -/
def maxStrlenLoop : List String → Nat → Nat
  | [], m => m
  | s :: rest, m => maxStrlenLoop rest (if m < len s then len s else m)

/-- The function `max_strlen`. -/
def maxStrlen (arr : List String) : Nat :=
  if arr.length < 1 then 0 else maxStrlenLoop arr 0

theorem le_maxStrlenLoop : ∀ (arr : List String) (m : Nat),
    m ≤ maxStrlenLoop arr m ∧ ∀ s ∈ arr, len s ≤ maxStrlenLoop arr m
  | [], m => ⟨le_rfl, by simp⟩
  | s :: rest, m => by
    obtain ⟨ih1, ih2⟩ := le_maxStrlenLoop rest (if m < len s then len s else m)
    refine ⟨le_trans (by split <;> omega) ih1, ?_⟩
    simp only [List.mem_cons, forall_eq_or_imp]
    exact ⟨le_trans (by split <;> omega) ih1, ih2⟩

/-- The result of `max_strlen` is at least the length of each entry. -/
theorem len_le_maxStrlen {arr : List String} {s : String} (h : s ∈ arr) : len s ≤ maxStrlen arr := by
  have hne : ¬ arr.length < 1 := by
    cases arr with
    | nil => simp at h
    | cons _ _ => simp
  simpa only [maxStrlen, hne, if_false] using (le_maxStrlenLoop arr 0).2 s h

/-! ## 5. `json_get`'s options -/

/-- The constant `CMD_ARG_NOESCAPE`. -/
def cmdArgNoescape : String := "NOESCAPE"

/-- The constant `CMD_ARG_INDENT`. -/
def cmdArgIndent : String := "INDENT"

/-- The constant `CMD_ARG_NEWLINE`. -/
def cmdArgNewline : String := "NEWLINE"

/-- The constant `CMD_ARG_SPACE`. -/
def cmdArgSpace : String := "SPACE"

/-- The constant `CMD_ARG_FORMAT`. -/
def cmdArgFormat : String := "FORMAT"

/-- The constant `JSONGET_SUBCOMMANDS_MAXSTRLEN`. -/
def jsongetSubcommandsMaxstrlen : Nat :=
  maxStrlen [cmdArgNoescape, cmdArgIndent, cmdArgNewline, cmdArgSpace, cmdArgFormat]

/-- The errors of redis-module's `RedisError` a command argument scan can return. -/
inductive RedisError where
  | wrongArity
  | str (msg : String)

/-- The arm of `json_get`'s `match` an argument selects. -/
inductive GetArm where
  | path
  | indent
  | newline
  | space
  | noescape
  | format
deriving DecidableEq

/-- The keyword arms of the `match` in `json_get`, in source order, ending in the catch-all
`_ => paths.push(..)`. -/
def keywordArm (arg : String) : GetArm :=
  if eqIgnoreAsciiCase arg cmdArgIndent then .indent
  else if eqIgnoreAsciiCase arg cmdArgNewline then .newline
  else if eqIgnoreAsciiCase arg cmdArgSpace then .space
  else if eqIgnoreAsciiCase arg cmdArgNoescape then .noescape
  else if eqIgnoreAsciiCase arg cmdArgFormat then .format
  else .path

/-- The arm the `match` in `json_get` selects: the length fast path, then the keywords. -/
def jsonGetArm (arg : String) : GetArm :=
  if len arg > jsongetSubcommandsMaxstrlen then .path else keywordArm arg

/-- The options `json_get` collects. -/
structure GetOptions (P F : Type) where
  paths : List P
  format : F
  indent : String
  space : String
  newline : String

section Loop

variable {P F : Type} (arm : String → GetArm) (newPath : String → P)
  (formatFromStr : String → Except RedisError F)

/-- The `while let` loop of `json_get` over the arguments after the key, with the arm
selection `arm`; `newPath` is `Path::new` and `formatFromStr` is `Format::from_str`, both in
`redisjson.rs`. A keyword with no argument after it is `WrongArity`. -/
def jsonGetLoop : List String → GetOptions P F → Except RedisError (GetOptions P F)
  | [], o => .ok o
  | arg :: args, o =>
    match arm arg with
    | .path => jsonGetLoop args { o with paths := o.paths ++ [newPath arg] }
    | .indent =>
      match args with
      | v :: args => jsonGetLoop args { o with indent := v }
      | [] => .error .wrongArity
    | .newline =>
      match args with
      | v :: args => jsonGetLoop args { o with newline := v }
      | [] => .error .wrongArity
    | .space =>
      match args with
      | v :: args => jsonGetLoop args { o with space := v }
      | [] => .error .wrongArity
    | .noescape => jsonGetLoop args o
    | .format =>
      match args with
      | v :: args =>
        match formatFromStr v with
        | .ok f => jsonGetLoop args { o with format := f }
        | .error e => .error e
      | [] => .error .wrongArity

end Loop

/-- A keyword arm is only taken by an argument no longer than `max_strlen` of the keywords. -/
theorem len_le_of_keywordArm {arg : String} (h : keywordArm arg ≠ .path) :
    len arg ≤ jsongetSubcommandsMaxstrlen := by
  have key : ∀ k, k ∈ [cmdArgNoescape, cmdArgIndent, cmdArgNewline, cmdArgSpace, cmdArgFormat] →
      eqIgnoreAsciiCase arg k = true → len arg ≤ jsongetSubcommandsMaxstrlen :=
    fun k hk he => (len_eq_of_eqIgnoreAsciiCase he).symm ▸ len_le_maxStrlen hk
  unfold keywordArm at h
  split at h
  · exact key cmdArgIndent (by simp) ‹_›
  split at h
  · exact key cmdArgNewline (by simp) ‹_›
  split at h
  · exact key cmdArgSpace (by simp) ‹_›
  split at h
  · exact key cmdArgNoescape (by simp) ‹_›
  split at h
  · exact key cmdArgFormat (by simp) ‹_›
  exact absurd rfl h

/-- The fast path selects the arm the keywords would: the optimisation changes nothing. -/
theorem jsonGetArm_eq : jsonGetArm = keywordArm := by
  funext arg
  unfold jsonGetArm
  split
  · next hlen =>
    by_contra hne
    exact absurd (len_le_of_keywordArm (Ne.symm hne)) (Nat.not_le.mpr hlen)
  · rfl

/-- Issue #390's fast path is an optimisation only. `max_strlen` bounds the byte length of
every keyword, no longer argument matches a keyword under `eq_ignore_ascii_case`, and so on
every argument list the loop of `json_get` collects the same paths, indent, newline, space and
format, and fails with the same error, as the loop without the length arm. -/
theorem jsonGetLoop_fastPath {P F : Type} (newPath : String → P)
    (formatFromStr : String → Except RedisError F) :
    (∀ k ∈ [cmdArgNoescape, cmdArgIndent, cmdArgNewline, cmdArgSpace, cmdArgFormat],
      len k ≤ jsongetSubcommandsMaxstrlen) ∧
    (∀ arg, len arg > jsongetSubcommandsMaxstrlen →
      ∀ k ∈ [cmdArgNoescape, cmdArgIndent, cmdArgNewline, cmdArgSpace, cmdArgFormat],
        eqIgnoreAsciiCase arg k = false) ∧
    (∀ (args : List String) (o : GetOptions P F),
      jsonGetLoop jsonGetArm newPath formatFromStr args o =
        jsonGetLoop keywordArm newPath formatFromStr args o) := by
  refine ⟨fun k hk => len_le_maxStrlen hk, fun arg hlen k hk => ?_, fun args o => by
    rw [jsonGetArm_eq]⟩
  cases he : eqIgnoreAsciiCase arg k
  · rfl
  · have h1 := len_le_maxStrlen hk
    have h2 := len_eq_of_eqIgnoreAsciiCase he
    unfold jsongetSubcommandsMaxstrlen at hlen
    omega

/-- The argument handling of `json_get` after the command name: the key, then the options,
with the root path when no path was given. `json` is `Format::JSON`. -/
def jsonGetArgs {P F : Type} (newPath : String → P) (formatFromStr : String → Except RedisError F)
    (json : F) : List String → Except RedisError (String × GetOptions P F)
  | [] => .error .wrongArity
  | key :: args =>
    match jsonGetLoop jsonGetArm newPath formatFromStr args ⟨[], json, "", "", ""⟩ with
    | .ok o => .ok (key, if o.paths.isEmpty then { o with paths := [newPath jsonRootPath] } else o)
    | .error e => .error e

/-! ## 6. What a client writes to `JSON.GET`

A client builds the command line of `JSON.GET` from options and paths, each option its keyword
followed by its value. The loop reads back every such line: each option sets its field, a later
one overriding an earlier, `NOESCAPE` is skipped, and the paths are kept in their order. The
value after a keyword is taken as it stands, even when it reads as a keyword. What a client
cannot write is a path that is itself a keyword, in any case: the loop reads it as the option. -/

/-- One option or path of a `JSON.GET` command line, as a client writes it. -/
inductive GetArg where
  | path (p : String)
  | indent (v : String)
  | newline (v : String)
  | space (v : String)
  | noescape
  | format (name : String)

/-- The arguments a client writes for one option: the keyword, then its value. -/
def GetArg.render : GetArg → List String
  | .path p => [p]
  | .indent v => [cmdArgIndent, v]
  | .newline v => [cmdArgNewline, v]
  | .space v => [cmdArgSpace, v]
  | .noescape => [cmdArgNoescape]
  | .format name => [cmdArgFormat, name]

section Render

variable {P F : Type} (newPath : String → P) (formatFromStr : String → Except RedisError F)

/-- An argument that takes the path arm is pushed as a path, and the loop goes on. -/
theorem jsonGetLoop_cons_of_path {arm : String → GetArm} {arg : String} (args : List String)
    (o : GetOptions P F) (h : arm arg = .path) :
    jsonGetLoop arm newPath formatFromStr (arg :: args) o =
      jsonGetLoop arm newPath formatFromStr args { o with paths := o.paths ++ [newPath arg] } := by
  cases args <;> simp only [jsonGetLoop, h]

/-- What one option sets, the format being read by `Format::from_str`. -/
def GetArg.apply (o : GetOptions P F) : GetArg → Except RedisError (GetOptions P F)
  | .path p => .ok { o with paths := o.paths ++ [newPath p] }
  | .indent v => .ok { o with indent := v }
  | .newline v => .ok { o with newline := v }
  | .space v => .ok { o with space := v }
  | .noescape => .ok o
  | .format name => (fun f => { o with format := f }) <$> formatFromStr name

/-- The loop of `json_get` reads back any line a client writes whose paths are not keywords:
the options it ends with are those of applying each option in turn, and it fails exactly when
a format name does not parse. -/
theorem jsonGetLoop_render {args : List GetArg}
    (hpaths : ∀ p, GetArg.path p ∈ args → keywordArm p = .path) (o : GetOptions P F) :
    jsonGetLoop jsonGetArm newPath formatFromStr (args.flatMap GetArg.render) o =
      args.foldlM (GetArg.apply newPath formatFromStr) o := by
  rw [jsonGetArm_eq]
  induction args generalizing o with
  | nil => rfl
  | cons a args ih =>
    have ih' := ih fun p hp => hpaths p (List.mem_cons_of_mem _ hp)
    rw [List.flatMap_cons, List.foldlM_cons]
    cases a with
    | path p =>
      rw [GetArg.render, List.singleton_append,
        jsonGetLoop_cons_of_path newPath formatFromStr _ _ (hpaths p (List.mem_cons_self _ _))]
      exact ih' _
    | indent v => exact ih' _
    | newline v => exact ih' _
    | space v => exact ih' _
    | noescape => exact ih' _
    | format name =>
      show (match formatFromStr name with
        | .ok f => jsonGetLoop keywordArm newPath formatFromStr (args.flatMap GetArg.render)
            { o with format := f }
        | .error e => .error e) =
        ((fun f => { o with format := f }) <$> formatFromStr name) >>= fun o' =>
          args.foldlM (GetArg.apply newPath formatFromStr) o'
      cases formatFromStr name with
      | ok f => exact ih' _
      | error e => rfl

end Render

/-- `NEWLINE` with the value `INDENT`, a path, `noescape` in lower case, a second path, and a
format: the value is taken as it stands and the paths are kept in order. -/
theorem jsonGetLoop_render_sample :
    (∀ p, GetArg.path p ∈ [GetArg.newline "INDENT", .path "$.a", .noescape, .path "$.b",
      .format "JSON"] → keywordArm p = .path) ∧
    jsonGetLoop jsonGetArm id (fun s => (.ok s : Except RedisError String))
        ([GetArg.newline "INDENT", .path "$.a", .noescape, .path "$.b", .format "JSON"].flatMap
          GetArg.render) ⟨[], "", "", "", ""⟩ =
      [GetArg.newline "INDENT", .path "$.a", .noescape, .path "$.b", .format "JSON"].foldlM
        (GetArg.apply id fun s => .ok s) ⟨[], "", "", "", ""⟩ := by
  refine ⟨?paths, jsonGetLoop_render id _ ?paths _⟩
  intro p hp
  simp only [List.mem_cons, GetArg.path.injEq, List.mem_nil_iff, reduceCtorEq, or_false,
    false_or] at hp
  rcases hp with rfl | rfl <;> decide

end RedisJson
