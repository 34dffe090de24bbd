import RedisJson.Command.Keyspace

/-!
# `Command/Readonly.lean` — the commands that only read

`JSON.GET`, `JSON.MGET`, `JSON.TYPE`, the length commands, `JSON.ARRINDEX`, `JSON.OBJKEYS`
and `JSON.DEBUG` open keys only to read them. Each is modelled as `lib.rs` writes it: a
function from the key space and the arguments to the `RedisResult` it returns, reading the
arguments in the order the code does, with the code's `?`s as the `Except` monad. The calls
into `RedisJSON` are `Host` functions of the document. The step the server takes for one of
them is `readonly`: the key space stays and nothing is raised.

What they read is the point of this file. All but two decide their reply from the entry at
their first argument, the key the command table declares for them (`jsonGet_local` and the
rest). The two others read elsewhere:

* `JSON.MGET k₁ … kₙ path` reads every key it lists: its reply is one entry per key, each
  decided by its own key (`jsonMget_local`);
* `JSON.DEBUG MEMORY key path` reads its second argument; the first is the subcommand
  (`jsonDebug_local`).
-/

set_option autoImplicit false

namespace RedisJson

/-! ## 1. The handlers -/

section Readers

variable {F : Type} (H : Host F) (ks : Keyspace)

/-- A command that only reads: the key space stays and nothing is raised. -/
def readonly (reply : Except RedisError RedisValue) : Outcome Step := .done ⟨ks, reply, .none⟩

/-- The function `json_get`: the key and the options as `jsonGetArgs` reads them (a path is
the argument itself, `Path::new` being left to `to_json`), then the document rendered by
`to_json`; `Null` for an empty key. -/
def jsonGet (args : List String) : Except RedisError RedisValue := do
  let (key, o) ← jsonGetArgs id (fun s => (H.formatFromStr s).mapError Error.toRedis)
    H.formatJson (args.drop 1)
  match ← getValue H ks key with
  | some doc =>
    let s ← (H.toJson doc o.paths o.indent o.newline o.space o.format).mapError Error.toRedis
    pure (.bulkString s)
  | none => pure .null

/-- The entry `json_mget` makes of what `get_value` found at a key: `to_string` of the path,
with `Null` for an empty key and for an error. -/
def mgetEntry (path : String) : Option Value → RedisValue
  | some doc =>
    match H.toString doc path H.formatJson with
    | .ok s => .bulkString s
    | .error _ => .null
  | none => .null

/-- One key of `json_mget`: `get_value`, whose error fails the whole command, then its entry. -/
def jsonMgetEntry (path key : String) : Except RedisError RedisValue :=
  mgetEntry H path <$> getValue H ks key

/-- The keys of `json_mget`, `&args[1..args.len() - 1]`: the arguments between the command
name and the path. -/
def mgetKeys (args : List String) : List String := (args.drop 1).dropLast

/-- The function `json_mget`: at least three arguments, the last one the path; the entries of
the keys are collected in order, and the first error stops the collection. -/
def jsonMget (args : List String) : Except RedisError RedisValue :=
  if args.length < 3 then .error .wrongArity
  else
    match args.getLast? with
    | none => .error .wrongArity
    | some path => .array <$> (mgetKeys args).mapM (jsonMgetEntry H ks (backwardsCompatPath path))

/-- The function `json_type`: `Null` for an empty key and for a path `get_type` fails on. -/
def jsonType (args : List String) : Except RedisError RedisValue := do
  let (key, args) ← nextString (args.drop 1)
  let (path, _) ← nextString args
  match ← getValue H ks key with
  | some doc =>
    pure (match H.getType doc (backwardsCompatPath path) with
      | .ok s => .bulkString s
      | .error _ => .null)
  | none => pure .null

/-- The function `json_len`, with `fun` the length it reports. -/
def jsonLen (length : Value → String → Except Error Nat) (args : List String) :
    Except RedisError RedisValue := do
  let (key, args) ← nextString (args.drop 1)
  let (path, _) ← nextString args
  match ← getValue H ks key with
  | some doc => usizeReply <$> (length doc (backwardsCompatPath path)).mapError Error.toRedis
  | none => pure .null

/-- The function `json_str_len`. -/
def jsonStrLen (args : List String) : Except RedisError RedisValue := jsonLen H ks H.strLen args

/-- The function `json_arr_len`. -/
def jsonArrLen (args : List String) : Except RedisError RedisValue := jsonLen H ks H.arrLen args

/-- The function `json_obj_len`. -/
def jsonObjLen (args : List String) : Except RedisError RedisValue := jsonLen H ks H.objLen args

/-- An optional integer of `json_arr_index`, `args.next().map(|v| v.parse()).unwrap_or(Ok(0))?`:
`0` when no argument is left. -/
def nextI64Or0 : List String → Except RedisError (I64 × List String)
  | [] => .ok (I64.ofInt 0, [])
  | v :: rest => (·, rest) <$> H.strParseI64 v

/-- The iterator's `done()`: `WrongArity` while an argument is left. -/
def argsDone : List String → Except RedisError Unit
  | [] => .ok ()
  | _ :: _ => .error .wrongArity

/-- The function `json_arr_index`: the key, the path and the scalar, then `start` and `end`
(here `stop`), each `0` when absent, and no argument after them; `-1` for an empty key. -/
def jsonArrIndex (args : List String) : Except RedisError RedisValue := do
  let (key, args) ← nextString (args.drop 1)
  let (path, args) ← nextString args
  let (jsonScalar, args) ← nextString args
  let (start, args) ← nextI64Or0 H args
  let (stop, args) ← nextI64Or0 H args
  argsDone args
  let index ← match ← getValue H ks key with
    | some doc =>
      (H.arrIndex doc (backwardsCompatPath path) jsonScalar start stop).mapError Error.toRedis
    | none => pure (I64.ofInt (-1))
  pure (.integer index)

/-- The function `json_obj_keys`: the keys as an array of bulk strings, `Null` for an empty
key. -/
def jsonObjKeys (args : List String) : Except RedisError RedisValue := do
  let (key, args) ← nextString (args.drop 1)
  let (path, _) ← nextString args
  match ← getValue H ks key with
  | some doc =>
    (fun keys => .array (keys.map .bulkString)) <$>
      (H.objKeys doc (backwardsCompatPath path)).mapError Error.toRedis
  | none => pure .null

/-- The reply of `JSON.DEBUG HELP`. -/
def jsonDebugHelp : RedisValue :=
  .array [.bulkString "MEMORY <key> [path] - reports memory usage",
    .bulkString "HELP                - this message"]

/-- The function `json_debug`: the subcommand, upper-cased as in `json_set`, then for `MEMORY`
a key and a path, the document's memory use or `0` for an empty key. -/
def jsonDebug (args : List String) : Except RedisError RedisValue := do
  let (sub, args) ← nextString (args.drop 1)
  if toUppercase sub = "MEMORY" then
    let (key, args) ← nextString args
    let (path, _) ← nextString args
    let n ← match ← getValue H ks key with
      | some doc => (H.getMemory doc (backwardsCompatPath path)).mapError Error.toRedis
      | none => pure 0
    pure (usizeReply n)
  else if toUppercase sub = "HELP" then pure jsonDebugHelp
  else .error (.str "ERR unknown subcommand - try `JSON.DEBUG HELP`")

end Readers

/-! ## 2. What each reads

Every reader but `JSON.MGET` and `JSON.DEBUG` gives the same reply on two key spaces that agree
at its first argument. `JSON.MGET` gives the same reply on two key spaces that agree at every
key it lists, and `JSON.DEBUG` on two that agree at its second argument. -/

section Local

variable {F : Type} (H : Host F) {ks₁ ks₂ : Keyspace} {args : List String}

/-- A reader's step shows the same at its key when the key space agrees there and the replies
agree. -/
theorem readonly_sameAt {key : String} (h : ks₁.get key = ks₂.get key)
    {r₁ r₂ : Except RedisError RedisValue} (hr : r₁ = r₂) :
    SameAt key (readonly ks₁ r₁) (readonly ks₂ r₂) := by
  rw [hr]; exact sameAt_unchanged h _ _

section First

variable (h : ks₁.get (args.getD 1 "") = ks₂.get (args.getD 1 ""))
include h

theorem jsonGet_local : jsonGet H ks₁ args = jsonGet H ks₂ args := by
  match args, h with
  | [], _ | [_], _ => rfl
  | _ :: key :: rest, (h : ks₁.get key = ks₂.get key) =>
    dsimp only [jsonGet, List.drop, jsonGetArgs, bind, Except.bind]
    cases jsonGetLoop jsonGetArm id (fun s => (H.formatFromStr s).mapError Error.toRedis) rest
      ⟨[], H.formatJson, "", "", ""⟩ with
    | error e => rfl
    | ok o => dsimp only; rw [getValue_congr H h]

theorem jsonType_local : jsonType H ks₁ args = jsonType H ks₂ args := by
  match args, h with
  | [], _ | [_], _ => rfl
  | _ :: key :: _, (h : ks₁.get key = ks₂.get key) =>
    dsimp only [jsonType, List.drop, nextString, bind, Except.bind]; rw [getValue_congr H h]

theorem jsonLen_local (length : Value → String → Except Error Nat) :
    jsonLen H ks₁ length args = jsonLen H ks₂ length args := by
  match args, h with
  | [], _ | [_], _ => rfl
  | _ :: key :: _, (h : ks₁.get key = ks₂.get key) =>
    dsimp only [jsonLen, List.drop, nextString, bind, Except.bind]; rw [getValue_congr H h]

theorem jsonArrIndex_local : jsonArrIndex H ks₁ args = jsonArrIndex H ks₂ args := by
  match args, h with
  | [], _ | [_], _ => rfl
  | _ :: key :: _, (h : ks₁.get key = ks₂.get key) =>
    dsimp only [jsonArrIndex, List.drop, nextString, bind, Except.bind]; rw [getValue_congr H h]

theorem jsonObjKeys_local : jsonObjKeys H ks₁ args = jsonObjKeys H ks₂ args := by
  match args, h with
  | [], _ | [_], _ => rfl
  | _ :: key :: _, (h : ks₁.get key = ks₂.get key) =>
    dsimp only [jsonObjKeys, List.drop, nextString, bind, Except.bind]; rw [getValue_congr H h]

end First

theorem mapM_jsonMgetEntry_congr (path : String) : ∀ keys : List String,
    (∀ k ∈ keys, ks₁.get k = ks₂.get k) →
      keys.mapM (jsonMgetEntry H ks₁ path) = keys.mapM (jsonMgetEntry H ks₂ path)
  | [], _ => rfl
  | k :: keys, h => by
    simp only [List.mapM_cons, jsonMgetEntry, getValue_congr H (h k (List.mem_cons_self _ _)),
      mapM_jsonMgetEntry_congr path keys fun k' hk' => h k' (List.mem_cons_of_mem _ hk')]

/-- `JSON.MGET` reads the keys it lists, and only them. -/
theorem jsonMget_local (h : ∀ k ∈ mgetKeys args, ks₁.get k = ks₂.get k) :
    jsonMget H ks₁ args = jsonMget H ks₂ args := by
  unfold jsonMget
  split
  · rfl
  · cases args.getLast? with
    | none => rfl
    | some path => dsimp only; rw [mapM_jsonMgetEntry_congr H _ _ h]

/-- `JSON.DEBUG` reads its second argument, the key of `MEMORY`, and with no second argument
reads nothing. -/
theorem jsonDebug_local (h : 2 < args.length → ks₁.get (args.getD 2 "") = ks₂.get (args.getD 2 "")) :
    jsonDebug H ks₁ args = jsonDebug H ks₂ args := by
  match args, h with
  | [], _ | [_], _ | [_, _], _ => rfl
  | _ :: _ :: key :: _, (h : 2 < _ → ks₁.get key = ks₂.get key) =>
    dsimp only [jsonDebug, List.drop, nextString, bind, Except.bind]
    rw [getValue_congr H (h (by simp))]

end Local

end RedisJson
