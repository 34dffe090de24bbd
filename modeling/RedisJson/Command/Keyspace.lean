import RedisJson.Command.Resp
import RedisJson.Transform.Scalar
import RedisJson.Transform.Array

/-!
# `Command/Keyspace.lean` — the write commands as steps on the key space

Each write handler of `lib.rs` reads its arguments, opens its key, and either fails or
changes that key; on success it raises a keyspace notification and calls
`replicate_verbatim`, which sends the command as it came to the replicas, where it runs
again. This file models the write handlers as steps on the key space and proves, handler by
handler, the two facts the server relies on:

* **what a step does** (`Step.WellBehaved`): it writes no key but its first argument, the one
  the command table declares; a failure changes nothing and raises nothing; a step that does
  not replicate changes nothing;
* **what a step reads** (`SameAt`): on two key spaces that agree at its first argument it
  replies the same, raises the same and leaves the same entry there.

The failure half rests on the transforms of `Transform/`: `value_op` puts back whatever a
failing transform left in the slot, and each transform leaves the slot untouched when it
fails. The read-only commands are in `Command/Readonly.lean`; the command table, whole runs
and replicas in `Command/Server.lean`.

The last section reads back the options of `JSON.SET`: the loop stops at the first argument
it does not know and ignores the rest of the line (`jsonSetOptions_render`).

## What is a parameter

`Host` collects what the handlers call outside the sources: redis-module's key API and
argument parsing, and the parts of `RedisJSON` in `redisjson.rs` (the path evaluator,
`set_value`, `delete_path`, `clear`, `from_str`, `Format::from_str`, `Path::new`, and the
readers `to_json`, `to_string`, `get_type`, the length functions, `arr_index`, `obj_keys`,
`get_memory`). `value_op` itself is modelled from §4.4.
-/

set_option autoImplicit false

namespace RedisJson

/-! ## 1. The document store -/

/-- Modelled from the spec (§4.3): the path evaluator of `redisjson.rs`. `locate doc path` is
the first location `path` resolves to: the value there, and the document with that value
replaced. Putting back what was there gives the document back. -/
structure Locator where
  locate : Value → String → Option (Value × (Value → Value))
  notFound : String → Error
  locate_put : ∀ {doc : Value} {path : String} {cur : Value} {put : Value → Value},
    locate doc path = some (cur, put) → put cur = doc

/-- Modelled from the spec (§4.4): `RedisJSON::value_op`. The located value is moved out to the
transform; what the transform leaves in the slot is put back if it fails, and the new value if
it succeeds, which is returned with the transform's out-of-band payload. -/
def valueOp {α : Type} (loc : Locator) (doc : Value) (path : String)
    (opFun : Value → Outcome (MutResult × α)) : Outcome (Value × Except Error (Value × α)) :=
  match loc.locate doc path with
  | none => .done (doc, .error (loc.notFound path))
  | some (cur, put) =>
    (fun (p : MutResult × α) =>
      match p.1.ret with
      | .ok new => (put new, .ok (new, p.2))
      | .error e => (put p.1.slot, .error e)) <$> opFun cur

/-- A transform that leaves the slot as it found it whenever it fails. -/
def TransformAtomic {α : Type} (opFun : Value → Outcome (MutResult × α)) : Prop :=
  ∀ v p e, opFun v = .done p → p.1.ret = .error e → p.1.slot = v

/-- A failed `value_op` over an atomic transform leaves the document as it was. -/
theorem valueOp_error {α : Type} {loc : Locator} {doc doc' : Value} {path : String}
    {opFun : Value → Outcome (MutResult × α)} {e : Error} (hat : TransformAtomic opFun)
    (h : valueOp loc doc path opFun = .done (doc', .error e)) : doc' = doc := by
  unfold valueOp at h
  split at h
  · cases h; rfl
  · next cur put hloc =>
    obtain ⟨p, hp, hq⟩ := Outcome.map_eq_done.mp h
    revert hq
    split
    · simp
    · next e' he =>
      simp only [Prod.mk.injEq, and_imp]
      rintro rfl -
      rw [hat cur p e' hp he, loc.locate_put hloc]

/-! ## 2. The key space -/

/-- What a key holds: a JSON document, or a value of another type. -/
inductive Entry where
  | json (doc : Value)
  | other

/-- The key space. -/
structure Keyspace where
  get : String → Option Entry

namespace Keyspace

/-- Writing `e` under `key` (`none` deletes it). -/
def set (ks : Keyspace) (key : String) (e : Option Entry) : Keyspace :=
  ⟨fun k => if k = key then e else ks.get k⟩

@[simp] theorem set_get_self (ks : Keyspace) (key : String) (e : Option Entry) :
    (ks.set key e).get key = e := by simp [set]

theorem set_get_of_ne (ks : Keyspace) {key k : String} (e : Option Entry) (h : k ≠ key) :
    (ks.set key e).get k = ks.get k := by simp [set, h]

/-- Writing back what a key holds changes nothing. -/
theorem set_get (ks : Keyspace) (key : String) : ks.set key (ks.get key) = ks := by
  unfold set; congr; funext k; split <;> simp_all

/-- Key spaces that hold the same at every key are equal. -/
@[ext] theorem ext {ks₁ ks₂ : Keyspace} (h : ∀ k, ks₁.get k = ks₂.get k) : ks₁ = ks₂ := by
  cases ks₁; cases ks₂; congr; funext k; exact h k

end Keyspace

/-- What a command does besides its reply: the keyspace notifications it raised, as
`(event, key)`, and whether it called `replicate_verbatim`. -/
structure Effects where
  notified : List (String × String)
  replicated : Bool
deriving DecidableEq

/-- No notification, no replication. -/
def Effects.none : Effects := ⟨[], false⟩

/-- `notify_keyspace_event(NotifyEvent::MODULE, event, key)`, then `replicate_verbatim()`. -/
def Effects.notifyReplicate (event key : String) : Effects := ⟨[(event, key)], true⟩

/-- One command's run: the key space after it, its reply, its effects. -/
structure Step where
  keys : Keyspace
  reply : Except RedisError RedisValue
  effects : Effects

/-- The `SetOptions` of `redisjson.rs` that `json_set` builds. -/
inductive SetOptions where
  | none
  | notExists
  | alreadyExists

/-- What the handlers call outside the sources; `F` is `redisjson.rs`'s `Format`. -/
structure Host (F : Type) where
  /-- The path evaluator. -/
  loc : Locator
  /-- The error of `get_value` on a key that holds another type. -/
  wrongType : RedisError
  /-- `RedisError::nonexistent_key()`. -/
  nonexistentKey : RedisError
  /-- The parse `next_i64` applies to an argument. -/
  parseI64 : String → Except RedisError I64
  /-- `Format::JSON`. -/
  formatJson : F
  /-- `Format::from_str`. -/
  formatFromStr : String → Except Error F
  /-- `RedisJSON::from_str`. -/
  fromStr : String → F → Except Error Value
  /-- `RedisJSON::set_value`: the new document when it set one, `none` when it did not. -/
  setValue : Value → String → String → SetOptions → F → Except Error (Option Value)
  /-- `RedisJSON::delete_path`: how many values it deleted, and the document left. -/
  deletePath : Value → String → Except Error (Nat × Value)
  /-- Deleting nothing leaves the document as it was. -/
  deletePath_zero : ∀ {doc : Value} {path : String} {doc' : Value},
    deletePath doc path = .ok (0, doc') → doc' = doc
  /-- `RedisJSON::clear`: how many values it cleared, and the document left. -/
  clear : Value → String → Except Error (Nat × Value)
  /-- `Path::new(arg).fixed`. -/
  pathFixed : String → String
  /-- `RedisJSON::to_json` over `Path::new` of each path argument: the values at the paths as
  text, with the indent, newline and space strings, in the format. -/
  toJson : Value → List String → String → String → String → F → Except Error String
  /-- `RedisJSON::to_string`: the value at the path as text in the format. -/
  toString : Value → String → F → Except Error String
  /-- `RedisJSON::get_type`. -/
  getType : Value → String → Except Error String
  /-- `RedisJSON::str_len`. -/
  strLen : Value → String → Except Error Nat
  /-- `RedisJSON::arr_len`. -/
  arrLen : Value → String → Except Error Nat
  /-- `RedisJSON::obj_len`. -/
  objLen : Value → String → Except Error Nat
  /-- `RedisJSON::arr_index`: where the scalar is in the array at the path, between `start`
  and `end`. -/
  arrIndex : Value → String → String → I64 → I64 → Except Error I64
  /-- `RedisJSON::obj_keys`. -/
  objKeys : Value → String → Except Error (List String)
  /-- `RedisJSON::get_memory`. -/
  getMemory : Value → String → Except Error Nat
  /-- `str::parse::<i64>`, its error turned into a `RedisError` by `?`. -/
  strParseI64 : String → Except RedisError I64
  /-- The server's reply to a command name no module registered. -/
  unknownCommand : List String → RedisError

/-- Modelled from the spec (§7): the crate's `Error` becomes the `RedisError` carrying its
message. -/
def Error.toRedis (e : Error) : RedisError := .str e.msg

/-- The reply `REDIS_OK`. -/
def redisOk : RedisValue := .simpleStringStatic "OK"

/-- The conversion `usize::into()` of a reply count. -/
def usizeReply (n : Nat) : RedisValue := .integer (I64.ofUsize n)

/-- The projection `json_str_append` replies with:
`result.as_str().map_or(usize::MAX, |result| result.len())`. -/
def jsonStrLenReply : Value → Nat
  | .string s => len s
  | _ => usizeMax

/-! ## 3. The handlers -/

/-- The method `str::to_uppercase`, read as ASCII upper-casing: the keywords the handlers
compare its result with (`NX`, `XX`, `FORMAT`, `MEMORY`, `HELP`) are ASCII, and no other
character upper-cases to one of their letters. -/
def toUppercase (s : String) : String := ⟨s.data.map Char.toUpper⟩

/-- The argument iterator's `next_string()`: the next argument, or `WrongArity`. -/
def nextString : List String → Except RedisError (String × List String)
  | [] => .error .wrongArity
  | s :: rest => .ok (s, rest)

section Handlers

variable {F : Type} (H : Host F) (L : Lib) (ks : Keyspace)

/-- The iterator's `next_i64()`: the next argument parsed, or `WrongArity`. -/
def nextI64 : List String → Except RedisError (I64 × List String)
  | [] => .error .wrongArity
  | s :: rest => (·, rest) <$> H.parseI64 s

/-- `get_value::<RedisJSON>(&REDIS_JSON_TYPE)` on a key: its document if it holds one,
`None` if it is empty, the type error if it holds another type. -/
def getValue (key : String) : Except RedisError (Option Value) :=
  match ks.get key with
  | none => .ok none
  | some (.json doc) => .ok (some doc)
  | some .other => .error H.wrongType

/-- A command that fails with `e`: nothing changes. -/
def Step.fail (e : RedisError) : Step := ⟨ks, .error e, .none⟩

/-- The shape every `value_op` command shares: the key must hold a document, `value_op` runs
the transform at `path` and the document is written back; on success the command raises
`event` and replicates, and `reply` builds the reply from the new value and the payload. -/
def valueOpCommand {α : Type} (event key path : String) (opFun : Value → Outcome (MutResult × α))
    (reply : Value → α → RedisValue) : Outcome Step :=
  match getValue H ks key with
  | .error e => .done (Step.fail ks e)
  | .ok none => .done (Step.fail ks H.nonexistentKey)
  | .ok (some doc) =>
    (fun (p : Value × Except Error (Value × α)) =>
      let ks' := ks.set key (some (.json p.1))
      match p.2 with
      | .ok (new, a) => ⟨ks', .ok (reply new a), .notifyReplicate event key⟩
      | .error e => ⟨ks', .error e.toRedis, .none⟩) <$> valueOp H.loc doc path opFun

/-- A transform taking `&Value`: it cannot write its slot. -/
def readTransform (f : Value → Outcome (Except Error Value)) (value : Value) :
    Outcome (MutResult × Unit) :=
  (fun r => (⟨r, value⟩, ())) <$> f value

/-- The handlers' first step, `let key = args.next_string()?;` after the command name. -/
def withKey (args : List String) (k : String → List String → Outcome Step) : Outcome Step :=
  match nextString (args.drop 1) with
  | .error e => .done (Step.fail ks e)
  | .ok (key, args) => k key args

/-- The rest of a handler's argument reading: its `?`s fail the command. -/
def withArgs {β : Type} (p : Except RedisError β) (k : β → Outcome Step) : Outcome Step :=
  match p with
  | .error e => .done (Step.fail ks e)
  | .ok b => k b

/-- The function `json_num_op`, for the command `cmd` and the operators `opI64`, `opF64`. -/
def jsonNumOp (cmd : String) (opI64 : I64 → I64 → Outcome I64) (opF64 : ℚ → ℚ → F64)
    (args : List String) : Outcome Step :=
  withKey ks args fun key args =>
  withArgs ks (do
    let (path, args) ← nextString args
    let (number, _) ← nextString args
    pure (backwardsCompatPath path, number)) fun (path, number) =>
  valueOpCommand H ks cmd key path
    (readTransform fun value => doJsonNumOp L number value opI64 opF64)
    (fun result _ => .bulkString (L.display result))

/-- The function `json_num_incrby`. -/
def jsonNumIncrby (args : List String) : Outcome Step :=
  jsonNumOp H L ks "json.numincrby" i64Add f64Add args

/-- The function `json_num_multby`. -/
def jsonNumMultby (args : List String) : Outcome Step :=
  jsonNumOp H L ks "json.nummultby" i64Mul f64Mul args

/-- The function `json_bool_toggle`. -/
def jsonBoolToggle (args : List String) : Outcome Step :=
  withKey ks args fun key args =>
  withArgs ks ((fun p => backwardsCompatPath p.1) <$> nextString args) fun path =>
  valueOpCommand H ks "json.toggle" key path
    (readTransform fun value => .done (jsonBoolToggleOp L value))
    (fun result _ => .bulkString (L.display result))

/-- The function `json_str_append`: with one argument after the key it is the JSON string and
the path is the root. -/
def jsonStrAppend (args : List String) : Outcome Step :=
  withKey ks args fun key args =>
  withArgs ks (do
    let (pathOrJson, args) ← nextString args
    pure (match nextString args with
      | .ok (val, _) => (backwardsCompatPath pathOrJson, val)
      | .error _ => (jsonRootPath, pathOrJson))) fun (path, json) =>
  valueOpCommand H ks "json.strappend" key path
    (readTransform fun value => .done (doJsonStrAppend L json value))
    (fun result _ => usizeReply (jsonStrLenReply result))

/-- The function `json_arr_append`: at least one item is required. -/
def jsonArrAppend (args : List String) : Outcome Step :=
  withKey ks args fun key args =>
  withArgs ks (do
    let (path, args) ← nextString args
    if args.isEmpty then .error .wrongArity
    pure (backwardsCompatPath path, args)) fun (path, items) =>
  valueOpCommand H ks "json.arrappend" key path
    (fun value => .done (doJsonArrAppend L items value, ()))
    (fun result _ => usizeReply (jsonArrLenReply result))

/-- The function `json_arr_insert`: the index, then at least one item. -/
def jsonArrInsert (args : List String) : Outcome Step :=
  withKey ks args fun key args =>
  withArgs ks (do
    let (path, args) ← nextString args
    let (index, args) ← nextI64 H args
    if args.isEmpty then .error .wrongArity
    pure (backwardsCompatPath path, index, args)) fun (path, index, items) =>
  valueOpCommand H ks "json.arrinsert" key path
    (fun value => (·, ()) <$> doJsonArrInsert L items index value)
    (fun result _ => usizeReply (jsonArrLenReply result))

/-- The function `json_arr_pop`. The element popped comes out through `res`, which starts as
`None`; it is sent as `RedisJSON::serialize(&r, Format::JSON)`, the compact JSON text that
`Display` also writes (serialising a `Value` cannot fail). -/
def jsonArrPop (args : List String) : Outcome Step :=
  withKey ks args fun key args =>
  let (path, index) := jsonArrPopArgs (fun s => (H.parseI64 s).toOption) args
  valueOpCommand H ks "json.arrpop" key path
    (fun value => (fun (r : PopResult) => (⟨r.ret, r.slot⟩, r.res)) <$>
      doJsonArrPop L index none value)
    (fun _ res => match res with
      | none => .null
      | some r => .bulkString (L.display r))

/-- The function `json_arr_trim`. -/
def jsonArrTrim (args : List String) : Outcome Step :=
  withKey ks args fun key args =>
  withArgs ks (do
    let (path, args) ← nextString args
    let (start, args) ← nextI64 H args
    let (stop, _) ← nextI64 H args
    pure (backwardsCompatPath path, start, stop)) fun (path, start, stop) =>
  valueOpCommand H ks "json.arrtrim" key path
    (fun value => (·, ()) <$> doJsonArrTrim L start stop value)
    (fun result _ => usizeReply (jsonArrLenReply result))

/-- The path argument of `json_del` and `json_resp`: the next one, or the root. -/
def pathOrRoot (args : List String) : String :=
  match nextString args with
  | .ok (p, _) => backwardsCompatPath p
  | .error _ => jsonRootPath

/-- The function `json_del`: the root path deletes the key, any other path calls
`delete_path`; only a deletion notifies and replicates. -/
def jsonDel (args : List String) : Outcome Step :=
  withKey ks args fun key args =>
  let path := pathOrRoot args
  .done <|
    match getValue H ks key with
    | .error e => Step.fail ks e
    | .ok none => ⟨ks, .ok (usizeReply 0), .none⟩
    | .ok (some doc) =>
      if path = jsonRootPath then
        ⟨ks.set key none, .ok (usizeReply 1), .notifyReplicate "json.del" key⟩
      else
        match H.deletePath doc path with
        | .error e => Step.fail ks e.toRedis
        | .ok (deleted, doc') =>
          ⟨ks.set key (some (.json doc')), .ok (usizeReply deleted),
            if deleted > 0 then .notifyReplicate "json.del" key else .none⟩

/-- The `while let` loop of `json_set` over its options, which stops at the first argument it
does not know. -/
def jsonSetOptions : List String → F → SetOptions → Except RedisError (F × SetOptions)
  | [], format, op => .ok (format, op)
  | s :: args, format, op =>
    if toUppercase s = "NX" then jsonSetOptions args format .notExists
    else if toUppercase s = "XX" then jsonSetOptions args format .alreadyExists
    else if toUppercase s = "FORMAT" then
      match args with
      | [] => .error .wrongArity
      | f :: args =>
        match H.formatFromStr f with
        | .ok format => jsonSetOptions args format op
        | .error e => .error e.toRedis
    else .ok (format, op)

/-- The function `json_set`. -/
def jsonSet (args : List String) : Outcome Step :=
  withKey ks args fun key args =>
  withArgs ks (do
    let (path, args) ← nextString args
    let (value, args) ← nextString args
    let (format, op) ← jsonSetOptions H args H.formatJson .none
    pure (backwardsCompatPath path, value, format, op)) fun (path, value, format, op) =>
  .done <|
    match getValue H ks key, op with
    | .error e, _ => Step.fail ks e
    | .ok (some doc), op =>
      match H.setValue doc value path op format with
      | .error e => Step.fail ks e.toRedis
      | .ok (some doc') =>
        ⟨ks.set key (some (.json doc')), .ok redisOk, .notifyReplicate "json.set" key⟩
      | .ok none => ⟨ks, .ok .null, .none⟩
    | .ok none, .alreadyExists => ⟨ks, .ok .null, .none⟩
    | .ok none, _ =>
      match H.fromStr value format with
      | .error e => Step.fail ks e.toRedis
      | .ok doc =>
        if path = jsonRootPath then
          ⟨ks.set key (some (.json doc)), .ok redisOk, .notifyReplicate "json.set" key⟩
        else Step.fail ks (.str "ERR new objects must be created at the root")

/-- The function `json_clear`: the first path given, or the root. It replicates after any
successful clear, and raises no notification. -/
def jsonClear (args : List String) : Outcome Step :=
  withKey ks args fun key paths =>
  let path := H.pathFixed (paths.headD jsonRootPath)
  .done <|
    match getValue H ks key with
    | .error e => Step.fail ks e
    | .ok none => ⟨ks, .ok (usizeReply 0), .none⟩
    | .ok (some doc) =>
      match H.clear doc path with
      | .error e => Step.fail ks e.toRedis
      | .ok (n, doc') => ⟨ks.set key (some (.json doc')), .ok (usizeReply n), ⟨[], true⟩⟩

/-- The function `json_resp`: the reply of the first value at the path, `Null` for an empty
key. -/
def jsonResp (args : List String) : Outcome Step :=
  withKey ks args fun key args =>
  let path := pathOrRoot args
  .done <|
    match getValue H ks key with
    | .error e => Step.fail ks e
    | .ok none => ⟨ks, .ok .null, .none⟩
    | .ok (some doc) =>
      match H.loc.locate doc path with
      | some (v, _) => ⟨ks, .ok (respSerialize v), .none⟩
      | none => Step.fail ks (H.loc.notFound path).toRedis

end Handlers

/-- A host under which the handlers run on concrete commands: the root path locates the whole
document, no other path resolves, a document literal is the JSON string of its text, and the
readers of `RedisJSON` answer fixed values (a memory use of `1`). -/
def sampleHostOf {F : Type} (format : F) : Host F where
  loc :=
    { locate := fun doc path => if path = jsonRootPath then some (doc, id) else none
      notFound := fun _ => ⟨"ERR path does not exist"⟩
      locate_put := fun h => by
        simp only at h
        split at h
        · cases h; rfl
        · cases h }
  wrongType := .str "WRONGTYPE"
  nonexistentKey := .str "ERR no such key"
  parseI64 := fun _ => .error .wrongArity
  formatJson := format
  formatFromStr := fun _ => .ok format
  fromStr := fun s _ => .ok (.string s)
  setValue := fun _ _ _ _ _ => .ok none
  deletePath := fun doc _ => .ok (0, doc)
  deletePath_zero := fun h => by cases h; rfl
  clear := fun doc _ => .ok (0, doc)
  pathFixed := id
  toJson := fun _ _ _ _ _ _ => .ok ""
  toString := fun _ _ _ => .ok ""
  getType := fun _ _ => .ok ""
  strLen := fun _ _ => .ok 0
  arrLen := fun _ _ => .ok 0
  objLen := fun _ _ => .ok 0
  arrIndex := fun _ _ _ _ _ => .ok (I64.ofInt (-1))
  objKeys := fun _ _ => .ok []
  getMemory := fun _ _ => .ok 1
  strParseI64 := fun _ => .error .wrongArity
  unknownCommand := fun _ => .str "ERR unknown command"

/-- The sample host, with `Format` a single value. -/
def sampleHost : Host Unit := sampleHostOf ()

/-- A library whose parser reads every literal as the JSON string of its text. -/
def sampleLib : Lib := ⟨fun s => .ok (.string s), fun _ => "", fun _ => ""⟩

/-! ## 4. What one command does to the key space -/

/-- What replication relies on of one command on `ks` whose key is `key`: it writes no other
key; a failure changes nothing and raises nothing; a command that does not replicate changes
nothing; and only a replicating command notifies. -/
structure Step.WellBehaved (ks : Keyspace) (key : String) (st : Step) : Prop where
  frame : ∀ k, k ≠ key → st.keys.get k = ks.get k
  error : ∀ e, st.reply = .error e → st.keys = ks ∧ st.effects = .none
  unreplicated : st.effects.replicated = false → st.keys = ks
  notified : st.effects.notified ≠ [] → st.effects.replicated = true

namespace Step

variable {ks : Keyspace} {key : String}

theorem wellBehaved_unchanged (r : Except RedisError RedisValue) :
    WellBehaved ks key ⟨ks, r, .none⟩ :=
  ⟨fun _ _ => rfl, fun _ _ => ⟨rfl, rfl⟩, fun _ => rfl, fun h => absurd rfl h⟩

theorem wellBehaved_fail (e : RedisError) : WellBehaved ks key (Step.fail ks e) :=
  wellBehaved_unchanged _

/-- A successful write of the command's own key that replicates. -/
theorem wellBehaved_write (e : Option Entry) (r : RedisValue) {eff : Effects}
    (h : eff.replicated = true) : WellBehaved ks key ⟨ks.set key e, .ok r, eff⟩ :=
  ⟨fun _ hk => ks.set_get_of_ne e hk, fun _ h => (nomatch h),
    fun h' => absurd (h.symm.trans h') Bool.noConfusion, fun _ => h⟩

end Step

section Lemmas

variable {F : Type} (H : Host F) (L : Lib) (ks : Keyspace) {st : Step}

theorem key_of_nextString {args rest : List String} {key : String}
    (h : nextString (args.drop 1) = .ok (key, rest)) : key = args.getD 1 "" := by
  match args, h with
  | _ :: _ :: _, h => cases h; rfl

theorem getValue_eq_some {key : String} {doc : Value} (h : getValue H ks key = .ok (some doc)) :
    ks.set key (some (.json doc)) = ks := by
  unfold getValue at h
  split at h <;> cases h
  next hk => rw [← hk, ks.set_get]

theorem withKey_wellBehaved {args : List String} {k : String → List String → Outcome Step}
    (hk : ∀ rest st, k (args.getD 1 "") rest = .done st → st.WellBehaved ks (args.getD 1 ""))
    (h : withKey ks args k = .done st) : st.WellBehaved ks (args.getD 1 "") := by
  unfold withKey at h
  split at h
  · cases h; exact Step.wellBehaved_fail _
  · next hn => rw [key_of_nextString hn] at h; exact hk _ _ h

theorem withArgs_wellBehaved {β : Type} {p : Except RedisError β} {k : β → Outcome Step}
    {key : String} (hk : ∀ b st, k b = .done st → st.WellBehaved ks key)
    (h : withArgs ks p k = .done st) : st.WellBehaved ks key := by
  unfold withArgs at h
  split at h
  · cases h; exact Step.wellBehaved_fail _
  · exact hk _ _ h

/-- A `value_op` command over an atomic transform: a failed transform writes back the document
it found. -/
theorem valueOpCommand_wellBehaved {α : Type} {event key path : String}
    {opFun : Value → Outcome (MutResult × α)} {reply : Value → α → RedisValue}
    (hat : TransformAtomic opFun) (h : valueOpCommand H ks event key path opFun reply = .done st) :
    st.WellBehaved ks key := by
  unfold valueOpCommand at h
  split at h
  · cases h; exact Step.wellBehaved_fail _
  · cases h; exact Step.wellBehaved_fail _
  · next doc hget =>
    obtain ⟨⟨doc', r⟩, hv, rfl⟩ := Outcome.map_eq_done.mp h
    cases r with
    | ok p => exact Step.wellBehaved_write _ _ rfl
    | error e =>
      dsimp only
      rw [valueOp_error hat hv, getValue_eq_some H ks hget]
      exact Step.wellBehaved_unchanged _

/-! The transforms the handlers hand to `value_op` are atomic. -/

theorem readTransform_atomic (f : Value → Outcome (Except Error Value)) :
    TransformAtomic (readTransform f) := by
  intro v p e hp _
  obtain ⟨r, -, rfl⟩ := Outcome.map_eq_done.mp hp
  rfl

theorem arrAppend_atomic (items : List String) :
    TransformAtomic fun value => (.done (doJsonArrAppend L items value, ()) :
      Outcome (MutResult × Unit)) := by
  intro v p e hp he
  cases hp
  exact (doJsonArrAppend_atomic L items v).2 (by rw [he]; rfl)

theorem arrInsert_atomic (items : List String) (index : I64) :
    TransformAtomic fun value => (·, ()) <$> doJsonArrInsert L items index value := by
  intro v p e hp he
  obtain ⟨r, hr, rfl⟩ := Outcome.map_eq_done.mp hp
  exact (doJsonArrInsert_atomic L items index v r hr).2 (by rw [he]; rfl)

theorem arrPop_atomic (index : I64) :
    TransformAtomic fun value => (fun (r : PopResult) => ((⟨r.ret, r.slot⟩ : MutResult), r.res)) <$>
      doJsonArrPop L index none value := by
  intro v p e hp he
  obtain ⟨r, hr, rfl⟩ := Outcome.map_eq_done.mp hp
  exact (doJsonArrPop_atomic L index none v r hr).2 (by rw [show r.ret = _ from he]; rfl)

theorem arrTrim_atomic (start stop : I64) :
    TransformAtomic fun value => (·, ()) <$> doJsonArrTrim L start stop value := by
  intro v p e hp he
  obtain ⟨r, hr, rfl⟩ := Outcome.map_eq_done.mp hp
  exact (doJsonArrTrim_atomic L start stop v r hr).2 (by rw [he]; rfl)

/-! Each handler. -/

variable {args : List String}

theorem jsonNumOp_wellBehaved {cmd : String} {opI64 : I64 → I64 → Outcome I64}
    {opF64 : ℚ → ℚ → F64} (h : jsonNumOp H L ks cmd opI64 opF64 args = .done st) :
    st.WellBehaved ks (args.getD 1 "") :=
  withKey_wellBehaved ks (fun _ _ h => withArgs_wellBehaved ks (fun ⟨_, _⟩ _ h =>
    valueOpCommand_wellBehaved H ks (readTransform_atomic _) h) h) h

theorem jsonBoolToggle_wellBehaved (h : jsonBoolToggle H L ks args = .done st) :
    st.WellBehaved ks (args.getD 1 "") :=
  withKey_wellBehaved ks (fun _ _ h => withArgs_wellBehaved ks (fun _ _ h =>
    valueOpCommand_wellBehaved H ks (readTransform_atomic _) h) h) h

theorem jsonStrAppend_wellBehaved (h : jsonStrAppend H L ks args = .done st) :
    st.WellBehaved ks (args.getD 1 "") :=
  withKey_wellBehaved ks (fun _ _ h => withArgs_wellBehaved ks (fun ⟨_, _⟩ _ h =>
    valueOpCommand_wellBehaved H ks (readTransform_atomic _) h) h) h

theorem jsonArrAppend_wellBehaved (h : jsonArrAppend H L ks args = .done st) :
    st.WellBehaved ks (args.getD 1 "") :=
  withKey_wellBehaved ks (fun _ _ h => withArgs_wellBehaved ks (fun ⟨_, items⟩ _ h =>
    valueOpCommand_wellBehaved H ks (arrAppend_atomic L items) h) h) h

theorem jsonArrInsert_wellBehaved (h : jsonArrInsert H L ks args = .done st) :
    st.WellBehaved ks (args.getD 1 "") :=
  withKey_wellBehaved ks (fun _ _ h => withArgs_wellBehaved ks (fun ⟨_, index, items⟩ _ h =>
    valueOpCommand_wellBehaved H ks (arrInsert_atomic L items index) h) h) h

theorem jsonArrPop_wellBehaved (h : jsonArrPop H L ks args = .done st) :
    st.WellBehaved ks (args.getD 1 "") :=
  withKey_wellBehaved ks (fun _ _ h => valueOpCommand_wellBehaved H ks (arrPop_atomic L _) h) h

theorem jsonArrTrim_wellBehaved (h : jsonArrTrim H L ks args = .done st) :
    st.WellBehaved ks (args.getD 1 "") :=
  withKey_wellBehaved ks (fun _ _ h => withArgs_wellBehaved ks (fun ⟨_, start, stop⟩ _ h =>
    valueOpCommand_wellBehaved H ks (arrTrim_atomic L start stop) h) h) h

theorem jsonDel_wellBehaved (h : jsonDel H ks args = .done st) :
    st.WellBehaved ks (args.getD 1 "") := by
  refine withKey_wellBehaved ks (fun _ _ h => ?_) h
  cases h
  split
  · exact Step.wellBehaved_fail _
  · exact Step.wellBehaved_unchanged _
  · next doc hget =>
    split
    · exact Step.wellBehaved_write _ _ rfl
    split
    · exact Step.wellBehaved_fail _
    · next deleted doc' hdel =>
      split
      · exact Step.wellBehaved_write _ _ rfl
      · obtain rfl : deleted = 0 := by omega
        rw [H.deletePath_zero hdel, getValue_eq_some H ks hget]
        exact Step.wellBehaved_unchanged _

theorem jsonSet_wellBehaved (h : jsonSet H ks args = .done st) :
    st.WellBehaved ks (args.getD 1 "") := by
  refine withKey_wellBehaved ks (fun _ _ h => withArgs_wellBehaved ks (fun _ _ h => ?_) h) h
  cases h
  split
  · exact Step.wellBehaved_fail _
  · split
    · exact Step.wellBehaved_fail _
    · exact Step.wellBehaved_write _ _ rfl
    · exact Step.wellBehaved_unchanged _
  · exact Step.wellBehaved_unchanged _
  · split
    · exact Step.wellBehaved_fail _
    · split
      · exact Step.wellBehaved_write _ _ rfl
      · exact Step.wellBehaved_fail _

theorem jsonClear_wellBehaved (h : jsonClear H ks args = .done st) :
    st.WellBehaved ks (args.getD 1 "") := by
  refine withKey_wellBehaved ks (fun _ _ h => ?_) h
  cases h
  split
  · exact Step.wellBehaved_fail _
  · exact Step.wellBehaved_unchanged _
  · split
    · exact Step.wellBehaved_fail _
    · exact Step.wellBehaved_write _ _ rfl

theorem jsonResp_wellBehaved (h : jsonResp H ks args = .done st) :
    st.WellBehaved ks (args.getD 1 "") := by
  refine withKey_wellBehaved ks (fun _ _ h => ?_) h
  cases h
  split
  · exact Step.wellBehaved_fail _
  · exact Step.wellBehaved_unchanged _
  · split
    · exact Step.wellBehaved_unchanged _
    · exact Step.wellBehaved_fail _

end Lemmas

/-! ## 5. What one command reads

The command table declares one key for every command, its first argument (`1,1,1`), and the
server checks and routes a command by that key alone. That is sound for a handler only if
what it does is decided by the entry at that key. `SameAt key o₁ o₂` says two runs show the
same at `key` (the same reply, the same effects and the same entry left there, or the same
panic), and each write handler runs the same on two key spaces that agree at its key. -/

/-- What a command's run shows at `key`: its reply, its effects, and the entry it leaves
there. -/
def Step.view (key : String) (st : Step) : Except RedisError RedisValue × Effects × Option Entry :=
  (st.reply, st.effects, st.keys.get key)

/-- Two runs that show the same at `key`, or panic with the same message. -/
def SameAt (key : String) (o₁ o₂ : Outcome Step) : Prop :=
  Step.view key <$> o₁ = Step.view key <$> o₂

section Local

variable {F : Type} (H : Host F) (L : Lib) {ks₁ ks₂ : Keyspace} {key : String}

theorem getValue_congr (h : ks₁.get key = ks₂.get key) :
    getValue H ks₁ key = getValue H ks₂ key := by
  unfold getValue; rw [h]

theorem sameAt_unchanged (h : ks₁.get key = ks₂.get key) (r : Except RedisError RedisValue)
    (eff : Effects) : SameAt key (.done ⟨ks₁, r, eff⟩) (.done ⟨ks₂, r, eff⟩) := by
  simp only [SameAt, Step.view, Outcome.map_done, h]

theorem sameAt_fail (h : ks₁.get key = ks₂.get key) (e : RedisError) :
    SameAt key (.done (Step.fail ks₁ e)) (.done (Step.fail ks₂ e)) :=
  sameAt_unchanged h _ _

theorem sameAt_write (e : Option Entry) (r : Except RedisError RedisValue) (eff : Effects) :
    SameAt key (.done ⟨ks₁.set key e, r, eff⟩) (.done ⟨ks₂.set key e, r, eff⟩) := by
  simp only [SameAt, Step.view, Outcome.map_done, Keyspace.set_get_self]

variable {args : List String}

theorem withKey_sameAt {k₁ k₂ : String → List String → Outcome Step}
    (h : ks₁.get (args.getD 1 "") = ks₂.get (args.getD 1 ""))
    (hk : ∀ rest, SameAt (args.getD 1 "") (k₁ (args.getD 1 "") rest) (k₂ (args.getD 1 "") rest)) :
    SameAt (args.getD 1 "") (withKey ks₁ args k₁) (withKey ks₂ args k₂) := by
  unfold withKey
  cases hn : nextString (args.drop 1) with
  | error e => exact sameAt_fail h e
  | ok p => obtain ⟨key, rest⟩ := p; obtain rfl := key_of_nextString hn; exact hk rest

theorem withArgs_sameAt {β : Type} {p : Except RedisError β} {k₁ k₂ : β → Outcome Step}
    (h : ks₁.get key = ks₂.get key) (hk : ∀ b, SameAt key (k₁ b) (k₂ b)) :
    SameAt key (withArgs ks₁ p k₁) (withArgs ks₂ p k₂) := by
  cases p with
  | error e => exact sameAt_fail h e
  | ok b => exact hk b

/-- A `value_op` command decides everything from the document at its key. -/
theorem valueOpCommand_sameAt {α : Type} {event path : String}
    {opFun : Value → Outcome (MutResult × α)} {reply : Value → α → RedisValue}
    (h : ks₁.get key = ks₂.get key) :
    SameAt key (valueOpCommand H ks₁ event key path opFun reply)
      (valueOpCommand H ks₂ event key path opFun reply) := by
  unfold valueOpCommand
  rw [getValue_congr H h]
  cases getValue H ks₂ key with
  | error e => exact sameAt_fail h e
  | ok o =>
    cases o with
    | none => exact sameAt_fail h _
    | some doc =>
      simp only [SameAt, Outcome.map_map]
      congr 1
      funext p
      rcases p with ⟨_, _ | ⟨_, _⟩⟩ <;> simp only [Function.comp, Step.view, Keyspace.set_get_self]

/-! Each write handler. -/

variable (h : ks₁.get (args.getD 1 "") = ks₂.get (args.getD 1 ""))
include h

theorem jsonNumOp_local {cmd : String} {opI64 : I64 → I64 → Outcome I64} {opF64 : ℚ → ℚ → F64} :
    SameAt (args.getD 1 "") (jsonNumOp H L ks₁ cmd opI64 opF64 args)
      (jsonNumOp H L ks₂ cmd opI64 opF64 args) :=
  withKey_sameAt h fun _ => withArgs_sameAt h fun ⟨_, _⟩ => valueOpCommand_sameAt H h

theorem jsonBoolToggle_local :
    SameAt (args.getD 1 "") (jsonBoolToggle H L ks₁ args) (jsonBoolToggle H L ks₂ args) :=
  withKey_sameAt h fun _ => withArgs_sameAt h fun _ => valueOpCommand_sameAt H h

theorem jsonStrAppend_local :
    SameAt (args.getD 1 "") (jsonStrAppend H L ks₁ args) (jsonStrAppend H L ks₂ args) :=
  withKey_sameAt h fun _ => withArgs_sameAt h fun ⟨_, _⟩ => valueOpCommand_sameAt H h

theorem jsonArrAppend_local :
    SameAt (args.getD 1 "") (jsonArrAppend H L ks₁ args) (jsonArrAppend H L ks₂ args) :=
  withKey_sameAt h fun _ => withArgs_sameAt h fun ⟨_, _⟩ => valueOpCommand_sameAt H h

theorem jsonArrInsert_local :
    SameAt (args.getD 1 "") (jsonArrInsert H L ks₁ args) (jsonArrInsert H L ks₂ args) :=
  withKey_sameAt h fun _ => withArgs_sameAt h fun ⟨_, _, _⟩ => valueOpCommand_sameAt H h

theorem jsonArrPop_local :
    SameAt (args.getD 1 "") (jsonArrPop H L ks₁ args) (jsonArrPop H L ks₂ args) :=
  withKey_sameAt h fun _ => valueOpCommand_sameAt H h

theorem jsonArrTrim_local :
    SameAt (args.getD 1 "") (jsonArrTrim H L ks₁ args) (jsonArrTrim H L ks₂ args) :=
  withKey_sameAt h fun _ => withArgs_sameAt h fun ⟨_, _, _⟩ => valueOpCommand_sameAt H h

theorem jsonDel_local : SameAt (args.getD 1 "") (jsonDel H ks₁ args) (jsonDel H ks₂ args) := by
  refine withKey_sameAt h fun rest => ?_
  dsimp only
  rw [getValue_congr H h]
  (repeat' split) <;>
    first | exact sameAt_fail h _ | exact sameAt_unchanged h _ _ | exact sameAt_write _ _ _

theorem jsonSet_local : SameAt (args.getD 1 "") (jsonSet H ks₁ args) (jsonSet H ks₂ args) := by
  refine withKey_sameAt h fun _ => withArgs_sameAt h fun ⟨path, value, format, op⟩ => ?_
  dsimp only
  rw [getValue_congr H h]
  (repeat' split) <;>
    first | exact sameAt_fail h _ | exact sameAt_unchanged h _ _ | exact sameAt_write _ _ _

theorem jsonClear_local : SameAt (args.getD 1 "") (jsonClear H ks₁ args) (jsonClear H ks₂ args) := by
  refine withKey_sameAt h fun paths => ?_
  dsimp only
  rw [getValue_congr H h]
  (repeat' split) <;>
    first | exact sameAt_fail h _ | exact sameAt_unchanged h _ _ | exact sameAt_write _ _ _

theorem jsonResp_local : SameAt (args.getD 1 "") (jsonResp H ks₁ args) (jsonResp H ks₂ args) := by
  refine withKey_sameAt h fun rest => ?_
  dsimp only
  rw [getValue_congr H h]
  (repeat' split) <;> first | exact sameAt_fail h _ | exact sameAt_unchanged h _ _

end Local

/-! ## 6. The options of `JSON.SET`

`json_set` reads `NX`, `XX` and `FORMAT <format>`, in any case, up to the first argument it
does not know, and ignores that argument and every one after it, options included. Of `NX` and
`XX` the last one given wins. -/

/-- One option of `JSON.SET`, as a client writes it. -/
inductive SetArg where
  | nx
  | xx
  | format (name : String)

/-- The arguments a client writes for one option. -/
def SetArg.render : SetArg → List String
  | .nx => ["NX"]
  | .xx => ["XX"]
  | .format name => ["FORMAT", name]

section SetArgs

variable {F : Type} (H : Host F)

/-- What one option sets: `NX` and `XX` the condition, `FORMAT` the format, read by
`Format::from_str`. -/
def SetArg.apply (p : F × SetOptions) : SetArg → Except RedisError (F × SetOptions)
  | .nx => .ok (p.1, .notExists)
  | .xx => .ok (p.1, .alreadyExists)
  | .format name => (fun f => (f, p.2)) <$> (H.formatFromStr name).mapError Error.toRedis

/-- An argument the loop does not know ends it: the options read so far stand. -/
theorem jsonSetOptions_of_unknown {s : String} (hs : toUppercase s ≠ "NX" ∧
    toUppercase s ≠ "XX" ∧ toUppercase s ≠ "FORMAT") (rest : List String) (format : F)
    (op : SetOptions) : jsonSetOptions H (s :: rest) format op = .ok (format, op) := by
  cases rest <;> simp only [jsonSetOptions, if_neg hs.1, if_neg hs.2.1, if_neg hs.2.2]

theorem jsonSetOptions_nx (args : List String) (format : F) (op : SetOptions) :
    jsonSetOptions H ("NX" :: args) format op = jsonSetOptions H args format .notExists := by
  cases args <;> simp only [jsonSetOptions, if_pos (show toUppercase "NX" = "NX" by decide)]

theorem jsonSetOptions_xx (args : List String) (format : F) (op : SetOptions) :
    jsonSetOptions H ("XX" :: args) format op = jsonSetOptions H args format .alreadyExists := by
  cases args <;> simp only [jsonSetOptions, if_neg (show toUppercase "XX" ≠ "NX" by decide),
    if_pos (show toUppercase "XX" = "XX" by decide)]

/-- The option loop of `json_set` reads back the options a client writes, applying each in
turn, whatever follows them, once that starts with an argument it does not know: the rest of
the line is ignored. -/
theorem jsonSetOptions_render (opts : List SetArg) {after : List String}
    (hafter : ∀ s ∈ after.head?, toUppercase s ≠ "NX" ∧ toUppercase s ≠ "XX" ∧
      toUppercase s ≠ "FORMAT") (format : F) (op : SetOptions) :
    jsonSetOptions H (opts.flatMap SetArg.render ++ after) format op =
      opts.foldlM (SetArg.apply H) (format, op) := by
  induction opts generalizing format op with
  | nil =>
    cases after with
    | nil => rfl
    | cons s rest => exact jsonSetOptions_of_unknown H (hafter s rfl) rest format op
  | cons a opts ih =>
    rw [List.flatMap_cons, List.foldlM_cons, List.append_assoc]
    cases a with
    | nx => rw [SetArg.render, List.singleton_append, jsonSetOptions_nx]; exact ih _ _
    | xx => rw [SetArg.render, List.singleton_append, jsonSetOptions_xx]; exact ih _ _
    | format name =>
      show (match H.formatFromStr name with
        | .ok format => jsonSetOptions H (opts.flatMap SetArg.render ++ after) format op
        | .error e => .error e.toRedis) =
        ((fun f => (f, op)) <$> (H.formatFromStr name).mapError Error.toRedis) >>= fun p =>
          opts.foldlM (SetArg.apply H) p
      cases H.formatFromStr name with
      | ok f => exact ih _ _
      | error e => rfl

end SetArgs

/-- `NX`, then `XX`, then an argument `json_set` does not know, then `NX` again: the last
`NX` is ignored and `XX` stands. -/
theorem jsonSetOptions_render_sample :
    (∀ s ∈ (["garbage", "NX"] : List String).head?, toUppercase s ≠ "NX" ∧
      toUppercase s ≠ "XX" ∧ toUppercase s ≠ "FORMAT") ∧
    jsonSetOptions sampleHost ([SetArg.nx, .xx].flatMap SetArg.render ++ ["garbage", "NX"]) ()
        .none =
      [SetArg.nx, .xx].foldlM (SetArg.apply sampleHost) ((), .none) := by
  refine ⟨?after, jsonSetOptions_render _ _ ?after _ _⟩
  intro s hs
  cases hs
  decide

end RedisJson
