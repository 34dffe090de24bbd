import RedisJson.Command.Readonly
import Mathlib.Data.List.GetD
import Mathlib.Data.List.Nodup

/-!
# `Command/Server.lean` — the command table, runs, and what a run depends on

`redis_module!` registers each handler under a name, with its flags and the positions of its
keys, `firstkey, lastkey, keystep`. These are `1, 1, 1` for every command: the server checks a
command against ACL key patterns, and routes it in a cluster, by its first argument alone.
`execute` dispatches a command by name as the server does, and a `Server` runs commands one
after another, keeping the notifications raised and the commands replicated.

Over whole runs this file proves:

* replication is faithful: a replica that replays the replicated commands reaches the key
  space of the server (`Server.run_replica`), the replicated commands alone take the server to
  the same state, notifications and stream included (`Server.run_replicated`), and a run writes
  no key that none of its commands names (`Server.run_frame`);
* the keys its key spec declares are all a command reads, for every entry of the table but
  `json.mget` and `json.debug`, which read keys the table does not declare and would read only
  declared keys under the specs `1, -2, 1` and `2, 2, 1` (`commandTable_local_iff`,
  `execute_local`);
* the entry a key ends a run with is decided by the commands that name it, in their order
  (`replay_onKey`), so that two runs which order the commands of each key alike end in the same
  key space, however they interleave the keys (`Server.run_interleave`).
-/

set_option autoImplicit false

namespace RedisJson

/-! ## 1. The command table -/

/-- A command handler: given the host, the library and the key space, what a command does. -/
def Handler (F : Type) : Type := Host F → Lib → Keyspace → List String → Outcome Step

/-- An entry of the `commands` of `redis_module!`: the name, the handler, the flags, and the
key positions `firstkey, lastkey, keystep`. -/
structure Command (F : Type) where
  name : String
  handler : Handler F
  flags : String
  firstKey : Nat
  lastKey : Int
  keyStep : Nat

namespace Command

variable {F : Type} (c : Command F)

/-- The argument positions a key spec `firstkey, lastkey, keystep` declares among `argc`
arguments, as the server reads one: from `firstkey` up to `lastkey`, counted back from the end
when negative, every `keystep`-th; none when `firstkey` is `0`. -/
def keyPositions (argc : Nat) : List Nat :=
  (List.range argc).filter fun i =>
    decide (0 < c.firstKey ∧ c.firstKey ≤ i ∧
      (i : Int) ≤ (if c.lastKey < 0 then argc + c.lastKey else c.lastKey) ∧
      (i - c.firstKey) % c.keyStep = 0)

/-- The keys a command's arguments declare: the arguments at `keyPositions`. -/
def declaredKeys (args : List String) : List String :=
  (c.keyPositions args.length).map fun i => args.getD i ""

end Command

section Table

variable {F : Type}

/-- A reader as the server runs it: its reply, and no change. -/
def reader (f : Host F → Keyspace → List String → Except RedisError RedisValue) : Handler F :=
  fun H _ ks args => readonly ks (f H ks args)

/-- The functions `json_cache_info` and `json_cache_init`. -/
def jsonCacheNotImplemented : Handler F := fun _ _ ks _ =>
  .done (Step.fail ks (.str "Command was not implemented"))

/-- The `commands` of `redis_module!`, in the table's order. -/
def commandTable : List (Command F) :=
  [⟨"json.del", fun H _ => jsonDel H, "write", 1, 1, 1⟩,
   ⟨"json.get", reader jsonGet, "readonly", 1, 1, 1⟩,
   ⟨"json.mget", reader jsonMget, "readonly", 1, 1, 1⟩,
   ⟨"json.set", fun H _ => jsonSet H, "write deny-oom", 1, 1, 1⟩,
   ⟨"json.type", reader jsonType, "readonly", 1, 1, 1⟩,
   ⟨"json.numincrby", jsonNumIncrby, "write", 1, 1, 1⟩,
   ⟨"json.toggle", jsonBoolToggle, "write deny-oom", 1, 1, 1⟩,
   ⟨"json.nummultby", jsonNumMultby, "write", 1, 1, 1⟩,
   ⟨"json.strappend", jsonStrAppend, "write deny-oom", 1, 1, 1⟩,
   ⟨"json.strlen", reader jsonStrLen, "readonly", 1, 1, 1⟩,
   ⟨"json.arrappend", jsonArrAppend, "write deny-oom", 1, 1, 1⟩,
   ⟨"json.arrindex", reader jsonArrIndex, "readonly", 1, 1, 1⟩,
   ⟨"json.arrinsert", jsonArrInsert, "write deny-oom", 1, 1, 1⟩,
   ⟨"json.arrlen", reader jsonArrLen, "readonly", 1, 1, 1⟩,
   ⟨"json.arrpop", jsonArrPop, "write", 1, 1, 1⟩,
   ⟨"json.arrtrim", jsonArrTrim, "write", 1, 1, 1⟩,
   ⟨"json.objkeys", reader jsonObjKeys, "readonly", 1, 1, 1⟩,
   ⟨"json.objlen", reader jsonObjLen, "readonly", 1, 1, 1⟩,
   ⟨"json.clear", fun H _ => jsonClear H, "write", 1, 1, 1⟩,
   ⟨"json.debug", reader jsonDebug, "readonly", 1, 1, 1⟩,
   ⟨"json.forget", fun H _ => jsonDel H, "write", 1, 1, 1⟩,
   ⟨"json.resp", fun H _ => jsonResp H, "readonly", 1, 1, 1⟩,
   ⟨"json._cacheinfo", jsonCacheNotImplemented, "readonly", 1, 1, 1⟩,
   ⟨"json._cacheinit", jsonCacheNotImplemented, "write", 1, 1, 1⟩]

/-- A command: the server runs the handler the table registers under its name, compared
without regard to ASCII case. -/
def execute (H : Host F) (L : Lib) (ks : Keyspace) (args : List String) : Outcome Step :=
  match commandTable.find? (fun c => eqIgnoreAsciiCase (args.headD "") c.name) with
  | some c => c.handler H L ks args
  | none => .done (Step.fail ks (H.unknownCommand args))

end Table

/-! ## 2. What one command does to the key space -/

section Table

variable {F : Type}

/-- A handler that is well behaved on the command's key whenever it returns. -/
def Handler.WellBehaved (handler : Handler F) : Prop :=
  ∀ H L ks args st, handler H L ks args = .done st → st.WellBehaved ks (args.getD 1 "")

theorem reader_wellBehaved (f : Host F → Keyspace → List String → Except RedisError RedisValue) :
    (reader f).WellBehaved := fun _ _ _ _ _ h => by
  cases h; exact Step.wellBehaved_unchanged _

theorem commandTable_wellBehaved :
    ∀ c ∈ (commandTable : List (Command F)), c.handler.WellBehaved := by
  have ni : (jsonCacheNotImplemented : Handler F).WellBehaved := fun _ _ _ _ _ h => by
    cases h; exact Step.wellBehaved_fail _
  have del : Handler.WellBehaved (fun H (_ : Lib) => jsonDel H : Handler F) :=
    fun H _ ks _ _ h => jsonDel_wellBehaved H ks h
  simp only [commandTable, List.forall_mem_cons, List.not_mem_nil, false_imp_iff, implies_true,
    and_true]
  exact ⟨del, reader_wellBehaved _, reader_wellBehaved _,
    fun H _ ks _ _ h => jsonSet_wellBehaved H ks h, reader_wellBehaved _,
    fun H L ks _ _ h => jsonNumOp_wellBehaved H L ks h,
    fun H L ks _ _ h => jsonBoolToggle_wellBehaved H L ks h,
    fun H L ks _ _ h => jsonNumOp_wellBehaved H L ks h,
    fun H L ks _ _ h => jsonStrAppend_wellBehaved H L ks h, reader_wellBehaved _,
    fun H L ks _ _ h => jsonArrAppend_wellBehaved H L ks h, reader_wellBehaved _,
    fun H L ks _ _ h => jsonArrInsert_wellBehaved H L ks h, reader_wellBehaved _,
    fun H L ks _ _ h => jsonArrPop_wellBehaved H L ks h,
    fun H L ks _ _ h => jsonArrTrim_wellBehaved H L ks h, reader_wellBehaved _,
    reader_wellBehaved _, fun H _ ks _ _ h => jsonClear_wellBehaved H ks h,
    reader_wellBehaved _, del, fun H _ ks _ _ h => jsonResp_wellBehaved H ks h, ni, ni⟩

/-- Every command: it writes only its key, a failure changes and raises nothing, a command
that does not replicate changes nothing, and only a replicating command notifies. -/
theorem execute_wellBehaved (H : Host F) (L : Lib) (ks : Keyspace) {args : List String}
    {st : Step} (h : execute H L ks args = .done st) : st.WellBehaved ks (args.getD 1 "") := by
  unfold execute at h
  split at h
  · next hfind => exact commandTable_wellBehaved _ (List.mem_of_find?_eq_some hfind) H L ks args st h
  · cases h; exact Step.wellBehaved_fail _

end Table

/-! ## 3. What one command reads -/

section Table

variable {F : Type}

/-- A handler that reads only the key the table declares, its first argument: on two key
spaces that agree there, it shows the same there. -/
def Handler.Local (handler : Handler F) : Prop :=
  ∀ H L ks₁ ks₂ args, ks₁.get (args.getD 1 "") = ks₂.get (args.getD 1 "") →
    SameAt (args.getD 1 "") (handler H L ks₁ args) (handler H L ks₂ args)

/-- A handler whose write at the declared key is decided by the entry there, whatever else it
reads. -/
def Handler.KeysLocal (handler : Handler F) : Prop :=
  ∀ H L ks₁ ks₂ args, ks₁.get (args.getD 1 "") = ks₂.get (args.getD 1 "") →
    (fun st : Step => st.keys.get (args.getD 1 "")) <$> handler H L ks₁ args =
      (fun st : Step => st.keys.get (args.getD 1 "")) <$> handler H L ks₂ args

theorem Handler.Local.keysLocal {handler : Handler F} (hl : handler.Local) : handler.KeysLocal :=
  fun H L ks₁ ks₂ args h => by
    have := congrArg (fun o => (fun v : _ × _ × Option Entry => v.2.2) <$> o) (hl H L ks₁ ks₂ args h)
    simpa only [Outcome.map_map] using this

theorem reader_local {f : Host F → Keyspace → List String → Except RedisError RedisValue}
    (hf : ∀ H ks₁ ks₂ args, ks₁.get (args.getD 1 "") = ks₂.get (args.getD 1 "") →
      f H ks₁ args = f H ks₂ args) : (reader f).Local :=
  fun H _ _ _ _ h => readonly_sameAt h (hf H _ _ _ h)

theorem reader_keysLocal (f : Host F → Keyspace → List String → Except RedisError RedisValue) :
    (reader f).KeysLocal := fun _ _ _ _ _ h => by
  simp only [reader, readonly, Outcome.map_done, h]

/-- Every entry of the table but `json.mget` and `json.debug` reads only its declared key. -/
theorem commandTable_local : ∀ c ∈ (commandTable : List (Command F)),
    c.name ≠ "json.mget" → c.name ≠ "json.debug" → c.handler.Local := by
  have del : Handler.Local (fun H (_ : Lib) => jsonDel H : Handler F) :=
    fun H _ _ _ _ h => jsonDel_local H h
  have ni : (jsonCacheNotImplemented : Handler F).Local := fun _ _ _ _ _ h => sameAt_fail h _
  simp only [commandTable, List.forall_mem_cons, List.not_mem_nil, false_imp_iff, implies_true,
    and_true]
  exact ⟨fun _ _ => del, fun _ _ => reader_local fun H _ _ _ h => jsonGet_local H h,
    fun h _ => absurd rfl h, fun _ _ H _ _ _ _ h => jsonSet_local H h,
    fun _ _ => reader_local fun H _ _ _ h => jsonType_local H h,
    fun _ _ H L _ _ _ h => jsonNumOp_local H L h, fun _ _ H L _ _ _ h => jsonBoolToggle_local H L h,
    fun _ _ H L _ _ _ h => jsonNumOp_local H L h, fun _ _ H L _ _ _ h => jsonStrAppend_local H L h,
    fun _ _ => reader_local fun H _ _ _ h => jsonLen_local H h _,
    fun _ _ H L _ _ _ h => jsonArrAppend_local H L h,
    fun _ _ => reader_local fun H _ _ _ h => jsonArrIndex_local H h,
    fun _ _ H L _ _ _ h => jsonArrInsert_local H L h,
    fun _ _ => reader_local fun H _ _ _ h => jsonLen_local H h _,
    fun _ _ H L _ _ _ h => jsonArrPop_local H L h, fun _ _ H L _ _ _ h => jsonArrTrim_local H L h,
    fun _ _ => reader_local fun H _ _ _ h => jsonObjKeys_local H h,
    fun _ _ => reader_local fun H _ _ _ h => jsonLen_local H h _,
    fun _ _ H _ _ _ _ h => jsonClear_local H h, fun _ h => absurd rfl h, fun _ _ => del,
    fun _ _ H _ _ _ _ h => jsonResp_local H h, fun _ _ => ni, fun _ _ => ni⟩

/-- The entries named `json.mget`, `json.debug` and `json.clear` are the handlers of those
names. -/
theorem commandTable_named {c : Command F} (hc : c ∈ commandTable) :
    (c.name = "json.mget" → c.handler = reader jsonMget) ∧
      (c.name = "json.debug" → c.handler = reader jsonDebug) ∧
      (c.name = "json.clear" → c.handler = fun H _ => jsonClear H) := by
  simp only [commandTable, List.mem_cons, List.not_mem_nil, or_false] at hc
  repeat' rcases hc with rfl | hc
  all_goals
    exact ⟨fun h => by first | rfl | exact absurd h (by dsimp only; decide),
      fun h => by first | rfl | exact absurd h (by dsimp only; decide),
      fun h => by first | rfl | exact absurd h (by dsimp only; decide)⟩

/-- Every entry's write at its declared key is decided by the entry there: the two entries that
read elsewhere only read. -/
theorem commandTable_keysLocal : ∀ c ∈ (commandTable : List (Command F)), c.handler.KeysLocal := by
  intro c hc
  by_cases hm : c.name = "json.mget"
  · rw [(commandTable_named hc).1 hm]; exact reader_keysLocal _
  by_cases hd : c.name = "json.debug"
  · rw [(commandTable_named hc).2.1 hd]; exact reader_keysLocal _
  exact (commandTable_local c hc hm hd).keysLocal


/-! What an entry reads, against its own key spec. `Handler.Local` fixes the declared key at
the first argument, the key every entry of the table declares; `Command.Local` reads the key
spec itself, so that it can also say what another key spec would have declared. -/

/-- What a command's run shows at `keys`: its reply, its effects, and the entries it leaves
there. -/
def Step.viewOn (keys : List String) (st : Step) :
    Except RedisError RedisValue × Effects × List (Option Entry) :=
  (st.reply, st.effects, keys.map st.keys.get)

/-- Two runs that show the same at every key of `keys`, or panic with the same message. -/
def SameOn (keys : List String) (o₁ o₂ : Outcome Step) : Prop :=
  Step.viewOn keys <$> o₁ = Step.viewOn keys <$> o₂

/-- An entry that reads only the keys its key spec declares: on two key spaces that agree
there, its handler replies the same, raises the same and leaves the same entries there. -/
def Command.Local (c : Command F) : Prop :=
  ∀ H L ks₁ ks₂ args, (∀ k ∈ c.declaredKeys args, ks₁.get k = ks₂.get k) →
    SameOn (c.declaredKeys args) (c.handler H L ks₁ args) (c.handler H L ks₂ args)

theorem SameAt.sameOn {key : String} {o₁ o₂ : Outcome Step} (h : SameAt key o₁ o₂) :
    SameOn [key] o₁ o₂ := by
  have := congrArg (fun o => (fun v : _ × _ × Option Entry => (v.1, v.2.1, [v.2.2])) <$> o) h
  simpa only [Outcome.map_map] using this

theorem readonly_sameOn {keys : List String} {ks₁ ks₂ : Keyspace}
    (h : ∀ k ∈ keys, ks₁.get k = ks₂.get k) {r₁ r₂ : Except RedisError RedisValue}
    (hr : r₁ = r₂) : SameOn keys (readonly ks₁ r₁) (readonly ks₂ r₂) := by
  simp only [SameOn, readonly, Outcome.map_done, Step.viewOn, hr, List.map_congr_left h]

theorem Command.mem_keyPositions {c : Command F} {argc i : Nat} :
    i ∈ c.keyPositions argc ↔ i < argc ∧ 0 < c.firstKey ∧ c.firstKey ≤ i ∧
      (i : Int) ≤ (if c.lastKey < 0 then argc + c.lastKey else c.lastKey) ∧
      (i - c.firstKey) % c.keyStep = 0 := by
  simp only [Command.keyPositions, List.mem_filter, List.mem_range, decide_eq_true_eq]

/-- A key spec whose last key is its first declares the one argument there, when there is
one. -/
theorem Command.declaredKeys_single {c : Command F} (h0 : 0 < c.firstKey)
    (hl : c.lastKey = c.firstKey) (args : List String) :
    c.declaredKeys args = if c.firstKey < args.length then [args.getD c.firstKey ""] else [] := by
  have hp : c.keyPositions args.length =
      (List.range args.length).filter fun i => decide (i = c.firstKey) :=
    List.filter_congr fun i _ => decide_eq_decide.mpr <| by
      rw [hl, if_neg (by omega)]
      exact ⟨fun ⟨_, h1, h2, _⟩ => by omega, by rintro rfl; exact ⟨h0, le_rfl, le_rfl, by simp⟩⟩
  rw [Command.declaredKeys, hp, List.filter_eq]
  split
  · next h => rw [List.count_eq_one_of_mem (List.nodup_range _) (List.mem_range.2 h)]; rfl
  · next h => rw [List.count_eq_zero_of_not_mem (mt List.mem_range.1 h)]; rfl

/-- Under the key spec `1, -2, 1` the declared keys include every key `JSON.MGET` lists. -/
theorem mem_declaredKeys_of_mgetKeys {c : Command F}
    (hk : c.firstKey = 1 ∧ c.lastKey = -2 ∧ c.keyStep = 1) {args : List String} {k : String}
    (h : k ∈ mgetKeys args) : k ∈ c.declaredKeys args := by
  obtain ⟨h1, hl, hs⟩ := hk
  unfold mgetKeys at h
  obtain ⟨j, hj, rfl⟩ := List.mem_iff_getElem.mp h
  simp only [List.length_dropLast, List.length_drop] at hj
  refine List.mem_map.mpr ⟨1 + j, Command.mem_keyPositions.mpr ⟨by omega, by omega, by omega,
    by rw [hl, if_pos (by omega)]; omega, by rw [hs, Nat.mod_one]⟩, ?_⟩
  rw [List.getD_eq_getElem _ _ (by omega), List.getElem_dropLast, List.getElem_drop]

/-- With no argument after the name, every entry fails without reading the key space. -/
theorem commandTable_short : ∀ c ∈ (commandTable : List (Command F)), ∀ H L ks₁ ks₂ args,
    args.length ≤ 1 → SameOn [] (c.handler H L ks₁ args) (c.handler H L ks₂ args) := by
  intro c hc H L ks₁ ks₂ args hlen
  simp only [commandTable, List.mem_cons, List.not_mem_nil, or_false] at hc
  match args, hlen with
  | [], _ | [_], _ =>
    repeat' rcases hc with rfl | hc
    all_goals rfl

/-- Every entry declares its first argument alone: `1, 1, 1`. -/
theorem commandTable_keySpec : ∀ c ∈ (commandTable : List (Command F)),
    c.firstKey = 1 ∧ c.lastKey = 1 ∧ c.keyStep = 1 := by
  intro c hc
  simp only [commandTable, List.mem_cons, List.not_mem_nil, or_false] at hc
  repeat' rcases hc with rfl | hc
  all_goals exact ⟨rfl, rfl, rfl⟩

/-- An entry that declares its first argument alone reads only its declared key when its
handler reads only the first argument and, with no argument there, fails without reading the
key space. -/
theorem Command.local_of_first {c : Command F} (hk : c.firstKey = 1 ∧ c.lastKey = 1)
    (hl : c.handler.Local)
    (hs : ∀ H L ks₁ ks₂ args, args.length ≤ 1 →
      SameOn [] (c.handler H L ks₁ args) (c.handler H L ks₂ args)) : c.Local := by
  obtain ⟨h1, hl1⟩ := hk
  intro H L ks₁ ks₂ args h
  rw [c.declaredKeys_single (by omega) (by omega), h1] at h ⊢
  by_cases hn : 1 < args.length
  · rw [if_pos hn] at h ⊢
    exact (hl H L ks₁ ks₂ args (h _ (List.mem_singleton_self _))).sameOn
  · rw [if_neg hn]
    exact hs H L ks₁ ks₂ args (by omega)

/-- `JSON.MGET a b $` reads `b`, which the key spec `1, 1, 1` does not declare: on two key
spaces that agree at `a` it replies differently. -/
theorem jsonMget_not_local [Inhabited F] {c : Command F} (hh : c.handler = reader jsonMget)
    (hk : c.firstKey = 1 ∧ c.lastKey = 1) : ¬ c.Local := by
  obtain ⟨h1, hl⟩ := hk
  have hd : c.declaredKeys ["JSON.MGET", "a", "b", "$"] = ["a"] := by
    rw [c.declaredKeys_single (by omega) (by omega), h1]; rfl
  intro hloc
  have h := hloc (sampleHostOf default) sampleLib ⟨fun _ => none⟩
    ((⟨fun _ => none⟩ : Keyspace).set "b" (some (.json .null))) ["JSON.MGET", "a", "b", "$"]
    (by rw [hd]; rintro k (_ | ⟨_, ⟨⟩⟩); rfl)
  rw [hd, hh] at h
  have hr : (Except.ok (.array [.null, .null]) : Except RedisError RedisValue) =
      .ok (.array [.null, .bulkString ""]) :=
    congrArg (fun o => match o with | .done v => v.1 | .panic _ => .ok .null) h
  simp at hr

/-- `JSON.DEBUG MEMORY k $` reads `k`, its second argument, while the key spec `1, 1, 1`
declares the first, the subcommand: on two key spaces that agree at `MEMORY` it replies
differently. -/
theorem jsonDebug_not_local [Inhabited F] {c : Command F} (hh : c.handler = reader jsonDebug)
    (hk : c.firstKey = 1 ∧ c.lastKey = 1) : ¬ c.Local := by
  obtain ⟨h1, hl⟩ := hk
  have hd : c.declaredKeys ["JSON.DEBUG", "MEMORY", "k", "$"] = ["MEMORY"] := by
    rw [c.declaredKeys_single (by omega) (by omega), h1]; rfl
  intro hloc
  have h := hloc (sampleHostOf default) sampleLib ⟨fun _ => none⟩
    ((⟨fun _ => none⟩ : Keyspace).set "k" (some (.json .null))) ["JSON.DEBUG", "MEMORY", "k", "$"]
    (by rw [hd]; rintro k (_ | ⟨_, ⟨⟩⟩); rfl)
  rw [hd, hh] at h
  have hr : (Except.ok (usizeReply 0) : Except RedisError RedisValue) = .ok (usizeReply 1) :=
    congrArg (fun o => match o with | .done v => v.1 | .panic _ => .ok .null) h
  exact absurd (RedisValue.integer.inj (Except.ok.inj hr)) (by decide)

/-- Under the key spec `1, -2, 1`, the arguments between the name and the path, an entry
running `json_mget` reads only the keys it declares. -/
theorem jsonMget_local_of_keySpec {c : Command F} (hh : c.handler = reader jsonMget)
    (hk : c.firstKey = 1 ∧ c.lastKey = -2 ∧ c.keyStep = 1) : c.Local := by
  intro H L ks₁ ks₂ args h
  rw [hh]
  exact readonly_sameOn h (jsonMget_local H fun k hk' => h k (mem_declaredKeys_of_mgetKeys hk hk'))

/-- Under the key spec `2, 2, 1`, the key of `MEMORY`, an entry running `json_debug` reads only
the key it declares. -/
theorem jsonDebug_local_of_keySpec {c : Command F} (hh : c.handler = reader jsonDebug)
    (hk : c.firstKey = 2 ∧ c.lastKey = 2) : c.Local := by
  obtain ⟨h2, hl⟩ := hk
  intro H L ks₁ ks₂ args h
  rw [hh]
  refine readonly_sameOn h (jsonDebug_local H fun hlen => h _ ?_)
  rw [c.declaredKeys_single (by omega) (by omega), h2, if_pos hlen]
  exact List.mem_singleton_self _

/-- The keys its key spec declares are all an entry of the command table reads, for exactly
the entries other than `json.mget` and `json.debug`: each of the others, on two key spaces that
agree at its declared key, replies the same, raises the same and leaves the same entry there.
These two read keys their spec `1, 1, 1` does not declare, and would read only declared keys
under the specs `1, -2, 1` (`json.mget`: every argument between the name and the path) and
`2, 2, 1` (`json.debug`: the argument after the subcommand). -/
theorem commandTable_local_iff [Inhabited F] :
    (∀ c ∈ (commandTable : List (Command F)),
      c.Local ↔ c.name ≠ "json.mget" ∧ c.name ≠ "json.debug") ∧
    (∀ c ∈ (commandTable : List (Command F)), c.name = "json.mget" →
      { c with lastKey := -2 }.Local) ∧
    (∀ c ∈ (commandTable : List (Command F)), c.name = "json.debug" →
      { c with firstKey := 2, lastKey := 2 }.Local) := by
  refine ⟨fun c hc => ?_, fun c hc hm => ?_, fun c hc hd => ?_⟩
  all_goals obtain ⟨h1, hl1, hs⟩ := commandTable_keySpec c hc
  · refine ⟨fun hl => ⟨fun hm => ?_, fun hd => ?_⟩, fun h => ?_⟩
    · exact jsonMget_not_local ((commandTable_named hc).1 hm) ⟨h1, hl1⟩ hl
    · exact jsonDebug_not_local ((commandTable_named hc).2.1 hd) ⟨h1, hl1⟩ hl
    · exact Command.local_of_first ⟨h1, hl1⟩ (commandTable_local c hc h.1 h.2)
        (commandTable_short c hc)
  · exact jsonMget_local_of_keySpec ((commandTable_named hc).1 hm) ⟨h1, rfl, hs⟩
  · exact jsonDebug_local_of_keySpec ((commandTable_named hc).2.1 hd) ⟨rfl, rfl⟩

/-- The `json.mget` entry of the table reads a key it does not declare, and would not under the
key spec `1, -2, 1`. -/
theorem commandTable_local_iff_mget :
    (⟨"json.mget", reader jsonMget, "readonly", 1, 1, 1⟩ : Command Unit) ∈ commandTable ∧
      ¬ (⟨"json.mget", reader jsonMget, "readonly", 1, 1, 1⟩ : Command Unit).Local ∧
      (⟨"json.mget", reader jsonMget, "readonly", 1, -2, 1⟩ : Command Unit).Local :=
  have hm : (⟨"json.mget", reader jsonMget, "readonly", 1, 1, 1⟩ : Command Unit) ∈ commandTable := by
    simp [commandTable]
  ⟨hm, fun hl => ((@commandTable_local_iff Unit _).1 _ hm |>.mp hl).1 rfl,
    (@commandTable_local_iff Unit _).2.1 _ hm rfl⟩

/-- Every command but `JSON.MGET` and `JSON.DEBUG`, dispatched by name as the server does, reads
only its declared key: on two key spaces that agree at its first argument it replies the same,
raises the same and leaves the same entry there, or panics the same way. -/
theorem execute_local (H : Host F) (L : Lib) {ks₁ ks₂ : Keyspace} {args : List String}
    (hmget : eqIgnoreAsciiCase (args.headD "") "json.mget" = false)
    (hdebug : eqIgnoreAsciiCase (args.headD "") "json.debug" = false)
    (h : ks₁.get (args.getD 1 "") = ks₂.get (args.getD 1 "")) :
    SameAt (args.getD 1 "") (execute H L ks₁ args) (execute H L ks₂ args) := by
  unfold execute
  cases hf : commandTable.find? (fun c => eqIgnoreAsciiCase (args.headD "") c.name) with
  | none => exact sameAt_fail h _
  | some c =>
    have hname := List.find?_some hf
    refine commandTable_local c (List.mem_of_find?_eq_some hf) (fun he => ?_) (fun he => ?_)
      H L ks₁ ks₂ args h
    · rw [he, hmget] at hname; cases hname
    · rw [he, hdebug] at hname; cases hname

/-- A `JSON.SET` of `doc` does the same whatever `other` holds. -/
theorem execute_local_sample :
    eqIgnoreAsciiCase "JSON.SET" "json.mget" = false ∧
      eqIgnoreAsciiCase "JSON.SET" "json.debug" = false ∧
      (⟨fun _ => none⟩ : Keyspace).get "doc" =
        ((⟨fun _ => none⟩ : Keyspace).set "other" (some .other)).get "doc" ∧
      SameAt "doc" (execute sampleHost sampleLib ⟨fun _ => none⟩ ["JSON.SET", "doc", "$", "1"])
        (execute sampleHost sampleLib ((⟨fun _ => none⟩ : Keyspace).set "other" (some .other))
          ["JSON.SET", "doc", "$", "1"]) := by
  exact ⟨by decide, by decide, rfl, execute_local sampleHost sampleLib (by decide) (by decide) rfl⟩

end Table

/-! ## 4. Runs, and replicas -/

/-- The server: its key space, the notifications raised so far and the commands replicated so
far, oldest first. -/
structure Server where
  keys : Keyspace
  notified : List (String × String)
  replicated : List (List String)

section Run

variable {F : Type} (H : Host F) (L : Lib)

/-- One command on the server. -/
def Server.exec (s : Server) (args : List String) :
    Outcome (Server × Except RedisError RedisValue) :=
  (fun (st : Step) => (⟨st.keys, s.notified ++ st.effects.notified,
    if st.effects.replicated then s.replicated ++ [args] else s.replicated⟩, st.reply)) <$>
    execute H L s.keys args

/-- Commands one after another; a panic takes the server down and ends the run. -/
def Server.run (s : Server) : List (List String) → Outcome Server
  | [] => .done s
  | args :: cmds => s.exec H L args >>= fun p => Server.run p.1 cmds

/-- A replica: the replicated commands, run again on its own key space. -/
def replay (ks : Keyspace) : List (List String) → Outcome Keyspace
  | [] => .done ks
  | args :: cmds => execute H L ks args >>= fun st => replay st.keys cmds

end Run

section Run

variable {F : Type} (H : Host F) (L : Lib)

/-- One command on the server: the step it took, and what the server kept of it. -/
theorem Server.exec_eq {s : Server} {args : List String} {p : Server × Except RedisError RedisValue}
    (h : s.exec H L args = .done p) :
    ∃ st, execute H L s.keys args = .done st ∧ p.1.keys = st.keys ∧
      p.1.replicated = if st.effects.replicated then s.replicated ++ [args] else s.replicated :=
  let ⟨st, hst, hp⟩ := Outcome.map_eq_done.mp h
  ⟨st, hst, by rw [← hp], by rw [← hp]⟩

/-- Verbatim replication is faithful: over any run that does not crash, the commands the server
replicated, replayed in order on a replica holding the same key space, take it to the key space
the server ends with. -/
theorem Server.run_replica {cmds : List (List String)} {s t : Server}
    (h : s.run H L cmds = .done t) :
    ∃ log, t.replicated = s.replicated ++ log ∧ replay H L s.keys log = .done t.keys := by
  induction cmds generalizing s with
  | nil => cases h; exact ⟨[], by simp, rfl⟩
  | cons args cmds ih =>
    obtain ⟨p, hp, hrun⟩ := Outcome.bind_eq_done.mp h
    obtain ⟨log, hlog, hreplay⟩ := ih hrun
    obtain ⟨st, hst, hkeys, hrepl⟩ := Server.exec_eq H L hp
    cases hr : st.effects.replicated
    · -- not replicated: the key space did not move
      have hks := (execute_wellBehaved H L s.keys hst).unreplicated hr
      rw [hr, if_neg Bool.false_ne_true] at hrepl
      exact ⟨log, by rw [hlog, hrepl], by rw [← hks, ← hkeys, hreplay]⟩
    · -- replicated: the replica takes the same step
      rw [hr, if_pos rfl] at hrepl
      refine ⟨args :: log, by rw [hlog, hrepl, List.append_assoc, List.singleton_append], ?_⟩
      rw [replay, hst, Outcome.done_bind, ← hkeys, hreplay]

/-- A `JSON.SET`, a `JSON.NUMINCRBY` on a string, which fails, and a `JSON.STRAPPEND`: the
two that succeed are replicated, and replaying them rebuilds the document. -/
theorem Server.run_replica_sample :
    Server.run sampleHost sampleLib ⟨⟨fun _ => none⟩, [], []⟩
        [["JSON.SET", "doc", "$", "1"], ["JSON.NUMINCRBY", "doc", "$", "2"],
          ["JSON.STRAPPEND", "doc", "x"]] =
      .done ⟨(((⟨fun _ => none⟩ : Keyspace).set "doc" (some (.json (.string "1")))).set "doc"
          (some (.json (.string "1")))).set "doc" (some (.json (.string "1x"))),
        [("json.set", "doc"), ("json.strappend", "doc")],
        [["JSON.SET", "doc", "$", "1"], ["JSON.STRAPPEND", "doc", "x"]]⟩ ∧
    ∃ log, [["JSON.SET", "doc", "$", "1"], ["JSON.STRAPPEND", "doc", "x"]] = [] ++ log ∧
      replay sampleHost sampleLib ⟨fun _ => none⟩ log =
        .done ((((⟨fun _ => none⟩ : Keyspace).set "doc" (some (.json (.string "1")))).set "doc"
          (some (.json (.string "1")))).set "doc" (some (.json (.string "1x")))) :=
  by
  refine ⟨?run, Server.run_replica sampleHost sampleLib ?run⟩
  rfl

/-- A command the server does not replicate leaves it as it was: the key space, the
notifications and the replication stream. -/
theorem Server.exec_of_unreplicated {s : Server} {args : List String} {st : Step}
    (hst : execute H L s.keys args = .done st) (hr : st.effects.replicated = false) :
    s.exec H L args = .done (s, st.reply) := by
  have hwb := execute_wellBehaved H L s.keys hst
  have hn : st.effects.notified = [] := by
    by_contra hne; exact Bool.false_ne_true (hr.symm.trans (hwb.notified hne))
  rw [Server.exec, hst, Outcome.map_done, hr, hn, hwb.unreplicated hr, List.append_nil,
    if_neg Bool.false_ne_true]

/-- The replication stream carries the whole of a run: over any run that does not crash, the
commands the server replicated, run again from the same state, take it to the same state, with
the same key space, the same keyspace notifications and the same stream. -/
theorem Server.run_replicated {cmds : List (List String)} {s t : Server}
    (h : s.run H L cmds = .done t) :
    ∃ log, t.replicated = s.replicated ++ log ∧ s.run H L log = .done t := by
  induction cmds generalizing s with
  | nil => cases h; exact ⟨[], (List.append_nil _).symm, rfl⟩
  | cons args cmds ih =>
    obtain ⟨p, hp, hrun⟩ := Outcome.bind_eq_done.mp h
    obtain ⟨st, hst, -, hrepl⟩ := Server.exec_eq H L hp
    cases hr : st.effects.replicated
    · -- not replicated: the server is where it was
      rw [Server.exec_of_unreplicated H L hst hr] at hp
      cases hp
      exact ih hrun
    · -- replicated: the stream takes the same step
      obtain ⟨log, hlog, hlogrun⟩ := ih hrun
      rw [hr, if_pos rfl] at hrepl
      refine ⟨args :: log, by rw [hlog, hrepl, List.append_assoc, List.singleton_append], ?_⟩
      rw [Server.run, hp, Outcome.done_bind]
      exact hlogrun

/-- A failing `JSON.NUMINCRBY` between two writes is left out of the stream, and the stream
alone gives the same server. -/
theorem Server.run_replicated_sample :
    Server.run sampleHost sampleLib ⟨⟨fun _ => none⟩, [], []⟩
        [["JSON.SET", "doc", "$", "1"], ["JSON.NUMINCRBY", "doc", "$", "2"],
          ["JSON.STRAPPEND", "doc", "x"]] =
      .done ⟨(((⟨fun _ => none⟩ : Keyspace).set "doc" (some (.json (.string "1")))).set "doc"
          (some (.json (.string "1")))).set "doc" (some (.json (.string "1x"))),
        [("json.set", "doc"), ("json.strappend", "doc")],
        [["JSON.SET", "doc", "$", "1"], ["JSON.STRAPPEND", "doc", "x"]]⟩ ∧
    ∃ log, [["JSON.SET", "doc", "$", "1"], ["JSON.STRAPPEND", "doc", "x"]] = [] ++ log ∧
      Server.run sampleHost sampleLib ⟨⟨fun _ => none⟩, [], []⟩ log =
        .done ⟨(((⟨fun _ => none⟩ : Keyspace).set "doc" (some (.json (.string "1")))).set "doc"
          (some (.json (.string "1")))).set "doc" (some (.json (.string "1x"))),
        [("json.set", "doc"), ("json.strappend", "doc")],
        [["JSON.SET", "doc", "$", "1"], ["JSON.STRAPPEND", "doc", "x"]]⟩ := by
  refine ⟨?run, Server.run_replicated sampleHost sampleLib ?run⟩
  rfl

/-- A run writes no key that none of its commands names. -/
theorem Server.run_frame {cmds : List (List String)} {s t : Server} (h : s.run H L cmds = .done t)
    {k : String} (hk : ∀ args ∈ cmds, args.getD 1 "" ≠ k) : t.keys.get k = s.keys.get k := by
  induction cmds generalizing s with
  | nil => cases h; rfl
  | cons args cmds ih =>
    obtain ⟨p, hp, hrun⟩ := Outcome.bind_eq_done.mp h
    obtain ⟨st, hst, hkeys, -⟩ := Server.exec_eq H L hp
    rw [ih hrun (fun a ha => hk a (List.mem_cons_of_mem _ ha)), hkeys,
      (execute_wellBehaved H L s.keys hst).frame k (hk args (List.mem_cons_self _ _)).symm]

/-- A `JSON.SET` on one key leaves another key as it was. -/
theorem Server.run_frame_sample :
    Server.run sampleHost sampleLib ⟨⟨fun _ => none⟩, [], []⟩ [["JSON.SET", "doc", "$", "1"]] =
      .done ⟨(⟨fun _ => none⟩ : Keyspace).set "doc" (some (.json (.string "1"))),
        [("json.set", "doc")], [["JSON.SET", "doc", "$", "1"]]⟩ ∧
    ((⟨fun _ => none⟩ : Keyspace).set "doc" (some (.json (.string "1")))).get "other" =
      (⟨fun _ => none⟩ : Keyspace).get "other" := by
  refine ⟨?run, Server.run_frame sampleHost sampleLib ?run ?names⟩
  · rfl
  · decide

end Run

/-! ## 5. What a run depends on

The server runs one command at a time, and two clients' commands reach it interleaved in an
order neither controls. Since every command writes only its key and decides that write from
the entry there alone (`commandTable_keysLocal`; `JSON.MGET` and `JSON.DEBUG` read elsewhere
but write nothing), the entry a key ends a run with is decided by the commands that name it, in
their order. -/

/-- The commands of a run that name `k`, in their order. -/
def onKey (k : String) (cmds : List (List String)) : List (List String) :=
  cmds.filter fun args => args.getD 1 "" == k

@[simp] theorem onKey_onKey (k : String) (cmds : List (List String)) :
    onKey k (onKey k cmds) = onKey k cmds := by
  simp only [onKey, List.filter_filter, Bool.and_self]

theorem onKey_cons_of_eq {k : String} {args : List String} (cmds : List (List String))
    (h : args.getD 1 "" = k) : onKey k (args :: cmds) = args :: onKey k cmds := by
  rw [onKey, List.filter_cons, if_pos (beq_iff_eq.mpr h), onKey]

theorem onKey_cons_of_ne {k : String} {args : List String} (cmds : List (List String))
    (h : args.getD 1 "" ≠ k) : onKey k (args :: cmds) = onKey k cmds := by
  rw [onKey, List.filter_cons, if_neg fun hb => h (beq_iff_eq.mp hb), onKey]

section Keys

variable {F : Type} (H : Host F) (L : Lib)

/-- What a command leaves at its key is decided by the entry there. -/
theorem execute_keysLocal {ks₁ ks₂ : Keyspace} {args : List String}
    (h : ks₁.get (args.getD 1 "") = ks₂.get (args.getD 1 "")) :
    (fun st : Step => st.keys.get (args.getD 1 "")) <$> execute H L ks₁ args =
      (fun st : Step => st.keys.get (args.getD 1 "")) <$> execute H L ks₂ args := by
  unfold execute
  cases hf : commandTable.find? (fun c => eqIgnoreAsciiCase (args.headD "") c.name) with
  | none => simp only [Outcome.map_done, Step.fail, h]
  | some c => exact commandTable_keysLocal c (List.mem_of_find?_eq_some hf) H L ks₁ ks₂ args h

/-- The same command on a key space that agrees at its key returns too, and leaves the same
entry there. -/
theorem execute_transport {ks ks' : Keyspace} {args : List String} {st : Step}
    (h : execute H L ks args = .done st) (hk : ks'.get (args.getD 1 "") = ks.get (args.getD 1 "")) :
    ∃ st', execute H L ks' args = .done st' ∧
      st'.keys.get (args.getD 1 "") = st.keys.get (args.getD 1 "") := by
  have hmap := execute_keysLocal H L hk
  rw [h, Outcome.map_done] at hmap
  exact Outcome.map_eq_done.mp hmap

/-- The entry a key ends a run with is the one it ends the run of only the commands naming it
with, from any key space that agrees at the key: the other commands neither write it nor
change what the commands naming it do to it, and each of those returns in the one run when it
returns in the other. -/
theorem replay_onKey {k : String} {cmds : List (List String)} {ks ks' t : Keyspace}
    (h : replay H L ks cmds = .done t) (hk : ks'.get k = ks.get k) :
    ∃ t', replay H L ks' (onKey k cmds) = .done t' ∧ t'.get k = t.get k := by
  induction cmds generalizing ks ks' with
  | nil => cases h; exact ⟨ks', rfl, hk⟩
  | cons args cmds ih =>
    obtain ⟨st, hst, hrest⟩ := Outcome.bind_eq_done.mp h
    by_cases ha : args.getD 1 "" = k
    · -- a command on `k`: the other run takes it too, to the same entry
      obtain ⟨st', hst', hkey⟩ := execute_transport H L hst (ha ▸ hk)
      obtain ⟨t', ht', htk⟩ := ih hrest (ha ▸ hkey)
      refine ⟨t', ?_, htk⟩
      rw [onKey_cons_of_eq cmds ha, replay, hst', Outcome.done_bind]
      exact ht'
    · -- a command on another key: it leaves `k` alone
      have hframe := (execute_wellBehaved H L ks hst).frame k (Ne.symm ha)
      obtain ⟨t', ht', htk⟩ := ih hrest (hk.trans hframe.symm)
      refine ⟨t', ?_, htk⟩
      rw [onKey_cons_of_ne cmds ha]
      exact ht'

/-- A run returns when the run of the commands of each key returns. -/
theorem replay_of_onKey {cmds : List (List String)} {ks : Keyspace}
    (h : ∀ k, ∃ t, replay H L ks (onKey k cmds) = .done t) : ∃ t, replay H L ks cmds = .done t := by
  induction cmds generalizing ks with
  | nil => exact ⟨ks, rfl⟩
  | cons args cmds ih =>
    obtain ⟨t₀, h₀⟩ := h (args.getD 1 "")
    rw [onKey_cons_of_eq cmds rfl, replay] at h₀
    obtain ⟨st, hst, hrest⟩ := Outcome.bind_eq_done.mp h₀
    obtain ⟨t, ht⟩ := ih fun k => by
      by_cases ha : args.getD 1 "" = k
      · subst ha; exact ⟨t₀, hrest⟩
      · -- the run of `k` from `ks` returns, and `st.keys` agrees with `ks` at `k`
        obtain ⟨tk, htk⟩ := h k
        rw [onKey_cons_of_ne cmds ha] at htk
        obtain ⟨t', ht', -⟩ := replay_onKey H L htk
          ((execute_wellBehaved H L ks hst).frame k (Ne.symm ha))
        exact ⟨t', by rwa [onKey_onKey] at ht'⟩
    exact ⟨t, by rw [replay, hst, Outcome.done_bind]; exact ht⟩

/-- Two runs that give every key the same commands in the same order, however they interleave
the keys: when one returns, the other returns to the same key space. -/
theorem replay_interleave {cmds₁ cmds₂ : List (List String)}
    (hsame : ∀ k, onKey k cmds₁ = onKey k cmds₂) {ks t : Keyspace}
    (h : replay H L ks cmds₁ = .done t) : replay H L ks cmds₂ = .done t := by
  have hk : ∀ k, ∃ t', replay H L ks (onKey k cmds₂) = .done t' ∧ t'.get k = t.get k :=
    fun k => hsame k ▸ replay_onKey H L h rfl
  obtain ⟨t₂, h₂⟩ := replay_of_onKey H L fun k => (hk k).imp fun _ h => h.1
  refine h₂.trans (congrArg Outcome.done (Keyspace.ext fun k => ?_))
  obtain ⟨t', ht', htk⟩ := hk k
  obtain ⟨t'', ht'', htk''⟩ := replay_onKey H L h₂ (rfl : ks.get k = ks.get k)
  rw [ht'] at ht''
  cases ht''
  rw [← htk'', htk]

/-- What the server's run does to the key space is the replay of all its commands. -/
theorem Server.run_keys (s : Server) (cmds : List (List String)) :
    Server.keys <$> s.run H L cmds = replay H L s.keys cmds := by
  induction cmds generalizing s with
  | nil => rfl
  | cons args cmds ih =>
    simp only [Server.run, replay, Server.exec]
    cases execute H L s.keys args with
    | panic m => rfl
    | done st => exact ih _

/-- Two clients' commands, interleaved in two ways that keep the order of each key's commands:
when one run does not crash the server, the other does not either, and the two end with the
same key space. -/
theorem Server.run_interleave {cmds₁ cmds₂ : List (List String)}
    (hsame : ∀ k, onKey k cmds₁ = onKey k cmds₂) {s t₁ : Server} (h : s.run H L cmds₁ = .done t₁) :
    ∃ t₂, s.run H L cmds₂ = .done t₂ ∧ t₂.keys = t₁.keys := by
  have h₁ : replay H L s.keys cmds₁ = .done t₁.keys := by
    rw [← Server.run_keys, h, Outcome.map_done]
  have h₂ := Server.run_keys H L s cmds₂
  rw [replay_interleave H L hsame h₁] at h₂
  exact Outcome.map_eq_done.mp h₂

/-- `SET a`, `SET b`, `STRAPPEND a` and `SET b`, `SET a`, `STRAPPEND a` end in the same key space. -/
theorem Server.run_interleave_sample :
    (∀ k, onKey k
        [["JSON.SET", "a", "$", "1"], ["JSON.SET", "b", "$", "2"], ["JSON.STRAPPEND", "a", "x"]] =
      onKey k
        [["JSON.SET", "b", "$", "2"], ["JSON.SET", "a", "$", "1"], ["JSON.STRAPPEND", "a", "x"]]) ∧
    Server.run sampleHost sampleLib ⟨⟨fun _ => none⟩, [], []⟩
        [["JSON.SET", "a", "$", "1"], ["JSON.SET", "b", "$", "2"], ["JSON.STRAPPEND", "a", "x"]] =
      .done ⟨(((⟨fun _ => none⟩ : Keyspace).set "a" (some (.json (.string "1")))).set "b"
          (some (.json (.string "2")))).set "a" (some (.json (.string "1x"))),
        [("json.set", "a"), ("json.set", "b"), ("json.strappend", "a")],
        [["JSON.SET", "a", "$", "1"], ["JSON.SET", "b", "$", "2"], ["JSON.STRAPPEND", "a", "x"]]⟩ ∧
    ∃ t₂, Server.run sampleHost sampleLib ⟨⟨fun _ => none⟩, [], []⟩
        [["JSON.SET", "b", "$", "2"], ["JSON.SET", "a", "$", "1"], ["JSON.STRAPPEND", "a", "x"]] =
        .done t₂ ∧
      t₂.keys = (((⟨fun _ => none⟩ : Keyspace).set "a" (some (.json (.string "1")))).set "b"
          (some (.json (.string "2")))).set "a" (some (.json (.string "1x"))) := by
  refine ⟨?same, ?run, Server.run_interleave sampleHost sampleLib ?same ?run⟩
  · intro k
    by_cases ha : "a" = k
    · subst ha; rfl
    by_cases hb : "b" = k
    · subst hb; rfl
    · simp [onKey, List.filter_cons, ha, hb]
  · rfl

end Keys

end RedisJson
