import RedisJson.Command.Server

/-!
# `Command/WrongType.lean` — keys of other types

A key of the Redis key space holds a value of one type. Each handler of `lib.rs` opens its key
with `get_value::<RedisJSON>(&REDIS_JSON_TYPE)`, which fails with the type error when the key
holds a value of another type, and each does so before it writes anything. So no command of
the module overwrites or deletes a key of another type: the command fails and the key space
stays (`execute_keepsOther`), and over every run such a key keeps its value
(`Server.run_keepsOther`).
-/

set_option autoImplicit false

namespace RedisJson

/-! ## 1. One handler -/

theorem getValue_of_other {F : Type} (H : Host F) {ks : Keyspace} {key : String}
    (h : ks.get key = some .other) : getValue H ks key = .error H.wrongType := by
  unfold getValue; rw [h]

section Lemmas

variable {F : Type} (H : Host F) (L : Lib) (ks : Keyspace) {st : Step} {args : List String}

theorem withKey_keepsOther {k : String → List String → Outcome Step}
    (hk : ∀ rest st, k (args.getD 1 "") rest = .done st → st.keys = ks)
    (h : withKey ks args k = .done st) : st.keys = ks := by
  unfold withKey at h
  split at h
  · cases h; rfl
  · next hn => rw [key_of_nextString hn] at h; exact hk _ _ h

theorem withArgs_keepsOther {β : Type} {p : Except RedisError β} {k : β → Outcome Step}
    (hk : ∀ b st, k b = .done st → st.keys = ks) (h : withArgs ks p k = .done st) :
    st.keys = ks := by
  unfold withArgs at h
  split at h
  · cases h; rfl
  · exact hk _ _ h

/-- A `value_op` command on a key of another type stops at `get_value`. -/
theorem valueOpCommand_keepsOther {α : Type} {event key path : String}
    {opFun : Value → Outcome (MutResult × α)} {reply : Value → α → RedisValue}
    (hother : ks.get key = some .other)
    (h : valueOpCommand H ks event key path opFun reply = .done st) : st.keys = ks := by
  unfold valueOpCommand at h
  rw [getValue_of_other H hother] at h
  cases h; rfl

variable (hother : ks.get (args.getD 1 "") = some .other)
include hother

theorem jsonNumOp_keepsOther {cmd : String} {opI64 : I64 → I64 → Outcome I64}
    {opF64 : ℚ → ℚ → F64} (h : jsonNumOp H L ks cmd opI64 opF64 args = .done st) :
    st.keys = ks :=
  withKey_keepsOther ks (fun _ _ h => withArgs_keepsOther ks (fun ⟨_, _⟩ _ h =>
    valueOpCommand_keepsOther H ks hother h) h) h

theorem jsonBoolToggle_keepsOther (h : jsonBoolToggle H L ks args = .done st) : st.keys = ks :=
  withKey_keepsOther ks (fun _ _ h => withArgs_keepsOther ks (fun _ _ h =>
    valueOpCommand_keepsOther H ks hother h) h) h

theorem jsonStrAppend_keepsOther (h : jsonStrAppend H L ks args = .done st) : st.keys = ks :=
  withKey_keepsOther ks (fun _ _ h => withArgs_keepsOther ks (fun ⟨_, _⟩ _ h =>
    valueOpCommand_keepsOther H ks hother h) h) h

theorem jsonArrAppend_keepsOther (h : jsonArrAppend H L ks args = .done st) : st.keys = ks :=
  withKey_keepsOther ks (fun _ _ h => withArgs_keepsOther ks (fun ⟨_, _⟩ _ h =>
    valueOpCommand_keepsOther H ks hother h) h) h

theorem jsonArrInsert_keepsOther (h : jsonArrInsert H L ks args = .done st) : st.keys = ks :=
  withKey_keepsOther ks (fun _ _ h => withArgs_keepsOther ks (fun ⟨_, _, _⟩ _ h =>
    valueOpCommand_keepsOther H ks hother h) h) h

theorem jsonArrPop_keepsOther (h : jsonArrPop H L ks args = .done st) : st.keys = ks :=
  withKey_keepsOther ks (fun _ _ h => valueOpCommand_keepsOther H ks hother h) h

theorem jsonArrTrim_keepsOther (h : jsonArrTrim H L ks args = .done st) : st.keys = ks :=
  withKey_keepsOther ks (fun _ _ h => withArgs_keepsOther ks (fun ⟨_, _, _⟩ _ h =>
    valueOpCommand_keepsOther H ks hother h) h) h

theorem jsonDel_keepsOther (h : jsonDel H ks args = .done st) : st.keys = ks := by
  refine withKey_keepsOther ks (fun _ _ h => ?_) h
  cases h
  rw [getValue_of_other H hother]; rfl

theorem jsonSet_keepsOther (h : jsonSet H ks args = .done st) : st.keys = ks := by
  refine withKey_keepsOther ks (fun _ _ h => withArgs_keepsOther ks (fun _ _ h => ?_) h) h
  cases h
  rw [getValue_of_other H hother]; rfl

theorem jsonClear_keepsOther (h : jsonClear H ks args = .done st) : st.keys = ks := by
  refine withKey_keepsOther ks (fun _ _ h => ?_) h
  cases h
  rw [getValue_of_other H hother]; rfl

theorem jsonResp_keepsOther (h : jsonResp H ks args = .done st) : st.keys = ks := by
  refine withKey_keepsOther ks (fun _ _ h => ?_) h
  cases h
  rw [getValue_of_other H hother]; rfl

end Lemmas

/-! ## 2. Every command -/

section Table

variable {F : Type}

/-- A handler that leaves the key space as it was whenever the command's key holds a value of
another type. -/
def Handler.KeepsOther (handler : Handler F) : Prop :=
  ∀ H L ks args st, ks.get (args.getD 1 "") = some .other → handler H L ks args = .done st →
    st.keys = ks

theorem reader_keepsOther (f : Host F → Keyspace → List String → Except RedisError RedisValue) :
    (reader f).KeepsOther := fun _ _ _ _ _ _ h => by
  cases h; rfl

theorem commandTable_keepsOther : ∀ c ∈ (commandTable : List (Command F)), c.handler.KeepsOther := by
  have del : Handler.KeepsOther (fun H (_ : Lib) => jsonDel H : Handler F) :=
    fun H _ ks _ _ ho h => jsonDel_keepsOther H ks ho h
  have ni : (jsonCacheNotImplemented : Handler F).KeepsOther := fun _ _ _ _ _ _ h => by
    cases h; rfl
  simp only [commandTable, List.forall_mem_cons, List.not_mem_nil, false_imp_iff, implies_true,
    and_true]
  exact ⟨del, reader_keepsOther _, reader_keepsOther _,
    fun H _ ks _ _ ho h => jsonSet_keepsOther H ks ho h, reader_keepsOther _,
    fun H L ks _ _ ho h => jsonNumOp_keepsOther H L ks ho h,
    fun H L ks _ _ ho h => jsonBoolToggle_keepsOther H L ks ho h,
    fun H L ks _ _ ho h => jsonNumOp_keepsOther H L ks ho h,
    fun H L ks _ _ ho h => jsonStrAppend_keepsOther H L ks ho h, reader_keepsOther _,
    fun H L ks _ _ ho h => jsonArrAppend_keepsOther H L ks ho h, reader_keepsOther _,
    fun H L ks _ _ ho h => jsonArrInsert_keepsOther H L ks ho h, reader_keepsOther _,
    fun H L ks _ _ ho h => jsonArrPop_keepsOther H L ks ho h,
    fun H L ks _ _ ho h => jsonArrTrim_keepsOther H L ks ho h, reader_keepsOther _,
    reader_keepsOther _, fun H _ ks _ _ ho h => jsonClear_keepsOther H ks ho h,
    reader_keepsOther _, del, fun H _ ks _ _ ho h => jsonResp_keepsOther H ks ho h, ni, ni⟩

/-- Every command, dispatched by name, on a key that holds a value of another type: the key
space stays as it was. -/
theorem execute_keepsOther (H : Host F) (L : Lib) {ks : Keyspace} {args : List String}
    {st : Step} (hother : ks.get (args.getD 1 "") = some .other)
    (h : execute H L ks args = .done st) : st.keys = ks := by
  unfold execute at h
  split at h
  · next c hf => exact commandTable_keepsOther c (List.mem_of_find?_eq_some hf) H L ks args st hother h
  · cases h; rfl

end Table

/-! ## 3. Over runs -/

section Run

variable {F : Type} (H : Host F) (L : Lib)

/-- No run of module commands that does not crash overwrites or deletes a key that holds a
value of another type. -/
theorem Server.run_keepsOther {cmds : List (List String)} {s t : Server}
    (h : s.run H L cmds = .done t) {k : String} (hother : s.keys.get k = some .other) :
    t.keys.get k = some .other := by
  induction cmds generalizing s with
  | nil => cases h; exact hother
  | cons args cmds ih =>
    obtain ⟨p, hp, hrun⟩ := Outcome.bind_eq_done.mp h
    obtain ⟨st, hst, hkeys, -⟩ := Server.exec_eq H L hp
    refine ih hrun ?_
    rw [hkeys]
    by_cases hk : k = args.getD 1 ""
    · subst hk; rw [execute_keepsOther H L hother hst, hother]
    · rw [(execute_wellBehaved H L s.keys hst).frame k hk, hother]

/-- A `JSON.SET` and a `JSON.DEL` on a key that holds another type both fail, and the key
keeps its value. -/
theorem Server.run_keepsOther_sample :
    Server.run sampleHost sampleLib ⟨(⟨fun _ => none⟩ : Keyspace).set "str" (some .other), [], []⟩
        [["JSON.SET", "str", "$", "1"], ["JSON.DEL", "str"]] =
      .done ⟨(⟨fun _ => none⟩ : Keyspace).set "str" (some .other), [], []⟩ ∧
    ((⟨fun _ => none⟩ : Keyspace).set "str" (some .other)).get "str" = some .other ∧
    ((⟨fun _ => none⟩ : Keyspace).set "str" (some .other)).get "str" = some .other := by
  refine ⟨?run, ?other, Server.run_keepsOther sampleHost sampleLib ?run ?other⟩
  · rfl
  · rfl

end Run

end RedisJson
