import RedisJson.Command.Server

/-!
# `Command/Notify.lean` — what a command announces

A write handler of `lib.rs` tells two audiences what it did: the clients subscribed to
keyspace notifications, through `notify_keyspace_event`, and the replicas, through
`replicate_verbatim`. Every handler but one does both or neither, and names its key in the
notification (`Step.Announced`); `json_clear` replicates a clear and raises no notification.

What a subscriber can rely on follows:

* every command but `JSON.CLEAR` that changes the key space raises one notification, for the
  key it changed, and `JSON.CLEAR` can change it silently (`commandTable_notifies_iff`);
* over a run with no `JSON.CLEAR`, every key whose entry changed was notified during the run
  (`Server.run_notified`): a client that drops its copy of a key whenever that key is notified
  holds no stale copy.
-/

set_option autoImplicit false

namespace RedisJson

/-! ## 1. What one step announces -/

/-- A step that announces nothing, or raises one notification, for `key`, and replicates. -/
def Step.Announced (key : String) (st : Step) : Prop :=
  st.effects = .none ∨ ∃ event, st.effects = .notifyReplicate event key

section Lemmas

variable {F : Type} (H : Host F) (L : Lib) (ks : Keyspace) {st : Step} {args : List String}

theorem withKey_announced {k : String → List String → Outcome Step}
    (hk : ∀ rest st, k (args.getD 1 "") rest = .done st → st.Announced (args.getD 1 ""))
    (h : withKey ks args k = .done st) : st.Announced (args.getD 1 "") := by
  unfold withKey at h
  split at h
  · cases h; exact .inl rfl
  · next hn => rw [key_of_nextString hn] at h; exact hk _ _ h

theorem withArgs_announced {β : Type} {p : Except RedisError β} {k : β → Outcome Step}
    {key : String} (hk : ∀ b st, k b = .done st → st.Announced key)
    (h : withArgs ks p k = .done st) : st.Announced key := by
  unfold withArgs at h
  split at h
  · cases h; exact .inl rfl
  · exact hk _ _ h

/-- A `value_op` command notifies for its key exactly when the transform succeeds. -/
theorem valueOpCommand_announced {α : Type} {event key path : String}
    {opFun : Value → Outcome (MutResult × α)} {reply : Value → α → RedisValue}
    (h : valueOpCommand H ks event key path opFun reply = .done st) : st.Announced key := by
  unfold valueOpCommand at h
  split at h
  · cases h; exact .inl rfl
  · cases h; exact .inl rfl
  · obtain ⟨⟨_, r⟩, -, rfl⟩ := Outcome.map_eq_done.mp h
    cases r with
    | ok _ => exact .inr ⟨event, rfl⟩
    | error _ => exact .inl rfl

theorem jsonNumOp_announced {cmd : String} {opI64 : I64 → I64 → Outcome I64}
    {opF64 : ℚ → ℚ → F64} (h : jsonNumOp H L ks cmd opI64 opF64 args = .done st) :
    st.Announced (args.getD 1 "") :=
  withKey_announced ks (fun _ _ h => withArgs_announced ks (fun ⟨_, _⟩ _ h =>
    valueOpCommand_announced H ks h) h) h

theorem jsonBoolToggle_announced (h : jsonBoolToggle H L ks args = .done st) :
    st.Announced (args.getD 1 "") :=
  withKey_announced ks (fun _ _ h => withArgs_announced ks (fun _ _ h =>
    valueOpCommand_announced H ks h) h) h

theorem jsonStrAppend_announced (h : jsonStrAppend H L ks args = .done st) :
    st.Announced (args.getD 1 "") :=
  withKey_announced ks (fun _ _ h => withArgs_announced ks (fun ⟨_, _⟩ _ h =>
    valueOpCommand_announced H ks h) h) h

theorem jsonArrAppend_announced (h : jsonArrAppend H L ks args = .done st) :
    st.Announced (args.getD 1 "") :=
  withKey_announced ks (fun _ _ h => withArgs_announced ks (fun ⟨_, _⟩ _ h =>
    valueOpCommand_announced H ks h) h) h

theorem jsonArrInsert_announced (h : jsonArrInsert H L ks args = .done st) :
    st.Announced (args.getD 1 "") :=
  withKey_announced ks (fun _ _ h => withArgs_announced ks (fun ⟨_, _, _⟩ _ h =>
    valueOpCommand_announced H ks h) h) h

theorem jsonArrPop_announced (h : jsonArrPop H L ks args = .done st) :
    st.Announced (args.getD 1 "") :=
  withKey_announced ks (fun _ _ h => valueOpCommand_announced H ks h) h

theorem jsonArrTrim_announced (h : jsonArrTrim H L ks args = .done st) :
    st.Announced (args.getD 1 "") :=
  withKey_announced ks (fun _ _ h => withArgs_announced ks (fun ⟨_, _, _⟩ _ h =>
    valueOpCommand_announced H ks h) h) h

/-- `json_del` notifies for its key whenever it deleted something. -/
theorem jsonDel_announced (h : jsonDel H ks args = .done st) : st.Announced (args.getD 1 "") := by
  refine withKey_announced ks (fun _ _ h => ?_) h
  cases h
  (repeat' split) <;> first | exact .inl rfl | exact .inr ⟨_, rfl⟩

/-- `json_set` notifies for its key whenever it set a document. -/
theorem jsonSet_announced (h : jsonSet H ks args = .done st) : st.Announced (args.getD 1 "") := by
  refine withKey_announced ks (fun _ _ h => withArgs_announced ks (fun _ _ h => ?_) h) h
  cases h
  (repeat' split) <;> first | exact .inl rfl | exact .inr ⟨_, rfl⟩

theorem jsonResp_announced (h : jsonResp H ks args = .done st) : st.Announced (args.getD 1 "") := by
  refine withKey_announced ks (fun _ _ h => ?_) h
  cases h
  (repeat' split) <;> exact .inl rfl

end Lemmas

/-! ## 2. Over the command table -/

section Table

variable {F : Type}

/-- A handler whose every step announces on the command's key. -/
def Handler.Announced (handler : Handler F) : Prop :=
  ∀ H L ks args st, handler H L ks args = .done st → st.Announced (args.getD 1 "")

/-- A handler that raises one notification, for the command's key, whenever it changes the
key space. -/
def Handler.NotifiesChanges (handler : Handler F) : Prop :=
  ∀ H L ks args st, handler H L ks args = .done st → st.keys ≠ ks →
    ∃ event, st.effects.notified = [(event, args.getD 1 "")]

/-- A well behaved handler changes the key space only when it replicates, so one that
announces on its key notifies every change. -/
theorem Handler.Announced.notifiesChanges {handler : Handler F} (ha : handler.Announced)
    (hw : handler.WellBehaved) : handler.NotifiesChanges := fun H L ks args st h hne => by
  rcases ha H L ks args st h with he | ⟨event, he⟩
  · exact absurd ((hw H L ks args st h).unreplicated (by rw [he]; rfl)) hne
  · exact ⟨event, by rw [he]; rfl⟩

theorem reader_announced (f : Host F → Keyspace → List String → Except RedisError RedisValue) :
    (reader f).Announced := fun _ _ _ _ _ h => by
  cases h; exact .inl rfl

/-- Every entry of the table but `json.clear` announces on its key. -/
theorem commandTable_announced : ∀ c ∈ (commandTable : List (Command F)),
    c.name ≠ "json.clear" → c.handler.Announced := by
  have del : Handler.Announced (fun H (_ : Lib) => jsonDel H : Handler F) :=
    fun H _ ks _ _ h => jsonDel_announced H ks h
  have ni : (jsonCacheNotImplemented : Handler F).Announced := fun _ _ _ _ _ h => by
    cases h; exact .inl rfl
  simp only [commandTable, List.forall_mem_cons, List.not_mem_nil, false_imp_iff, implies_true,
    and_true]
  exact ⟨fun _ => del, fun _ => reader_announced _, fun _ => reader_announced _,
    fun _ H _ ks _ _ h => jsonSet_announced H ks h, fun _ => reader_announced _,
    fun _ H L ks _ _ h => jsonNumOp_announced H L ks h,
    fun _ H L ks _ _ h => jsonBoolToggle_announced H L ks h,
    fun _ H L ks _ _ h => jsonNumOp_announced H L ks h,
    fun _ H L ks _ _ h => jsonStrAppend_announced H L ks h, fun _ => reader_announced _,
    fun _ H L ks _ _ h => jsonArrAppend_announced H L ks h, fun _ => reader_announced _,
    fun _ H L ks _ _ h => jsonArrInsert_announced H L ks h, fun _ => reader_announced _,
    fun _ H L ks _ _ h => jsonArrPop_announced H L ks h,
    fun _ H L ks _ _ h => jsonArrTrim_announced H L ks h, fun _ => reader_announced _,
    fun _ => reader_announced _, fun h => absurd rfl h, fun _ => reader_announced _,
    fun _ => del, fun _ H _ ks _ _ h => jsonResp_announced H ks h, fun _ => ni, fun _ => ni⟩

/-- `JSON.CLEAR k` on the document `[1]`, under a clear that empties a non-empty container:
the key now holds `[]`, the command replicates, and no notification is raised. -/
theorem jsonClear_not_notifiesChanges [Inhabited F] :
    ¬ Handler.NotifiesChanges (fun H (_ : Lib) => jsonClear H : Handler F) := by
  intro hn
  let one : Value := .array [.number ⟨.posInt 1, by decide⟩]
  obtain ⟨event, he⟩ := hn { sampleHostOf default with
      clear := fun doc _ => match doc with
        | .array (_ :: _) => .ok (1, .array [])
        | .object (_ :: _) => .ok (1, .object [])
        | d => .ok (0, d) }
    sampleLib ((⟨fun _ => none⟩ : Keyspace).set "k" (some (.json one))) ["JSON.CLEAR", "k"]
    ⟨((⟨fun _ => none⟩ : Keyspace).set "k" (some (.json one))).set "k"
      (some (.json (.array []))), .ok (usizeReply 1), ⟨[], true⟩⟩ rfl fun heq => by
      have := congrArg (fun ks : Keyspace => ks.get "k") heq
      simp [one] at this
  cases he

/-- Exactly the entries of the table other than `json.clear` notify every change they make:
each of them, whenever it changes the key space, raises one notification for the key it
changed, and `json.clear` can change the key space with no notification. -/
theorem commandTable_notifies_iff [Inhabited F] : ∀ c ∈ (commandTable : List (Command F)),
    c.handler.NotifiesChanges ↔ c.name ≠ "json.clear" := by
  intro c hc
  refine ⟨fun hn hcl => ?_, fun hcl =>
    (commandTable_announced c hc hcl).notifiesChanges (commandTable_wellBehaved c hc)⟩
  rw [(commandTable_named hc).2.2 hcl] at hn
  exact jsonClear_not_notifiesChanges hn

/-- The `json.clear` entry of the table can change the key space without a notification. -/
theorem commandTable_notifies_iff_clear :
    (⟨"json.clear", fun H _ => jsonClear H, "write", 1, 1, 1⟩ : Command Unit) ∈ commandTable ∧
      ¬ (⟨"json.clear", fun H _ => jsonClear H, "write", 1, 1, 1⟩ : Command Unit).handler.NotifiesChanges :=
  ⟨by simp [commandTable],
    fun hn => (@commandTable_notifies_iff Unit _ _ (by simp [commandTable])).mp hn rfl⟩

/-- Every command but `JSON.CLEAR`, dispatched by name: whenever it changes the key space, it
raises one notification, for its key. -/
theorem execute_notifiesChanges (H : Host F) (L : Lib) (ks : Keyspace) {args : List String}
    {st : Step} (hclear : eqIgnoreAsciiCase (args.headD "") "json.clear" = false)
    (h : execute H L ks args = .done st) (hne : st.keys ≠ ks) :
    ∃ event, st.effects.notified = [(event, args.getD 1 "")] := by
  unfold execute at h
  split at h
  · next c hf =>
    have hname := List.find?_some hf
    refine (commandTable_announced c (List.mem_of_find?_eq_some hf) (fun he => ?_)).notifiesChanges
      (commandTable_wellBehaved c (List.mem_of_find?_eq_some hf)) H L ks args st h hne
    rw [he, hclear] at hname; cases hname
  · cases h; exact absurd rfl hne

end Table

/-! ## 3. Over runs -/

section Run

variable {F : Type} (H : Host F) (L : Lib)

/-- A subscriber's guarantee: over any run with no `JSON.CLEAR` that does not crash, the
notifications raised during the run name every key whose entry the run changed. -/
theorem Server.run_notified {cmds : List (List String)} {s t : Server}
    (h : s.run H L cmds = .done t)
    (hclear : ∀ args ∈ cmds, eqIgnoreAsciiCase (args.headD "") "json.clear" = false) :
    ∃ new, t.notified = s.notified ++ new ∧
      ∀ k, t.keys.get k ≠ s.keys.get k → ∃ event, (event, k) ∈ new := by
  induction cmds generalizing s with
  | nil => cases h; exact ⟨[], (List.append_nil _).symm, fun _ hk => absurd rfl hk⟩
  | cons args cmds ih =>
    obtain ⟨p, hp, hrun⟩ := Outcome.bind_eq_done.mp h
    obtain ⟨new, hnew, hchanged⟩ := ih hrun fun a ha => hclear a (List.mem_cons_of_mem _ ha)
    obtain ⟨st, hst, rfl⟩ := Outcome.map_eq_done.mp hp
    refine ⟨st.effects.notified ++ new, by rw [hnew, List.append_assoc], fun k hk => ?_⟩
    by_cases hlater : t.keys.get k = st.keys.get k
    · -- the command changed `k`: it is the command's key, and was notified
      have hkey : k = args.getD 1 "" := by
        by_contra hne
        exact hk (hlater.trans ((execute_wellBehaved H L s.keys hst).frame k hne))
      obtain ⟨event, he⟩ := execute_notifiesChanges H L s.keys
        (hclear args (List.mem_cons_self _ _)) hst fun heq => hk (by rw [hlater, heq])
      exact ⟨event, List.mem_append_left _ (by rw [he, hkey]; exact List.mem_singleton_self _)⟩
    · -- a later command changed `k`
      obtain ⟨event, hmem⟩ := hchanged k hlater
      exact ⟨event, List.mem_append_right _ hmem⟩

/-- A `JSON.SET` and a `JSON.STRAPPEND` on `doc`: `doc` changed, and was notified. -/
theorem Server.run_notified_sample :
    Server.run sampleHost sampleLib ⟨⟨fun _ => none⟩, [], []⟩
        [["JSON.SET", "doc", "$", "1"], ["JSON.STRAPPEND", "doc", "x"]] =
      .done ⟨((⟨fun _ => none⟩ : Keyspace).set "doc" (some (.json (.string "1")))).set "doc"
          (some (.json (.string "1x"))),
        [("json.set", "doc"), ("json.strappend", "doc")],
        [["JSON.SET", "doc", "$", "1"], ["JSON.STRAPPEND", "doc", "x"]]⟩ ∧
    (∀ args ∈ [["JSON.SET", "doc", "$", "1"], ["JSON.STRAPPEND", "doc", "x"]],
      eqIgnoreAsciiCase (args.headD "") "json.clear" = false) ∧
    ∃ new, [("json.set", "doc"), ("json.strappend", "doc")] = [] ++ new ∧
      ∀ k, (((⟨fun _ => none⟩ : Keyspace).set "doc" (some (.json (.string "1")))).set "doc"
          (some (.json (.string "1x")))).get k ≠ (⟨fun _ => none⟩ : Keyspace).get k →
        ∃ event, (event, k) ∈ new := by
  refine ⟨?run, ?clear, Server.run_notified sampleHost sampleLib ?run ?clear⟩
  · rfl
  · decide

end Run

end RedisJson
