import RedisJson.Rust.Vec
import RedisJson.Command.Args
import RedisJson.Transform.Scalar

/-!
# `Transform/Array.lean` — the transforms on arrays

The four array commands hand `value_op` a transform that receives the target as `&mut Value`:
`do_json_arr_append`, `do_json_arr_insert`, `do_json_arr_pop` and `do_json_arr_trim`. Each
checks the target, then calls `value.take()`, which moves the array out and leaves `Null` in
the slot, and edits the moved-out copy. A call's result is therefore two things, `MutResult`:
what it returns, and what it left in the slot. `do_json_arr_pop` has a third, the element it
writes through its `res` out-parameter (`PopResult`).

The index arithmetic runs on `i64` and `usize` as the source writes it, checked
(`Rust/Machine.lean`). With the one bound Rust's allocator guarantees, a length of at most
`isize::MAX` (`hcap`), insert's and pop's arithmetic never overflows; trim's can, for the
reason `doJsonArrTrim_underflow` shows.

`ArrayIndex::normalize`, which trim calls, is in `array_index.rs`, outside the sources; it is
modelled from §4.2, whose rule for a trim bound is the clamp pop computes inline
(`clampIndex`), read as a `usize`.

The last section puts these transforms beside the scalar ones of `Transform/Scalar.lean`: each
of the seven fails exactly on the inputs its checks reject, and a failure leaves its target as
it was (`writeTransforms_atomic`).
-/

set_option autoImplicit false

namespace RedisJson

/-- What a transform taking `&mut Value` leaves behind: its return value, and the slot. -/
structure MutResult where
  ret : Except Error Value
  slot : Value

/-- What `do_json_arr_pop` leaves behind: its return value, `res`, and the slot. -/
structure PopResult where
  ret : Except Error Value
  res : Option Value
  slot : Value

/-- The projection `json_arr_append`, `json_arr_insert` and `json_arr_trim` reply with:
`result.as_array().map_or(usize::MAX, |result| result.len())`. -/
def jsonArrLenReply : Value → Nat
  | .array a => a.length
  | _ => usizeMax

/-! ## 1. Index arithmetic -/

/-- The clamp `if index < 0 { 0.max(len + index) } else { index.min(len - 1) }`. -/
def clampIndex (index len : I64) : Outcome I64 :=
  if index.val < 0 then I64.max (I64.ofInt 0) <$> i64Add len index
  else I64.min index <$> i64Sub len (I64.ofInt 1)

/-- Modelled from the spec: `ArrayIndex::normalize` (array_index.rs) is not among the
sources. §4.2 gives a trim bound the rule `i < 0 ? max(0, len + i) : min(i, len - 1)`, and
the code uses the result as a `usize`. -/
def normalize (i len : I64) : Outcome Nat := I64.toUsize <$> clampIndex i len

/-- The position the clamp computes, on integers. -/
def clampVal (i : Int) (n : Nat) : Int := if i < 0 then max 0 (n + i) else min i (n - 1)

/-- The index `do_json_arr_insert` computes, on integers: `len + index` for a negative one. -/
def insertIndex (index : I64) (n : Nat) : Int :=
  if index.val < 0 then (I64.ofUsize n).val + index.val else index.val

section Index

variable {n : Nat}

/-- With a `Vec` length, the clamp never overflows and computes `clampVal`. -/
theorem clampIndex_eq (index : I64) (hcap : n ≤ isizeMax) :
    clampIndex index (I64.ofUsize n) = .done (I64.ofInt (clampVal index.val n)) := by
  have hn := I64.ofUsize_val hcap
  have := index.min_le; have := index.lt_max
  unfold isizeMax at hcap
  unfold clampIndex clampVal i64Add i64Sub
  split
  · rw [hn, checkedI64_of_mem (by omega) (by omega)]
    simp only [Outcome.map_done, Outcome.done.injEq]
    apply I64.ext
    simp (disch := omega) only [I64.max_val, I64.ofInt_val]
  · rw [hn, I64.ofInt_val (by omega) (by omega), checkedI64_of_mem (by omega) (by omega)]
    simp only [Outcome.map_done, Outcome.done.injEq]
    apply I64.ext
    simp (disch := omega) only [I64.min_val, I64.ofInt_val]

theorem clampVal_nonneg (i : Int) (n : Nat) (hn : 0 < n) : 0 ≤ clampVal i n := by
  unfold clampVal; split <;> omega

theorem clampVal_lt (i : Int) (n : Nat) (hn : 0 < n) : clampVal i n < n := by
  unfold clampVal; split <;> omega

/-- With a `Vec` length, `len + index` never overflows. -/
theorem insertIndex_eq (index : I64) (hcap : n ≤ isizeMax) :
    (if index.val < 0 then i64Add (I64.ofUsize n) index else pure index) =
      .done (I64.ofInt (insertIndex index n)) := by
  have hn := I64.ofUsize_val hcap
  have := index.min_le; have := index.lt_max
  unfold isizeMax at hcap
  unfold insertIndex i64Add
  split
  · rw [hn, checkedI64_of_mem (by omega) (by omega)]
  · simp only [Outcome.pure_eq, Outcome.done.injEq]
    exact I64.ext (I64.ofInt_val index.min_le index.lt_max).symm

end Index

/-! ## 2. The transforms -/

/-- The function `do_json_arr_append`. -/
def doJsonArrAppend (L : Lib) (args : List String) (value : Value) : MutResult :=
  match value with
  | .array array =>
    match L.parseAll args with
    | .error e => ⟨.error e, value⟩
    | .ok items => ⟨.ok (.array (array ++ items)), .null⟩
  | v => ⟨.error (errJson L v "array"), v⟩

/-- The function `do_json_arr_insert`. -/
def doJsonArrInsert (L : Lib) (args : List String) (index : I64) (value : Value) :
    Outcome MutResult :=
  match value with
  | .array array => do
    let len := I64.ofUsize array.length
    let index ← (if index.val < 0 then i64Add len index else pure index : Outcome I64)
    if ¬ (0 ≤ index.val ∧ index.val ≤ len.val) then
      return ⟨.error ⟨"ERR index out of bounds"⟩, value⟩
    match L.parseAll args with
    | .error e => return ⟨.error e, value⟩
    | .ok items => do
      let curr ← Vec.splice array index.toUsize items
      return ⟨.ok (.array curr), .null⟩
  | v => return ⟨.error (errJson L v "array"), v⟩

/-- The function `do_json_arr_pop`; `res` is the out-parameter's value on entry. -/
def doJsonArrPop (L : Lib) (index : I64) (res : Option Value) (value : Value) :
    Outcome PopResult :=
  match value with
  | .array array =>
    if array.isEmpty then return ⟨.ok value, none, value⟩
    else do
      let index ← clampIndex index (I64.ofUsize array.length)
      let (elem, curr) ← Vec.remove array index.toUsize
      return ⟨.ok (.array curr), some elem, .null⟩
  | v => return ⟨.error (errJson L v "array"), res, v⟩

/-- The function `do_json_arr_trim`. -/
def doJsonArrTrim (L : Lib) (start stop : I64) (value : Value) : Outcome MutResult :=
  match value with
  | .array array => do
    let len := I64.ofUsize array.length
    let stop ← normalize stop len
    let range ← (if start.val > len.val ∨ start.val > (I64.ofUsize stop).val then pure (0, 0)
      else do
        let s ← normalize start len
        let e ← usizeAdd stop 1
        pure (s, e) : Outcome (Nat × Nat))
    let curr ← Vec.rotateLeft array range.1
    let newLen ← usizeSub range.2 range.1
    return ⟨.ok (.array (Vec.resize curr newLen .null)), .null⟩
  | v => return ⟨.error (errJson L v "array"), v⟩

/-! ## 3. What each transform does -/

section Spec

variable (L : Lib)

/-- Append fails exactly on a non-array target or an item that does not parse, and a failed
append leaves the slot as it was. -/
theorem doJsonArrAppend_atomic (args : List String) (v : Value) :
    ((doJsonArrAppend L args v).ret.toBool = false ↔
      (v.isArray = false ∨ ∃ x ∈ args, (L.fromStr x).toBool = false)) ∧
    ((doJsonArrAppend L args v).ret.toBool = false → (doJsonArrAppend L args v).slot = v) := by
  cases v with
  | array a =>
    simp only [doJsonArrAppend, Value.isArray, Bool.true_eq_false, false_or,
      ← L.parseAll_isError_iff args]
    cases L.parseAll args with
    | error e => exact ⟨Iff.rfl, fun _ => rfl⟩
    | ok items => exact ⟨Iff.rfl, fun h => nomatch h⟩
  | _ => exact ⟨iff_of_true rfl (.inl rfl), fun _ => rfl⟩

/-- The index `do_json_arr_insert` goes on with is the normalised one. -/
theorem insertIndex_of_done {index k : I64} {n : Nat}
    (h : (if index.val < 0 then i64Add (I64.ofUsize n) index else pure index) = .done k) :
    k.val = insertIndex index n := by
  unfold insertIndex
  split at h
  · rw [if_pos ‹_›]; exact val_of_checkedI64 h
  · rw [if_neg ‹_›]; cases h; rfl

/-- Insert, as far as it returns: an error exactly for a non-array target, a normalised index
outside `[0, len]`, or an item that does not parse, and then the slot is untouched. -/
theorem doJsonArrInsert_atomic (args : List String) (index : I64) (v : Value) (r : MutResult)
    (h : doJsonArrInsert L args index v = .done r) :
    (r.ret.toBool = false ↔
      (v.isArray = false ∨
        (∃ a, v = .array a ∧ ¬ (0 ≤ insertIndex index a.length ∧
          insertIndex index a.length ≤ (I64.ofUsize a.length).val)) ∨
        ∃ x ∈ args, (L.fromStr x).toBool = false)) ∧
    (r.ret.toBool = false → r.slot = v) := by
  cases v with
  | array a =>
    simp only [doJsonArrInsert] at h
    obtain ⟨k, hk, h⟩ := Outcome.bind_eq_done.mp h
    simp only [Value.isArray, Value.array.injEq, exists_eq_left', ← insertIndex_of_done hk,
      Bool.true_eq_false, false_or]
    split at h
    · next hout => cases h; exact ⟨iff_of_true rfl (.inl hout), fun _ => rfl⟩
    · next hin =>
      rw [not_not] at hin
      simp only [hin, and_self, not_true_eq_false, false_or, ← L.parseAll_isError_iff args]
      cases hpa : L.parseAll args with
      | error e =>
        simp only [hpa, Outcome.pure_eq, Outcome.done_bind, Outcome.done.injEq] at h
        subst h
        exact ⟨Iff.rfl, fun _ => rfl⟩
      | ok items =>
        simp only [hpa, Outcome.pure_eq, Outcome.done_bind] at h
        obtain ⟨curr, -, h⟩ := Outcome.bind_eq_done.mp h
        cases h
        exact ⟨Iff.rfl, fun h => nomatch h⟩
  | _ => cases h; exact ⟨iff_of_true rfl (.inl rfl), fun _ => rfl⟩

/-- With a `Vec` length, the normalised insert index is `len + index` or `index`, exactly. -/
theorem insertIndex_of_cap {index : I64} {n : Nat} (hcap : n ≤ isizeMax) :
    insertIndex index n = if index.val < 0 then n + index.val else index.val := by
  simp only [insertIndex, I64.ofUsize_val hcap]

/-- Insert into an array whose items all parse: the items spliced in at the normalised index
when it lies in `[0, len]`, the out-of-bounds error otherwise. -/
theorem doJsonArrInsert_spec (args : List String) (index : I64) {a ys : List Value}
    (hcap : a.length ≤ isizeMax) (hys : L.parseAll args = .ok ys) :
    doJsonArrInsert L args index (.array a) =
      if 0 ≤ insertIndex index a.length ∧ insertIndex index a.length ≤ a.length then
        .done ⟨.ok (.array (a.take (insertIndex index a.length).toNat ++ ys ++
          a.drop (insertIndex index a.length).toNat)), .null⟩
      else .done ⟨.error ⟨"ERR index out of bounds"⟩, .array a⟩ := by
  have hj : -2 ^ 63 ≤ insertIndex index a.length ∧ insertIndex index a.length < 2 ^ 63 := by
    have := index.min_le; have := index.lt_max
    rw [insertIndex_of_cap hcap]; unfold isizeMax at hcap; split <;> omega
  simp only [doJsonArrInsert]
  rw [insertIndex_eq index hcap, Outcome.done_bind, I64.ofInt_val hj.1 hj.2, I64.ofUsize_val hcap]
  by_cases hin : 0 ≤ insertIndex index a.length ∧ insertIndex index a.length ≤ a.length
  · have htn := I64.toUsize_ofInt hin.1 hj.2
    have hle : (insertIndex index a.length).toNat ≤ a.length := by omega
    rw [if_neg (not_not.mpr hin), if_pos hin]
    simp only [Outcome.pure_eq, Outcome.done_bind, hys, htn, Vec.splice_of_le ys hle]
  · rw [if_pos hin, if_neg hin, Outcome.pure_eq]

/-- Pop from a non-empty array: the element at the clamped position is written to `res` and
removed; the clamp keeps the position inside the array. -/
theorem doJsonArrPop_spec (index : I64) (res : Option Value) {a : List Value}
    (hcap : a.length ≤ isizeMax) (hne : a ≠ []) :
    ∃ h : (clampVal index.val a.length).toNat < a.length,
      doJsonArrPop L index res (.array a) =
        .done ⟨.ok (.array (a.eraseIdx (clampVal index.val a.length).toNat)),
          some a[(clampVal index.val a.length).toNat], .null⟩ := by
  have hpos : 0 < a.length := List.length_pos.mpr hne
  have h0 := clampVal_nonneg index.val a.length hpos
  have h1 := clampVal_lt index.val a.length hpos
  have hj : -2 ^ 63 ≤ clampVal index.val a.length ∧ clampVal index.val a.length < 2 ^ 63 := by
    unfold isizeMax at hcap; omega
  have htn := I64.toUsize_ofInt h0 hj.2
  have hlt : (clampVal index.val a.length).toNat < a.length := by omega
  refine ⟨hlt, ?_⟩
  have hemp : a.isEmpty = false := by
    cases a with
    | nil => exact absurd rfl hne
    | cons _ _ => rfl
  simp only [doJsonArrPop, hemp, Bool.false_eq_true, if_false, clampIndex_eq index hcap,
    Outcome.done_bind, htn, Vec.remove_of_lt hlt, Outcome.pure_eq]

/-- Pop from an empty array returns it unchanged and writes no element. -/
theorem doJsonArrPop_nil (index : I64) (res : Option Value) :
    doJsonArrPop L index res (.array []) = .done ⟨.ok (.array []), none, .array []⟩ := rfl

/-- Pop, as far as it returns: an error exactly for a non-array target, and then the slot is
untouched. -/
theorem doJsonArrPop_atomic (index : I64) (res : Option Value) (v : Value) (r : PopResult)
    (h : doJsonArrPop L index res v = .done r) :
    (r.ret.toBool = false ↔ v.isArray = false) ∧ (r.ret.toBool = false → r.slot = v) := by
  cases v with
  | array a =>
    simp only [doJsonArrPop] at h
    split at h
    · cases h; exact ⟨Iff.rfl, fun h => nomatch h⟩
    · obtain ⟨k, -, h⟩ := Outcome.bind_eq_done.mp h
      obtain ⟨p, -, h⟩ := Outcome.bind_eq_done.mp h
      cases h; exact ⟨Iff.rfl, fun h => nomatch h⟩
  | _ => cases h; exact ⟨iff_of_true rfl rfl, fun _ => rfl⟩

/-- With a `Vec` length, the spec-modelled `normalize` is the clamp, read as a `usize`. -/
theorem normalize_eq (i : I64) {n : Nat} (hcap : n ≤ isizeMax) (hpos : 0 < n) :
    normalize i (I64.ofUsize n) = .done (clampVal i.val n).toNat := by
  have h0 := clampVal_nonneg i.val n hpos
  have h1 := clampVal_lt i.val n hpos
  unfold isizeMax at hcap
  simp only [normalize, clampIndex_eq i hcap, Outcome.map_done,
    I64.toUsize_ofInt h0 (by omega)]

/-- The run trim keeps: positions `s ..= e` of `a`, with `s` the start (clamped at `0` when
negative) and `e` the normalised stop. -/
def trimRun (a : List Value) (start stop : Int) : List Value :=
  let s := if start < 0 then max 0 (a.length + start) else start
  (a.drop s.toNat).take (clampVal stop a.length + 1 - s).toNat

/-- Trim on a non-empty array: the run from the start to the normalised stop, except when a
negative start normalises past the stop by two or more, where `range.end - range.start`
underflows. -/
theorem doJsonArrTrim_spec (start stop : I64) {a : List Value} (hcap : a.length ≤ isizeMax)
    (hpos : 0 < a.length) :
    doJsonArrTrim L start stop (.array a) =
      if start.val < 0 ∧ clampVal stop.val a.length + 1 < clampVal start.val a.length then
        .panic "attempt to subtract with overflow"
      else .done ⟨.ok (.array (trimRun a start.val stop.val)), .null⟩ := by
  have he0 := clampVal_nonneg stop.val a.length hpos
  have he1 := clampVal_lt stop.val a.length hpos
  have hs0 := clampVal_nonneg start.val a.length hpos
  have hs1 := clampVal_lt start.val a.length hpos
  have hn := I64.ofUsize_val hcap
  have hen : (I64.ofUsize (clampVal stop.val a.length).toNat).val = clampVal stop.val a.length := by
    rw [I64.ofUsize_val (by unfold isizeMax at hcap ⊢; omega)]; omega
  simp only [doJsonArrTrim, normalize_eq stop hcap hpos, Outcome.done_bind, hn, hen]
  by_cases hempty : start.val > a.length ∨ start.val > clampVal stop.val a.length
  · have hrun : trimRun a start.val stop.val = [] := by
      simp only [trimRun]
      rw [if_neg (by omega), show (clampVal stop.val a.length + 1 - start.val).toNat = 0 by omega,
        List.take_zero]
    rw [if_pos hempty, if_neg (by omega), hrun]
    simp only [Outcome.pure_eq, Outcome.done_bind, Vec.rotateLeft_of_le (Nat.zero_le _),
      usizeSub_of_le (le_refl 0), Vec.resize_of_le _ (Nat.zero_le _), List.take_zero]
  · rw [if_neg hempty]
    have hs : clampVal start.val a.length =
        (if start.val < 0 then max 0 (a.length + start.val) else start.val) := by
      unfold clampVal; split <;> omega
    simp only [normalize_eq start hcap hpos, Outcome.done_bind,
      usizeAdd_of_le (show (clampVal stop.val a.length).toNat + 1 ≤ usizeMax by
        unfold usizeMax; unfold isizeMax at hcap; omega),
      Outcome.pure_eq, Vec.rotateLeft_of_le (show (clampVal start.val a.length).toNat ≤ a.length
        by omega)]
    by_cases hbug : start.val < 0 ∧ clampVal stop.val a.length + 1 < clampVal start.val a.length
    · rw [if_pos hbug, usizeSub_of_lt (by omega)]; rfl
    · rw [if_neg hbug, usizeSub_of_le (by omega), Outcome.done_bind, Vec.resize_rotate _ (by omega)]
      simp only [trimRun, ← hs]
      rw [show (clampVal stop.val a.length).toNat + 1 - (clampVal start.val a.length).toNat =
        (clampVal stop.val a.length + 1 - clampVal start.val a.length).toNat by omega]

/-- Trim, as far as it returns: an error exactly for a non-array target, and then the slot is
untouched. -/
theorem doJsonArrTrim_atomic (start stop : I64) (v : Value) (r : MutResult)
    (h : doJsonArrTrim L start stop v = .done r) :
    (r.ret.toBool = false ↔ v.isArray = false) ∧ (r.ret.toBool = false → r.slot = v) := by
  cases v with
  | array a =>
    simp only [doJsonArrTrim] at h
    obtain ⟨_, -, h⟩ := Outcome.bind_eq_done.mp h
    obtain ⟨_, -, h⟩ := Outcome.bind_eq_done.mp h
    obtain ⟨_, -, h⟩ := Outcome.bind_eq_done.mp h
    obtain ⟨_, -, h⟩ := Outcome.bind_eq_done.mp h
    cases h; exact ⟨Iff.rfl, fun h => nomatch h⟩
  | _ => cases h; exact ⟨iff_of_true rfl rfl, fun _ => rfl⟩

end Spec

/-! ## 4. The array commands, for every length and every `i64` index -/

/-- `JSON.ARRINSERT`'s transform on an array whose items all parse: the items land, in order,
at `j = (i < 0 ? len + i : i)` when `0 ≤ j ≤ len`, and the index error is returned otherwise;
the index arithmetic never overflows, and the reply is the new length `len + |ys|`. -/
theorem doJsonArrInsert_splices (L : Lib) (a : List Value) (i : I64) (xs : List String)
    (ys : List Value) (hcap : a.length ≤ isizeMax)
    (hys : List.Forall₂ (fun x y => L.fromStr x = .ok y) xs ys) :
    let j : Int := if i.val < 0 then a.length + i.val else i.val
    doJsonArrInsert L xs i (.array a) =
      (if 0 ≤ j ∧ j ≤ a.length then
        .done ⟨.ok (.array (a.take j.toNat ++ ys ++ a.drop j.toNat)), .null⟩
      else .done ⟨.error ⟨"ERR index out of bounds"⟩, .array a⟩) ∧
    (0 ≤ j ∧ j ≤ a.length →
      jsonArrLenReply (.array (a.take j.toNat ++ ys ++ a.drop j.toNat)) = a.length + ys.length) := by
  intro j
  refine ⟨?_, fun hj => ?_⟩
  · rw [doJsonArrInsert_spec L xs i hcap (L.parseAll_of_forall₂ hys), insertIndex_of_cap hcap]
  · simp only [jsonArrLenReply, List.length_append, List.length_take, List.length_drop]
    omega

theorem doJsonArrInsert_splices_negative :
    doJsonArrInsert ⟨fun _ => .ok .null, fun _ => "", fun _ => ""⟩ ["null"]
      ⟨-1, by decide, by decide⟩ (.array [.bool true, .bool false]) =
      .done ⟨.ok (.array [.bool true, .null, .bool false]), .null⟩ :=
  (doJsonArrInsert_splices _ [.bool true, .bool false] ⟨-1, by decide, by decide⟩ ["null"]
    [.null] (by decide) (.cons rfl .nil)).1

/-- The index `json_arr_pop` defaults to — `i64::MAX` with no path, `-1` with a path and no
index — clamps to the last position. -/
theorem clampVal_jsonArrPopArgs (parseI64 : String → Option I64) {args : List String}
    (hargs : args.length ≤ 1) {n : Nat} (hcap : n ≤ isizeMax) (hpos : 0 < n) :
    clampVal (jsonArrPopArgs parseI64 args).2.val n = n - 1 := by
  unfold isizeMax at hcap
  match args, hargs with
  | [], _ => simp only [jsonArrPopArgs, I64.maxValue_val, clampVal, i64Max]; split <;> omega
  | [_], _ =>
    simp only [jsonArrPopArgs, I64.ofInt_val (show (-2 : Int) ^ 63 ≤ -1 by decide) (by decide),
      clampVal]
    omega

/-- `JSON.ARRPOP`'s transform, for every length and every `i64` index: on a non-empty array
the element at `j = (i < 0 ? max(0, len + i) : min(i, len - 1))` is written to `res` and
removed, `j` is inside the array, and putting the element back at `j` restores the array; an
empty array is returned unchanged with no element; and the command's default indices remove
the last element. -/
theorem doJsonArrPop_clamps (L : Lib) (i : I64) (res : Option Value) (a : List Value)
    (hcap : a.length ≤ isizeMax) :
    (a ≠ [] →
      let j := (clampVal i.val a.length).toNat
      ∃ hj : j < a.length,
        doJsonArrPop L i res (.array a) = .done ⟨.ok (.array (a.eraseIdx j)), some a[j], .null⟩ ∧
        (a.eraseIdx j).insertIdx j a[j] = a) ∧
    (a = [] → doJsonArrPop L i res (.array a) = .done ⟨.ok (.array a), none, .array a⟩) ∧
    (∀ (parseI64 : String → Option I64) (args : List String) (hne : a ≠ []), args.length ≤ 1 →
      doJsonArrPop L (jsonArrPopArgs parseI64 args).2 res (.array a) =
        .done ⟨.ok (.array a.dropLast), some (a.getLast hne), .null⟩) := by
  refine ⟨fun hne => ?_, fun hnil => hnil ▸ doJsonArrPop_nil L i res, fun parseI64 args hne hargs => ?_⟩
  · obtain ⟨hj, h⟩ := doJsonArrPop_spec L i res hcap hne
    exact ⟨hj, h, Vec.insertIdx_remove hj⟩
  · have hpos : 0 < a.length := List.length_pos.mpr hne
    obtain ⟨hj, h⟩ := doJsonArrPop_spec L (jsonArrPopArgs parseI64 args).2 res hcap hne
    have hlast : (clampVal (jsonArrPopArgs parseI64 args).2.val a.length).toNat = a.length - 1 := by
      rw [clampVal_jsonArrPopArgs parseI64 hargs hcap hpos]; omega
    simp only [hlast] at h hj
    rw [h, List.dropLast_eq_eraseIdx (show a.length - 1 + 1 = a.length by omega),
      List.getLast_eq_getElem]

theorem doJsonArrPop_clamps_last :
    doJsonArrPop ⟨fun _ => .error "", fun _ => "", fun _ => ""⟩
      (jsonArrPopArgs (fun _ => none) []).2 none (.array [.bool true, .null]) =
      .done ⟨.ok (.array [.bool true]), some .null, .null⟩ :=
  (doJsonArrPop_clamps _ ⟨-1, by decide, by decide⟩ none [.bool true, .null] (by decide)).2.2
    (fun _ => none) [] (by simp) (by decide)

/-- `JSON.ARRTRIM`'s transform panics on a non-empty array when a negative start normalises
two or more positions past the normalised stop: the empty-range test compares the raw start,
so `range.end - range.start` underflows. -/
theorem doJsonArrTrim_underflow (L : Lib) (start stop : I64) (a : List Value)
    (hcap : a.length ≤ isizeMax) (hpos : 0 < a.length) (hneg : start.val < 0)
    (hpast : clampVal stop.val a.length + 1 < clampVal start.val a.length) :
    doJsonArrTrim L start stop (.array a) = .panic "attempt to subtract with overflow" := by
  rw [doJsonArrTrim_spec L start stop hcap hpos, if_pos ⟨hneg, hpast⟩]

theorem doJsonArrTrim_underflow_five :
    doJsonArrTrim ⟨fun _ => .error "", fun _ => "", fun _ => ""⟩ ⟨-2, by decide, by decide⟩
      ⟨1, by decide, by decide⟩ (.array [.null, .null, .null, .null, .null]) =
      .panic "attempt to subtract with overflow" :=
  doJsonArrTrim_underflow _ _ _ _ (by decide) (by decide) (by decide) (by decide)

/-- `JSON.ARRTRIM`'s transform on a non-empty array, outside the underflow: the contiguous
run from the start to the normalised stop, never longer than the array and never padded. -/
theorem doJsonArrTrim_run (L : Lib) (start stop : I64) (a : List Value)
    (hcap : a.length ≤ isizeMax) (hpos : 0 < a.length)
    (hok : ¬ (start.val < 0 ∧ clampVal stop.val a.length + 1 < clampVal start.val a.length)) :
    doJsonArrTrim L start stop (.array a) = .done ⟨.ok (.array (trimRun a start.val stop.val)), .null⟩ ∧
      List.IsInfix (trimRun a start.val stop.val) a := by
  refine ⟨by rw [doJsonArrTrim_spec L start stop hcap hpos, if_neg hok], ?_⟩
  unfold trimRun
  exact (List.take_prefix _ _).isInfix.trans (List.drop_suffix _ _).isInfix

/-- §8's example: trimming a five-element array to the positions `1 ..= 3`. -/
theorem doJsonArrTrim_run_middle :
    doJsonArrTrim ⟨fun _ => .error "", fun _ => "", fun _ => ""⟩ ⟨1, by decide, by decide⟩
        ⟨3, by decide, by decide⟩
        (.array [.string "0", .string "1", .string "2", .string "3", .string "4"]) =
      .done ⟨.ok (.array [.string "1", .string "2", .string "3"]), .null⟩ ∧
    List.IsInfix [Value.string "1", .string "2", .string "3"]
      [Value.string "0", .string "1", .string "2", .string "3", .string "4"] :=
  doJsonArrTrim_run _ _ _ _ (by decide) (by decide) (by decide)

/-! ## 5. How the array transforms compose -/

/-- `JSON.ARRPOP` undoes a one-item `JSON.ARRINSERT`, at every in-bounds `i64` index. The item
lands at the normalised index `j`; popping at `j` returns it and gives the array back. The index
that pops it is the inserted index itself when that is non-negative, and one less when it is
negative: insert counts from the end of the array before the item, pop from the end of the array
after it. -/
theorem doJsonArrPop_insert (L : Lib) {x : String} {y : Value} (hx : L.fromStr x = .ok y)
    (index : I64) (res : Option Value) {a : List Value} (hcap : a.length + 1 ≤ isizeMax)
    (hin : 0 ≤ insertIndex index a.length ∧ insertIndex index a.length ≤ a.length) :
    doJsonArrInsert L [x] index (.array a) =
      .done ⟨.ok (.array (a.take (insertIndex index a.length).toNat ++ [y] ++
        a.drop (insertIndex index a.length).toNat)), .null⟩ ∧
    doJsonArrPop L (if index.val < 0 then I64.ofInt (index.val - 1) else index) res
        (.array (a.take (insertIndex index a.length).toNat ++ [y] ++
          a.drop (insertIndex index a.length).toNat)) =
      .done ⟨.ok (.array a), some y, .null⟩ := by
  refine ⟨by rw [doJsonArrInsert_spec L [x] index (by omega)
    (L.parseAll_of_forall₂ (.cons hx .nil)), if_pos hin], ?_⟩
  have hj : insertIndex index a.length = if index.val < 0 then a.length + index.val else index.val :=
    insertIndex_of_cap (by omega)
  have := index.min_le; have := index.lt_max
  generalize hjdef : (insertIndex index a.length).toNat = j
  have hjle : j ≤ a.length := by omega
  have hb : (a.take j ++ [y] ++ a.drop j).length = a.length + 1 := by simp; omega
  -- pop's clamp, on the array one longer, lands on `j`
  have hclamp : clampVal (if index.val < 0 then I64.ofInt (index.val - 1) else index).val
      (a.length + 1) = j := by
    unfold isizeMax at hcap
    split
    · next hneg =>
      rw [if_pos hneg] at hj
      rw [I64.ofInt_val (by omega) (by omega)]; unfold clampVal; split <;> omega
    · next hpos =>
      rw [if_neg hpos] at hj
      unfold clampVal; split <;> omega
  have hemp : (a.take j ++ [y] ++ a.drop j).isEmpty = false := by simp
  simp only [doJsonArrPop, hemp, Bool.false_eq_true, if_false, clampIndex_eq _ hcap,
    Outcome.done_bind, hb, hclamp, I64.toUsize_ofInt (Int.ofNat_nonneg j)
      (by unfold isizeMax at hcap; omega), Int.toNat_ofNat, Vec.remove_splice y hjle,
    Outcome.pure_eq]

/-- Inserting `null` at `-1` into `[true, false]` puts it before the last item, and it is
popped back at `-2`. -/
theorem doJsonArrPop_insert_negative :
    (⟨fun _ => .ok .null, fun _ => "", fun _ => ""⟩ : Lib).fromStr "null" = .ok .null ∧
    2 + 1 ≤ isizeMax ∧
    (0 ≤ insertIndex ⟨-1, by decide, by decide⟩ 2 ∧ insertIndex ⟨-1, by decide, by decide⟩ 2 ≤ 2) ∧
    doJsonArrInsert ⟨fun _ => .ok .null, fun _ => "", fun _ => ""⟩ ["null"]
        ⟨-1, by decide, by decide⟩ (.array [.bool true, .bool false]) =
      .done ⟨.ok (.array [.bool true, .null, .bool false]), .null⟩ ∧
    doJsonArrPop ⟨fun _ => .ok .null, fun _ => "", fun _ => ""⟩ ⟨-2, by decide, by decide⟩ none
        (.array [.bool true, .null, .bool false]) =
      .done ⟨.ok (.array [.bool true, .bool false]), some .null, .null⟩ :=
  ⟨rfl, by decide, by decide,
    doJsonArrPop_insert _ rfl ⟨-1, by decide, by decide⟩ none
      (by decide) (by decide)⟩

/-! ## 6. Every write transform fails exactly on a bad input, and atomically

§4.4's mutation protocol promises that a failing transform leaves the document as it was: the
replace step is the sole visible mutation point. `value_op` itself lives in `redisjson.rs`;
what the sources fix is the transforms, and for them the promise has two halves.

* **When** each transform fails. Number ops, string append and the toggle fail exactly on the
  wrong kind of target or a literal of the wrong kind; append and insert on a non-array target
  or any item that does not parse, insert also on a normalised index outside `[0, len]`; pop
  and trim only on a non-array target.
* **What** a failure leaves behind. The three `&Value` transforms cannot write their target at
  all — the model's signature has no slot to return. The four `&mut Value` transforms call
  `value.take()` only after every check and every parse, so a failing call hands back the slot
  unchanged.

Panicking calls are outside this statement: a panic is not an `Err`, and where one can happen
(the number ops, trim) the statement is about the calls that return.
-/

/-- The seven write transforms fail exactly on the inputs their checks reject, and a failure
leaves the target as it was. -/
theorem writeTransforms_atomic :
    (∀ (L : Lib) (t : String) (v : Value) (opI64 : I64 → I64 → Outcome I64)
        (opF64 : ℚ → ℚ → F64) (r : Except Error Value),
      doJsonNumOp L t v opI64 opF64 = .done r →
        (r.toBool = false ↔ v.isNumber = false ∨ L.parsesTo t Value.isNumber = false)) ∧
    (∀ (L : Lib) (json : String) (v : Value),
      (doJsonStrAppend L json v).toBool = false ↔
        v.isString = false ∨ L.parsesTo json Value.isString = false) ∧
    (∀ (L : Lib) (args : List String) (v : Value),
      ((doJsonArrAppend L args v).ret.toBool = false ↔
        v.isArray = false ∨ ∃ x ∈ args, (L.fromStr x).toBool = false) ∧
      ((doJsonArrAppend L args v).ret.toBool = false → (doJsonArrAppend L args v).slot = v)) ∧
    (∀ (L : Lib) (args : List String) (index : I64) (v : Value) (r : MutResult),
      doJsonArrInsert L args index v = .done r →
        (r.ret.toBool = false ↔
          v.isArray = false ∨
          (∃ a, v = .array a ∧ ¬ (0 ≤ insertIndex index a.length ∧
            insertIndex index a.length ≤ (I64.ofUsize a.length).val)) ∨
          ∃ x ∈ args, (L.fromStr x).toBool = false) ∧
        (r.ret.toBool = false → r.slot = v)) ∧
    (∀ (L : Lib) (index : I64) (res : Option Value) (v : Value) (r : PopResult),
      doJsonArrPop L index res v = .done r →
        (r.ret.toBool = false ↔ v.isArray = false) ∧ (r.ret.toBool = false → r.slot = v)) ∧
    (∀ (L : Lib) (start stop : I64) (v : Value) (r : MutResult),
      doJsonArrTrim L start stop v = .done r →
        (r.ret.toBool = false ↔ v.isArray = false) ∧ (r.ret.toBool = false → r.slot = v)) ∧
    (∀ (L : Lib) (v : Value), (jsonBoolToggleOp L v).toBool = false ↔ v.isBoolean = false) :=
  ⟨fun _ _ v _ _ _ h => doJsonNumOp_err_iff v h,
   fun L json v => by
     rw [← Bool.not_eq_true, doJsonStrAppend_isOk_iff]
     cases v.isString <;> cases L.parsesTo json Value.isString <;> decide,
   fun L args v => doJsonArrAppend_atomic L args v,
   fun L args index v r h => doJsonArrInsert_atomic L args index v r h,
   fun L index res v r h => doJsonArrPop_atomic L index res v r h,
   fun L start stop v r h => doJsonArrTrim_atomic L start stop v r h,
   fun L v => jsonBoolToggleOp_err_iff L v⟩

end RedisJson
