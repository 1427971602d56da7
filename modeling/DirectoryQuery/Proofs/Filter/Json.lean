import DirectoryQuery.Filter.Json
import DirectoryQuery.Proofs.Filter.Induction

/-!
# Filters written as JSON and read back

Reading the JSON form of a filter gives the filter again, condition by condition, but for one kind
of operand (`Filter.ofJson?_toJson_iff`).  Neither operands nor values carry a tag, and one value is
tried before a list of values.  A list of integers that are all bytes has the JSON form of a
sequence of bytes, so it is read as that, the empty list among them.  `Operand.readBack` is what
becomes of an operand, and `Operand.IsDistinct` says that nothing is mistaken for something else.

A condition that chooses from small integers is thereby turned into one that asks for equality with
bytes, and accepts other entries than before (`Filter.ofJson?_toJson_small_integers`).
-/

namespace DirectoryQuery

/-- Reading one by one what was written one by one. -/
lemma mapM_map_eq_some {α β γ : Type} {write : α → β} {read : β → Option γ} {f : α → γ}
    {as : List α} (h : ∀ a ∈ as, read (write a) = some (f a)) :
    (as.map write).mapM read = some (as.map f) := by
  induction as with
  | nil => rfl
  | cons a as ih =>
    obtain ⟨ha, has⟩ := List.forall_mem_cons.1 h
    rw [List.map_cons, List.mapM_cons, ha, ih has]
    rfl

/-- Reading fails when it fails at some element. -/
lemma mapM_eq_none_iff {α β : Type} {read : α → Option β} {as : List α} :
    as.mapM read = none ↔ ∃ a ∈ as, read a = none := by
  induction as with
  | nil => simp
  | cons a as ih =>
    rw [List.mapM_cons, List.exists_mem_cons_iff, ← ih]
    cases read a with
    | none => exact iff_of_true rfl (.inl rfl)
    | some b => cases as.mapM read <;> simp

/-! ## Values and operands -/

namespace Value

/-- The byte that an integer is taken for where bytes are read. -/
def asByte? : Value → Option UInt8
  | .int n => if 0 ≤ n.toInt ∧ n.toInt ≤ 255 then some (UInt8.ofNat n.toInt.toNat) else none
  | _ => none

lemma asByte?_eq_none_iff {v : Value} :
    v.asByte? = none ↔ ∀ n : Int64, v = .int n → n.toInt < 0 ∨ 255 < n.toInt := by
  cases v with
  | int n =>
    rw [asByte?, ite_eq_right_iff]
    constructor
    · rintro h m hm
      obtain rfl := int.inj hm
      by_contra hbyte
      exact absurd (h (by omega)) nofun
    · intro h hbyte
      have hn := h n rfl
      omega
  | _ => exact ⟨fun _ => nofun, fun _ => rfl⟩

lemma byteOfJson?_toJson (v : Value) : byteOfJson? v.toJson = v.asByte? := by
  cases v <;> rfl

lemma byteOfJson?_integer (x : UInt8) : byteOfJson? (.integer x.toNat) = some x := by
  have hx := x.toNat_lt
  rw [byteOfJson?, if_pos (by omega), Int.toNat_natCast, UInt8.ofNat_toNat]

/-- A value is read back as it was. -/
theorem ofJson?_toJson (v : Value) : ofJson? v.toJson = some v := by
  cases v with
  | bool b => rfl
  | int n =>
    have hbounds : Int64.minValue.toInt ≤ n.toInt ∧ n.toInt ≤ Int64.maxValue.toInt :=
      ⟨n.minValue_le_toInt, n.toInt_le⟩
    rw [toJson, ofJson?, int64OfJson?, if_pos hbounds, Int64.ofInt_toInt]
    rfl
  | text s => rfl
  | bytes b =>
    have hread : (b.map fun x => Json.integer x.toNat).mapM byteOfJson? = some (b.map id) :=
      mapM_map_eq_some fun x _ => byteOfJson?_integer x
    rw [toJson, bytesToJson, ofJson?, hread, List.map_id]
    rfl

lemma listOfJson?_listToJson (vs : List Value) : listOfJson? (listToJson vs) = some vs := by
  have hread : (vs.map toJson).mapM ofJson? = some (vs.map id) :=
    mapM_map_eq_some fun v _ => ofJson?_toJson v
  rw [listToJson, listOfJson?, hread, List.map_id]

end Value

namespace Operand

/-- The operand that is read in place of one that was written. -/
def readBack : Operand → Operand
  | .one v => .one v
  | .many vs =>
    match vs.mapM Value.asByte? with
    | some b => .one (.bytes b)
    | none => .many vs

/-- A list of values holds something else than integers that are bytes. -/
def IsDistinct : Operand → Prop
  | .one _ => True
  | .many vs => ∃ v ∈ vs, ∀ n : Int64, v = .int n → n.toInt < 0 ∨ 255 < n.toInt

lemma ofJson?_toJson (o : Operand) : ofJson? o.toJson = some o.readBack := by
  cases o with
  | one v => rw [toJson, ofJson?, Value.ofJson?_toJson, readBack]
  | many vs =>
    have hbytes : Value.ofJson? (Value.listToJson vs) = (vs.mapM Value.asByte?).map .bytes := by
      rw [Value.listToJson, Value.ofJson?, List.mapM_map]
      exact congrArg (fun read => (vs.mapM read).map Value.bytes)
        (funext Value.byteOfJson?_toJson)
    rw [toJson, ofJson?, hbytes, readBack]
    cases vs.mapM Value.asByte? with
    | some b => rfl
    | none => exact congrArg (Option.map many) (Value.listOfJson?_listToJson vs)

/-- An operand is read back as it was unless it is mistaken for bytes. -/
lemma readBack_eq_self_iff {o : Operand} : o.readBack = o ↔ o.IsDistinct := by
  cases o with
  | one v => exact iff_of_true rfl trivial
  | many vs =>
    have hnone : vs.mapM Value.asByte? = none ↔ (many vs).IsDistinct := by
      simp only [mapM_eq_none_iff, IsDistinct, Value.asByte?_eq_none_iff]
    rw [← hnone, readBack]
    cases vs.mapM Value.asByte? with
    | some b => exact ⟨nofun, nofun⟩
    | none => exact iff_of_true rfl rfl

end Operand

/-! ## Conditions and filters -/

/-- The condition that is read in place of one that was written. -/
def Condition.readBack (c : Condition) : Condition :=
  { c with operand := c.operand.readBack }

lemma Condition.ofJson?_toJson (c : Condition) : ofJson? c.toJson = some c.readBack := by
  obtain ⟨field, lookup, operand⟩ := c
  cases lookup <;> simp [toJson, ofJson?, Json.fieldsOf?, Json.field?, Json.text?, lookupOfJson?,
    Operand.ofJson?_toJson, readBack]

namespace Filter

lemma toJsonEach_eq (fs : List Filter) : toJsonEach fs = fs.map toJson := by
  induction fs with
  | nil => rfl
  | cons f fs ih => rw [toJsonEach, ih, List.map_cons]

lemma ofJsonEach?_eq (js : List Json) : ofJsonEach? js = js.mapM ofJson? := by
  induction js with
  | nil => rfl
  | cons j js ih => rw [ofJsonEach?, ih, List.mapM_cons]; rfl

mutual

/-- The filter that is read in place of one that was written. -/
def readBack : Filter → Filter
  | .leaf c => .leaf c.readBack
  | .all parts => .all (readBackEach parts)
  | .any parts => .any (readBackEach parts)
  | .not part => .not part.readBack

/-- The filters that are read in place of several. -/
def readBackEach : List Filter → List Filter
  | [] => []
  | f :: rest => f.readBack :: readBackEach rest

end

lemma readBackEach_eq (fs : List Filter) : readBackEach fs = fs.map readBack := by
  induction fs with
  | nil => rfl
  | cons f fs ih => rw [readBackEach, ih, List.map_cons]

/-- Every condition of a filter is read back on its own. -/
lemma ofJson?_toJson (f : Filter) : ofJson? f.toJson = some f.readBack := by
  induction f with
  | leaf c => simp [toJson, ofJson?, readBack, c.ofJson?_toJson]
  | all parts ih =>
    have hparts := mapM_map_eq_some ih
    simp [toJson, ofJson?, ofJsonList?, readBack, toJsonEach_eq, ofJsonEach?_eq, readBackEach_eq,
      hparts]
  | any parts ih =>
    have hparts := mapM_map_eq_some ih
    simp [toJson, ofJson?, ofJsonList?, readBack, toJsonEach_eq, ofJsonEach?_eq, readBackEach_eq,
      hparts]
  | not part ih => simp [toJson, ofJson?, readBack, ih]

lemma map_readBack_eq_self_iff {fs : List Filter} :
    fs.map readBack = fs ↔ ∀ f ∈ fs, f.readBack = f := by
  conv_lhs => rhs; rw [← List.map_id fs]
  exact List.map_inj_left

lemma readBack_eq_self_iff {f : Filter} :
    f.readBack = f ↔ ∀ c ∈ f.conditions, c.operand.IsDistinct := by
  induction f with
  | leaf c =>
    obtain ⟨field, lookup, operand⟩ := c
    rw [readBack, Condition.readBack, conditions_leaf, List.forall_mem_singleton,
      ← Operand.readBack_eq_self_iff]
    simp
  | all parts ih =>
    rw [readBack, readBackEach_eq, all.injEq, map_readBack_eq_self_iff, forall_conditions_all]
    exact forall₂_congr ih
  | any parts ih =>
    rw [readBack, readBackEach_eq, any.injEq, map_readBack_eq_self_iff, forall_conditions_any]
    exact forall₂_congr ih
  | not part ih => rw [readBack, not.injEq, conditions_not, ih]

/-- A filter can always be read back from its JSON form.  What is read is the filter itself exactly
when no list of values in it could be bytes; where one could, that list is read as bytes and all
else is read as it was. -/
theorem ofJson?_toJson_iff (f : Filter) :
    ofJson? f.toJson = some f.readBack ∧
      (ofJson? f.toJson = some f ↔ ∀ c ∈ f.conditions, c.operand.IsDistinct) := by
  refine ⟨ofJson?_toJson f, ?_⟩
  rw [ofJson?_toJson, Option.some_inj, readBack_eq_self_iff]

/-- A choice of two small integers is read back as a condition on bytes, which the entry that was
chosen does not satisfy. -/
theorem ofJson?_toJson_small_integers :
    let f := Filter.leaf ⟨"uid", some "in", .many [.int 1, .int 2]⟩
    let g := Filter.leaf ⟨"uid", some "in", .one (.bytes [1, 2])⟩
    let e := (Entry.named "cn=Ann").insert "uid" [.int 1]
    ofJson? f.toJson = some g ∧ ofJson? f.toJson ≠ some f ∧ f.accepts e = true ∧
      g.accepts e = false := by
  intro f g e
  have hread : ofJson? f.toJson = some g := by
    rw [ofJson?_toJson]
    rfl
  refine ⟨hread, ?_, by decide +kernel, by decide +kernel⟩
  rw [hread]
  simp [f, g]

end Filter

end DirectoryQuery
