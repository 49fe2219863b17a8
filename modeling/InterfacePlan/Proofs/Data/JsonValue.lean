import Mathlib.Logic.Function.Basic
import Mathlib.Data.List.Basic
import InterfacePlan.Collection.SortedMap
import InterfacePlan.Data.Basic
/-!
# JSON values

What a reader of JSON sees of structured data: a record is known by the values of its fields alone,
whatever their order, and of several fields with one name the last one counts. So a record tells
its fields apart as long as no two of them have the same name, also when some of them are left out.

## Main definitions

* `JsonValue`, `Data.value`: the JSON value of structured data
* `Data.fieldValues`: the values of the fields of a record
* `Data.Faithful`: whether a data form tells all values of a type apart

## Main results

* `Data.fieldValues_append_inj`: fields with a name of their own can be split off a record
* `Data.faithful_record_of_map`: a record of all entries of a map tells maps apart
-/

namespace InterfacePlan

/-- **A JSON value.** A record gives every name the value of its field, if it has one. -/
inductive JsonValue where
  | null
  | bool (b : Bool)
  | int (n : Int)
  | float (literal : String)
  | text (s : String)
  | list (items : List JsonValue)
  | record (fields : String → Option JsonValue)
  deriving Inhabited

namespace Data

mutual

/-- **The JSON value of structured data.** Dates and times are texts in JSON. -/
def value : Data → JsonValue
  | null => .null
  | bool b => .bool b
  | int n => .int n
  | float literal => .float literal
  | datetime literal => .text literal
  | text s => .text s
  | list items => .list (values items)
  | record fields => .record (fieldValues fields)

/-- The values of a list of data. -/
def values : List Data → List JsonValue
  | [] => []
  | d :: ds => d.value :: values ds

/-- **The values of the fields of a record**: of several ones with the same name, that of the
last. -/
def fieldValues : List (String × Data) → String → Option JsonValue
  | [], _ => none
  | (key, d) :: fs, k => (fieldValues fs k).or (if key = k then some d.value else none)

end

/-! ## Data forms -/

section Faithful

variable {α : Type} {encode : α → Data}

/-- **A faithful data form**: different values have different JSON values. -/
def Faithful (encode : α → Data) : Prop := Function.Injective fun a => (encode a).value

@[simp] theorem faithful_bool : Faithful bool := fun b c h => by simpa [value] using h

@[simp] theorem faithful_text : Faithful text := fun s t h => by simpa [value] using h

theorem values_eq_map (ds : List Data) : values ds = ds.map value := by
  induction ds with
  | nil => rfl
  | cons d ds ih => rw [values, ih, List.map_cons]

theorem faithful_list (h : Faithful encode) : Faithful fun as : List α => list (as.map encode) := by
  intro as bs hvalue
  have hitems : as.map (value ∘ encode) = bs.map (value ∘ encode) := by
    simpa [value, values_eq_map] using hvalue
  exact List.map_injective_iff.2 h hitems

@[simp] theorem faithful_texts : Faithful texts := faithful_list faithful_text

/-- An option is told from a value by its null. -/
theorem faithful_optional (h : Faithful encode) (hnull : ∀ a, (encode a).value ≠ .null) :
    Faithful (optional encode) := by
  intro o o' hvalue
  cases o with
  | none =>
    cases o' with
    | none => rfl
    | some b => exact absurd hvalue.symm (hnull b)
  | some a =>
    cases o' with
    | none => exact absurd hvalue (hnull a)
    | some b => exact congrArg some (h hvalue)

@[simp] theorem faithful_optional_bool : Faithful (optional bool) :=
  faithful_optional faithful_bool fun _ => by simp [value]

@[simp] theorem faithful_optional_text : Faithful (optional text) :=
  faithful_optional faithful_text fun _ => by simp [value]

end Faithful

/-! ## Names of fields -/

variable {fs gs fs' gs' : List (String × Data)} {key k : String}

/-- The names of fields, in order. -/
def fieldNames (fs : List (String × Data)) : List String := fs.map (·.1)

@[simp] theorem fieldNames_nil : fieldNames [] = [] := rfl

@[simp] theorem fieldNames_cons (f : String × Data) : fieldNames (f :: fs) = f.1 :: fieldNames fs :=
  rfl

@[simp] theorem fieldNames_append : fieldNames (fs ++ gs) = fieldNames fs ++ fieldNames gs :=
  List.map_append

theorem fieldValues_eq_none_iff : fieldValues fs k = none ↔ k ∉ fieldNames fs := by
  induction fs with
  | nil => simp [fieldValues]
  | cons f fs ih =>
    rw [fieldValues, fieldNames_cons, List.mem_cons, not_or, ← ih]
    by_cases hk : f.1 = k
    · simp [hk]
    · simp [hk, Ne.symm hk]

theorem fieldValues_append :
    fieldValues (fs ++ gs) k = (fieldValues gs k).or (fieldValues fs k) := by
  induction fs with
  | nil => simp [fieldValues]
  | cons f fs ih => rw [List.cons_append, fieldValues, ih, fieldValues, Option.or_assoc]

/-- **Parts of a record whose fields have different names** are told apart one by one. -/
theorem fieldValues_append_inj (hgs : ∀ k ∈ fieldNames fs ++ fieldNames fs', k ∉ fieldNames gs)
    (hgs' : ∀ k ∈ fieldNames fs ++ fieldNames fs', k ∉ fieldNames gs') :
    fieldValues (fs ++ gs) = fieldValues (fs' ++ gs') ↔
      fieldValues fs = fieldValues fs' ∧ fieldValues gs = fieldValues gs' := by
  constructor
  · intro h
    rw [← forall_and.trans (and_congr funext_iff.symm funext_iff.symm)]
    intro k
    have hk := congrFun h k
    rw [fieldValues_append, fieldValues_append] at hk
    by_cases hmem : k ∈ fieldNames fs ++ fieldNames fs'
    · have hn := fieldValues_eq_none_iff.2 (hgs k hmem)
      have hn' := fieldValues_eq_none_iff.2 (hgs' k hmem)
      rw [hn, hn'] at hk ⊢
      exact ⟨by simpa using hk, rfl⟩
    · rw [List.mem_append, not_or] at hmem
      have hn := fieldValues_eq_none_iff.2 hmem.1
      have hn' := fieldValues_eq_none_iff.2 hmem.2
      rw [hn, hn'] at hk ⊢
      exact ⟨rfl, by simpa using hk⟩
  · rintro ⟨h, h'⟩
    funext k
    rw [fieldValues_append, fieldValues_append, h, h']

/-! ## Records field by field

A field that is always there and one that is left out for a single value are both fields that may be
left out. The lemmas below take them off the front of a record; what they ask for, that no later
field has the same name, is left to comparing literals. -/

section Fields

variable {α : Type} {encode : α → Data}

/-- What is written of a value that may be left out. -/
def kept (omitted : α → Bool) (a : α) : Option α := if omitted a then none else some a

/-- Leaving out a single value loses nothing. -/
theorem kept_injective {omitted : α → Bool}
    (single : ∀ a b, omitted a = true → omitted b = true → a = b) :
    Function.Injective (kept omitted) := by
  intro a b h
  unfold kept at h
  split at h <;> split at h
  case isTrue.isTrue ha hb => exact single a b ha hb
  case isTrue.isFalse => cases h
  case isFalse.isTrue => cases h
  case isFalse.isFalse => exact Option.some.inj h

@[simp] theorem kept_isEmpty_inj {ss ts : List String} :
    kept List.isEmpty ss = kept List.isEmpty ts ↔ ss = ts :=
  Function.Injective.eq_iff (kept_injective fun ss ts hs ht => by simp_all)

@[simp] theorem textsField_eq (key : String) (ss : List String) :
    textsField key ss = optionalField key texts (kept List.isEmpty ss) := by
  unfold textsField kept
  split <;> rfl

theorem eq_of_mem_fieldNames_optionalField {o : Option α}
    (h : k ∈ fieldNames (optionalField key encode o)) : k = key := by
  cases o with
  | none => cases h
  | some a => exact List.mem_singleton.1 h

@[simp] theorem not_mem_fieldNames_optionalField (hne : k ≠ key) (o : Option α) :
    k ∉ fieldNames (optionalField key encode o) :=
  fun h => hne (eq_of_mem_fieldNames_optionalField h)

@[simp] theorem fieldValues_optionalField_inj (he : Faithful encode) {o o' : Option α} :
    fieldValues (optionalField key encode o) = fieldValues (optionalField key encode o') ↔
      o = o' := by
  refine ⟨fun h => ?_, fun h => by rw [h]⟩
  have hkey := congrFun h key
  cases o <;> cases o' <;> simp only [optionalField, fieldValues, if_pos, Option.none_or,
    Option.some.injEq, reduceCtorEq] at hkey
  case none.none => rfl
  case some.some => exact congrArg some (he hkey)

@[simp] theorem fieldValues_optionalField_append_inj (he : Faithful encode)
    (hgs : key ∉ fieldNames gs) (hgs' : key ∉ fieldNames gs') {o o' : Option α} :
    fieldValues (optionalField key encode o ++ gs)
        = fieldValues (optionalField key encode o' ++ gs') ↔
      o = o' ∧ fieldValues gs = fieldValues gs' := by
  have hkey : ∀ k ∈ fieldNames (optionalField key encode o)
      ++ fieldNames (optionalField key encode o'), k = key := by
    intro k hk
    rcases List.mem_append.1 hk with hk | hk <;> exact eq_of_mem_fieldNames_optionalField hk
  rw [fieldValues_append_inj (fun k hk => by rwa [hkey k hk]) fun k hk => by rwa [hkey k hk],
    fieldValues_optionalField_inj he]

@[simp] theorem fieldValues_cons_inj (he : Faithful encode) (hgs : key ∉ fieldNames gs)
    (hgs' : key ∉ fieldNames gs') {a b : α} :
    fieldValues ((key, encode a) :: gs) = fieldValues ((key, encode b) :: gs') ↔
      a = b ∧ fieldValues gs = fieldValues gs' := by
  change fieldValues (optionalField key encode (some a) ++ gs)
    = fieldValues (optionalField key encode (some b) ++ gs') ↔ _
  rw [fieldValues_optionalField_append_inj he hgs hgs', Option.some_inj]

end Fields

/-! ## Records -/

theorem record_value_inj : (record fs).value = (record gs).value ↔
    fieldValues fs = fieldValues gs := by
  rw [value, value, JsonValue.record.injEq]

theorem faithful_record {α : Type} {fields : α → List (String × Data)}
    (h : ∀ a b, fieldValues (fields a) = fieldValues (fields b) → a = b) :
    Faithful fun a => record (fields a) :=
  fun a b hvalue => h a b (record_value_inj.1 hvalue)

/-- The record of the entries of a map has the fields that look-up finds. -/
theorem fieldValues_map_toList {α : Type} (m : SortedMap String α) (encode : α → Data)
    (k : String) :
    fieldValues (m.toList.map fun e => (e.1, encode e.2)) k
      = (m.get? k).map fun a => (encode a).value := by
  obtain ⟨es, hes⟩ := m
  change _ = (SortedMap.lookup k es).map _
  induction es with
  | nil => rfl
  | cons e es ih =>
    obtain ⟨he, hes⟩ := List.pairwise_cons.1 hes
    rw [List.map_cons, fieldValues, ih hes, SortedMap.lookup]
    by_cases hk : e.1 = k
    · have hnone : SortedMap.lookup k es = none := by
        rw [Option.eq_none_iff_forall_ne_some]
        intro a ha
        have hlt := he (k, a) ((SortedMap.lookup_eq_some_iff hes).1 ha)
        rw [hk] at hlt
        exact SortedMap.compare_self_ne_lt k hlt
      simp [hk, hnone]
    · simp [hk]

/-- **A record of all entries of a map** tells maps apart if its fields tell the entries apart. -/
theorem faithful_record_of_map {α : Type} {encode : α → Data} (he : Faithful encode) :
    Faithful fun m : SortedMap String α => record (m.toList.map fun e => (e.1, encode e.2)) := by
  apply faithful_record
  intro m n h
  apply SortedMap.ext_get?
  intro k
  have hk := congrFun h k
  rw [fieldValues_map_toList, fieldValues_map_toList] at hk
  exact Option.map_injective he hk

end Data

end InterfacePlan
