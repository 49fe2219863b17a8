import Mathlib.Data.List.Nodup
import Mathlib.Logic.Relation
import InterfacePlan.Data.Decode
import InterfacePlan.Proofs.Collection.Outcome
import InterfacePlan.Proofs.Data.JsonValue
/-!
# Forms of records

Data may be written in more than one way: fields that hold their defaults may be left out, fields
with other names may be added, and fields may stand in any order, at every level. A form says which
fields the records at a level have, and so what may be changed there. A reader that looks up its
fields by name, with the defaults of the form, reads the same from data before and after a change.

## Main definitions

* `Form`: the fields of records and their defaults, level by level
* `Form.Change`: one change of data that its form allows
* `Form.Respects`: whether a reader reads the same before and after every change

## Main results

* `Form.Respects.eq_of_changes`: a reader that respects one change respects any number of them
* `Form.respects_list`, `Form.respects_record`: readers of lists and of records
-/

namespace InterfacePlan

open Data (field? fieldNames read require asText asBool asTexts asList asOptional)
open Relation (ReflTransGen)

/-- **The form of structured data.** A record has a form for each of its fields, and the data that
the field may be left out for, if there is any. -/
inductive Form where
  /-- Data that is read as it stands. -/
  | plain
  | list (item : Form)
  | record (fields : List (String × Option Data × Form))

namespace Form

/-- The fields of a record, by name: the default and the form of each. -/
abbrev Fields : Type := List (String × Option Data × Form)

/-! ## Fields of plain values -/

/-- A field for an optional value. -/
def optional (key : String) : String × Option Data × Form := (key, some .null, plain)

/-- A field for a truth value that is false by default. -/
def flag (key : String) : String × Option Data × Form := (key, some (.bool false), plain)

/-- A field for a text that is empty by default. -/
def text (key : String) : String × Option Data × Form := (key, some (.text ""), plain)

/-- A field for a list of texts that is empty by default. -/
def texts (key : String) : String × Option Data × Form := (key, some (.list []), plain)

/-! ## Changes -/

/-- **One change of data** that its form allows. -/
inductive Change : Form → Data → Data → Prop
  /-- A field that holds its default is left out. -/
  | leaveOut {fields : Fields} {key : String} {d : Data} {form : Form}
    (before after : List (String × Data)) (known : fields.lookup key = some (some d, form))
    (single : key ∉ fieldNames (before ++ after)) :
    Change (record fields) (.record (before ++ (key, d) :: after)) (.record (before ++ after))
  /-- A field with a name that the form does not use is added. -/
  | add {fields : Fields} {key : String} (before after : List (String × Data)) (d : Data)
    (unused : fields.lookup key = none) :
    Change (record fields) (.record (before ++ after)) (.record (before ++ (key, d) :: after))
  /-- Two fields with different names change places. -/
  | swap {fields : Fields} {f g : String × Data} (before after : List (String × Data))
    (differ : f.1 ≠ g.1) :
    Change (record fields) (.record (before ++ f :: g :: after))
      (.record (before ++ g :: f :: after))
  /-- The value of a field is changed. -/
  | inField {fields : Fields} {key : String} {default? : Option Data} {form : Form} {d d' : Data}
    (before after : List (String × Data)) (known : fields.lookup key = some (default?, form))
    (change : Change form d d') :
    Change (record fields) (.record (before ++ (key, d) :: after))
      (.record (before ++ (key, d') :: after))
  /-- An item of a list is changed. -/
  | inItem {item : Form} {d d' : Data} (before after : List Data) (change : Change item d d') :
    Change (list item) (.list (before ++ d :: after)) (.list (before ++ d' :: after))

/-- **What a change makes of a single field**, by its values before and after. -/
inductive FieldChange (default? : Option Data) (form : Form) : Option Data → Option Data → Prop
  | same (o : Option Data) : FieldChange default? form o o
  | leftOut {d : Data} (holds : default? = some d) : FieldChange default? form (some d) none
  | within {d d' : Data} (change : Change form d d') :
    FieldChange default? form (some d) (some d')

/-- What a change makes of all fields that a form knows. -/
def FieldsChange (fields : Fields) (fs fs' : List (String × Data)) : Prop :=
  ∀ key default? form, fields.lookup key = some (default?, form) →
    FieldChange default? form (field? key fs) (field? key fs')

/-! ## Single fields -/

variable {fields : Fields} {fs fs' gs : List (String × Data)} {key k : String} {d d' : Data}

theorem field?_append : field? k (fs ++ gs) = (field? k fs).or (field? k gs) := by
  induction fs with
  | nil => rfl
  | cons f fs ih =>
    rw [List.cons_append, Data.field?_cons, Data.field?_cons, ih]
    split <;> rfl

theorem field?_eq_none (h : k ∉ fieldNames fs) : field? k fs = none := by
  induction fs with
  | nil => rfl
  | cons f fs ih =>
    rw [Data.fieldNames_cons, List.mem_cons, not_or] at h
    rw [Data.field?_cons, if_neg (Ne.symm h.1), ih h.2]

/-- Every change of a record leaves, leaves out or changes each of its fields. -/
theorem Change.exists_fields (h : Change (record fields) d d') :
    ∃ fs fs', d = .record fs ∧ d' = .record fs' ∧ FieldsChange fields fs fs' := by
  cases h with
  | @leaveOut _ key d form before after known single =>
    refine ⟨_, _, rfl, rfl, fun k default? form' hk => ?_⟩
    rw [field?_append, field?_append, Data.field?_cons]
    by_cases hkey : key = k
    · subst hkey
      obtain ⟨rfl, -⟩ := Prod.mk.inj (Option.some.inj (known.symm.trans hk))
      rw [Data.fieldNames_append, List.mem_append, not_or] at single
      rw [field?_eq_none single.1, field?_eq_none single.2, if_pos rfl]
      exact .leftOut rfl
    · rw [if_neg hkey]
      exact .same _
  | @add _ key before after d unused =>
    refine ⟨_, _, rfl, rfl, fun k default? form hk => ?_⟩
    have hkey : key ≠ k := by
      rintro rfl
      rw [unused] at hk
      cases hk
    rw [field?_append, field?_append, Data.field?_cons, if_neg hkey]
    exact .same _
  | @swap _ f g before after differ =>
    refine ⟨_, _, rfl, rfl, fun k default? form hk => ?_⟩
    simp only [field?_append, Data.field?_cons]
    have hone : ¬(f.1 = k ∧ g.1 = k) := fun h => differ (h.1.trans h.2.symm)
    split <;> split <;> first | exact absurd ⟨‹_›, ‹_›⟩ hone | exact .same _
  | @inField _ key default?' form' d d' before after known change =>
    refine ⟨_, _, rfl, rfl, fun k default? form hk => ?_⟩
    rw [field?_append, field?_append, Data.field?_cons, Data.field?_cons]
    by_cases hkey : key = k
    · subst hkey
      obtain ⟨rfl, rfl⟩ := Prod.mk.inj (Option.some.inj (known.symm.trans hk))
      rw [if_pos rfl, if_pos rfl]
      cases field? key before with
      | none => exact .within change
      | some e => exact .same _
    · rw [if_neg hkey, if_neg hkey]
      exact .same _

/-- **Fields that hold their defaults may be left out together.** The induction is on the fields
from which some are left out, behind those that are known to stay. -/
theorem leaveOut_filter (stays : String → Bool) (before fs : List (String × Data))
    (single : (fieldNames (before ++ fs)).Nodup)
    (hdefault : ∀ f ∈ fs, stays f.1 = true ∨ ∃ form, fields.lookup f.1 = some (some f.2, form)) :
    ReflTransGen (Change (record fields)) (.record (before ++ fs))
      (.record (before ++ fs.filter fun f => stays f.1)) := by
  induction fs generalizing before with
  | nil => exact .refl
  | cons f fs ih =>
    have hrest := fun g hg => hdefault g (List.mem_cons_of_mem f hg)
    cases hf : stays f.1 with
    | true =>
      simp only [List.filter_cons, hf, if_true]
      rw [List.append_cons] at single
      rw [List.append_cons, List.append_cons before f (fs.filter _)]
      exact ih _ single hrest
    | false =>
      simp only [List.filter_cons, hf, Bool.false_eq_true, if_false]
      obtain ⟨form, known⟩ := (hdefault f List.mem_cons_self).resolve_left (by simp [hf])
      rw [Data.fieldNames_append, Data.fieldNames_cons, List.nodup_middle, List.nodup_cons,
        ← Data.fieldNames_append] at single
      exact .head (.leaveOut before fs known single.1) (ih before single.2 hrest)

/-! ## Readers -/

/-- **A reader that respects a form** reads the same before and after every change. -/
def Respects {α : Type} (form : Form) (decode : Data → Except DecodeError α) : Prop :=
  ∀ d d', form.Change d d' → decode d' = decode d

variable {α : Type} {form : Form} {decode : Data → Except DecodeError α}

/-- A reader that respects one change respects any number of them. -/
theorem Respects.eq_of_changes (h : form.Respects decode)
    (hchanges : ReflTransGen form.Change d d') : decode d' = decode d := by
  induction hchanges with
  | refl => rfl
  | tail _ hchange ih => rw [h _ _ hchange, ih]

/-- Data that is read as it stands does not change. -/
theorem respects_plain : plain.Respects decode := by
  rintro _ _ ⟨⟩

theorem respects_list (h : form.Respects decode) : (list form).Respects (asList decode) := by
  rintro _ _ ⟨⟩
  case inItem d d' before after change =>
    change (before ++ d' :: after).mapM decode = (before ++ d :: after).mapM decode
    rw [List.mapM_append, List.mapM_append, List.mapM_cons, List.mapM_cons, h d d' change]

/-- A reader of records respects their form if it reads the same from fields before and after. -/
theorem respects_record (h : ∀ fs fs', FieldsChange fields fs fs' →
    decode (.record fs') = decode (.record fs)) : (record fields).Respects decode := by
  intro d d' hchange
  obtain ⟨fs, fs', rfl, rfl, hfields⟩ := hchange.exists_fields
  exact h fs fs' hfields

namespace FieldsChange

/-- What changes the fields of a record changes those of a part of it that way. -/
theorem left {others : Fields} (h : FieldsChange (fields ++ others) fs fs') :
    FieldsChange fields fs fs' := by
  intro key default? form known
  apply h
  rw [List.lookup_append, known]
  rfl

variable (h : FieldsChange fields fs fs')
include h

/-- A field with a default is read the same, if its reader respects its form and reads the default
from its data. -/
theorem read (key : String) {default : α} (known : fields.lookup key = some (some d, form))
    (hform : form.Respects decode) (hdefault : decode d = .ok default) :
    read fs' key decode default = read fs key decode default := by
  have hfield := h key _ form known
  unfold Data.read
  generalize field? key fs = o, field? key fs' = o' at hfield ⊢
  cases hfield with
  | same => rfl
  | leftOut holds =>
    obtain rfl := Option.some.inj holds
    simp [hdefault, Except.mapError]
  | within change => simp [hform _ _ change]

/-- A field without a default is never left out. -/
theorem require (key : String) (known : fields.lookup key = some (none, form))
    (hform : form.Respects decode) : require fs' key decode = require fs key decode := by
  have hfield := h key _ form known
  unfold Data.require
  generalize field? key fs = o, field? key fs' = o' at hfield ⊢
  cases hfield with
  | same => rfl
  | leftOut holds => cases holds
  | within change => simp [hform _ _ change]

theorem readOptional (key : String) (known : fields.lookup key = some (some .null, plain)) :
    Data.read fs' key (asOptional decode) none = Data.read fs key (asOptional decode) none :=
  h.read key known respects_plain rfl

theorem readFlag (key : String) (known : fields.lookup key = some (some (.bool false), plain)) :
    Data.read fs' key asBool false = Data.read fs key asBool false :=
  h.read key known respects_plain rfl

theorem readText (key : String) (known : fields.lookup key = some (some (.text ""), plain)) :
    Data.read fs' key asText "" = Data.read fs key asText "" :=
  h.read key known respects_plain rfl

theorem readTexts (key : String) (known : fields.lookup key = some (some (.list []), plain)) :
    Data.read fs' key asTexts [] = Data.read fs key asTexts [] :=
  h.read key known respects_plain rfl

theorem readList (key : String) (known : fields.lookup key = some (some (.list []), list form))
    (hform : form.Respects decode) :
    Data.read fs' key (asList decode) [] = Data.read fs key (asList decode) [] :=
  h.read key known (respects_list hform) rfl

end FieldsChange

end Form

end InterfacePlan
