import InterfacePlan.Plan.Record
import InterfacePlan.Proofs.Data.JsonValue
/-!
# The JSON form of plans

The JSON form of a plan determines the plan. In no record do two fields have the same name, also
where the name and the kind of a module stand beside its properties, or the state of an
implementation beside its placeholder. A field is left out for a single value alone. And the tags of
kinds and states, which decide what the other fields of a record mean, are all different.

## Main results

* `NativeBinary.fieldValues_inj`, and its like for the other properties: the fields of a record
  determine the properties
* `ModuleKind.eq_of_fieldValues`: so do those of a module together with the tag
* `Plan.toData_value_inj`: the JSON form of a plan loses nothing
-/

namespace InterfacePlan

open Data

/-! ## Properties of modules -/

@[simp] theorem Backend.tag_eq_iff {a b : Backend} : a.tag = b.tag ↔ a = b :=
  ⟨Backend.tag_inj, congrArg _⟩

@[simp] theorem Backend.faithful_tag : Faithful fun b : Backend => Data.text b.tag := by
  intro a b h
  exact Backend.tag_inj (faithful_text h)

@[simp] theorem Backend.faithful_optional_tag :
    Faithful (optional fun b : Backend => Data.text b.tag) :=
  faithful_optional Backend.faithful_tag fun _ => by simp [value]

theorem SourceGenerator.fieldValues_inj {p q : SourceGenerator} :
    fieldValues p.fields = fieldValues q.fields ↔ p = q := by
  cases p; cases q
  simp [fields]

@[simp] theorem ImageOverrides.faithful_toData : Faithful ImageOverrides.toData := by
  intro p q h
  cases p; cases q
  simpa [toData, value] using h

@[simp] theorem TargetOverrides.faithful_toData : Faithful TargetOverrides.toData := by
  intro p q h
  cases p; cases q
  simpa [toData, value] using h

@[simp] theorem VndkProperties.faithful_toData : Faithful VndkProperties.toData := by
  intro p q h
  cases p; cases q
  simpa [toData, value] using h

@[simp] theorem VndkProperties.kept_isEmpty_inj {v w : VndkProperties} :
    kept VndkProperties.isEmpty v = kept VndkProperties.isEmpty w ↔ v = w :=
  Function.Injective.eq_iff <|
    kept_injective fun v w hv hw => by rw [isEmpty_iff.1 hv, isEmpty_iff.1 hw]

@[simp] theorem VndkProperties.field_eq (v : VndkProperties) :
    (if v.isEmpty then [] else [("vndk", v.toData)])
      = optionalField "vndk" VndkProperties.toData (kept VndkProperties.isEmpty v) := by
  unfold kept
  split <;> rfl

theorem NativeBinary.fieldValues_inj {p q : NativeBinary} :
    fieldValues p.fields = fieldValues q.fields ↔ p = q := by
  obtain ⟨⟨⟩⟩ := p
  obtain ⟨⟨⟩⟩ := q
  simp [fields, Availability.fields, and_assoc]

@[simp] theorem LintOptions.faithful_toData : Faithful LintOptions.toData := by
  intro p q h
  cases p; cases q
  simpa [toData, value] using h

theorem ManagedLibrary.fieldValues_inj {p q : ManagedLibrary} :
    fieldValues p.fields = fieldValues q.fields ↔ p = q := by
  cases p; cases q
  simp [fields]

theorem MemorySafeLibrary.fieldValues_inj {p q : MemorySafeLibrary} :
    fieldValues p.fields = fieldValues q.fields ↔ p = q := by
  cases p; cases q
  simp [fields]

/-! ## Modules -/

/-- The properties of a module leave the names of its own fields alone. -/
theorem ModuleKind.not_mem_fieldNames (kind : ModuleKind) {key : String}
    (h : key = "name" ∨ key = "kind") : key ∉ fieldNames kind.fields := by
  rcases h with rfl | rfl <;> cases kind <;>
    simp [fields, SourceGenerator.fields, NativeBinary.fields, Availability.fields,
      ManagedLibrary.fields, MemorySafeLibrary.fields]

/-- **A kind is determined by its tag and its fields**: the tag tells which properties the fields
stand for. -/
theorem ModuleKind.eq_of_fieldValues {k l : ModuleKind} (htag : k.tag = l.tag)
    (h : fieldValues k.fields = fieldValues l.fields) : k = l := by
  cases k <;> cases l <;> simp only [tag, String.reduceEq] at htag
  case sourceGenerator.sourceGenerator => rw [SourceGenerator.fieldValues_inj.1 h]
  case nativeLibrary.nativeLibrary => rw [NativeBinary.fieldValues_inj.1 h]
  case managedLibrary.managedLibrary => rw [ManagedLibrary.fieldValues_inj.1 h]
  case memorySafeLibrary.memorySafeLibrary => rw [MemorySafeLibrary.fieldValues_inj.1 h]
  case analyzerBinary.analyzerBinary => rw [NativeBinary.fieldValues_inj.1 h]

theorem Module.faithful_toData : Faithful Module.toData := by
  apply faithful_record
  rintro ⟨m, k⟩ ⟨n, l⟩ h
  change fieldValues (("name", text m) :: ("kind", text k.tag) :: k.fields)
    = fieldValues (("name", text n) :: ("kind", text l.tag) :: l.fields) at h
  have hname : ∀ kind : ModuleKind, "name" ∉ fieldNames kind.fields := fun kind =>
    kind.not_mem_fieldNames (.inl rfl)
  have hkind : ∀ kind : ModuleKind, "kind" ∉ fieldNames kind.fields := fun kind =>
    kind.not_mem_fieldNames (.inr rfl)
  obtain ⟨rfl, hrest⟩ :=
    (fieldValues_cons_inj faithful_text (by simp [hname]) (by simp [hname])).1 h
  obtain ⟨htag, hfields⟩ := (fieldValues_cons_inj faithful_text (hkind k) (hkind l)).1 hrest
  rw [ModuleKind.eq_of_fieldValues htag hfields]

/-! ## Implementations -/

@[simp] theorem Placeholder.not_mem_fieldNames (p : Placeholder) :
    "state" ∉ fieldNames p.fields := by
  simp [fields]

@[simp] theorem Placeholder.fieldValues_inj {p q : Placeholder} :
    fieldValues p.fields = fieldValues q.fields ↔ p = q := by
  cases p; cases q
  simp [fields, Module.faithful_toData]

theorem Implementation.faithful_toData : Faithful Implementation.toData := by
  intro s t h
  cases s <;> cases t
  case declared.declared => simpa [toData, value] using h
  case declared.finished => simp [toData, value] at h
  case finished.declared => simp [toData, value] at h
  case finished.finished => simpa [toData, value] using h

/-! ## Plans -/

theorem SkippedRequest.faithful_toData : Faithful SkippedRequest.toData := by
  intro s t h
  cases s; cases t
  simpa [toData, value] using h

theorem ModuleGraph.faithful_toData : Faithful ModuleGraph.toData := by
  apply faithful_record
  rintro ⟨ms, is⟩ ⟨ns, js⟩ h
  obtain ⟨rfl, hrest⟩ := (fieldValues_cons_inj (faithful_record_of_map Module.faithful_toData)
    (by simp) (by simp)).1 h
  obtain ⟨rfl, -⟩ := (fieldValues_cons_inj (faithful_record_of_map Implementation.faithful_toData)
    (by simp) (by simp)).1 hrest
  rfl

/-- **The JSON form of a plan loses nothing**: plans have the same JSON value only if they are the
same, whatever their modules and implementations are. -/
theorem Plan.toData_value_inj (p q : Plan) : p.toData.value = q.toData.value ↔ p = q := by
  refine ⟨fun h => ?_, fun h => by rw [h]⟩
  obtain ⟨g, skipped⟩ := p
  obtain ⟨g', skipped'⟩ := q
  have hfields := record_value_inj.1 h
  obtain ⟨rfl, hrest⟩ :=
    (fieldValues_cons_inj ModuleGraph.faithful_toData (by simp) (by simp)).1 hfields
  obtain ⟨rfl, -⟩ := (fieldValues_cons_inj (faithful_list SkippedRequest.faithful_toData)
    (by simp) (by simp)).1 hrest
  rfl

end InterfacePlan
