import InterfacePlan.Proofs.Import.Table
import InterfacePlan.Proofs.Text.Parts
/-!
# Version suffixes

A reference names a version if it ends in a mark and digits, wherever else marks stand in it. The
digits hold no mark, so this mark is the last one, and the name before it may itself end in a
version. So there is a single way to read the suffix, and the versioned name of any interface is
taken apart again.

## Main definitions

* `Import.IsVersionText`: texts of decimal digits
* `Import.HasSuffix`: a text that ends in a mark and a version
* `Import.IsLastMark`: a text cut at its last mark

## Main results

* `Import.HasSuffix.isLastMark`: a suffix starts at the last mark
* `Import.split_outcome`: how every text is split
-/

namespace InterfacePlan.Import

/-- **The text of a version**: decimal digits of any script, and at least one. -/
structure IsVersionText (s : String) : Prop where
  ne_empty : s ≠ ""
  isDecimalDigit : ∀ c ∈ s.toList, DigitClass.isDecimalDigit c = true

/-- **A text that ends in a mark and a version**, behind some name. -/
structure HasSuffix (s name version : String) : Prop where
  eq : s = name ++ "-V" ++ version
  isVersionText : IsVersionText version

/-- **A text cut at its last mark**: no mark stands further behind. -/
structure IsLastMark (s before behind : String) : Prop where
  eq : s = before ++ "-V" ++ behind
  length_le : ∀ b a, s = b ++ "-V" ++ a → b.length ≤ before.length

variable {s name version : String}

/-! ## Marks -/

/-- The characters of a text with a mark. -/
theorem toList_append_mark (before behind : String) :
    (before ++ "-V" ++ behind).toList = before.toList ++ '-' :: 'V' :: behind.toList := by
  rw [String.toList_append, String.toList_append, List.append_assoc]
  rfl

/-- Digits hold no hyphen, and neither does the letter of the mark. -/
theorem IsVersionText.hyphen_not_mem (hversion : IsVersionText version) :
    '-' ∉ 'V' :: version.toList := by
  intro h
  rcases List.mem_cons.1 h with h | h
  · exact absurd h (by decide)
  · simpa using hversion.isDecimalDigit _ h

namespace HasSuffix

variable (hs : HasSuffix s name version)
include hs

/-- **A suffix starts at the last mark.** -/
theorem isLastMark : IsLastMark s name version where
  eq := hs.eq
  length_le b a h := by
    have hchars := congrArg String.toList (h.symm.trans hs.eq)
    rw [toList_append_mark, toList_append_mark] at hchars
    rw [← String.length_toList, ← String.length_toList]
    exact Text.length_le_of_append_cons_eq hchars hs.isVersionText.hyphen_not_mem

theorem split_eq : split s = (name, some version) :=
  split_eq_some_iff.2 ⟨hs.eq, hs.isVersionText.ne_empty, hs.isVersionText.isDecimalDigit⟩

/-- There is a single way to read a suffix. -/
theorem unique {n v : String} (h : HasSuffix s n v) : n = name ∧ v = version := by
  obtain ⟨hname, hversion⟩ := Prod.mk.inj (h.split_eq.symm.trans hs.split_eq)
  exact ⟨hname, Option.some.inj hversion⟩

end HasSuffix

/-! ## Splitting -/

theorem namesVersion_iff_hasSuffix :
    NamesVersion s ↔ ∃ name version, HasSuffix s name version := by
  constructor
  · rintro ⟨name, digits, heq, hne, hdigits⟩
    exact ⟨name, digits, heq, hne, hdigits⟩
  · rintro ⟨name, version, heq, hne, hdigits⟩
    exact ⟨name, version, heq, hne, hdigits⟩

/-- **How every text is split.** A text names a version exactly if it ends in a mark and digits. It
is then split at this mark, which is the last one in it, and there is no other way to read the
suffix. Any other text is a name as a whole. So an interface and a version are got back from the
versioned name, whatever the interface is called. -/
theorem split_outcome :
    (∀ s, hasVersion s = true ↔ ∃ name version, HasSuffix s name version)
      ∧ (∀ s name version, HasSuffix s name version →
          split s = (name, some version) ∧ IsLastMark s name version
            ∧ ∀ n v, HasSuffix s n v → n = name ∧ v = version)
      ∧ (∀ s, (¬∃ name version, HasSuffix s name version) → split s = (s, none))
      ∧ ∀ (i : Interface) (version : String), IsVersionText version →
          split (i.versionedName version) = (i.name, some version) := by
  refine ⟨fun s => hasVersion_iff.trans namesVersion_iff_hasSuffix,
    fun s name version hs => ?_, fun s hnone => ?_, fun i version hversion => ?_⟩
  · exact ⟨hs.split_eq, hs.isLastMark, fun n v h => hs.unique h⟩
  · rw [← namesVersion_iff_hasSuffix, ← hasVersion_iff, Bool.not_eq_true] at hnone
    exact split_of_hasVersion_eq_false hnone
  · have hs : HasSuffix (i.versionedName version) i.name version :=
      ⟨Interface.versionedName_of_ne hversion.ne_empty, hversion⟩
    exact hs.split_eq

/-- An interface whose name ends in a version, at a version in another script, and a mark without
digits. -/
theorem split_outcome_nested : split "a-V1-V٣" = ("a-V1", some "٣")
    ∧ split (Interface.versionedName { name := "a-V1" } "2") = ("a-V1", some "2")
    ∧ split "a-V1-V" = ("a-V1-V", none) := by
  obtain ⟨hsuffix, hsplit, hnone, hnamed⟩ := split_outcome
  have htwo : IsVersionText "2" := ⟨by decide, List.forall_mem_singleton.2 (by decide)⟩
  have hthree : IsVersionText "٣" := ⟨by decide, List.forall_mem_singleton.2 (by decide)⟩
  refine ⟨(hsplit _ _ _ ⟨by decide, hthree⟩).1, hnamed _ _ htwo, hnone _ ?_⟩
  rw [← hsuffix]
  decide

end InterfacePlan.Import
