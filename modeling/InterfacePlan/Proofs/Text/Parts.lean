import InterfacePlan.Text.Split
/-!
# Parts of texts

Texts that are put together around a separator have the parts of both sides, so splitting a path at
its slashes can follow how the path was made.

## Main results

* `Text.splitOn_append_cons`: the parts of a text around a separator
* `Text.getLast?_splitOn_eq_nil_iff`: whether the last part is empty
* `Text.splitOn_joinWith`: joined parts without separators are split again
* `Text.join_append`: joining two lists puts a single separator between them
* `Text.toList_join_slash`: names are joined like lists of characters
* `Text.length_le_of_append_cons_eq`, `Text.append_cons_inj`: a text cut at the last separator
-/

namespace InterfacePlan.Text

variable {sep : Char} {cs part : List Char} {parts : List (List Char)}

/-- A text without separators is a single part. -/
theorem splitOn_of_not_mem (h : sep ∉ cs) : splitOn sep cs = [cs] := by
  induction cs with
  | nil => rfl
  | cons c cs ih =>
    rw [List.mem_cons, not_or] at h
    rw [splitOn, if_neg (Ne.symm h.1), ih h.2]

/-- **The parts of a text around a separator** are those before and those behind it. -/
theorem splitOn_append_cons (xs ys : List Char) :
    splitOn sep (xs ++ sep :: ys) = splitOn sep xs ++ splitOn sep ys := by
  induction xs with
  | nil => simp [splitOn]
  | cons x xs ih =>
    rw [List.cons_append, splitOn, splitOn, ih]
    by_cases hx : x = sep
    · simp [hx]
    · obtain ⟨part, parts, hparts⟩ := List.exists_cons_of_ne_nil (splitOn_ne_nil sep xs)
      simp [hx, hparts]

/-- The characters of a part are characters of the text. -/
theorem subset_of_mem_splitOn (h : part ∈ splitOn sep cs) : part ⊆ cs := by
  induction cs generalizing part with
  | nil => simp_all [splitOn]
  | cons c cs ih =>
    rw [splitOn] at h
    split at h
    case isTrue =>
      rcases List.mem_cons.1 h with rfl | h
      · exact List.nil_subset _
      · exact List.subset_cons_of_subset _ (ih h)
    case isFalse =>
      obtain ⟨first, parts, hparts⟩ := List.exists_cons_of_ne_nil (splitOn_ne_nil sep cs)
      rw [hparts] at h ih
      rcases List.mem_cons.1 h with rfl | h
      · exact List.cons_subset_cons _ (ih (List.mem_cons_self ..))
      · exact List.subset_cons_of_subset _ (ih (List.mem_cons_of_mem _ h))

theorem splitOn_joinWith (hne : parts ≠ []) (h : ∀ part ∈ parts, sep ∉ part) :
    splitOn sep (joinWith sep parts) = parts := by
  induction parts with
  | nil => contradiction
  | cons part parts ih =>
    cases parts with
    | nil => exact splitOn_of_not_mem (h part (List.mem_singleton.2 rfl))
    | cons next rest =>
      have hrest := ih (by simp) fun p hp => h p (List.mem_cons_of_mem _ hp)
      rw [joinWith_cons_of_ne_nil (by simp), splitOn_append_cons,
        splitOn_of_not_mem (h part (List.mem_cons_self ..)), hrest]
      rfl

theorem joinWith_concat (hne : parts ≠ []) (part : List Char) :
    joinWith sep (parts ++ [part]) = joinWith sep parts ++ sep :: part := by
  induction parts with
  | nil => contradiction
  | cons first parts ih =>
    by_cases hparts : parts = []
    · simp [hparts, joinWith]
    · rw [List.cons_append, joinWith_cons_of_ne_nil (by simp), ih hparts,
        joinWith_cons_of_ne_nil hparts, List.append_assoc, List.cons_append]

theorem mem_joinWith {c : Char} (h : c ∈ joinWith sep parts) :
    c = sep ∨ ∃ part ∈ parts, c ∈ part := by
  induction parts with
  | nil => simp [joinWith] at h
  | cons first parts ih =>
    by_cases hparts : parts = []
    · exact .inr ⟨first, List.mem_cons_self .., by simpa [hparts, joinWith] using h⟩
    · rw [joinWith_cons_of_ne_nil hparts, List.mem_append, List.mem_cons] at h
      rcases h with h | h | h
      · exact .inr ⟨first, List.mem_cons_self .., h⟩
      · exact .inl h
      · obtain h | ⟨part, hpart, h⟩ := ih h
        · exact .inl h
        · exact .inr ⟨part, List.mem_cons_of_mem _ hpart, h⟩

/-- The first parts of a text are the start of it. -/
theorem joinWith_dropLast_prefix (parts : List (List Char)) :
    joinWith sep parts.dropLast <+: joinWith sep parts := by
  by_cases hne : parts.dropLast = []
  · rw [hne]
    exact List.nil_prefix
  · have hparts : parts ≠ [] := fun h => hne (by rw [h]; rfl)
    have hjoin : joinWith sep (parts.dropLast ++ [parts.getLast hparts]) = _ :=
      joinWith_concat hne (parts.getLast hparts)
    rw [List.dropLast_concat_getLast hparts] at hjoin
    rw [hjoin]
    exact List.prefix_append ..

/-- The last part is empty behind a separator, and in the empty text. -/
theorem getLast?_splitOn_eq_nil_iff :
    (splitOn sep cs).getLast? = some [] ↔ cs = [] ∨ cs.getLast? = some sep := by
  constructor
  · intro h
    obtain ⟨parts, hparts⟩ := List.getLast?_eq_some_iff.1 h
    have hcs := joinWith_splitOn sep cs
    rw [hparts] at hcs
    by_cases hne : parts = []
    · left
      rw [← hcs, hne]
      rfl
    · right
      rw [← hcs, joinWith_concat hne, List.getLast?_concat]
  · rintro (rfl | h)
    · rfl
    · obtain ⟨xs, rfl⟩ := List.getLast?_eq_some_iff.1 h
      rw [splitOn_append_cons]
      exact List.getLast?_concat

/-- Joining two lists puts a single separator between them. -/
theorem join_append {sep : String} {xs ys : List String} (hxs : xs ≠ []) (hys : ys ≠ []) :
    join sep (xs ++ ys) = join sep xs ++ sep ++ join sep ys := by
  induction xs with
  | nil => contradiction
  | cons x xs ih =>
    cases xs with
    | nil =>
      obtain ⟨y, ys, rfl⟩ := List.exists_cons_of_ne_nil hys
      exact join_cons_cons ..
    | cons next xs =>
      have hrest := ih (List.cons_ne_nil _ _)
      rw [List.cons_append] at hrest
      rw [List.cons_append, List.cons_append, join_cons_cons, hrest, join_cons_cons]
      simp only [String.append_assoc]

/-- Names are joined like lists of characters. -/
theorem toList_join_slash (names : List String) :
    (join "/" names).toList = joinWith '/' (names.map String.toList) := by
  induction names with
  | nil => rfl
  | cons s names ih =>
    cases names with
    | nil => rfl
    | cons t names =>
      have hjoin : joinWith '/' ((s :: t :: names).map String.toList)
          = s.toList ++ '/' :: joinWith '/' ((t :: names).map String.toList) :=
        joinWith_cons_of_ne_nil (by simp)
      rw [join_cons_cons, String.toList_append, String.toList_append, ih, hjoin, List.append_assoc]
      rfl

/-! ## The last separator -/

variable {before behind before' behind' : List Char}

/-- Nothing is cut off behind the last separator of a text. -/
theorem length_le_of_append_cons_eq (h : before ++ sep :: behind = before' ++ sep :: behind')
    (hlast : sep ∉ behind') : before.length ≤ before'.length := by
  rcases List.append_eq_append_iff.1 h with ⟨between, rfl, -⟩ | ⟨between, rfl, hbetween⟩
  · simp
  · cases between with
    | nil => simp
    | cons c between =>
      obtain ⟨rfl, rfl⟩ := List.cons.inj hbetween
      exact absurd (List.mem_append_right _ (List.mem_cons_self ..)) hlast

/-- **There is one last separator** in a text, so what stands before and behind it is determined. -/
theorem append_cons_inj (h : before ++ sep :: behind = before' ++ sep :: behind')
    (hlast : sep ∉ behind) (hlast' : sep ∉ behind') : before = before' ∧ behind = behind' := by
  have hlength := Nat.le_antisymm (length_le_of_append_cons_eq h hlast')
    (length_le_of_append_cons_eq h.symm hlast)
  obtain ⟨hbefore, hbehind⟩ := List.append_inj h hlength
  exact ⟨hbefore, (List.cons.inj hbehind).2⟩

end InterfacePlan.Text
