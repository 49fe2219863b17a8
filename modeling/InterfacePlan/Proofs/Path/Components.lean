import Mathlib.Data.List.Basic
import InterfacePlan.Path.Basic
import InterfacePlan.Proofs.Text.Parts
/-!
# Components of paths

A path that goes on behind a slash has the components of its start and those of the parts behind it;
only the start decides whether there is a root or a single dot. Paths are ordered by their
components, so two paths are in no strict order exactly if their components are the same.

## Main definitions

* `Path.asDirectory`: a path with a slash at its end
* `Path.keys`: what paths are compared by

## Main results

* `Path.components_append_slash`: the components of a path that goes on behind a slash
* `Path.components_asDirectory`: the components of something in a directory
* `Path.compareComponents_eq_eq_iff`: paths of the same rank have the same components
* `Path.le_trans`, `Path.le_total`: the order of paths
-/

namespace InterfacePlan.Path

variable {p q r : Path} {cs : List Char}

/-! ## Components -/

theorem component?_eq_none_iff {part : List Char} :
    component? part = none ↔ part = [] ∨ part = ['.'] := by
  unfold component?
  split
  case isTrue h => simpa using h
  case isFalse h =>
    refine iff_of_false ?_ (by simpa using h)
    split <;> simp

theorem components_ofList_slash (cs : List Char) : components (String.ofList ('/' :: cs))
    = .root :: (Text.splitOn '/' cs).filterMap component? := by
  simp only [components, String.toList_ofList]

/-- The components of a relative path, by its first part and those behind it. -/
theorem components_of_splitOn {part : List Char} {parts : List (List Char)}
    (hcs : cs.head? ≠ some '/') (hparts : Text.splitOn '/' cs = part :: parts) :
    components (String.ofList cs)
      = (if part = ['.'] then [.current] else (component? part).toList)
          ++ parts.filterMap component? := by
  unfold components
  rw [String.toList_ofList]
  split
  case h_1 => simp at hcs
  case h_2 =>
    rw [hparts]
    split
    case h_1 heq =>
      cases heq
      simp
    case h_2 hne =>
      rw [if_neg fun hpart => hne parts (by rw [hpart])]
      cases hcomponent : component? part <;> simp [hcomponent]

/-- A relative path that does not start with a dot has the components of its parts. -/
theorem components_of_head_ne {cs : List Char} (hcs : cs.head? ≠ some '/')
    (hdot : (Text.splitOn '/' cs).head? ≠ some ['.']) :
    components (String.ofList cs) = (Text.splitOn '/' cs).filterMap component? := by
  obtain ⟨part, parts, hparts⟩ := List.exists_cons_of_ne_nil (Text.splitOn_ne_nil '/' cs)
  have hpart : part ≠ ['.'] := by simpa [hparts] using hdot
  rw [components_of_splitOn hcs hparts, hparts, if_neg hpart]
  cases hcomponent : component? part <;> simp [hcomponent]

/-- **The components of a path that goes on behind a slash.** -/
theorem components_append_slash (hcs : cs ≠ []) (rest : List Char) :
    components (String.ofList (cs ++ '/' :: rest))
      = components (String.ofList cs) ++ (Text.splitOn '/' rest).filterMap component? := by
  obtain ⟨c, cs, rfl⟩ := List.exists_cons_of_ne_nil hcs
  by_cases hc : c = '/'
  · subst hc
    rw [List.cons_append, components_ofList_slash, components_ofList_slash,
      Text.splitOn_append_cons, List.filterMap_append]
    rfl
  · have hhead : (c :: cs).head? ≠ some '/' := by simpa using hc
    obtain ⟨part, parts, hparts⟩ := List.exists_cons_of_ne_nil (Text.splitOn_ne_nil '/' (c :: cs))
    have hwhole : Text.splitOn '/' (c :: cs ++ '/' :: rest)
        = part :: (parts ++ Text.splitOn '/' rest) := by
      rw [Text.splitOn_append_cons, hparts, List.cons_append]
    rw [components_of_splitOn hhead hparts, components_of_splitOn (by simpa using hc) hwhole,
      List.filterMap_append, List.append_assoc]

/-- Only the empty path has no components. -/
theorem components_ne_nil (hp : p ≠ "") : components p ≠ [] := by
  obtain ⟨c, cs, hcs⟩ := List.exists_cons_of_ne_nil (mt String.toList_eq_nil_iff.1 hp)
  obtain rfl := String.ofList_toList ▸ congrArg String.ofList hcs
  by_cases hc : c = '/'
  · rw [hc, components_ofList_slash]
    exact List.cons_ne_nil _ _
  · obtain ⟨part, parts, hparts⟩ := List.exists_cons_of_ne_nil (Text.splitOn_ne_nil '/' (c :: cs))
    rw [components_of_splitOn (by simpa using hc) hparts]
    have hpart : part ≠ [] := by
      rw [Text.splitOn, if_neg hc] at hparts
      split at hparts <;> cases hparts <;> exact List.cons_ne_nil _ _
    by_cases hdot : part = ['.']
    · simp [hdot]
    · have hsome : component? part ≠ none := by simp [component?_eq_none_iff, hpart, hdot]
      obtain ⟨c, hc⟩ := Option.ne_none_iff_exists'.1 hsome
      simp [hdot, hc]

/-! ## Paths of directories -/

/-- A path with a slash at its end, for the path of something in the directory. -/
def asDirectory (p : Path) : List Char :=
  if p.toList.getLast? = some '/' then p.toList else p.toList ++ ['/']

/-- Joining puts a relative path behind the slash. -/
theorem toList_join (hp : p ≠ "") (hq : q.toList.head? ≠ some '/') :
    (join p q).toList = asDirectory p ++ q.toList := by
  have hlast : ∃ c, p.toList.getLast? = some c := by
    rw [← Option.isSome_iff_exists, List.getLast?_isSome]
    exact mt String.toList_eq_nil_iff.1 hp
  obtain ⟨c, hc⟩ := hlast
  rw [join, isAbsolute, if_neg (by simpa using hq), asDirectory, hc]
  by_cases hslash : c = '/'
  · simp [hslash]
  · simp [hslash, String.toList_append]

/-- The path of a directory ends in a slash. -/
theorem exists_asDirectory_eq (p : Path) : ∃ cs, asDirectory p = cs ++ ['/']
    ∧ (cs = p.toList ∨ p.toList = cs ++ ['/']) := by
  unfold asDirectory
  split
  case isTrue h =>
    obtain ⟨cs, hcs⟩ := List.getLast?_eq_some_iff.1 h
    exact ⟨cs, hcs, .inr hcs⟩
  case isFalse => exact ⟨p.toList, rfl, .inl rfl⟩

/-- **The components of something in a directory** are those of the directory and of the way. -/
theorem components_asDirectory (hp : p ≠ "") (rest : List Char) :
    components (String.ofList (asDirectory p ++ rest))
      = components p ++ (Text.splitOn '/' rest).filterMap component? := by
  obtain ⟨cs, hcs, hp' | hp'⟩ := exists_asDirectory_eq p
  · have hne : cs ≠ [] := hp' ▸ mt String.toList_eq_nil_iff.1 hp
    rw [hcs, List.append_assoc, List.singleton_append, components_append_slash hne, hp',
      String.ofList_toList]
  · rw [hcs, List.append_assoc, List.singleton_append]
    obtain rfl : p = String.ofList (cs ++ ['/']) := by rw [← hp', String.ofList_toList]
    by_cases hne : cs = []
    · subst hne
      rw [List.nil_append, List.nil_append, components_ofList_slash, components_ofList_slash]
      rfl
    · rw [components_append_slash hne, components_append_slash hne, List.append_assoc]
      rfl

/-! ## The order of paths -/

theorem Component.key_injective : Function.Injective Component.key := by
  intro a b h
  cases a <;> cases b <;> simp_all [Component.key]

/-- The components of a path, as they are compared. -/
def keys (p : Path) : List (List String) := (components p).map Component.key

theorem keys_eq_iff : keys p = keys q ↔ components p = components q :=
  (List.map_injective_iff.2 Component.key_injective).eq_iff

theorem compareComponents_eq (p q : Path) : compareComponents p q = compare (keys p) (keys q) := rfl

theorem compareComponents_eq_eq_iff :
    compareComponents p q = .eq ↔ components p = components q := by
  rw [compareComponents_eq, Std.LawfulEqCmp.compare_eq_iff_eq, keys_eq_iff]

theorem same_iff : same p q = true ↔ components p = components q := by
  simp [same]

theorem le_iff : le p q = true ↔ (compare (keys p) (keys q)).isLE = true := Iff.rfl

theorem le_total (p q : Path) : (le p q || le q p) = true := by
  rw [Bool.or_eq_true, le_iff, le_iff]
  by_cases h : (compare (keys p) (keys q)).isLE = true
  · exact .inl h
  · right
    rw [Std.OrientedCmp.lt_of_not_isLE h]
    rfl

theorem le_trans (hpq : le p q = true) (hqr : le q r = true) : le p r = true := by
  rw [le_iff] at *
  exact Std.TransCmp.isLE_trans hpq hqr

theorem compareComponents_trans (hpq : compareComponents p q = .lt)
    (hqr : compareComponents q r = .lt) : compareComponents p r = .lt := by
  rw [compareComponents_eq] at *
  exact Std.TransCmp.lt_trans hpq hqr

theorem compareComponents_eq_lt_iff :
    compareComponents p q = .lt ↔ le p q = true ∧ same p q = false := by
  rw [← Bool.not_eq_true, same_iff, ← compareComponents_eq_eq_iff, le]
  cases compareComponents p q <;> simp

end InterfacePlan.Path
