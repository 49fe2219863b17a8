/-!
# Sorted maps

Finite maps that keep their entries in strictly increasing key order. Because the order is part
of the type, two maps with the same look-ups are equal, and listing a map is deterministic.

## Main definitions

* `SortedMap`: entries in strictly increasing key order
* `SortedMap.get?`, `SortedMap.insert`, `SortedMap.toList`: look-up, insertion, listing

## Main results

* `SortedMap.get?_insert`: looking up after an insertion
* `SortedMap.mem_toList_iff`: the listing holds exactly what look-up finds
* `SortedMap.ext_get?`: maps with the same look-ups are equal
-/

namespace InterfacePlan

variable {κ : Type} {α : Type}

/-- **A sorted map**: each key at most once, keys strictly increasing. -/
structure SortedMap (κ : Type) (α : Type) [Ord κ] where
  /-- The entries, in key order. -/
  toList : List (κ × α)
  /-- Keys strictly increase along the listing. -/
  sorted : toList.Pairwise fun a b => compare a.1 b.1 = .lt

namespace SortedMap

/-! ## Entry lists -/

/-- The value stored under `k` in a list of entries. -/
def lookup [DecidableEq κ] (k : κ) : List (κ × α) → Option α
  | [] => none
  | e :: es => if e.1 = k then some e.2 else lookup k es

/-- Put `a` under `k`, replacing what was stored there. -/
def insertEntry [Ord κ] (k : κ) (a : α) : List (κ × α) → List (κ × α)
  | [] => [(k, a)]
  | e :: es =>
    match compare k e.1 with
    | .lt => (k, a) :: e :: es
    | .eq => (k, a) :: es
    | .gt => e :: insertEntry k a es

theorem compare_self_ne_lt [Ord κ] [Std.ReflOrd κ] (k : κ) : compare k k ≠ .lt := by
  rw [show compare k k = .eq from Std.ReflCmp.compare_self]
  decide

theorem mem_of_mem_insertEntry [Ord κ] {k : κ} {a : α} {e : κ × α} {es : List (κ × α)}
    (h : e ∈ insertEntry k a es) : e = (k, a) ∨ e ∈ es := by
  induction es with
  | nil => simpa [insertEntry] using h
  | cons d es ih =>
    unfold insertEntry at h
    split at h <;> grind

theorem sorted_insertEntry [Ord κ] [Std.TransOrd κ] [Std.LawfulEqOrd κ] (k : κ) (a : α)
    {es : List (κ × α)} (h : es.Pairwise fun a b => compare a.1 b.1 = .lt) :
    (insertEntry k a es).Pairwise fun a b => compare a.1 b.1 = .lt := by
  induction es with
  | nil => simp [insertEntry]
  | cons e es ih =>
    obtain ⟨he, hes⟩ := List.pairwise_cons.1 h
    unfold insertEntry
    split
    case h_1 hlt =>
      refine List.pairwise_cons.2 ⟨fun d hd => ?_, h⟩
      rcases List.mem_cons.1 hd with rfl | hd
      · exact hlt
      · exact Std.TransCmp.lt_trans hlt (he d hd)
    case h_2 heq =>
      refine List.pairwise_cons.2 ⟨fun d hd => ?_, hes⟩
      rw [Std.LawfulEqCmp.eq_of_compare heq]
      exact he d hd
    case h_3 hgt =>
      refine List.pairwise_cons.2 ⟨fun d hd => ?_, ih hes⟩
      rcases mem_of_mem_insertEntry hd with rfl | hd
      · exact Std.OrientedCmp.lt_of_gt hgt
      · exact he d hd

theorem lookup_insertEntry [DecidableEq κ] [Ord κ] [Std.LawfulEqOrd κ] (k j : κ) (a : α)
    (es : List (κ × α)) :
    lookup j (insertEntry k a es) = if k = j then some a else lookup j es := by
  induction es with
  | nil => simp [insertEntry, lookup]
  | cons e es ih =>
    unfold insertEntry
    split
    case h_1 => simp [lookup]
    case h_2 heq =>
      rw [Std.LawfulEqCmp.eq_of_compare heq]
      by_cases h : e.1 = j <;> simp [lookup, h]
    case h_3 hgt =>
      have hne : k ≠ e.1 := fun h => by
        rw [h, show compare e.1 e.1 = .eq from Std.ReflCmp.compare_self] at hgt
        exact absurd hgt (by decide)
      simp only [lookup, ih]
      grind

theorem lookup_eq_some_iff [DecidableEq κ] [Ord κ] [Std.ReflOrd κ] {k : κ} {a : α}
    {es : List (κ × α)} (h : es.Pairwise fun a b => compare a.1 b.1 = .lt) :
    lookup k es = some a ↔ (k, a) ∈ es := by
  induction es with
  | nil => simp [lookup]
  | cons e es ih =>
    obtain ⟨he, hes⟩ := List.pairwise_cons.1 h
    by_cases hk : e.1 = k
    · subst hk
      have hn : ∀ b, (e.1, b) ∉ es := fun b hb => compare_self_ne_lt e.1 (he (e.1, b) hb)
      rw [show lookup e.1 (e :: es) = some e.2 by simp [lookup], List.mem_cons]
      constructor
      · intro h
        obtain rfl := Option.some.inj h
        exact .inl rfl
      · rintro (h | h)
        · exact congrArg some (congrArg Prod.snd h).symm
        · exact absurd h (hn a)
    · rw [show lookup k (e :: es) = lookup k es by simp [lookup, hk], ih hes, List.mem_cons]
      refine ⟨.inr, fun h => h.resolve_left fun h => hk (by rw [← h])⟩

/-! ## Maps -/

section Operations

variable [Ord κ]

/-- The map without entries. -/
def empty : SortedMap κ α := ⟨[], .nil⟩

instance : EmptyCollection (SortedMap κ α) := ⟨empty⟩

instance : Inhabited (SortedMap κ α) := ⟨empty⟩

/-- The value stored under `k`. -/
def get? [DecidableEq κ] (m : SortedMap κ α) (k : κ) : Option α := lookup k m.toList

/-- Whether a key has an entry. -/
def contains [DecidableEq κ] (m : SortedMap κ α) (k : κ) : Bool := (m.get? k).isSome

/-- Store `a` under `k`, replacing what was stored there. -/
def insert [Std.TransOrd κ] [Std.LawfulEqOrd κ] (m : SortedMap κ α) (k : κ) (a : α) :
    SortedMap κ α :=
  ⟨insertEntry k a m.toList, sorted_insertEntry k a m.sorted⟩

/-- The number of entries. -/
def size (m : SortedMap κ α) : Nat := m.toList.length

/-- Whether there are no entries. -/
def isEmpty (m : SortedMap κ α) : Bool := m.toList.isEmpty

/-- The keys, in increasing order. -/
def keys (m : SortedMap κ α) : List κ := m.toList.map (·.1)

/-- The values, in the order of their keys. -/
def values (m : SortedMap κ α) : List α := m.toList.map (·.2)

end Operations

section Lemmas

variable [Ord κ]

@[simp] theorem toList_empty : (∅ : SortedMap κ α).toList = [] := rfl

variable [DecidableEq κ]

@[simp] theorem get?_empty (k : κ) : (∅ : SortedMap κ α).get? k = none := rfl

theorem get?_insert [Std.TransOrd κ] [Std.LawfulEqOrd κ] (m : SortedMap κ α) (k j : κ) (a : α) :
    (m.insert k a).get? j = if k = j then some a else m.get? j :=
  lookup_insertEntry k j a m.toList

@[simp] theorem get?_insert_self [Std.TransOrd κ] [Std.LawfulEqOrd κ] (m : SortedMap κ α) (k : κ)
    (a : α) : (m.insert k a).get? k = some a := by
  simp [get?_insert]

/-- The listing holds exactly what look-up finds. -/
theorem mem_toList_iff [Std.ReflOrd κ] {m : SortedMap κ α} {k : κ} {a : α} :
    (k, a) ∈ m.toList ↔ m.get? k = some a :=
  (lookup_eq_some_iff m.sorted).symm

@[simp] theorem contains_iff {m : SortedMap κ α} {k : κ} :
    m.contains k = true ↔ ∃ a, m.get? k = some a := by
  simp [contains, Option.isSome_iff_exists]

/-- **Extensionality**: maps with the same look-ups are equal. -/
theorem ext_get? [Std.TransOrd κ] {m n : SortedMap κ α}
    (h : ∀ k, m.get? k = n.get? k) : m = n := by
  obtain ⟨xs, hxs⟩ := m
  obtain ⟨ys, hys⟩ := n
  have key : ∀ k a, (k, a) ∈ xs ↔ (k, a) ∈ ys := fun k a => by
    rw [← lookup_eq_some_iff hxs, ← lookup_eq_some_iff hys]
    exact iff_of_eq (congrArg (· = some a) (h k))
  clear h
  suffices xs = ys by subst this; rfl
  induction xs generalizing ys with
  | nil =>
    cases ys with
    | nil => rfl
    | cons y ys => exact absurd ((key y.1 y.2).2 (List.mem_cons_self ..)) (by simp)
  | cons x xs ih =>
    cases ys with
    | nil => exact absurd ((key x.1 x.2).1 (List.mem_cons_self ..)) (by simp)
    | cons y ys =>
      obtain ⟨hx, hxs'⟩ := List.pairwise_cons.1 hxs
      obtain ⟨hy, hys'⟩ := List.pairwise_cons.1 hys
      -- The first entries are the least ones of the same entries, so they are the same.
      have hxy : x = y := by
        rcases List.mem_cons.1 ((key x.1 x.2).1 (List.mem_cons_self ..)) with h | h
        · exact h
        rcases List.mem_cons.1 ((key y.1 y.2).2 (List.mem_cons_self ..)) with h' | h'
        · exact h'.symm
        exact absurd (Std.TransCmp.lt_trans (hx _ h') (hy _ h)) (compare_self_ne_lt _)
      subst hxy
      congr 1
      apply ih hxs' _ hys'
      intro k a
      have hk := key k a
      simp only [List.mem_cons] at hk
      constructor
      · intro h
        rcases hk.1 (.inr h) with h' | h'
        · exact absurd (hx _ h) (by rw [← h']; exact compare_self_ne_lt _)
        · exact h'
      · intro h
        rcases hk.2 (.inr h) with h' | h'
        · exact absurd (hy _ h) (by rw [← h']; exact compare_self_ne_lt _)
        · exact h'

end Lemmas

end SortedMap

end InterfacePlan
