import Mathlib.Data.List.Forall2
/-!
# Outcomes of sequences

Laws of `Except` for computations one after the other: a sequence succeeds when all its members do,
and otherwise fails like the first member that fails.

## Main results

* `Outcome.bind_eq_ok_iff`, `Outcome.bind_eq_error_iff`: two computations
* `Outcome.mapM_eq_ok_iff`, `Outcome.mapM_eq_error_iff`: one computation for each entry of a list
-/

namespace InterfacePlan.Outcome

variable {ε α β : Type}

theorem eq_ok_or_eq_error (x : Except ε α) : (∃ a, x = .ok a) ∨ ∃ e, x = .error e := by
  cases x with
  | ok a => exact .inl ⟨a, rfl⟩
  | error e => exact .inr ⟨e, rfl⟩

theorem exists_ok_of_isOk {x : Except ε α} (h : x.isOk = true) : ∃ a, x = .ok a := by
  cases x with
  | ok a => exact ⟨a, rfl⟩
  | error e => cases h

@[simp] theorem pure_eq (a : α) : (pure a : Except ε α) = .ok a := rfl

theorem ok_bind {f : α → Except ε β} (a : α) : (Except.ok a >>= f) = f a := rfl

theorem bind_eq_ok_iff {x : Except ε α} {f : α → Except ε β} {b : β} :
    (x >>= f) = .ok b ↔ ∃ a, x = .ok a ∧ f a = .ok b := by
  cases x <;> simp [bind, Except.bind]

theorem bind_eq_error_iff {x : Except ε α} {f : α → Except ε β} {e : ε} :
    (x >>= f) = .error e ↔ x = .error e ∨ ∃ a, x = .ok a ∧ f a = .error e := by
  cases x <;> simp [bind, Except.bind]

theorem map_eq_ok_iff {x : Except ε α} {f : α → β} {b : β} :
    x.map f = .ok b ↔ ∃ a, x = .ok a ∧ f a = b := by
  cases x <;> simp [Except.map]

theorem map_eq_error_iff {x : Except ε α} {f : α → β} {e : ε} :
    x.map f = .error e ↔ x = .error e := by
  cases x <;> simp [Except.map]

theorem exists_map_eq_ok_iff {x : Except ε α} {f : α → β} :
    (∃ b, x.map f = .ok b) ↔ ∃ a, x = .ok a := by
  simp [map_eq_ok_iff]

theorem exists_bind_eq_ok_iff {x : Except ε α} {f : α → Except ε β} :
    (∃ b, (x >>= f) = .ok b) ↔ ∃ a, x = .ok a ∧ ∃ b, f a = .ok b := by
  cases x <;> simp [bind, Except.bind]

theorem mapError_eq_ok_iff {ε' : Type} {x : Except ε α} {f : ε → ε'} {a : α} :
    x.mapError f = .ok a ↔ x = .ok a := by
  cases x <;> simp [Except.mapError]

/-- In related lists, every entry on the left is related to one on the right. -/
theorem exists_right_of_forall₂ {R : α → β → Prop} {xs : List α} {ys : List β}
    (h : List.Forall₂ R xs ys) {x : α} (hx : x ∈ xs) : ∃ y ∈ ys, R x y := by
  induction h with
  | nil => simp at hx
  | cons hR _ ih =>
    rcases List.mem_cons.1 hx with rfl | hx
    · exact ⟨_, List.mem_cons_self .., hR⟩
    · obtain ⟨y, hy, hxy⟩ := ih hx
      exact ⟨y, List.mem_cons_of_mem _ hy, hxy⟩

/-- Lists that are related to one list are equal if what is related to each of its entries is. -/
theorem eq_of_forall₂ {R S : α → β → Prop} {xs : List α} {ys zs : List β}
    (h : ∀ x ∈ xs, ∀ y z, R x y → S x z → y = z) (hR : List.Forall₂ R xs ys)
    (hS : List.Forall₂ S xs zs) : ys = zs := by
  induction hR generalizing zs with
  | nil =>
    cases hS
    rfl
  | cons hxy _ ih =>
    cases hS with
    | cons hxz hS =>
      rw [h _ (List.mem_cons_self ..) _ _ hxy hxz,
        ih (fun x hx => h x (List.mem_cons_of_mem _ hx)) hS]

variable {f : α → Except ε β}

/-- A sequence succeeds when its members do, with their results in order. -/
theorem mapM_eq_ok_iff {xs : List α} {ys : List β} :
    xs.mapM f = .ok ys ↔ List.Forall₂ (fun x y => f x = .ok y) xs ys := by
  induction xs generalizing ys with
  | nil => simp [eq_comm]
  | cons x xs ih =>
    rw [List.mapM_cons, List.forall₂_cons_left_iff]
    simp only [bind_eq_ok_iff, pure_eq, Except.ok.injEq, ih]
    constructor
    · rintro ⟨y, hy, ys', hys, rfl⟩
      exact ⟨y, ys', hy, hys, rfl⟩
    · rintro ⟨y, ys', hy, hys, rfl⟩
      exact ⟨y, hy, ys', hys, rfl⟩

/-- A sequence fails like the first member that fails. -/
theorem mapM_eq_error_iff {xs : List α} {e : ε} :
    xs.mapM f = .error e ↔
      ∃ before x after, xs = before ++ x :: after ∧ (∀ y ∈ before, ∃ b, f y = .ok b)
        ∧ f x = .error e := by
  induction xs with
  | nil => simp
  | cons x xs ih =>
    rw [List.mapM_cons, bind_eq_error_iff]
    constructor
    · rintro (h | ⟨b, hb, h⟩)
      · exact ⟨[], x, xs, rfl, by simp, h⟩
      · obtain h | ⟨bs, -, h⟩ := bind_eq_error_iff.1 h
        · obtain ⟨before, y, after, rfl, hbefore, hy⟩ := ih.1 h
          refine ⟨x :: before, y, after, rfl, ?_, hy⟩
          intro z hz
          rcases List.mem_cons.1 hz with rfl | hz
          · exact ⟨b, hb⟩
          · exact hbefore z hz
        · cases h
    · rintro ⟨before, y, after, hxs, hbefore, hy⟩
      cases before with
      | nil =>
        obtain ⟨rfl, rfl⟩ := List.cons.inj hxs
        exact .inl hy
      | cons z before =>
        obtain ⟨rfl, rfl⟩ := List.cons.inj hxs
        obtain ⟨b, hb⟩ := hbefore x (List.mem_cons_self ..)
        refine .inr ⟨b, hb, bind_eq_error_iff.2 (.inl (ih.2 ?_))⟩
        exact ⟨before, y, after, rfl, fun w hw => hbefore w (List.mem_cons_of_mem _ hw), hy⟩

theorem exists_mapM_eq_ok_iff {xs : List α} :
    (∃ ys, xs.mapM f = .ok ys) ↔ ∀ x ∈ xs, ∃ y, f x = .ok y := by
  constructor
  · rintro ⟨ys, h⟩ x hx
    obtain ⟨y, -, hy⟩ := exists_right_of_forall₂ (mapM_eq_ok_iff.1 h) hx
    exact ⟨y, hy⟩
  · intro h
    rcases eq_ok_or_eq_error (xs.mapM f) with hok | ⟨e, he⟩
    · exact hok
    · obtain ⟨before, x, after, rfl, -, hx⟩ := mapM_eq_error_iff.1 he
      obtain ⟨y, hy⟩ := h x (by simp)
      rw [hy] at hx
      cases hx

/-- Two sequences one after the other succeed like a single one. -/
theorem mapM_bind_eq_ok_iff {γ : Type} {k : β → Except ε γ} {xs : List α} {zs : List γ} :
    (xs.mapM f >>= List.mapM k) = .ok zs ↔ xs.mapM (fun x => f x >>= k) = .ok zs := by
  simp only [bind_eq_ok_iff, mapM_eq_ok_iff]
  induction xs generalizing zs with
  | nil => simp
  | cons x xs ih =>
    simp only [List.forall₂_cons_left_iff, ← ih]
    constructor
    · rintro ⟨_, ⟨y, ys, hy, hys, rfl⟩, hboth⟩
      obtain ⟨z, zs, hz, hzs, rfl⟩ := List.forall₂_cons_left_iff.1 hboth
      exact ⟨z, zs, ⟨y, hy, hz⟩, ⟨ys, hys, hzs⟩, rfl⟩
    · rintro ⟨z, zs, ⟨y, hy, hz⟩, ⟨ys, hys, hzs⟩, rfl⟩
      exact ⟨y :: ys, ⟨y, ys, hy, hys, rfl⟩, .cons hz hzs⟩

/-- When the first of two sequences succeeds, the second one goes on like a single one. -/
theorem mapM_bind_of_eq_ok {γ : Type} {k : β → Except ε γ} {xs : List α} {ys : List β}
    (h : xs.mapM f = .ok ys) : xs.mapM (fun x => f x >>= k) = ys.mapM k := by
  rw [mapM_eq_ok_iff] at h
  induction h with
  | nil => rfl
  | cons hxy _ ih => rw [List.mapM_cons, List.mapM_cons, hxy, ok_bind, ih]

/-! ## Steps that build on each other -/

variable {step : β → α → Except ε β}

/-- What every step keeps, a sequence of steps keeps. -/
theorem of_foldlM_eq_ok {P : β → Prop} {xs : List α} {b c : β}
    (hstep : ∀ b, P b → ∀ x ∈ xs, ∀ c, step b x = .ok c → P c) (hb : P b)
    (h : xs.foldlM step b = .ok c) : P c := by
  induction xs generalizing b with
  | nil =>
    obtain rfl := Except.ok.inj h
    exact hb
  | cons x xs ih =>
    rw [List.foldlM_cons] at h
    obtain ⟨d, hd, h⟩ := bind_eq_ok_iff.1 h
    have hP : P d := hstep b hb x (List.mem_cons_self ..) d hd
    exact ih (fun b hb y hy => hstep b hb y (List.mem_cons_of_mem x hy)) hP h

theorem exists_step_of_foldlM_eq_error {xs : List α} {b : β} {e : ε}
    (h : xs.foldlM step b = .error e) : ∃ x ∈ xs, ∃ c, step c x = .error e := by
  induction xs generalizing b with
  | nil => cases h
  | cons x xs ih =>
    rw [List.foldlM_cons] at h
    obtain h | ⟨c, -, h⟩ := bind_eq_error_iff.1 h
    · exact ⟨x, List.mem_cons_self .., b, h⟩
    · obtain ⟨y, hy, hstep⟩ := ih h
      exact ⟨y, List.mem_cons_of_mem _ hy, hstep⟩

theorem exists_step_of_foldlM_eq_ok {xs : List α} {b c : β} (h : xs.foldlM step b = .ok c)
    {x : α} (hx : x ∈ xs) : ∃ d e, step d x = .ok e := by
  induction xs generalizing b with
  | nil => simp at hx
  | cons y xs ih =>
    rw [List.foldlM_cons] at h
    obtain ⟨d, hd, h⟩ := bind_eq_ok_iff.1 h
    rcases List.mem_cons.1 hx with rfl | hx
    · exact ⟨b, d, hd⟩
    · exact ih h hx

end InterfacePlan.Outcome
