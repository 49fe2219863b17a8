import Mathlib.Data.List.Perm.Basic
import InterfacePlan.Collection.SortedMap
/-!
# Lists in strict order

The keys of a map, the pending placeholders of a graph and the names in the report of a cycle are
listed in strict order. Such a list has no repetitions, and its members determine it.

## Main results

* `StrictOrder.nodup`: a list in strict order has no repetitions
* `StrictOrder.eq_of_perm`: lists in strict order with the same members are the same
-/

namespace InterfacePlan.StrictOrder

variable {κ : Type} [Ord κ] {ks ls : List κ}

theorem nodup [Std.ReflOrd κ] (hk : ks.Pairwise fun a b => compare a b = .lt) : ks.Nodup := by
  refine hk.imp fun {a b} hlt heq => ?_
  rw [heq] at hlt
  exact SortedMap.compare_self_ne_lt b hlt

theorem eq_of_perm [Std.TransOrd κ] (hk : ks.Pairwise fun a b => compare a b = .lt)
    (hl : ls.Pairwise fun a b => compare a b = .lt) (hperm : ks.Perm ls) : ks = ls := by
  refine List.Perm.eq_of_pairwise (fun a b _ _ hab hba => ?_) hk hl hperm
  exact absurd (Std.TransCmp.lt_trans hab hba) (SortedMap.compare_self_ne_lt a)

theorem eq_of_mem_iff [Std.TransOrd κ] (hk : ks.Pairwise fun a b => compare a b = .lt)
    (hl : ls.Pairwise fun a b => compare a b = .lt) (hmem : ∀ a, a ∈ ks ↔ a ∈ ls) : ks = ls :=
  eq_of_perm hk hl ((List.perm_ext_iff_of_nodup (nodup hk) (nodup hl)).2 hmem)

end InterfacePlan.StrictOrder
