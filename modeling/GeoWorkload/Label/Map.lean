import GeoWorkload.Label

/-!
# Maps from labels

Values under labels, in order (`LabelMap`).  Labels that are the same key share one entry: a value put under
such a label takes the place of the one that is there, and the others stay as they are
(`LabelMap.get?_set`).
-/

namespace GeoWorkload

/-- Values under labels, in order. -/
abbrev LabelMap (α : Type) := List (Label × α)

namespace LabelMap

variable {α : Type}

/-- The value under a label, if there is one. -/
def get? (m : LabelMap α) (key : Label) : Option α :=
  (m.find? fun entry => entry.1.same key).map (·.2)

/-- The map with a value under a label; a label that is there keeps its place and its spelling. -/
def set : (m : LabelMap α) → (key : Label) → (value : α) → LabelMap α
  | [], key, value => [(key, value)]
  | (other, old) :: rest, key, value =>
    if other.same key then (other, value) :: rest else (other, old) :: set rest key value

/-- The map with the values of a list put under their labels in turn. -/
def setAll (m : LabelMap α) (entries : List (Label × α)) : LabelMap α :=
  entries.foldl (fun m entry => m.set entry.1 entry.2) m

@[simp] theorem get?_nil (key : Label) : get? ([] : LabelMap α) key = none := rfl

theorem get?_set (m : LabelMap α) (key other : Label) (value : α) :
    (m.set key value).get? other = if key.same other then some value else m.get? other := by
  induction m with
  | nil => by_cases h : key.same other <;> simp [get?, set, h]
  | cons entry rest ih =>
    by_cases hk : entry.1.same key
    · have := Label.same_congr hk other
      by_cases h : key.same other <;> simp [get?, set, hk, this, h]
    · by_cases ho : entry.1.same other
      · have : key.same other = false := by
          simp only [Label.same, decide_eq_true_eq, decide_eq_false_iff_not] at hk ho ⊢
          exact fun h => hk (ho.trans h.symm)
        simp [get?, set, hk, ho, this]
      · simpa [get?, set, hk, ho] using ih

@[simp] theorem get?_set_same (m : LabelMap α) (key : Label) (value : α) :
    (m.set key value).get? key = some value := by
  simp [get?_set, Label.same_self]

end LabelMap

end GeoWorkload
