import GeoWorkload.Proofs.PredicatePools
import Mathlib.Logic.Relation

/-!
# What members of a pool are written as

A member of a pool is written as the JSON object of its fields and of what the children in its slots are
written as (`Renders`): writing follows the children as they stand, and a member from which a way down
leads back to it would not be written at all.  Calls of `attach` leave no such way
(`Grounded.not_transGen`), and so every member is written, as the JSON object of its tree
(`Grounded.renders_iff`).  What it is written as hangs on the fields and on the children in the slots of
the members on its ways down alone (`Renders.congr`), whatever calls have put them there
(`run_rendering`).
-/

namespace GeoWorkload.Predicate

variable {n : Nat}

namespace Children

theorem get?_set (cs : Children n) (slot s : Slot) (child : Fin n) :
    (cs.set slot child).get? s = if s = slot then some child else cs.get? s := by
  induction cs with
  | nil =>
      by_cases h : slot = s
      · simp [set, get?, h]
      · simp [set, get?, h, Ne.symm h]
  | cons head rest ih =>
      obtain ⟨t, i⟩ := head
      by_cases ht : t = slot
      · subst ht
        by_cases h : t = s
        · simp [set, get?, h]
        · simp [set, get?, h, Ne.symm h]
      · by_cases hs : t = s
        · subst hs
          simp [set, get?, ht]
        · simpa [set, get?, ht, hs] using ih

end Children

namespace Pool

/-! ### One more call -/

theorem fields_step (p : Pool n) (a : Attachment n) : (p.step a).fields = p.fields := by
  rcases p.step_cases a with hsame | ⟨slot, _, _, hput⟩
  · rw [hsame]
  · rw [hput]
    rfl

theorem fields_run (p : Pool n) (calls : List (Attachment n)) : (p.run calls).fields = p.fields := by
  induction calls using List.reverseRecOn with
  | nil => rfl
  | append_singleton calls a ih => rw [run_concat, fields_step, ih]

/-- A call that is rejected changes nothing. -/
theorem step_of_attach_error {p : Pool n} {a : Attachment n} {e : AttachError}
    (h : p.attach a.parent a.slot a.child = .error e) : p.step a = p := by
  rw [step, h]
  rfl

theorem get?_children_put (p : Pool n) (parent i : Fin n) (slot s : Slot) (child : Fin n) :
    ((p.put parent slot child).children i).get? s =
      if i = parent ∧ s = slot then some child else (p.children i).get? s := by
  by_cases hi : i = parent
  · subst hi
    rw [children_put_self, Children.get?_set]
    simp
  · rw [children_put_of_ne hi, if_neg fun h => hi h.1]

/-- A call that is not rejected puts a child into the slot that it names, and no other slot of any member
changes. -/
theorem get?_children_step {p q : Pool n} {a : Attachment n}
    (h : p.attach a.parent a.slot a.child = .ok q) :
    ∃ slot, Slot.ofName? a.slot = some slot ∧ ∀ i s,
      ((p.step a).children i).get? s =
        if i = a.parent ∧ s = slot then some a.child else (p.children i).get? s := by
  have hstep : p.step a = q := by
    rw [step, h]
    rfl
  unfold attach at h
  split at h
  · cases h
  · rename_i slot hslot
    refine ⟨slot, hslot, fun i s => ?_⟩
    split_ifs at h
    cases h
    rw [hstep]
    exact get?_children_put p a.parent i slot s a.child

/-! ### Writing -/

/-- The JSON object of fields and of what stands in the slots. -/
def written (fields : Fields) (nested : Slot → Json.Value) : Json.Value :=
  .object (fields.toMembers ++ Slot.all.map fun slot => ("nested" ++ slot.name, nested slot))

/-- A member is written as the object of its fields and of what the children in its slots are written as,
an empty slot as null. -/
inductive Renders (p : Pool n) : Fin n → Json.Value → Prop
  | node {i : Fin n} {nested : Slot → Json.Value}
      (empty : ∀ slot, (p.children i).get? slot = none → nested slot = .null)
      (filled : ∀ slot c, (p.children i).get? slot = some c → Renders p c (nested slot)) :
      Renders p i (written (p.fields i) nested)

/-- A member is written in one way at most. -/
theorem Renders.unique {p : Pool n} {i : Fin n} {v w : Json.Value} (hv : p.Renders i v)
    (hw : p.Renders i w) : v = w := by
  induction hv generalizing w with
  | @node i nested empty filled ih =>
      cases hw with
      | @node _ nested' empty' filled' =>
          have hnested : nested = nested' := by
            funext slot
            cases hget : (p.children i).get? slot with
            | none => rw [empty slot hget, empty' slot hget]
            | some c => exact ih slot c hget (filled' slot c hget)
          rw [hnested]

theorem toJson_treeWithin_succ (p : Pool n) (k : Nat) (i : Fin n) :
    (p.treeWithin (k + 1) i).toJson =
      written (p.fields i) fun slot => (p.below k i slot).toJson := rfl

/-- Down to more levels than there are members above it, the tree of a member is what it is written as. -/
theorem renders_treeWithin {p : Pool n} {rank : Fin n → Nat}
    (hrank : ∀ i c, p.Nests i c → rank i < rank c) {k : Nat} {i : Fin n} (hk : above rank i < k) :
    p.Renders i (p.treeWithin k i).toJson := by
  induction k generalizing i with
  | zero => omega
  | succ k ih =>
      rw [toJson_treeWithin_succ]
      refine .node (fun slot hget => ?_) fun slot c hget => ?_
      · rw [below, hget]
        rfl
      · have hc := above_lt_above (hrank i c (Children.mem_of_get? hget))
        rw [below, hget]
        exact ih (by omega)

/-- Every member of a pool without ways round is written, as the JSON object of its tree. -/
theorem Grounded.renders_iff {p : Pool n} (h : p.Grounded) {i : Fin n} {v : Json.Value} :
    p.Renders i v ↔ v = (p.tree i).toJson := by
  obtain ⟨rank, hrank⟩ := h
  have htree := renders_treeWithin hrank (above_lt rank i)
  exact ⟨fun hv => hv.unique htree, fun hv => hv ▸ htree⟩

/-- No way down leads back to where it starts. -/
theorem Grounded.not_transGen {p : Pool n} (h : p.Grounded) (i : Fin n) :
    ¬ Relation.TransGen p.Nests i i := by
  obtain ⟨rank, hrank⟩ := h
  have hlt : ∀ {c}, Relation.TransGen p.Nests i c → rank i < rank c := by
    intro c hc
    induction hc with
    | single hnests => exact hrank _ _ hnests
    | tail _ hnests ih => exact Nat.lt_trans ih (hrank _ _ hnests)
  exact fun hround => Nat.lt_irrefl _ (hlt hround)

/-- What a member is written as hangs on the fields and the slots of the members on its ways down. -/
theorem Renders.congr {p q : Pool n} {i : Fin n} {v : Json.Value} (h : p.Renders i v)
    (hsame : ∀ j, Relation.ReflTransGen p.Nests i j →
      q.fields j = p.fields j ∧ ∀ slot, (q.children j).get? slot = (p.children j).get? slot) :
    q.Renders i v := by
  induction h with
  | @node i nested empty filled ih =>
      obtain ⟨hfields, hslots⟩ := hsame i .refl
      rw [← hfields]
      refine .node (fun slot hget => ?_) fun slot c hget => ?_
      · exact empty slot (hslots slot ▸ hget)
      · have hget : (p.children i).get? slot = some c := hslots slot ▸ hget
        have hnests : p.Nests i c := Children.mem_of_get? hget
        exact ih slot c hget fun j hj => hsame j (.head hnests hj)

/-! ### Runs -/

/-- Whatever calls attach members of a pool to one another: no way down leads back to where it starts;
every member is written, in one way, as the JSON object of its tree; a further call changes nothing if it is
rejected and else the slot that it names alone; and what a member is written as is the same after any
other calls, also on other fields, that leave the members on its ways down with the same fields and the
same children in their slots. -/
theorem run_rendering (fields : Fin n → Fields) (calls : List (Attachment n)) :
    (∀ i, ¬ Relation.TransGen ((ofFields fields).run calls).Nests i i) ∧
    (∀ i v, ((ofFields fields).run calls).Renders i v ↔
      v = (((ofFields fields).run calls).tree i).toJson) ∧
    (∀ a e, ((ofFields fields).run calls).attach a.parent a.slot a.child = .error e →
      (ofFields fields).run (calls ++ [a]) = (ofFields fields).run calls) ∧
    (∀ a q, ((ofFields fields).run calls).attach a.parent a.slot a.child = .ok q →
      ∃ slot, Slot.ofName? a.slot = some slot ∧ ∀ i s,
        (((ofFields fields).run (calls ++ [a])).children i).get? s =
          if i = a.parent ∧ s = slot then some a.child
          else (((ofFields fields).run calls).children i).get? s) ∧
    (∀ fields' calls' i,
      (∀ j, Relation.ReflTransGen ((ofFields fields).run calls).Nests i j →
        fields' j = fields j ∧ ∀ slot,
          (((ofFields fields').run calls').children j).get? slot =
            (((ofFields fields).run calls).children j).get? slot) →
      (((ofFields fields').run calls').tree i).toJson =
        (((ofFields fields).run calls).tree i).toJson) := by
  have hgrounded := grounded_run fields calls
  refine ⟨hgrounded.not_transGen, fun i v => hgrounded.renders_iff, fun a e herror => ?_,
    fun a q hok => ?_, fun fields' calls' i hsame => ?_⟩
  · rw [run_concat]
    exact step_of_attach_error herror
  · rw [run_concat]
    exact get?_children_step hok
  · have hwritten := hgrounded.renders_iff.mpr (rfl : (((ofFields fields).run calls).tree i).toJson = _)
    have hsame' := hwritten.congr (q := (ofFields fields').run calls') fun j hj => by
      rw [fields_run, fields_run]
      exact hsame j hj
    exact ((grounded_run fields' calls').renders_iff.mp hsame').symm

/-- Two calls that fill two slots of the member `i`. -/
def direct (i j k : Fin n) : List (Attachment n) := [⟨i, "B", k⟩, ⟨i, "A", j⟩]

/-- Calls that fill the same slots in another order; one child is replaced, and the call that would put `i`
below `j` is rejected. -/
def roundabout (i j k : Fin n) : List (Attachment n) :=
  [⟨i, "A", k⟩, ⟨i, "A", j⟩, ⟨j, "C", i⟩, ⟨i, "B", k⟩]

theorem run_rendering_roundabout :
    (∀ j slot, (((ofFields fun _ => {}).run (roundabout (0 : Fin 3) 1 2)).children j).get? slot =
      (((ofFields fun _ => {}).run (direct (0 : Fin 3) 1 2)).children j).get? slot) ∧
    (((ofFields fun _ => {}).run (roundabout (0 : Fin 3) 1 2)).tree 0).toJson =
      (((ofFields fun _ => {}).run (direct (0 : Fin 3) 1 2)).tree 0).toJson := by
  have hslots : ∀ j slot,
      (((ofFields fun _ => {}).run (roundabout (0 : Fin 3) 1 2)).children j).get? slot =
        (((ofFields fun _ => {}).run (direct (0 : Fin 3) 1 2)).children j).get? slot := by
    intro j slot
    cases slot <;> revert j <;> decide
  exact ⟨hslots, (run_rendering (fun _ => {}) (direct 0 1 2)).2.2.2.2 (fun _ => {})
    (roundabout 0 1 2) 0 fun j _ => ⟨rfl, hslots j⟩⟩

end Pool

end GeoWorkload.Predicate
