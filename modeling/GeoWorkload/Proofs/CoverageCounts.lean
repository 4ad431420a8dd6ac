import GeoWorkload.Workload.Worker
import Mathlib.Algebra.BigOperators.Group.List.Basic
import Mathlib.Algebra.Ring.Int.Defs
import Mathlib.Algebra.Ring.Nat

/-!
# Coverage counts

What a coverage counts under each name: an amount added under one name changes no other count (`get_add`), and
merging adds the counts of two coverages name by name (`get_merge`).  A tally of results counts each under its
name (`get_tally`), and no count of an operation is one of another or of its failures
(`entryName_eq_name_iff`, `entryName_eq_failed_iff`).
-/

namespace GeoWorkload.Coverage

/-- The names under which something is counted. -/
def names (c : Coverage) : List String := c.map (·.1)

theorem get_nil (name : String) : get [] name = 0 := rfl

theorem get_cons (entry : String × Int) (c : Coverage) (name : String) :
    get (entry :: c) name = if entry.1 = name then entry.2 else get c name := by
  unfold get
  by_cases h : entry.1 = name
  · simp [h]
  · simp [h]

theorem get_eq_zero_of_not_mem {c : Coverage} {name : String} (h : name ∉ c.names) : c.get name = 0 := by
  induction c with
  | nil => rfl
  | cons entry c ih =>
      obtain ⟨hne, hc⟩ := List.ne_and_not_mem_of_not_mem_cons h
      rw [get_cons, if_neg hne.symm]
      exact ih hc

theorem get_add (c : Coverage) (name : String) (amount : Int) (other : String) :
    (c.add name amount).get other = c.get other + if other = name then amount else 0 := by
  induction c with
  | nil =>
      unfold add
      rw [get_cons, get_nil]
      by_cases h : other = name
      · simp [h]
      · simp [h, Ne.symm h]
  | cons entry c ih =>
      obtain ⟨n, k⟩ := entry
      unfold add
      by_cases hn : n = name
      · subst hn
        rw [if_pos rfl, get_cons, get_cons]
        by_cases h : other = n
        · simp [h]
        · simp [h, Ne.symm h]
      · rw [if_neg hn, get_cons, get_cons, ih]
        by_cases h : n = other
        · subst h
          simp [hn]
        · simp [h]

theorem mem_names_add {c : Coverage} {name other : String} {amount : Int} :
    other ∈ (c.add name amount).names ↔ other ∈ c.names ∨ other = name := by
  induction c with
  | nil => simp [add, names]
  | cons entry c ih =>
      obtain ⟨n, k⟩ := entry
      unfold add
      by_cases hn : n = name
      · subst hn
        rw [if_pos rfl]
        simp only [names, List.map_cons, List.mem_cons]
        grind
      · rw [if_neg hn]
        simp only [names, List.map_cons, List.mem_cons] at ih ⊢
        rw [ih]
        grind

/-- Each name stays counted once. -/
theorem nodup_names_add {c : Coverage} (h : c.names.Nodup) (name : String) (amount : Int) :
    (c.add name amount).names.Nodup := by
  induction c with
  | nil => simp [add, names]
  | cons entry c ih =>
      obtain ⟨n, k⟩ := entry
      obtain ⟨hn, hc⟩ := List.nodup_cons.mp h
      unfold add
      by_cases heq : n = name
      · rw [if_pos heq]
        exact List.nodup_cons.mpr ⟨hn, hc⟩
      · rw [if_neg heq]
        refine List.nodup_cons.mpr ⟨fun hmem => ?_, ih hc⟩
        rcases mem_names_add.mp hmem with hmem | hmem
        · exact hn hmem
        · exact heq hmem

/-- Merging adds the counts of every name. -/
theorem get_merge (c : Coverage) {d : Coverage} (hd : d.names.Nodup) (name : String) :
    (c.merge d).get name = c.get name + d.get name := by
  unfold merge
  induction d generalizing c with
  | nil => exact (Int.add_zero _).symm
  | cons entry d ih =>
      obtain ⟨n, k⟩ := entry
      obtain ⟨hn, hd⟩ := List.nodup_cons.mp hd
      rw [List.foldl_cons, ih _ hd, get_add, get_cons]
      by_cases h : n = name
      · subst h
        have hzero : get d n = 0 := get_eq_zero_of_not_mem hn
        rw [if_pos rfl, if_pos rfl, hzero]
        omega
      · rw [if_neg h, if_neg (Ne.symm h)]
        omega

/-! ### Tallies -/

/-- The coverage with each of some results counted. -/
def tally (c : Coverage) (results : List (String × Status)) : Coverage :=
  results.foldl (fun c result => c.add (entryName result.1 result.2) 1) c

theorem tally_cons (c : Coverage) (result : String × Status) (results : List (String × Status)) :
    c.tally (result :: results) = (c.add (entryName result.1 result.2) 1).tally results := rfl

theorem nodup_names_tally {c : Coverage} (h : c.names.Nodup) (results : List (String × Status)) :
    (c.tally results).names.Nodup := by
  induction results generalizing c with
  | nil => exact h
  | cons result results ih => exact ih (nodup_names_add h _ _)

/-- A tally counts the results of each name. -/
theorem get_tally (c : Coverage) (results : List (String × Status)) (name : String) :
    (c.tally results).get name =
      c.get name + (results.countP fun result => entryName result.1 result.2 = name : Nat) := by
  induction results generalizing c with
  | nil => exact (Int.add_zero _).symm
  | cons result results ih =>
      rw [tally_cons, ih, get_add, List.countP_cons]
      by_cases h : entryName result.1 result.2 = name
      · simp only [h, decide_true, if_true]
        push_cast
        omega
      · simp only [h, Ne.symm h, decide_false, Bool.false_eq_true, if_false]
        omega

/-! ### Names of operations -/

section named

variable {name : String} {status : Status} {results : List (String × Status)}

/-- Only what was carried out is counted under the name of its operation. -/
theorem entryName_eq_name_iff (h : ∃ op : Operation, op.name = name) (op : Operation) :
    entryName name status = op.name ↔ name = op.name ∧ status = .ok := by
  obtain ⟨op', rfl⟩ := h
  cases op' <;> cases op <;> cases status <;> decide

theorem entryName_eq_failed_iff (h : ∃ op : Operation, op.name = name) (op : Operation) :
    entryName name status = op.name ++ failedEnding ↔ name = op.name ∧ status ≠ .ok := by
  obtain ⟨op', rfl⟩ := h
  cases op' <;> cases op <;> cases status <;> decide

/-- Results of operations are counted under no other names than those of operations and of their failures. -/
theorem countP_entryName_eq_zero (h : ∀ result ∈ results, ∃ op : Operation, op.name = result.1)
    (hname : ∀ op : Operation, name ≠ op.name ∧ name ≠ op.name ++ failedEnding) :
    results.countP (fun result => entryName result.1 result.2 = name) = 0 := by
  refine List.countP_eq_zero.mpr fun result hresult heq => ?_
  obtain ⟨op, hop⟩ := h result hresult
  rw [decide_eq_true_iff] at heq
  unfold entryName at heq
  rw [← hop] at heq
  split at heq
  · exact (hname op).1 heq.symm
  · exact (hname op).2 heq.symm

/-- Every result of an operation is counted once. -/
theorem sum_countP_entryName (h : ∀ result ∈ results, ∃ op : Operation, op.name = result.1) :
    (Operation.all.map fun op => results.countP (fun result => entryName result.1 result.2 = op.name) +
      results.countP fun result => entryName result.1 result.2 = op.name ++ failedEnding).sum =
        results.length := by
  induction results with
  | nil => rfl
  | cons result results ih =>
      obtain ⟨op', hop'⟩ := h result List.mem_cons_self
      have hone : ∀ op : Operation, ((if entryName result.1 result.2 = op.name then 1 else 0) +
          if entryName result.1 result.2 = op.name ++ failedEnding then 1 else 0) =
            if op' = op then 1 else 0 := by
        intro op
        rw [← hop']
        cases op' <;> cases op <;> cases result.2 <;> decide
      have hsum : (Operation.all.map fun op => if op' = op then 1 else 0).sum = 1 := by
        cases op' <;> rfl
      rw [List.length_cons, ← ih fun r hr => h r (List.mem_cons_of_mem _ hr), ← hsum, ← List.sum_map_add]
      congr 1
      refine List.map_congr_left fun op _ => ?_
      have hop := hone op
      simp only [List.countP_cons, decide_eq_true_eq]
      omega

end named

end GeoWorkload.Coverage
