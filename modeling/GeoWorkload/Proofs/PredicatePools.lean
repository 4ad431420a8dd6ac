import GeoWorkload.Predicate.Pool
import Mathlib.Data.Fintype.Card

/-!
# Nesting in pools of predicates

What members of a pool nest after calls of `attach`, of which some may be rejected (`Pool.run`).  A member
that is attached has no children then, and so no way down meets a member twice (`Grounded`) and the tree of
a member is whole after as many levels as the pool has members (`run_nesting`).  It may get children later:
only where no call attaches to a member that an earlier call has attached does a tree have at most two
levels, and two calls in the other order make one of three (`run_nests_nested`).
-/

namespace GeoWorkload.Predicate

variable {n : Nat}

/-! ### Children by slot -/

namespace Children

theorem mem_of_mem_set {cs : Children n} {slot s : Slot} {child i : Fin n}
    (h : (s, i) ∈ cs.set slot child) : i = child ∨ (s, i) ∈ cs := by
  induction cs with
  | nil => exact Or.inl (by simpa [set] using (Prod.mk.inj (List.mem_singleton.mp h)).2)
  | cons head rest ih =>
      obtain ⟨t, j⟩ := head
      unfold set at h
      split at h
      · rcases List.mem_cons.mp h with heq | h
        · exact Or.inl (Prod.mk.inj heq).2
        · exact Or.inr (List.mem_cons_of_mem _ h)
      · rcases List.mem_cons.mp h with heq | h
        · exact Or.inr (List.mem_cons.mpr (Or.inl heq))
        · exact (ih h).imp_right (List.mem_cons_of_mem _)

theorem mem_of_get? {cs : Children n} {slot : Slot} {child : Fin n} (h : cs.get? slot = some child) :
    ∃ s, (s, child) ∈ cs := by
  obtain ⟨⟨s, i⟩, hfind, rfl⟩ := Option.map_eq_some_iff.mp h
  exact ⟨s, List.mem_of_find?_eq_some hfind⟩

end Children

namespace Pool

/-! ### Attaching -/

/-- A member has another in one of its slots. -/
def Nests (p : Pool n) (parent child : Fin n) : Prop := ∃ slot, (slot, child) ∈ p.children parent

/-- A call that is to put a member into the named slot of another. -/
structure Attachment (n : Nat) where
  parent : Fin n
  slot : String
  child : Fin n

/-- The pool after a call; one that is rejected changes nothing. -/
def step (p : Pool n) (a : Attachment n) : Pool n :=
  (p.attach a.parent a.slot a.child).toOption.getD p

/-- The pool after calls in turn. -/
def run (p : Pool n) (calls : List (Attachment n)) : Pool n := calls.foldl step p

theorem run_concat (p : Pool n) (calls : List (Attachment n)) (a : Attachment n) :
    p.run (calls ++ [a]) = (p.run calls).step a := by
  simp [run]

/-- A call that is not rejected puts a member without children into another. -/
theorem step_cases (p : Pool n) (a : Attachment n) :
    p.step a = p ∨
      ∃ slot, p.children a.child = [] ∧ a.child ≠ a.parent ∧ p.step a = p.put a.parent slot a.child := by
  unfold step attach
  cases Slot.ofName? a.slot with
  | none => exact Or.inl rfl
  | some slot =>
      dsimp only
      split_ifs with hchildren hself
      · exact Or.inl rfl
      · exact Or.inl rfl
      · exact Or.inr ⟨slot, not_not.mp hchildren, hself, rfl⟩

theorem children_put_of_ne {p : Pool n} {parent i : Fin n} (hi : i ≠ parent) (slot : Slot)
    (child : Fin n) : (p.put parent slot child).children i = p.children i := if_neg hi

theorem children_put_self (p : Pool n) (parent : Fin n) (slot : Slot) (child : Fin n) :
    (p.put parent slot child).children parent = (p.children parent).set slot child := if_pos rfl

theorem Nests.of_put {p : Pool n} {parent child i c : Fin n} {slot : Slot}
    (h : (p.put parent slot child).Nests i c) : p.Nests i c ∨ i = parent ∧ c = child := by
  obtain ⟨s, h⟩ := h
  by_cases hi : i = parent
  · subst hi
    rw [children_put_self] at h
    rcases Children.mem_of_mem_set h with rfl | h
    · exact Or.inr ⟨rfl, rfl⟩
    · exact Or.inl ⟨s, h⟩
  · rw [children_put_of_ne hi] at h
    exact Or.inl ⟨s, h⟩

theorem not_nests_ofFields {fields : Fin n → Fields} {i c : Fin n} : ¬ (ofFields fields).Nests i c := by
  rintro ⟨_, h⟩
  exact absurd h List.not_mem_nil

/-! ### Ways down -/

/-- The members can be ranked so that every member stands below what it nests. -/
def Grounded (p : Pool n) : Prop := ∃ rank : Fin n → Nat, ∀ i c, p.Nests i c → rank i < rank c

theorem grounded_ofFields (fields : Fin n → Fields) : (ofFields fields).Grounded :=
  ⟨fun _ => 0, fun _ _ h => absurd h not_nests_ofFields⟩

/-- A member without children may be ranked as high as it needs to be. -/
theorem Grounded.put {p : Pool n} (h : p.Grounded) {parent child : Fin n} (slot : Slot)
    (hchild : p.children child = []) (hne : child ≠ parent) : (p.put parent slot child).Grounded := by
  obtain ⟨rank, hrank⟩ := h
  refine ⟨Function.update rank child (max (rank child) (rank parent + 1)), fun i c hnests => ?_⟩
  have hi : i ≠ child := by
    rintro rfl
    obtain ⟨s, hs⟩ := hnests
    rw [children_put_of_ne hne, hchild] at hs
    exact absurd hs List.not_mem_nil
  rw [Function.update_of_ne hi]
  rcases hnests.of_put with hold | ⟨rfl, rfl⟩
  · have := hrank i c hold
    by_cases hc : c = child
    · rw [hc, Function.update_self]
      rw [hc] at this
      exact Nat.lt_of_lt_of_le this (Nat.le_max_left _ _)
    · rwa [Function.update_of_ne hc]
  · rw [Function.update_self]
    exact Nat.lt_of_lt_of_le (Nat.lt_succ_self _) (Nat.le_max_right _ _)

theorem Grounded.step {p : Pool n} (h : p.Grounded) (a : Attachment n) : (p.step a).Grounded := by
  rcases p.step_cases a with hsame | ⟨slot, hchild, hne, hput⟩
  · rwa [hsame]
  · rw [hput]
    exact h.put slot hchild hne

theorem grounded_run (fields : Fin n → Fields) (calls : List (Attachment n)) :
    ((ofFields fields).run calls).Grounded := by
  induction calls using List.reverseRecOn with
  | nil => exact grounded_ofFields fields
  | append_singleton calls a ih =>
      rw [run_concat]
      exact ih.step a

/-- The number of members that are ranked above a member. -/
def above (rank : Fin n → Nat) (i : Fin n) : Nat :=
  (Finset.univ.filter fun j => rank i < rank j).card

theorem above_lt (rank : Fin n → Nat) (i : Fin n) : above rank i < n := by
  have hlt : (Finset.univ.filter fun j => rank i < rank j).card < (Finset.univ : Finset (Fin n)).card := by
    refine Finset.card_lt_card (Finset.filter_ssubset.mpr ⟨i, Finset.mem_univ i, ?_⟩)
    exact Nat.lt_irrefl _
  rwa [Finset.card_univ, Fintype.card_fin] at hlt

theorem above_lt_above {rank : Fin n → Nat} {i j : Fin n} (h : rank i < rank j) :
    above rank j < above rank i := by
  refine Finset.card_lt_card (Finset.ssubset_iff_of_subset ?_ |>.mpr ⟨j, by simpa using h, by simp⟩)
  intro k hk
  simp only [Finset.mem_filter, Finset.mem_univ, true_and] at hk ⊢
  exact Nat.lt_trans h hk

/-- What a slot of a member holds, down to `levels` levels. -/
def below (p : Pool n) (levels : Nat) (i : Fin n) (slot : Slot) : Predicate :=
  match (p.children i).get? slot with
  | some child => p.treeWithin levels child
  | none => .absent

theorem treeWithin_succ (p : Pool n) (k : Nat) (i : Fin n) :
    p.treeWithin (k + 1) i =
      .node (p.fields i) (p.below k i .a) (p.below k i .b) (p.below k i .c) (p.below k i .d) := rfl

theorem below_cases (p : Pool n) (i : Fin n) (slot : Slot) :
    (∃ c, p.Nests i c ∧ ∀ k, p.below k i slot = p.treeWithin k c) ∨ ∀ k, p.below k i slot = .absent := by
  cases hget : (p.children i).get? slot with
  | none => exact Or.inr fun k => by rw [below, hget]
  | some c => exact Or.inl ⟨c, Children.mem_of_get? hget, fun k => by rw [below, hget]⟩

/-- The predicate that a member has become is the same to every depth beyond the members above it. -/
theorem treeWithin_congr {p : Pool n} {rank : Fin n → Nat} (hrank : ∀ i c, p.Nests i c → rank i < rank c)
    {k l : Nat} {i : Fin n} (hk : above rank i < k) (hl : above rank i < l) :
    p.treeWithin k i = p.treeWithin l i := by
  induction k generalizing l i with
  | zero => omega
  | succ k ih =>
      obtain ⟨l, rfl⟩ : ∃ m, l = m + 1 := ⟨l - 1, by omega⟩
      have hbelow : ∀ slot, p.below k i slot = p.below l i slot := by
        intro slot
        rcases p.below_cases i slot with ⟨c, hc, htree⟩ | habsent
        · have := above_lt_above (hrank i c hc)
          rw [htree, htree]
          exact ih (by omega) (by omega)
        · rw [habsent, habsent]
      rw [treeWithin_succ, treeWithin_succ, hbelow .a, hbelow .b, hbelow .c, hbelow .d]

/-- The tree of a member is whole: more levels than the pool has members add nothing. -/
theorem Grounded.treeWithin_eq {p : Pool n} (h : p.Grounded) {k : Nat} (hk : n ≤ k) (i : Fin n) :
    p.treeWithin k i = p.tree i := by
  obtain ⟨rank, hrank⟩ := h
  have hi := above_lt rank i
  exact treeWithin_congr hrank (by omega) hi

/-! ### Levels -/

/-- A node has one level more than the deepest of what it nests. -/
theorem depth_treeWithin_le {p : Pool n} {k m : Nat} {i : Fin n}
    (h : ∀ c, p.Nests i c → (p.treeWithin k c).depth ≤ m) : (p.treeWithin (k + 1) i).depth ≤ m + 1 := by
  have hbelow : ∀ slot, (p.below k i slot).depth ≤ m := by
    intro slot
    rcases p.below_cases i slot with ⟨c, hc, htree⟩ | habsent
    · rw [htree]
      exact h c hc
    · rw [habsent]
      exact Nat.zero_le m
  rw [treeWithin_succ]
  exact Nat.succ_le_succ
    (max_le (max_le (hbelow .a) (hbelow .b)) (max_le (hbelow .c) (hbelow .d)))

theorem depth_treeWithin_le_levels (p : Pool n) (k : Nat) (i : Fin n) : (p.treeWithin k i).depth ≤ k := by
  induction k generalizing i with
  | zero => exact Nat.le_refl _
  | succ k ih => exact depth_treeWithin_le fun c _ => ih c

/-- What nests nothing has one level, and what nests only such members has at most two. -/
theorem depth_treeWithin_le_two {p : Pool n} {i : Fin n}
    (h : ∀ c, p.Nests i c → p.children c = []) (k : Nat) : (p.treeWithin k i).depth ≤ 2 := by
  have hone : ∀ c, p.children c = [] → ∀ k, (p.treeWithin k c).depth ≤ 1 := by
    intro c hc k
    cases k with
    | zero => exact Nat.zero_le _
    | succ k =>
        refine depth_treeWithin_le fun d hd => ?_
        obtain ⟨s, hs⟩ := hd
        rw [hc] at hs
        exact absurd hs List.not_mem_nil
  cases k with
  | zero => exact Nat.zero_le _
  | succ k => exact depth_treeWithin_le fun c hc => hone c (h c hc) k

/-! ### Runs -/

/-- What a member nests after calls was attached by one of them. -/
theorem exists_attachment_of_nests {fields : Fin n → Fields} {calls : List (Attachment n)} {i c : Fin n}
    (h : ((ofFields fields).run calls).Nests i c) : ∃ a ∈ calls, a.child = c := by
  induction calls using List.reverseRecOn with
  | nil => exact absurd h not_nests_ofFields
  | append_singleton calls a ih =>
      rw [run_concat] at h
      have hold : ((ofFields fields).run calls).Nests i c ∨ c = a.child := by
        rcases step_cases ((ofFields fields).run calls) a with hsame | ⟨slot, _, _, hput⟩
        · rw [hsame] at h
          exact Or.inl h
        · rw [hput] at h
          exact h.of_put.imp_right And.right
      rcases hold with hold | rfl
      · obtain ⟨b, hb, hchild⟩ := ih hold
        exact ⟨b, List.mem_append_left _ hb, hchild⟩
      · exact ⟨a, List.mem_append_right _ (List.mem_singleton.mpr rfl), rfl⟩

/-- Where no call attaches to a member that an earlier call has attached, what is nested has no
children. -/
theorem children_eq_nil_of_nests {fields : Fin n → Fields} {calls : List (Attachment n)}
    (hcalls : calls.Pairwise fun earlier later => later.parent ≠ earlier.child) {i c : Fin n}
    (h : ((ofFields fields).run calls).Nests i c) : ((ofFields fields).run calls).children c = [] := by
  induction calls using List.reverseRecOn with
  | nil => exact absurd h not_nests_ofFields
  | append_singleton calls a ih =>
      obtain ⟨hcalls, _, hlast⟩ := List.pairwise_append.mp hcalls
      have hparent : ∀ {i}, ¬ ((ofFields fields).run calls).Nests i a.parent := by
        intro i hnests
        obtain ⟨b, hb, hchild⟩ := exists_attachment_of_nests hnests
        exact hlast b hb a (List.mem_singleton.mpr rfl) hchild.symm
      rw [run_concat] at h ⊢
      rcases step_cases ((ofFields fields).run calls) a with hsame | ⟨slot, hchild, hne, hput⟩
      · rw [hsame] at h ⊢
        exact ih hcalls h
      · rw [hput] at h ⊢
        rcases h.of_put with hold | ⟨rfl, rfl⟩
        · have hc : c ≠ a.parent := by
            rintro rfl
            exact hparent hold
          rw [children_put_of_ne hc]
          exact ih hcalls hold
        · rw [children_put_of_ne hne]
          exact hchild

/-- Whatever calls attach members of a pool to one another, the tree of every member is whole after as many
levels as there are members; and where no call attaches to a member that an earlier call has attached, what
is nested nests nothing and a tree has at most two levels. -/
theorem run_nesting (fields : Fin n → Fields) (calls : List (Attachment n)) :
    (∀ i k, n ≤ k → ((ofFields fields).run calls).treeWithin k i = ((ofFields fields).run calls).tree i) ∧
    (∀ i, (((ofFields fields).run calls).tree i).depth ≤ n) ∧
    ((calls.Pairwise fun earlier later => later.parent ≠ earlier.child) → ∀ i,
      (∀ c, ((ofFields fields).run calls).Nests i c → ((ofFields fields).run calls).children c = []) ∧
      (((ofFields fields).run calls).tree i).depth ≤ 2) := by
  refine ⟨fun i k hk => (grounded_run fields calls).treeWithin_eq hk i, fun i => ?_, fun hcalls i => ?_⟩
  · exact depth_treeWithin_le_levels _ n i
  · have hflat : ∀ c, ((ofFields fields).run calls).Nests i c →
        ((ofFields fields).run calls).children c = [] := fun c => children_eq_nil_of_nests hcalls
    exact ⟨hflat, depth_treeWithin_le_two hflat n⟩

/-- Two calls that attach two members to a third, which none attaches. -/
def siblings : List (Attachment 3) := [⟨0, "A", 1⟩, ⟨0, "B", 2⟩]

theorem run_nesting_siblings :
    (siblings.Pairwise fun earlier later => later.parent ≠ earlier.child) ∧
      ∀ i, (((ofFields fun _ => {}).run siblings).tree i).depth ≤ 2 := by
  have hcalls : siblings.Pairwise fun earlier later => later.parent ≠ earlier.child := by decide
  exact ⟨hcalls, fun i => ((run_nesting (fun _ => {}) siblings).2.2 hcalls i).2⟩

/-- Two calls of which the second attaches to the member that the first has attached. -/
def chain : List (Attachment 3) := [⟨0, "A", 1⟩, ⟨1, "A", 2⟩]

/-- A member that is nested may come to nest another: the tree above it has three levels then. -/
theorem run_nests_nested : ((ofFields fun _ => {}).run chain).Nests 0 1 ∧
    ((ofFields fun _ => {}).run chain).children 1 ≠ [] ∧
    (((ofFields fun _ => {}).run chain).tree 0).depth = 3 :=
  ⟨⟨.a, by decide⟩, by decide, by decide⟩

end Pool

end GeoWorkload.Predicate
