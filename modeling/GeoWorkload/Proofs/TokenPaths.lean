import GeoWorkload.Proofs.StoreKeys
import GeoWorkload.Tokens.Tokenize

/-!
# The paths of tokens

A document has one token for each field path of its schema: filling a token never adds a path
(`Filling.KeepsPaths`), and so the paths of the tokens are the field paths, each once
(`map_fst_of_tokenize_of_isText`).  Where the paths are texts, the token under a path is the one listed
with it (`Tokens.get_of_mem`).
-/

namespace GeoWorkload

/-! ### Paths each once -/

namespace Label

/-- Of labels that are texts, those that are listed once are the same, each of them once. -/
theorem mem_distinct_iff_and_nodup (n : Nat) :
    ∀ labels : List Label, labels.length ≤ n → (∀ l ∈ labels, l.IsText) →
      (∀ l, l ∈ distinct labels ↔ l ∈ labels) ∧ (distinct labels).Nodup := by
  induction n with
  | zero =>
      intro labels hlen _
      rw [List.length_eq_zero_iff.mp (Nat.le_zero.mp hlen)]
      exact ⟨fun _ => Iff.rfl, .nil⟩
  | succ n ih =>
      intro labels hlen htext
      rcases labels with _ | ⟨first, rest⟩
      · exact ⟨fun _ => Iff.rfl, .nil⟩
      · have hsame : ∀ l ∈ rest, l.same first = false ↔ l ≠ first := fun l hl => by
          have hiff : l.same first = true ↔ first = l :=
            (htext l (List.mem_cons_of_mem _ hl)).same_iff
          rw [← Bool.not_eq_true, hiff, ne_comm, Ne]
        have hmem : ∀ l, l ∈ rest.filter (fun l => l.same first = false) ↔ l ∈ rest ∧ l ≠ first := by
          intro l
          rw [List.mem_filter, decide_eq_true_eq]
          exact and_congr_right fun hl => hsame l hl
        obtain ⟨hih, hnodup⟩ := ih (rest.filter fun l => l.same first = false)
          (Nat.le_trans (List.length_filter_le _ _) (Nat.le_of_succ_le_succ hlen))
          fun l hl => htext l (List.mem_cons_of_mem _ ((hmem l).mp hl).1)
        have hdistinct : distinct (first :: rest) =
            first :: distinct (rest.filter fun l => l.same first = false) := List.eraseDupsBy_cons
        rw [hdistinct]
        constructor
        · intro l
          rw [List.mem_cons, List.mem_cons, hih, hmem]
          by_cases e : l = first <;> simp [e]
        · exact List.nodup_cons.mpr ⟨fun h => ((hmem first).mp ((hih first).mp h)).2 rfl, hnodup⟩

theorem mem_distinct_iff {labels : List Label} (h : ∀ l ∈ labels, l.IsText) {l : Label} :
    l ∈ distinct labels ↔ l ∈ labels :=
  (mem_distinct_iff_and_nodup _ labels (Nat.le_refl _) h).1 l

theorem nodup_distinct {labels : List Label} (h : ∀ l ∈ labels, l.IsText) :
    (distinct labels).Nodup :=
  (mem_distinct_iff_and_nodup _ labels (Nat.le_refl _) h).2

end Label

namespace LabelMap

variable {α : Type}

/-- A value put under a label that is there does not change the labels. -/
theorem map_fst_set {m : LabelMap α} {key : Label} (h : ∃ e ∈ m, e.1.same key = true) (value : α) :
    (m.set key value).map (·.1) = m.map (·.1) := by
  induction m with
  | nil => simp at h
  | cons entry rest ih =>
      unfold set
      split
      · rfl
      · rename_i hne
        obtain ⟨e, he, hsame⟩ := h
        rcases List.mem_cons.mp he with rfl | he
        · exact absurd hsame hne
        · rw [List.map_cons, List.map_cons, ih ⟨e, he, hsame⟩]

end LabelMap

/-! ### Fillings -/

namespace Filling

variable {α β : Type} {paths : List Label}

/-- However the filling ends, the tokens have the paths that they had. -/
def KeepsPaths (paths : List Label) (x : Filling α) : Prop :=
  ∀ tokens : Tokens, tokens.map (·.1) = paths → (x.run.run tokens).2.map (·.1) = paths

theorem keepsPaths_pure (a : α) : KeepsPaths paths (pure a : Filling α) := fun _ h => h

theorem keepsPaths_throw (stop : Stop) : KeepsPaths paths (throw stop : Filling α) :=
  fun _ h => h

theorem KeepsPaths.bind {x : Filling α} {f : α → Filling β} (hx : KeepsPaths paths x)
    (hf : ∀ a, KeepsPaths paths (f a)) : KeepsPaths paths (x >>= f) := by
  intro tokens h
  have hx := hx tokens h
  show List.map (·.1) (match x.run.run tokens with
    | (r, tokens') => (ExceptT.bindCont f r tokens' : Except Stop β × Tokens)).2 = paths
  generalize x.run.run tokens = ended at hx ⊢
  obtain ⟨stop | a, tokens'⟩ := ended
  · exact hx
  · exact hf a tokens' hx

theorem keepsPaths_put {path : Label} (h : ∃ p ∈ paths, p.same path = true) (value : Option String) :
    KeepsPaths paths (put path value) := by
  intro tokens htokens
  obtain ⟨p, hp, hsame⟩ := h
  rw [← htokens] at hp
  obtain ⟨e, he, rfl⟩ := List.mem_map.mp hp
  exact (LabelMap.map_fst_set ⟨e, he, hsame⟩ value).trans htokens

theorem keepsPaths_lookup (doc : Json.Members) (name : Label) :
    KeepsPaths paths (lookup doc name) := by
  unfold lookup
  split
  · exact keepsPaths_throw _
  · exact keepsPaths_pure _

theorem keepsPaths_field (doc : Json.Members) (name : Label) {path : Label}
    (convert : String → Json.Value → Except Stop String) (h : ∃ p ∈ paths, p.same path = true) :
    KeepsPaths paths (field doc name path convert) := by
  unfold field
  refine (keepsPaths_lookup doc name).bind fun v => ?_
  split
  · exact keepsPaths_pure _
  · split
    · exact keepsPaths_put h _
    · exact keepsPaths_throw _

theorem keepsPaths_fields (doc : Json.Members) {pathOf : String → Label}
    (convert : String → Json.Value → Except Stop String) {names : List String}
    (h : ∀ name ∈ names, ∃ p ∈ paths, p.same (pathOf name) = true) :
    KeepsPaths paths (fields doc pathOf convert names) := by
  induction names with
  | nil => exact keepsPaths_pure _
  | cons name rest ih =>
      unfold fields
      exact (keepsPaths_field doc _ convert (h name List.mem_cons_self)).bind fun _ =>
        ih fun n hn => h n (List.mem_cons_of_mem _ hn)

theorem keepsPaths_objectIn (doc : Json.Members) (name : Label) :
    KeepsPaths paths (objectIn doc name) := by
  unfold objectIn
  refine (keepsPaths_lookup doc name).bind fun v => ?_
  split
  · exact keepsPaths_pure _
  · split
    · exact keepsPaths_pure _
    · exact keepsPaths_throw _

section schema

variable {S : Schema} (h : ∀ path ∈ S.fieldPaths, ∃ p ∈ paths, p.same path = true)
include h

theorem keepsPaths_plainFields (doc : Json.Members) : KeepsPaths paths (plainFields S doc) :=
  keepsPaths_fields doc _ fun name hname => h _ (by simp [Schema.fieldPaths, hname])

theorem keepsPaths_properties (doc : Json.Members) : KeepsPaths paths (properties S doc) := by
  unfold properties
  refine (keepsPaths_objectIn doc _).bind fun found => ?_
  split
  · exact keepsPaths_pure _
  · rename_i props
    have hname : ∀ name ∈ S.propertyFields, ∃ p ∈ paths, p.same (S.propertyPath name) = true := by
      intro name hname
      refine h _ ?_
      simp only [Schema.fieldPaths, List.mem_append, List.mem_map]
      exact Or.inl (Or.inr ⟨name, hname, rfl⟩)
    refine (keepsPaths_fields props _ fun name hn => hname name ?_).bind fun _ =>
      keepsPaths_fields props _ fun name hn => hname name ?_
    · exact List.mem_append_left _ hn
    · exact List.mem_append_right _ hn

theorem keepsPaths_geometry (doc : Json.Members) : KeepsPaths paths (geometry S doc) := by
  unfold geometry
  refine (keepsPaths_objectIn doc _).bind fun found => ?_
  split
  · exact keepsPaths_pure _
  · rename_i members
    refine (keepsPaths_field members _ _ (h _ (by simp [Schema.fieldPaths]))).bind fun _ => ?_
    refine (keepsPaths_lookup members _).bind fun v => ?_
    split
    · exact keepsPaths_put (h _ (by simp [Schema.fieldPaths])) _
    · exact keepsPaths_throw _

theorem keepsPaths_objects (doc : Json.Members) : KeepsPaths paths (objects S doc) := by
  unfold objects
  refine (keepsPaths_field doc _ _ (h _ (by simp [Schema.fieldPaths]))).bind fun _ => ?_
  exact (keepsPaths_properties h doc).bind fun _ => keepsPaths_geometry h doc

end schema

end Filling

theorem map_fst_of_fillGroup {group : Filling Unit} {warn : FieldFault → TokenWarning}
    {tokens tokens' : Tokens} {warnings : List TokenWarning}
    (h : Filling.KeepsPaths (tokens.map (·.1)) group)
    (hfill : fillGroup group warn tokens = .ok (tokens', warnings)) :
    tokens'.map (·.1) = tokens.map (·.1) := by
  have hkeep := h tokens rfl
  unfold fillGroup at hfill
  split at hfill
  · rename_i e
    rw [e] at hkeep
    cases hfill
    exact hkeep
  · rename_i e
    rw [e] at hkeep
    cases hfill
    exact hkeep
  · cases hfill

theorem Tokens.map_fst_blank (paths : List Label) :
    (Tokens.blank paths).map (·.1) = Label.distinct paths := by
  simp [Tokens.blank, Function.comp_def]

/-- The tokens of a document have the field paths as their paths, each once. -/
theorem map_fst_of_tokenize_of_isText {S : Schema} (htext : ∀ p ∈ S.fieldPaths, p.IsText)
    {body : String} {tokens : Tokens} (h : (tokenize S body).result = .ok tokens) :
    tokens.map (·.1) = Label.distinct S.fieldPaths := by
  have hpaths : ∀ path ∈ S.fieldPaths,
      ∃ p ∈ Label.distinct S.fieldPaths, p.same path = true := fun path hp =>
    ⟨path, (Label.mem_distinct_iff htext).mpr hp, Label.same_self path⟩
  have hobject : ∀ doc, (tokenizeObject S doc).result = .ok tokens →
      tokens.map (·.1) = Label.distinct S.fieldPaths := by
    intro doc h
    unfold tokenizeObject at h
    split at h
    · cases h
    · rename_i filled warnings hplain
      split at h
      · cases h
      · rename_i filled' more hobjects
        cases h
        have hblank := Tokens.map_fst_blank S.fieldPaths
        have hfilled := map_fst_of_fillGroup
          (hblank ▸ Filling.keepsPaths_plainFields hpaths doc) hplain
        rw [hblank] at hfilled
        rw [map_fst_of_fillGroup (hfilled ▸ Filling.keepsPaths_objects hpaths doc) hobjects, hfilled]
  have hkeys : S.fieldPaths.findSome? (·.keyFault?) = none :=
    List.findSome?_eq_none_iff.mpr fun p hp => (htext p hp).keyFault?
  have htokenize : tokenize S body = tokenizeText S body := by
    unfold tokenize tokenizeValue
    rw [hkeys]
  rw [htokenize] at h
  unfold tokenizeText at h
  split at h
  · cases h
    exact Tokens.map_fst_blank _
  · exact hobject _ h
  · cases h
    exact Tokens.map_fst_blank _

theorem map_fst_of_tokenize {S : Schema} (hS : S.KeysDistinct) {body : String} {tokens : Tokens}
    (h : (tokenize S body).result = .ok tokens) :
    tokens.map (·.1) = Label.distinct S.fieldPaths :=
  map_fst_of_tokenize_of_isText (fun _ hp => hS.isText_of_mem_fieldPaths hp) h

section tokenize

variable {S : Schema} (hS : S.KeysDistinct) {body : String} {tokens : Tokens}
  (h : (tokenize S body).result = .ok tokens)
include hS h

theorem mem_paths_of_tokenize_iff {p : Label} : p ∈ tokens.map (·.1) ↔ p ∈ S.fieldPaths := by
  rw [map_fst_of_tokenize hS h, Label.mem_distinct_iff fun p hp => hS.isText_of_mem_fieldPaths hp]

theorem mem_fieldPaths_of_tokenize {e : Label × Option String} (he : e ∈ tokens) :
    e.1 ∈ S.fieldPaths :=
  (mem_paths_of_tokenize_iff hS h).mp (List.mem_map_of_mem he)

theorem nodup_of_tokenize : (tokens.map (·.1)).Nodup := by
  rw [map_fst_of_tokenize hS h]
  exact Label.nodup_distinct fun p hp => hS.isText_of_mem_fieldPaths hp

end tokenize

namespace Tokens

/-- The token under a path is the one that is listed with it. -/
theorem get_of_mem {tokens : Tokens} (htext : ∀ e ∈ tokens, e.1.IsText)
    (hnodup : (tokens.map (·.1)).Nodup) {e : Label × Option String} (he : e ∈ tokens) :
    tokens.get e.1 = e.2 := by
  induction tokens with
  | nil => exact absurd he List.not_mem_nil
  | cons first rest ih =>
      obtain ⟨hfresh, hnodup⟩ := List.nodup_cons.mp hnodup
      have hsame : first.1.same e.1 = true ↔ e.1 = first.1 :=
        (htext first List.mem_cons_self).same_iff
      rcases List.mem_cons.mp he with rfl | he
      · simp [get, LabelMap.get?, Label.same_self]
      · have hne : e.1 ≠ first.1 := fun h => hfresh (List.mem_map.mpr ⟨e, he, h⟩)
        have : first.1.same e.1 = false := Bool.eq_false_iff.mpr fun h => hne (hsame.mp h)
        have hih := ih (fun e he => htext e (List.mem_cons_of_mem _ he)) hnodup he
        simpa [get, LabelMap.get?, this] using hih

end Tokens

end GeoWorkload
