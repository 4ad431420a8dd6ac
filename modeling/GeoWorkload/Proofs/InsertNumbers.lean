import GeoWorkload.Proofs.Sites

/-!
# Numbers of inserts

What compiling predicates does to a store: it counts the inserts up, once for every id that it takes, and
changes nothing else (`Advanced`).  Compiling an insert or an update takes one number or none
(`works_compileInsert`, `works_compileUpdate`), and compiling a read takes four with a polygon, three
without, and fewer where it fails (`works_compileReadWith`).  The id of a predicate holds the first number
taken for it (`Follows`).
-/

namespace GeoWorkload

/-- The number of the last insert has gone up by `k`, and nothing else was changed. -/
structure Schema.Advanced (S : Schema) (k : Nat) (m m' : MemoryStore) : Prop where
  counts : ∀ c, m.Counts S.insertKey c → m'.Counts S.insertKey (c + k)
  outside : ∀ key, key ≠ S.insertKey → m'.get? key = m.get? key

namespace Schema.Advanced

variable {S : Schema} {j k : Nat} {m m' m'' : MemoryStore}

theorem refl (m : MemoryStore) : S.Advanced 0 m m := ⟨fun c h => by simpa using h, fun _ _ => rfl⟩

theorem trans (h : S.Advanced j m m') (h' : S.Advanced k m' m'') : S.Advanced (j + k) m m'' := by
  refine ⟨fun c hc => ?_, fun key hkey => (h'.outside key hkey).trans (h.outside key hkey)⟩
  have := h'.counts _ (h.counts c hc)
  rw [Int.add_assoc] at this
  simpa using this

/-- One number is taken by putting it in the place of the one before. -/
theorem of_put (hS : S.KeysDistinct) {c : Int} (hc : m.Counts S.insertKey c)
    (hw : Numeral.IsWritable (c + 1)) :
    S.Advanced 1 m (m.put S.insertKey (Numeral.decimal (c + 1))) := by
  constructor
  · intro c' hc'
    rw [hc'.unique hc]
    exact MemoryStore.counts_of_decimal hw (MemoryStore.get?_put_self _ _ _)
  · exact fun key hkey => MemoryStore.get?_put_of_ne hS.insertKey_isText m _ hkey

end Schema.Advanced

/-- The id of a document holds the number after the last one of the store, behind what every key of the
schema starts with. -/
def Schema.Follows (S : Schema) (m : MemoryStore) (id : Json.Value) : Prop :=
  ∃ start, S.keyStart = .text start ∧
    ∀ c, m.Counts S.insertKey c → id = .string (start ++ Numeral.decimal (c + 1))

@[simp] theorem Predicate.docId_ofDocument (id body : String) :
    (Predicate.ofDocument id body).docId = .string id := rfl

@[simp] theorem Predicate.docId_nest (p q : Predicate) (slot : Predicate.Slot) :
    (p.nest slot q).docId = p.docId := by
  cases p with
  | absent => rfl
  | node f a b c d => cases slot <;> rfl

namespace Generator

open Site

variable {σ : Type} [CounterStore σ] [MemoryBacked σ] {g : Generator} {m : MemoryStore}

theorem works_nextDocId (hS : g.schema.KeysDistinct) :
    Works g m (nextDocId : Action (Site σ) String)
      (fun id m' => g.schema.Advanced 1 m m' ∧ g.schema.Follows m (.string id))
      fun _ m' => m' = m := by
  obtain ⟨start, hstart⟩ := hS.keyStart_isText
  have hincrement : Works g m (onCounters (CounterStore.increment g.schema.insertKey 1)
      : Action (Site σ) Int) (fun z m' => ∃ c, m.Counts g.schema.insertKey c ∧ z = c + 1 ∧
        g.schema.Advanced 1 m m') fun _ m' => m' = m := by
    refine (works_increment hS.insertKey_isText 1).mono ?_ fun _ _ h => h.1
    rintro z m' ⟨c, hc, rfl, hw, rfl⟩
    exact ⟨c, hc, rfl, .of_put hS hc hw⟩
  have hid : ∀ z, (g.schema.generatedDocId z).toText = .ok (start ++ Numeral.decimal z) := by
    intro z
    rw [Schema.generatedDocId, hstart]
    rfl
  unfold nextDocId
  refine works_ownSchema_bind (hincrement.bind ?_ fun _ _ h => h)
  rintro z m' ⟨c, hc, rfl, hadvanced⟩
  rw [hid]
  refine works_ofExcept ?_ ?_
  · rintro id ⟨⟩
    refine ⟨hadvanced, start, hstart, fun c' hc' => ?_⟩
    rw [hc'.unique hc]
  · intro e he
    cases he

theorem works_compileInsert (hS : g.schema.KeysDistinct) :
    Works g m (compileInsert : Action (Site σ) Predicate)
      (fun p m' => g.schema.Advanced 1 m m' ∧ g.schema.Follows m p.docId)
      fun _ m' => m' = m := by
  unfold compileInsert
  refine harmless_storedCount.works_bind hS (fun stored => ?_) fun _ => rfl
  refine (harmless_onSampler _).works_bind hS (fun slot => ?_) fun _ => rfl
  refine (harmless_loadBody slot).works_bind hS (fun body => ?_) fun _ => rfl
  exact (works_nextDocId hS).bind (fun id m' h => works_pure h) fun _ _ h => h

theorem works_compileUpdate (hS : g.schema.KeysDistinct) :
    Works g m (compileUpdate : Action (Site σ) Predicate)
      (fun p m' => g.schema.Advanced 1 m m' ∧ g.schema.Follows m p.docId)
      fun _ m' => m' = m := by
  unfold compileUpdate
  refine (works_compileInsert hS).bind ?_ fun _ _ h => h
  rintro root m' ⟨hadvanced, hid⟩
  refine (works_shapePredicate Shape.synthPoint hadvanced).bind ?_ fun _ _ h => h
  intro shape m'' hshape
  refine works_pure ⟨hshape, ?_⟩
  rwa [Predicate.docId_nest]

/-- A shape takes the number of the insert that is thrown away. -/
theorem works_spacedShape (hS : g.schema.KeysDistinct)
    (synth : RandomSource → Shape × RandomSource) :
    Works g m (spacedShape synth : Action (Site σ) Predicate)
      (fun _ m' => g.schema.Advanced 1 m m') fun _ m' => m' = m := by
  unfold spacedShape
  refine (works_compileInsert hS).bind ?_ fun _ _ h => h
  rintro thrown m' ⟨hadvanced, _⟩
  exact works_shapePredicate synth hadvanced

/-- A shape after `k` numbers have been taken is one of the ways of taking less than `n` of them, or there
are `k + 1` of them for what follows. -/
theorem works_spacedShape_bind (hS : g.schema.KeysDistinct) {m' : MemoryStore} {k n : Nat}
    (hm' : g.schema.Advanced k m m') (hk : k < n) {synth : RandomSource → Shape × RandomSource}
    {f : Predicate → Action (Site σ) Predicate} {ok : Predicate → MemoryStore → Prop}
    (hf : ∀ p m'', g.schema.Advanced (k + 1) m m'' →
      Works g m'' (f p) ok fun _ m'' => ∃ j < n, g.schema.Advanced j m m'') :
    Works g m' (spacedShape synth >>= f) ok fun _ m'' => ∃ j < n, g.schema.Advanced j m m'' := by
  refine (works_spacedShape hS synth).bind (fun p m'' h => hf p m'' (hm'.trans h)) ?_
  rintro _ _ rfl
  exact ⟨k, hk, hm'⟩

/-- The numbers that a read takes. -/
def readQuota (withPolygon : Bool) : Nat := if withPolygon then 4 else 3

theorem three_le_readQuota (withPolygon : Bool) : 3 ≤ readQuota withPolygon := by
  cases withPolygon <;> decide

theorem works_compileReadWith [Powers] (hS : g.schema.KeysDistinct) (withPolygon : Bool) :
    Works g m (compileReadWith withPolygon : Action (Site σ) Predicate)
      (fun p m' => g.schema.Advanced (readQuota withPolygon) m m' ∧ g.schema.Follows m p.docId)
      fun _ m' => ∃ k < readQuota withPolygon, g.schema.Advanced k m m' := by
  have hquota := three_le_readQuota withPolygon
  have hnone : ∃ k < readQuota withPolygon, g.schema.Advanced k m m :=
    ⟨0, by omega, .refl m⟩
  unfold compileReadWith
  refine works_ownSchema_bind ?_
  refine harmless_distributedIndex.works_bind hS (fun slot => ?_) fun _ => hnone
  refine (harmless_loadBody slot).works_bind hS (fun body => ?_) fun _ => hnone
  refine (works_nextDocId hS).bind ?_ ?_
  · rintro id m₁ ⟨h₁, hid⟩
    refine (harmless_storedGeometry body slot).works_bind hS (fun geometry => ?_) fun _ =>
      ⟨1, by omega, h₁⟩
    refine works_spacedShape_bind hS h₁ (by omega) fun point m₂ h₂ => ?_
    refine works_spacedShape_bind hS h₂ (by omega) fun lines m₃ h₃ => ?_
    cases withPolygon with
    | false =>
        rw [if_neg Bool.false_ne_true]
        refine works_pure ⟨h₃, ?_⟩
        simpa only [Predicate.docId_nest, Predicate.docId_ofDocument] using hid
    | true =>
        rw [if_pos rfl]
        refine works_spacedShape_bind hS h₃ (by decide) fun polygon m₄ h₄ => works_pure ⟨h₄, ?_⟩
        simpa only [Predicate.docId_nest, Predicate.docId_ofDocument] using hid
  · rintro _ _ rfl
    exact hnone

theorem works_compileRead [Powers] (hS : g.schema.KeysDistinct) :
    Works g m (compileRead : Action (Site σ) Predicate)
      (fun p m' => g.schema.Advanced (readQuota g.settings.readsPolygon) m m' ∧
        g.schema.Follows m p.docId)
      fun _ m' => ∃ k < readQuota g.settings.readsPolygon, g.schema.Advanced k m m' := by
  have hlook : Works g m (Action.look fun site : Site σ => site.generator.settings.readsPolygon)
      (fun b m' => b = g.settings.readsPolygon ∧ m' = m) fun _ _ => False :=
    works_look (f := fun g => g.settings.readsPolygon) fun _ h => ⟨by rw [h.settings], rfl⟩
  refine hlook.bind ?_ fun _ _ h => h.elim
  rintro _ _ ⟨rfl, rfl⟩
  exact works_compileReadWith hS _

end Generator

end GeoWorkload
