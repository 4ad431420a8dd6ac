import GeoWorkload.Proofs.StockedSites

/-!
# Predicates compiled at a stocked store

What compiling an insert, an update or a read gives at a stocked store: the body of a stored document under the
next id, for an insert and an update one of the documents that the generator goes by
(`Generator.compileInsert_ensures`), for a read the one in the slot that was picked
(`Generator.readAt_ensures`).  Nothing fails there for want of a body but a read of a slot that holds none, and
no number can be too long but the next one of the inserts.
-/

namespace GeoWorkload

namespace Generator

open Site

variable {w : Setup} {read last : Int} {docs : List (String × Json.Value)} {m : MemoryStore}
  {site : Site MemoryStore}

/-! ### Indices -/

theorem randomIndex_ensures (hS : w.schema.KeysDistinct) (hsite : site.At w read m)
    (hm : m.Stocked w.schema w.total docs last) : randomIndex.Ensures site
      (fun index site' => site'.At w read m ∧ (w.total ≤ w.bound → 0 ≤ index ∧ index < w.total))
      fun _ site' => site'.At w read m ∧ (w.total ≤ w.bound → w.total ≤ 0) := by
  unfold randomIndex
  refine (totalCount_returns hS hsite hm).bind ?_ fun _ _ h => h.elim
  rintro _ site₁ ⟨rfl, hsite₁⟩
  exact (onSampler_ensures hsite₁ fun s hs => Sampler.uniform_ensures hs _).mono (fun _ _ h => h)
    fun _ _ ⟨hsite₂, he⟩ => ⟨hsite₂, fun h => by omega⟩

/-- Picking an index leaves the store as it is, and the generator goes by the number of documents that it has
read by then; it fails only where arithmetic on numbers does, and never if it is uniform. -/
theorem distributedIndex_ensures [Powers] (hS : w.schema.KeysDistinct) (hsite : site.At w read m)
    (hm : m.Stocked w.schema w.total docs last) : distributedIndex.Ensures site
      (fun index site' => site'.At w (known read docs.length) m ∧
        (w.settings.distribution = .uniform → w.total ≤ w.bound → 0 ≤ index ∧ index < w.total))
      fun e site' => site'.At w (known read docs.length) m ∧ (0 < w.total → w.total ≤ w.bound →
        w.settings.distribution ≠ .uniform ∧ ∃ n, e = .number n) := by
  unfold distributedIndex
  refine (totalCount_returns hS hsite hm).bind ?_ fun _ _ h => h.elim
  rintro _ site₁ ⟨rfl, hsite₁⟩
  refine (storedCount_returns hS hsite₁ hm).bind ?_ fun _ _ h => h.elim
  rintro _ site₂ ⟨rfl, hsite₂⟩
  refine (onSampler_ensures hsite₂ fun s hs => Sampler.sample_ensures hs _ _).mono (fun _ _ h => h) ?_
  rintro e site₃ ⟨hsite₃, ⟨hempty, _⟩ | ⟨hbound, hn⟩⟩
  · exact ⟨hsite₃, fun hpositive => absurd hpositive (Int.not_lt.mpr hempty)⟩
  · exact ⟨hsite₃, fun _ hle => ⟨fun hu => absurd (hbound hu) (Int.not_lt.mpr hle), hn⟩⟩

/-! ### Bodies and ids -/

theorem loadBody_stocked (hS : w.schema.KeysDistinct) (hsite : site.At w read m)
    (hm : m.Stocked w.schema w.total docs last) (slot : Int) : (loadBody slot).Ensures site
      (fun body site' => site' = site ∧ slotText (bodies docs) slot = some body)
      fun e site' => site' = site ∧ slotText (bodies docs) slot = none ∧
        (¬ Numeral.IsWritable slot ∧ e = .number .unwritable ∨
          Numeral.IsWritable slot ∧ e = .slotNotFound slot (w.schema.bodyKey slot)) := by
  obtain ⟨hready, rfl⟩ := hsite
  rw [← hm.get?_bodyKey]
  rw [← hready.schema] at hS ⊢
  refine (loadBody_ensures (hS.bodyKey_isText slot)).mono (fun body _ ⟨h, _, hbody⟩ => ⟨h, hbody⟩) ?_
  rintro e _ ⟨rfl, ⟨hw, he⟩ | ⟨hw, hnone, he⟩⟩
  · refine ⟨rfl, ?_, Or.inl ⟨hw, he⟩⟩
    rw [hready.schema, hm.get?_bodyKey, Option.eq_none_iff_forall_ne_some]
    intro body hbody
    obtain ⟨h0, hlt⟩ := isSome_slotText.mp (Option.isSome_of_eq_some hbody)
    exact hw (hm.isWritable_slot h0 (by simpa [bodies] using hlt))
  · exact ⟨rfl, hnone, Or.inr ⟨hw, he⟩⟩

theorem nextDocId_stocked (hS : w.schema.KeysDistinct) {start : String}
    (hstart : w.schema.keyStart = .text start) (hsite : site.At w read m)
    (hm : m.Stocked w.schema w.total docs last) : nextDocId.Ensures site
      (fun id site' => ∃ m', id = start ++ Numeral.decimal (last + 1) ∧ site'.At w read m' ∧
        m'.Stocked w.schema w.total docs (last + 1))
      fun _ site' => site' = site ∧ ¬ Numeral.IsWritable (last + 1) := by
  obtain ⟨hready, rfl⟩ := hsite
  rw [← hready.schema] at hS hstart
  refine (nextDocId_ensures hS.insertKey_isText hstart).mono ?_ ?_
  · rintro _ _ ⟨last', hlast, hw, rfl, rfl⟩
    rw [hready.schema] at hlast hS
    obtain rfl := hlast.unique hm.inserts
    refine ⟨_, rfl, ⟨hready, rfl⟩, ?_⟩
    rw [hready.schema]
    exact hm.of_put hS hw
  · rintro e _ ⟨rfl, he⟩
    rw [hready.schema] at he
    refine ⟨rfl, ?_⟩
    rcases he with he | ⟨_, last', hlast, hw⟩
    · exact absurd he hm.inserts.not_uncounted
    · rwa [hlast.unique hm.inserts] at hw

/-! ### Inserts -/

theorem known_mem {stored : Int} (h : 0 ≤ read ∧ read ≤ stored) :
    0 ≤ known read stored ∧ known read stored ≤ stored := by
  unfold known
  split
  · exact h
  · exact ⟨by omega, Int.le_refl _⟩

/-- An insert is made of a stored document, one of the first ones that the generator goes by, under the next
id; it fails for want of documents, or of a number that is short enough. -/
theorem compileInsert_ensures (hS : w.schema.KeysDistinct) {start : String}
    (hstart : w.schema.keyStart = .text start) (hread : 0 ≤ read ∧ read ≤ docs.length)
    (hsite : site.At w read m) (hm : m.Stocked w.schema w.total docs last) : compileInsert.Ensures site
      (fun p site' => ∃ slot body m', slotText (bodies docs) slot = some body ∧
        (known read docs.length ≤ w.bound → slot < known read docs.length) ∧
        p = .ofDocument (start ++ Numeral.decimal (last + 1)) body ∧
        site'.At w (known read docs.length) m' ∧ m'.Stocked w.schema w.total docs (last + 1))
      fun _ site' => site'.At w (known read docs.length) m ∧
        (0 < known read docs.length → known read docs.length ≤ w.bound →
          ¬ Numeral.IsWritable (last + 1)) := by
  obtain ⟨_, hknown⟩ := known_mem hread
  unfold compileInsert
  refine (storedCount_returns hS hsite hm).bind ?_ fun _ _ h => h.elim
  rintro _ site₁ ⟨rfl, hsite₁⟩
  refine (onSampler_ensures hsite₁ fun s hs => Sampler.uniform_ensures hs _).bind ?_ ?_
  · rintro slot site₂ ⟨hsite₂, hslot⟩
    refine (loadBody_stocked hS hsite₂ hm slot).bind ?_ ?_
    · rintro body _ ⟨rfl, hbody⟩
      refine (nextDocId_stocked hS hstart hsite₂ hm).bind ?_ ?_
      · rintro _ site₃ ⟨m', rfl, hsite₃, hm'⟩
        exact Action.ensures_pure.mpr ⟨slot, body, m', hbody, fun h => (hslot h).2, rfl, hsite₃, hm'⟩
      · rintro _ _ ⟨rfl, hw⟩
        exact ⟨hsite₂, fun _ _ => hw⟩
    · rintro e _ ⟨rfl, hnone, _⟩
      refine ⟨hsite₂, fun _ hbound => ?_⟩
      obtain ⟨h0, hlt⟩ := hslot hbound
      have hsome : (slotText (bodies docs) slot).isSome :=
        isSome_slotText.mpr ⟨h0, by unfold bodies; rw [List.length_map]; omega⟩
      rw [hnone] at hsome
      cases hsome
  · exact fun e site₂ ⟨hsite₂, he⟩ => ⟨hsite₂, fun hpositive hbound => by omega⟩

/-! ### Shapes -/

theorem shapePredicate_returns {synth : RandomSource → Shape × RandomSource}
    (hsynth : Shape.DrawsFairly synth) (hsite : site.At w read m) : (shapePredicate synth).Returns site
      fun p site' => (∃ s, p = .ofGeometry w.schema.geometryField.toJson (synth s).1.toJson) ∧
        site'.At w read m := by
  have hstep : ∀ s : Sampler, s.Sound w.settings w.bound →
      (Action.within (·.source) (fun source s => { s with source })
        (Action.step fun s => ((.ok (synth s).1, (synth s).2) : Except Failure Shape × RandomSource))
        : Action Sampler Shape).Ensures s
        (fun shape s' => s'.Sound w.settings w.bound ∧ ∃ s, shape = (synth s).1)
        fun _ s' => s'.Sound w.settings w.bound ∧ False := fun s hs =>
    Action.Ensures.within (Action.ensures_step.mpr ⟨hs.withSource (hsynth _ _ hs.fair), s.source, rfl⟩)
  have hdraw : (drawShape synth).Returns site fun shape site' =>
      site'.At w read m ∧ ∃ s, shape = (synth s).1 :=
    (onSampler_ensures hsite hstep).mono (fun _ _ h => h) fun _ _ h => h.2
  unfold shapePredicate
  refine ownSchema_bind_ensures hsite ?_
  refine hdraw.bind ?_ fun _ _ h => h
  rintro _ site' ⟨hsite', s, rfl⟩
  exact Action.ensures_pure.mpr ⟨⟨s, rfl⟩, hsite'⟩

/-- The predicate of an update is that of an insert with a random point. -/
theorem compileUpdate_ensures (hS : w.schema.KeysDistinct) {start : String}
    (hstart : w.schema.keyStart = .text start) (hread : 0 ≤ read ∧ read ≤ docs.length)
    (hsite : site.At w read m) (hm : m.Stocked w.schema w.total docs last) : compileUpdate.Ensures site
      (fun p site' => ∃ slot body m', slotText (bodies docs) slot = some body ∧
        (known read docs.length ≤ w.bound → slot < known read docs.length) ∧
        (∃ s, p = (Predicate.ofDocument (start ++ Numeral.decimal (last + 1)) body).nest .a
          (.ofGeometry w.schema.geometryField.toJson (Shape.synthPoint s).1.toJson)) ∧
        site'.At w (known read docs.length) m' ∧ m'.Stocked w.schema w.total docs (last + 1))
      fun _ site' => site'.At w (known read docs.length) m ∧
        (0 < known read docs.length → known read docs.length ≤ w.bound →
          ¬ Numeral.IsWritable (last + 1)) := by
  unfold compileUpdate
  refine (compileInsert_ensures hS hstart hread hsite hm).bind ?_ fun _ _ h => h
  rintro root site₁ ⟨slot, body, m', hbody, hslot, rfl, hsite₁, hm'⟩
  refine (shapePredicate_returns Shape.drawsFairly_synthPoint hsite₁).bind ?_ fun _ _ h => h.elim
  rintro shape site₂ ⟨⟨s, rfl⟩, hsite₂⟩
  exact Action.ensures_pure.mpr ⟨slot, body, m', hbody, hslot, ⟨s, rfl⟩, hsite₂, hm'⟩

/-! ### Reads -/

/-- A generator that goes by the number of documents that it has read, one at least, draws a shape after the
insert that is thrown away, unless the next number is too long. -/
theorem spacedShape_ensures (hS : w.schema.KeysDistinct) {start : String}
    (hstart : w.schema.keyStart = .text start) (hread : 0 < read ∧ read ≤ docs.length)
    (hsite : site.At w read m) (hm : m.Stocked w.schema w.total docs last)
    {synth : RandomSource → Shape × RandomSource} (hsynth : Shape.DrawsFairly synth) :
    (spacedShape synth).Ensures site
      (fun p site' => (∃ s, p = .ofGeometry w.schema.geometryField.toJson (synth s).1.toJson) ∧
        ∃ m', site'.At w read m' ∧ m'.Stocked w.schema w.total docs (last + 1))
      fun _ site' => site'.At w read m ∧ (read ≤ w.bound → ¬ Numeral.IsWritable (last + 1)) := by
  have hknown : known read docs.length = read := if_pos (by omega)
  have hinsert := compileInsert_ensures hS hstart ⟨by omega, hread.2⟩ hsite hm
  rw [hknown] at hinsert
  unfold spacedShape
  refine hinsert.bind ?_ fun _ _ ⟨hsite', hw⟩ => ⟨hsite', hw hread.1⟩
  rintro _ site₁ ⟨_, _, m', _, _, _, hsite₁, hm'⟩
  refine (shapePredicate_returns hsynth hsite₁).mono ?_ fun _ _ h => h.elim
  exact fun p site₂ ⟨hp, hsite₂⟩ => ⟨hp, m', hsite₂, hm'⟩

/-- The predicate of a read of a body under an id: the geometry of the body in the first slot, and random
shapes in the others. -/
def IsReadOf (S : Schema) (withPolygon : Bool) (id body : String) (p : Predicate) : Prop :=
  ∃ point lines polygon : RandomSource, p = .node { docId := .string id, rawValue := .string body }
    (.ofGeometry S.geometryField.toJson (geometryOf S body))
    (.ofGeometry S.geometryField.toJson (Shape.synthPoint point).1.toJson)
    (.ofGeometry S.geometryField.toJson (Shape.synthLines lines).1.toJson)
    (if withPolygon then .ofGeometry S.geometryField.toJson (Shape.synthPolygon polygon).1.toJson
      else .absent)

/-- The read of the document in a slot. -/
def readAt (S : Schema) (withPolygon : Bool) (slot : Int) : Action (Site MemoryStore) Predicate := do
  let body ← loadBody slot
  let root := Predicate.ofDocument (← nextDocId) body
  let root := root.nest .a (.ofGeometry S.geometryField.toJson (← storedGeometry body slot))
  let root := root.nest .b (← spacedShape Shape.synthPoint)
  let root := root.nest .c (← spacedShape Shape.synthLines)
  if withPolygon then
    return root.nest .d (← spacedShape Shape.synthPolygon)
  else
    return root

theorem compileReadWith_eq [Powers] (withPolygon : Bool) :
    (compileReadWith withPolygon : Action (Site MemoryStore) Predicate) =
      ownSchema >>= fun S => distributedIndex >>= readAt S withPolygon := rfl

/-- How a read of a slot may fail: where the slot holds no body, for that reason and without any change, unless
the slot is too long to be written; and else only because one of the numbers that the read takes is too long. -/
structure ReadFailed (w : Setup) (read : Int) (docs : List (String × Json.Value)) (last : Int)
    (withPolygon : Bool) (slot : Int) (site : Site MemoryStore) (e : Failure) (site' : Site MemoryStore) :
    Prop where
  stocked : ∃ m' last', site'.At w read m' ∧ m'.Stocked w.schema w.total docs last'
  empty : slotText (bodies docs) slot = none → site' = site ∧
    (¬ Numeral.IsWritable slot ∧ e = .number .unwritable ∨
      Numeral.IsWritable slot ∧ e = .slotNotFound slot (w.schema.bodyKey slot))
  full : (slotText (bodies docs) slot).isSome → read ≤ w.bound →
    ∃ k : Nat, k ≤ readQuota withPolygon ∧ ¬ Numeral.IsWritable (last + k)

/-- A read of a slot gives the document in it under the next id, with all its shapes. -/
theorem readAt_ensures (hS : w.schema.KeysDistinct) {start : String}
    (hstart : w.schema.keyStart = .text start) (hread : 0 ≤ read ∧ read ≤ docs.length)
    (hknown : known read docs.length = read) (hsite : site.At w read m)
    (hm : m.Stocked w.schema w.total docs last) (withPolygon : Bool) (slot : Int) :
    (readAt w.schema withPolygon slot).Ensures site
      (fun p site' => ∃ body m', slotText (bodies docs) slot = some body ∧
        IsReadOf w.schema withPolygon (start ++ Numeral.decimal (last + 1)) body p ∧
        site'.At w read m' ∧ m'.Stocked w.schema w.total docs (last + readQuota withPolygon))
      (ReadFailed w read docs last withPolygon slot site) := by
  have hquota := three_le_readQuota withPolygon
  unfold readAt
  refine (loadBody_stocked hS hsite hm slot).bind ?_ ?_
  · rintro body site ⟨rfl, hbody⟩
    have hpositive : 0 < read ∧ read ≤ docs.length := by
      obtain ⟨_, hlt⟩ := isSome_slotText.mp (Option.isSome_of_eq_some hbody)
      simp only [bodies, List.length_map] at hlt
      unfold known at hknown
      split at hknown <;> omega
    -- once the body is there, only the next number can be too long, whichever of them it is
    have hfailed : ∀ {e site' m' last'} (k : Nat), k ≤ readQuota withPolygon → last' + 1 = last + k →
        site'.At w read m' → m'.Stocked w.schema w.total docs last' →
        (read ≤ w.bound → ¬ Numeral.IsWritable (last' + 1)) →
        ReadFailed w read docs last withPolygon slot site e site' := by
      intro e site' m' last' k hk hlast hsite' hm' hw
      refine ⟨⟨m', last', hsite', hm'⟩, fun hnone => ?_, fun _ hbound => ⟨k, hk, hlast ▸ hw hbound⟩⟩
      rw [hbody] at hnone
      cases hnone
    refine (nextDocId_stocked hS hstart hsite hm).bind ?_ ?_
    · rintro _ site₁ ⟨m₁, rfl, hsite₁, hm₁⟩
      refine (storedGeometry_returns body slot).bind ?_ fun _ _ h => h.elim
      rintro _ _ ⟨rfl, rfl⟩
      rw [hsite₁.ready.schema]
      refine (spacedShape_ensures hS hstart hpositive hsite₁ hm₁ Shape.drawsFairly_synthPoint).bind ?_ ?_
      · rintro _ site₂ ⟨⟨point, rfl⟩, m₂, hsite₂, hm₂⟩
        refine (spacedShape_ensures hS hstart hpositive hsite₂ hm₂ Shape.drawsFairly_synthLines).bind
          ?_ ?_
        · rintro _ site₃ ⟨⟨lines, rfl⟩, m₃, hsite₃, hm₃⟩
          cases withPolygon with
          | false =>
              rw [if_neg Bool.false_ne_true]
              refine Action.ensures_pure.mpr ⟨body, m₃, hbody, ⟨point, lines, point, rfl⟩, hsite₃, ?_⟩
              have hlast : last + (readQuota false : Int) = last + 1 + 1 + 1 := by
                show last + 3 = _
                omega
              rwa [hlast]
          | true =>
              rw [if_pos rfl]
              refine (spacedShape_ensures hS hstart hpositive hsite₃ hm₃
                Shape.drawsFairly_synthPolygon).bind ?_ ?_
              · rintro _ site₄ ⟨⟨polygon, rfl⟩, m₄, hsite₄, hm₄⟩
                refine Action.ensures_pure.mpr
                  ⟨body, m₄, hbody, ⟨point, lines, polygon, rfl⟩, hsite₄, ?_⟩
                have hlast : last + (readQuota true : Int) = last + 1 + 1 + 1 + 1 := by
                  show last + 4 = _
                  omega
                rwa [hlast]
              · exact fun _ _ ⟨hsite', hw⟩ => hfailed 4 (by decide) (by omega) hsite' hm₃ hw
        · exact fun _ _ ⟨hsite', hw⟩ => hfailed 3 (by omega) (by omega) hsite' hm₂ hw
      · exact fun _ _ ⟨hsite', hw⟩ => hfailed 2 (by omega) (by omega) hsite' hm₁ hw
    · rintro _ _ ⟨rfl, hw⟩
      exact hfailed 1 (by omega) rfl hsite hm fun _ => hw
  · rintro e _ ⟨rfl, hnone, he⟩
    refine ⟨⟨m, last, hsite, hm⟩, fun _ => ⟨rfl, he⟩, fun hsome => ?_⟩
    rw [hnone] at hsome
    cases hsome

end Generator

end GeoWorkload
