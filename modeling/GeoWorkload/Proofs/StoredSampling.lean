import GeoWorkload.Proofs.StockedCompiling

/-!
# Sampling stored documents

Whatever operations of whatever generators there were at a store that was seeded and empty before, a generator
that goes on there makes its inserts and updates of the documents that were stored when it first read a number
of them that was not zero (`Fleet.knownTo`), and its reads of the slots that it picks.  The numbers that the
generators have read can be as old as any of their operations: what one operation does to the number that its
generator has read is said once (`Fleet.numberSeen_concat`) and kept by every operation
(`Fleet.perform_watched`).
-/

namespace GeoWorkload

namespace Generator

open Site

/-- The predicate of a read with a polygon, without one, or as the settings want it. -/
def compileReadFor [Powers] {σ : Type} [CounterStore σ] : Option Bool → Action (Site σ) Predicate
  | none => compileRead
  | some withPolygon => compileReadWith withPolygon

variable {w : Setup} {read last : Int} {docs : List (String × Json.Value)} {m : MemoryStore}
  {site : Site MemoryStore}

/-! ### One operation at a stocked store -/

/-- A generator that is ready is at a store with the documents. -/
def Site.Stocked (w : Setup) (read : Int) (docs : List (String × Json.Value)) (site : Site MemoryStore) :
    Prop :=
  ∃ m last, site.At w read m ∧ m.Stocked w.schema w.total docs last

/-- However the action ends, the store still holds the documents and no others, and the number of them that the
generator has read is then `read`. -/
def KeepsStocked {α : Type} (w : Setup) (read : Int) (docs : List (String × Json.Value))
    (x : Action (Site MemoryStore) α) (site : Site MemoryStore) : Prop :=
  x.Ensures site (fun _ site' => site'.Stocked w read docs) fun _ site' => site'.Stocked w read docs

theorem keepsStocked_ofNumber (r : Except NumberError String) (h : site.Stocked w read docs) :
    KeepsStocked w read docs (Action.ofNumber r) site :=
  Action.ensures_ofExcept.mpr ⟨fun _ _ => h, fun _ _ => h⟩

section keeps

variable (hS : w.schema.KeysDistinct) {start : String} (hstart : w.schema.keyStart = .text start)
  (hread : 0 ≤ read ∧ read ≤ docs.length) (hsite : site.At w read m)
  (hm : m.Stocked w.schema w.total docs last)

section

include hS hsite hm

theorem keepsStocked_randomDocId : KeepsStocked w read docs randomDocId site := by
  have hindex := randomIndex_ensures hS hsite hm
  apply hindex.bind
  · intro index site' h
    have hsite' : site'.Stocked w read docs := ⟨m, last, h.1, hm⟩
    exact keepsStocked_ofNumber _ hsite'
  · intro e site' h
    exact ⟨m, last, h.1, hm⟩

theorem keepsStocked_distributedDocId [Powers] :
    KeepsStocked w (known read docs.length) docs distributedDocId site := by
  have hindex := distributedIndex_ensures hS hsite hm
  apply hindex.bind
  · intro index site' h
    have hsite' : site'.Stocked w (known read docs.length) docs := ⟨m, last, h.1, hm⟩
    exact keepsStocked_ofNumber _ hsite'
  · intro e site' h
    exact ⟨m, last, h.1, hm⟩

end

include hS hstart hread hsite hm

theorem keepsStocked_compileInsert :
    KeepsStocked w (known read docs.length) docs compileInsert site := by
  have hinsert := compileInsert_ensures hS hstart hread hsite hm
  apply hinsert.mono
  · rintro p site' ⟨slot, body, m', _, _, _, hsite', hm'⟩
    exact ⟨m', last + 1, hsite', hm'⟩
  · intro e site' h
    exact ⟨m, last, h.1, hm⟩

theorem keepsStocked_compileUpdate :
    KeepsStocked w (known read docs.length) docs compileUpdate site := by
  have hupdate := compileUpdate_ensures hS hstart hread hsite hm
  apply hupdate.mono
  · rintro p site' ⟨slot, body, m', _, _, _, hsite', hm'⟩
    exact ⟨m', last + 1, hsite', hm'⟩
  · intro e site' h
    exact ⟨m, last, h.1, hm⟩

theorem keepsStocked_compileReadWith [Powers] (withPolygon : Bool) :
    KeepsStocked w (known read docs.length) docs (compileReadWith withPolygon) site := by
  have hindex := distributedIndex_ensures hS hsite hm
  unfold KeepsStocked
  rw [compileReadWith_eq]
  apply ownSchema_bind_ensures hsite
  apply hindex.bind
  · intro slot site₁ h
    -- the generator goes by the number that it has read by now, from then on as well
    have hreadAt := readAt_ensures hS hstart (known_mem hread) (known_known ..) h.1 hm withPolygon slot
    apply hreadAt.mono
    · rintro p site' ⟨body, m', _, _, hsite', hm'⟩
      exact ⟨m', _, hsite', hm'⟩
    · intro e site' hfailed
      exact hfailed.stocked
  · intro e site' h
    exact ⟨m, last, h.1, hm⟩

end keeps

/-! ### What a generator gives at a stocked store -/

theorem exists_mem_of_slotText {seen : List (String × Json.Value)} (hseen : seen <+: docs) {slot : Int}
    {body : String} (hbody : slotText (bodies docs) slot = some body) (hlt : slot < seen.length) :
    ∃ doc ∈ seen, body = bodyOf doc.2 := by
  obtain ⟨h0, _⟩ := isSome_slotText.mp (Option.isSome_of_eq_some hbody)
  obtain ⟨k, rfl⟩ := Int.eq_ofNat_of_zero_le h0
  obtain ⟨others, rfl⟩ := hseen
  have hk : k < seen.length := Int.ofNat_lt.mp hlt
  rw [slotText_natCast, bodies, List.getElem?_map, List.getElem?_append_left hk,
    List.getElem?_eq_getElem hk] at hbody
  cases hbody
  exact ⟨seen[k], List.getElem_mem hk, rfl⟩

theorem slotText_bodies_eq_none {slot : Int} (h : ¬ (0 ≤ slot ∧ slot < docs.length)) :
    slotText (bodies docs) slot = none := by
  rw [← Option.not_isSome_iff_eq_none, isSome_slotText, bodies, List.length_map]
  exact h

variable [Powers]

/-- What a generator gives that goes on at a store of documents, when it goes by those it has seen and `last` is
the number of the last insert.  Inserts and updates are made of documents that it has seen, and a read of the
document in the slot that it picks.  A read fails without any change where no slot can be picked, which only
arithmetic on numbers can be the cause of, where the slot that is picked holds no document, and where it is too
long to be written. -/
structure Serves (S : Schema) (start : String) (seen docs : List (String × Json.Value)) (last : Int)
    (site : Site MemoryStore) : Prop where
  insert : docs ≠ [] → Numeral.IsWritable (last + 1) → compileInsert.Returns site fun p _ =>
    ∃ doc ∈ seen, p = .ofDocument (start ++ Numeral.decimal (last + 1)) (bodyOf doc.2)
  update : docs ≠ [] → Numeral.IsWritable (last + 1) → compileUpdate.Returns site fun p _ =>
    ∃ doc ∈ seen, ∃ source, p =
      (Predicate.ofDocument (start ++ Numeral.decimal (last + 1)) (bodyOf doc.2)).nest .a
        (.ofGeometry S.geometryField.toJson (Shape.synthPoint source).1.toJson)
  unpicked : ∀ e withPolygon, distributedIndex.outcome site = .error e →
    site.generator.settings.distribution ≠ .uniform ∧ (∃ n, e = .number n) ∧
      (compileReadFor withPolygon).outcome site = .error e ∧
      ((compileReadFor withPolygon).after site).counters = site.counters
  missing : ∀ index withPolygon, distributedIndex.outcome site = .ok index →
    ¬ (0 ≤ index ∧ index < docs.length) → Numeral.IsWritable index →
      (compileReadFor withPolygon).outcome site = .error (.slotNotFound index (S.bodyKey index)) ∧
      ((compileReadFor withPolygon).after site).counters = site.counters
  tooLong : ∀ index withPolygon, distributedIndex.outcome site = .ok index → ¬ Numeral.IsWritable index →
    (compileReadFor withPolygon).outcome site = .error (.number .unwritable) ∧
      ((compileReadFor withPolygon).after site).counters = site.counters
  found : ∀ (slot : Nat) doc (withPolygon : Option Bool), distributedIndex.outcome site = .ok slot →
    docs[slot]? = some doc →
    Numeral.IsWritable (last + readQuota (withPolygon.getD site.generator.settings.readsPolygon)) →
      ∃ p, (compileReadFor withPolygon).outcome site = .ok p ∧
        IsReadOf S (withPolygon.getD site.generator.settings.readsPolygon)
          (start ++ Numeral.decimal (last + 1)) (bodyOf doc.2) p

/-- A read picks a slot and reads the document in it. -/
theorem compileReadFor_outcome (site : Site MemoryStore) (withPolygon : Option Bool) :
    let picked := distributedIndex >>= readAt site.generator.schema
      (withPolygon.getD site.generator.settings.readsPolygon)
    (compileReadFor withPolygon).outcome site = picked.outcome site ∧
      (compileReadFor withPolygon).after site = picked.after site := by
  cases withPolygon with
  | none =>
      obtain ⟨houtcome, hafter⟩ := Action.outcome_look_bind (fun site : Site MemoryStore =>
        site.generator.settings.readsPolygon) compileReadWith site
      obtain ⟨houtcome', hafter'⟩ := Action.outcome_look_bind (fun site : Site MemoryStore =>
        site.generator.schema) (fun S => distributedIndex >>= readAt S site.generator.settings.readsPolygon) site
      exact ⟨houtcome.trans houtcome', hafter.trans hafter'⟩
  | some withPolygon => exact Action.outcome_look_bind ..

section serves

variable (hS : w.schema.KeysDistinct) {start : String} (hstart : w.schema.keyStart = .text start)
  (hread : 0 ≤ read ∧ read ≤ docs.length) (hsite : site.At w read m)
  (hm : m.Stocked w.schema w.total docs last)

include hS hstart hread hsite hm

theorem compileReadFor_of_picked {index : Int} (hpick : distributedIndex.outcome site = .ok index)
    (withPolygon : Option Bool) :
    let b := withPolygon.getD site.generator.settings.readsPolygon
    (∃ p body, (compileReadFor withPolygon).outcome site = .ok p ∧
      slotText (bodies docs) index = some body ∧
      IsReadOf w.schema b (start ++ Numeral.decimal (last + 1)) body p) ∨
    ∃ e, (compileReadFor withPolygon).outcome site = .error e ∧
      ReadFailed w (known read docs.length) docs last b index (distributedIndex.after site) e
        ((compileReadFor withPolygon).after site) := by
  intro b
  obtain ⟨houtcome, hafter⟩ := compileReadFor_outcome site withPolygon
  obtain ⟨hsite', _⟩ := (distributedIndex_ensures hS hsite hm).of_outcome hpick
  have hreadAt := readAt_ensures hS hstart (known_mem hread) (known_known ..) hsite' hm b index
  rw [houtcome, hafter, hsite.ready.schema]
  rcases Action.Ensures.outcome_bind hpick hreadAt with ⟨p, hp, body, _, hbody, hof, _, _⟩ | h
  · exact Or.inl ⟨p, body, hp, hbody, hof⟩
  · exact Or.inr h

/-- A read of a slot without a body leaves the store as it is, and says that nothing is stored in the slot, or
that the slot is too long to be written. -/
theorem compileReadFor_of_empty {index : Int} (hpick : distributedIndex.outcome site = .ok index)
    (hempty : slotText (bodies docs) index = none) (withPolygon : Option Bool) :
    ((compileReadFor withPolygon).after site).counters = site.counters ∧
      (¬ Numeral.IsWritable index ∧
          (compileReadFor withPolygon).outcome site = .error (.number .unwritable) ∨
        Numeral.IsWritable index ∧ (compileReadFor withPolygon).outcome site =
          .error (.slotNotFound index (w.schema.bodyKey index))) := by
  obtain ⟨hsite', _⟩ := (distributedIndex_ensures hS hsite hm).of_outcome hpick
  rcases compileReadFor_of_picked hS hstart hread hsite hm hpick withPolygon with
    ⟨_, _, _, hbody, _⟩ | ⟨e, he, hfailed⟩
  · rw [hempty] at hbody
    cases hbody
  · obtain ⟨hafter, hwhy⟩ := hfailed.empty hempty
    refine ⟨?_, ?_⟩
    · rw [hafter, hsite'.counters, hsite.counters]
    · rw [he]
      exact hwhy.imp (fun ⟨hw, h⟩ => ⟨hw, congrArg _ h⟩) fun ⟨hw, h⟩ => ⟨hw, congrArg _ h⟩

theorem serves_of_at (htotal : 0 < w.total) (hbound : w.total ≤ w.bound) (hlength : docs.length ≤ w.bound)
    {seen : List (String × Json.Value)} (hseen : seen <+: docs)
    (hknown : known read docs.length = seen.length) : Serves w.schema start seen docs last site := by
  obtain ⟨_, hle⟩ := known_mem hread
  have hpositive : docs ≠ [] → 0 < known read docs.length := by
    intro hdocs
    have := List.length_pos_iff.mpr hdocs
    unfold known
    split <;> omega
  have hdocument : ∀ slot body, slotText (bodies docs) slot = some body →
      (known read docs.length ≤ w.bound → slot < known read docs.length) →
      ∃ doc ∈ seen, body = bodyOf doc.2 := by
    intro slot body hbody hslot
    have hlt : slot < seen.length := hknown ▸ hslot (by omega)
    exact exists_mem_of_slotText hseen hbody hlt
  constructor
  case insert =>
    intro hdocs hw
    have hinsert := compileInsert_ensures hS hstart hread hsite hm
    apply hinsert.mono
    · rintro p _ ⟨slot, body, _, hbody, hslot, rfl, _, _⟩
      obtain ⟨doc, hdoc, rfl⟩ := hdocument slot body hbody hslot
      exact ⟨doc, hdoc, rfl⟩
    · rintro e _ ⟨_, hshort⟩
      exact hshort (hpositive hdocs) (by omega) hw
  case update =>
    intro hdocs hw
    have hupdate := compileUpdate_ensures hS hstart hread hsite hm
    apply hupdate.mono
    · rintro p _ ⟨slot, body, _, hbody, hslot, ⟨source, rfl⟩, _, _⟩
      obtain ⟨doc, hdoc, rfl⟩ := hdocument slot body hbody hslot
      exact ⟨doc, hdoc, source, rfl⟩
    · rintro e _ ⟨_, hshort⟩
      exact hshort (hpositive hdocs) (by omega) hw
  case unpicked =>
    intro e withPolygon hpick
    obtain ⟨houtcome, hafter⟩ := compileReadFor_outcome site withPolygon
    obtain ⟨hsite', hwhy⟩ := (distributedIndex_ensures hS hsite hm).of_outcome_error hpick
    obtain ⟨hskewed, hn⟩ := hwhy htotal hbound
    obtain ⟨he, hstays⟩ := Action.outcome_bind_of_error (f := readAt site.generator.schema
      (withPolygon.getD site.generator.settings.readsPolygon)) hpick
    refine ⟨hsite.ready.settings ▸ hskewed, hn, houtcome.trans he, ?_⟩
    rw [hafter, hstays, hsite'.counters, hsite.counters]
  case missing =>
    intro index withPolygon hpick houtside hw
    obtain ⟨hkept, ⟨hlong, _⟩ | ⟨_, he⟩⟩ := compileReadFor_of_empty hS hstart hread hsite hm hpick
      (slotText_bodies_eq_none houtside) withPolygon
    · exact absurd hw hlong
    · exact ⟨he, hkept⟩
  case tooLong =>
    intro index withPolygon hpick hlong
    have houtside : ¬ (0 ≤ index ∧ index < docs.length) :=
      fun ⟨h0, hlt⟩ => hlong (hm.isWritable_slot h0 hlt)
    obtain ⟨hkept, ⟨_, he⟩ | ⟨hw, _⟩⟩ := compileReadFor_of_empty hS hstart hread hsite hm hpick
      (slotText_bodies_eq_none houtside) withPolygon
    · exact ⟨he, hkept⟩
    · exact absurd hw hlong
  case found =>
    intro slot doc withPolygon hpick hdoc hw
    have hbody : slotText (bodies docs) slot = some (bodyOf doc.2) := by
      rw [slotText_natCast, bodies, List.getElem?_map, hdoc]
      rfl
    rcases compileReadFor_of_picked hS hstart hread hsite hm hpick withPolygon with
      ⟨p, body, hp, hbody', hof⟩ | ⟨e, _, hfailed⟩
    · rw [hbody] at hbody'
      cases hbody'
      exact ⟨p, hp, hof⟩
    · obtain ⟨k, hk, hlong⟩ := hfailed.full (Option.isSome_of_eq_some hbody) (by omega)
      exact absurd (hm.writable.of_le_of_le hw (by omega) (by omega)) hlong

end serves

/-- At a store of two documents at most, a generator that wants the latest and has not picked any index yet has a
single one to pick. -/
theorem distributedIndex_of_fresh (hS : w.schema.KeysDistinct) (hsite : site.At w 0 m)
    (hm : m.Stocked w.schema w.total docs last) (hlength : docs.length ≤ 2) {window : Window}
    {source : RandomSource}
    (hfresh : site.generator.sampler = .make .latest window defaultTheta source) :
    distributedIndex.Ensures site
      (fun index _ => index = w.total - 1 - (window.limitMax + window.offsetMax))
      fun e _ => ∃ n, e = .number n := by
  -- reading the counts leaves the sampler as it is
  have htotal : totalCount.Ensures site (fun _ site' => site'.generator.sampler = site.generator.sampler)
      fun _ _ => True := by
    have hkey : site.generator.schema.totalKey.IsText := hsite.ready.schema ▸ hS.totalKey_isText
    exact totalCount_ensures hkey (fun _ => rfl) (fun _ _ _ => rfl) fun _ _ => trivial
  unfold distributedIndex
  refine ((totalCount_returns hS hsite hm).and htotal).bind ?_ fun _ _ h => h.1.elim
  rintro _ site₁ ⟨⟨rfl, hsite₁⟩, hfresh₁⟩
  have hstored : storedCount.Ensures site₁
      (fun _ site' => site'.generator.sampler = site₁.generator.sampler) fun _ _ => True := by
    have hkey : site₁.generator.schema.storedKey.IsText := hsite₁.ready.schema ▸ hS.storedKey_isText
    exact storedCount_ensures hkey (fun _ => rfl) (fun _ _ _ => rfl) fun _ _ => trivial
  refine ((storedCount_returns hS hsite₁ hm).and hstored).bind ?_ fun _ _ h => h.1.elim
  rintro _ site₂ ⟨⟨rfl, _⟩, hfresh₂⟩
  have hsampler : site₂.generator.sampler = .make .latest window defaultTheta source :=
    hfresh₂.trans (hfresh₁.trans hfresh)
  have hfew : known 0 docs.length ≤ 2 := Int.ofNat_le.mpr hlength
  have hpick := Sampler.latest_of_fresh window source w.total hfew
  rw [← hsampler] at hpick
  unfold onSampler onGenerator
  exact Action.Ensures.within (Action.Ensures.within hpick)

end Generator

namespace Fleet

open Generator Generator.Site

/-! ### One operation -/

/-- Whether the operation reads how many documents are stored, if its generator has not done so yet. -/
def Call.readsStored : Call → Bool
  | compileInsert | compileUpdate | compileRead _ | distributedDocId => true
  | ingest .. | randomDocId => false

/-- The number that a generator has read after an operation. -/
def Call.readAfter (call : Call) (read stored : Int) : Int :=
  if call.readsStored then known read stored else read

variable {ι : Type}

/-- An operation adds its document if it is an ingest that returns, and the generator reads the number of the
documents before it as the operation wants it. -/
theorem perform_stocked [Powers] {w : Setup} {read last : Int} {docs : List (String × Json.Value)} {m : MemoryStore}
    {site : Site MemoryStore} (hS : w.schema.KeysDistinct) {start : String}
    (hstart : w.schema.keyStart = .text start) (hread : 0 ≤ read ∧ read ≤ docs.length)
    (hsite : site.At w read m) (hm : m.Stocked w.schema w.total docs last) (worker : ι) (call : Call) :
    call.perform.Ensures site
      (fun r site' => site'.Stocked w (call.readAfter read docs.length)
        (docs ++ (Event.mk worker call (.ok r) site.counters site'.counters).document?.toList))
      fun e site' => site'.Stocked w (call.readAfter read docs.length)
        (docs ++ (Event.mk worker call (.error e) site.counters site'.counters).document?.toList) := by
  have hreply : ∀ {read' : Int} {α : Type} {x : Action (Site MemoryStore) α} (f : α → Reply),
      KeepsStocked w read' docs x site →
      (do return f (← x) : Action (Site MemoryStore) Reply).Ensures site
        (fun _ site' => site'.Stocked w read' (docs ++ []))
        fun _ site' => site'.Stocked w read' (docs ++ []) := by
    intro read' α x f hx
    rw [List.append_nil]
    apply Action.Ensures.bind hx
    · intro a site' h
      exact Action.ensures_pure.mpr h
    · intro e site' h
      exact h
  cases call with
  | ingest key document =>
      have hingest := ingestDocument_stocked hS hsite hm key document
      apply hingest.bind
      · rintro slot site' ⟨m', hsite', hm'⟩
        exact Action.ensures_pure.mpr ⟨m', last, hsite', hm'⟩
      · rintro e site' ⟨hsite', _⟩
        have hsame : docs ++ [] = docs := List.append_nil docs
        exact ⟨m, last, hsite', hsame.symm ▸ hm⟩
  | compileInsert => exact hreply .predicate (keepsStocked_compileInsert hS hstart hread hsite hm)
  | compileUpdate => exact hreply .predicate (keepsStocked_compileUpdate hS hstart hread hsite hm)
  | compileRead withPolygon =>
      have hreads := keepsStocked_compileReadWith hS hstart hread hsite hm
      cases withPolygon with
      | none => exact hreply .predicate (Action.ensures_look_bind (hreads _))
      | some withPolygon => exact hreply .predicate (hreads withPolygon)
  | randomDocId => exact hreply .docId (keepsStocked_randomDocId hS hsite hm)
  | distributedDocId => exact hreply .docId (keepsStocked_distributedDocId hS hsite hm)

/-- An ingest returns where the document has tokens and the number of documents can be written; it takes no
draw. -/
theorem perform_ingest [Powers] {w : Setup} {read last : Int} {docs : List (String × Json.Value)} {m : MemoryStore}
    {site : Site MemoryStore} (hS : w.schema.KeysDistinct) (hsite : site.At w read m)
    (hm : m.Stocked w.schema w.total docs last) (key : String) {document : Json.Value}
    (hcontents : (contents? w.schema document).isSome) (hw : Numeral.IsWritable (docs.length + 1)) :
    (Call.ingest key document).perform.Ensures site
      (fun reply site' => (∃ slot, reply = .slot slot) ∧
        (∃ m', site'.At w read m' ∧ m'.Stocked w.schema w.total (docs ++ [(key, document)]) last) ∧
        site'.generator.sampler = site.generator.sampler)
      fun _ _ => False := by
  have hingest := (ingestDocument_stocked hS hsite hm key document).and
    (flagsOnly_ingestDocument key document site)
  apply hingest.bind
  · rintro slot site' ⟨hstocked, flag, hflag⟩
    have hsampler : site'.generator.sampler = site.generator.sampler := by rw [hflag]
    exact Action.ensures_pure.mpr ⟨⟨slot, rfl⟩, hstocked, hsampler⟩
  · rintro e site' ⟨⟨_, hshort⟩, _⟩
    exact hshort hcontents hw

/-! ### What a generator has seen -/

variable {σ : Type}

theorem documents_cons (event : Event ι σ) (events : List (Event ι σ)) :
    documents (event :: events) = event.document?.toList ++ documents events := by
  unfold documents
  rw [List.filterMap_cons]
  cases event.document? <;> rfl

theorem length_documents_le (events : List (Event ι σ)) : (documents events).length ≤ events.length :=
  List.length_filterMap_le ..

variable [DecidableEq ι]

/-- The documents that were stored when a generator first read a number of them that was not zero, if it has
read one: `docs` were stored before the events. -/
def sightFrom (worker : ι) (docs : List (String × Json.Value)) :
    List (Event ι σ) → Option (List (String × Json.Value))
  | [] => none
  | event :: rest =>
    if event.worker = worker ∧ event.call.readsStored = true ∧ docs ≠ [] then some docs
    else sightFrom worker (docs ++ event.document?.toList) rest

/-- The documents that a generator goes by: those that were stored when it first read a number of them that
was not zero, and all of them as long as it has read none. -/
def knownTo (worker : ι) (events : List (Event ι σ)) : List (String × Json.Value) :=
  (sightFrom worker [] events).getD (documents events)

/-- The number of documents that a generator has read, zero for none. -/
def numberSeen (worker : ι) (events : List (Event ι σ)) : Int :=
  match sightFrom worker [] events with
  | some seen => seen.length
  | none => 0

/-- What a generator has seen stays what it was, and an event may be the first at which it sees something. -/
theorem sightFrom_concat (worker : ι) (docs : List (String × Json.Value)) (events : List (Event ι σ))
    (event : Event ι σ) : sightFrom worker docs (events ++ [event]) =
      match sightFrom worker docs events with
      | some seen => some seen
      | none =>
        if event.worker = worker ∧ event.call.readsStored = true ∧ docs ++ documents events ≠ [] then
          some (docs ++ documents events)
        else none := by
  induction events generalizing docs with
  | nil =>
      rw [show documents ([] : List (Event ι σ)) = [] from rfl, List.append_nil]
      rfl
  | cons first rest ih =>
      rw [List.cons_append]
      unfold sightFrom
      split
      · rfl
      · rw [ih, documents_cons, List.append_assoc]

/-- A generator has seen some of the documents, from the first one on. -/
theorem isPrefix_of_sightFrom {worker : ι} {docs seen : List (String × Json.Value)}
    {events : List (Event ι σ)} (h : sightFrom worker docs events = some seen) :
    seen ≠ [] ∧ seen <+: docs ++ documents events := by
  induction events generalizing docs with
  | nil => cases h
  | cons first rest ih =>
      unfold sightFrom at h
      split at h
      · rename_i hfirst
        cases h
        exact ⟨hfirst.2.2, List.prefix_append ..⟩
      · rw [documents_cons, ← List.append_assoc]
        exact ih h

theorem knownTo_isPrefix (worker : ι) (events : List (Event ι σ)) :
    knownTo worker events <+: documents events := by
  unfold knownTo
  cases h : sightFrom worker [] events with
  | none => exact List.prefix_refl _
  | some seen => exact (isPrefix_of_sightFrom h).2

theorem numberSeen_mem (worker : ι) (events : List (Event ι σ)) :
    0 ≤ numberSeen worker events ∧ numberSeen worker events ≤ (documents events).length := by
  unfold numberSeen
  cases h : sightFrom worker [] events with
  | none => exact ⟨Int.le_refl _, Int.natCast_nonneg _⟩
  | some seen =>
      exact ⟨Int.natCast_nonneg _, Int.ofNat_le.mpr (isPrefix_of_sightFrom h).2.length_le⟩

/-- The number that a generator goes by is that of the documents it goes by. -/
theorem known_numberSeen (worker : ι) (events : List (Event ι σ)) :
    known (numberSeen worker events) (documents events).length = (knownTo worker events).length := by
  unfold known numberSeen knownTo
  cases h : sightFrom worker [] events with
  | none => rfl
  | some seen =>
      have hpositive := List.length_pos_iff.mpr (isPrefix_of_sightFrom h).1
      exact if_pos (by dsimp only; omega)

theorem numberSeen_concat (events : List (Event ι σ)) (event : Event ι σ) :
    numberSeen event.worker (events ++ [event]) =
      event.call.readAfter (numberSeen event.worker events) (documents events).length := by
  unfold numberSeen Call.readAfter known
  rw [sightFrom_concat]
  cases h : sightFrom event.worker [] events with
  | some seen =>
      have hpositive := List.length_pos_iff.mpr (isPrefix_of_sightFrom h).1
      dsimp only
      rw [if_pos (show (seen.length : Int) ≠ 0 by omega), ite_self]
  | none =>
      rw [List.nil_append]
      rcases hdocs : documents events with _ | ⟨doc, docs⟩
      · simp
      · cases event.call.readsStored <;> simp

theorem numberSeen_concat_of_ne {worker : ι} (events : List (Event ι σ)) {event : Event ι σ}
    (h : event.worker ≠ worker) : numberSeen worker (events ++ [event]) = numberSeen worker events := by
  unfold numberSeen
  rw [sightFrom_concat]
  cases sightFrom worker [] events with
  | some seen => rfl
  | none => rw [if_neg fun hfirst => h hfirst.1]

/-! ### Runs -/

/-- Fresh generators at a store that was empty and seeded. -/
def fresh (settings : ι → Settings) (S : Schema) (source : ι → RandomSource) (total insertStart : Int) :
    Fleet ι MemoryStore where
  generators i := .make (settings i) S (source i)
  counters := (CounterStore.seedCounters S total insertStart).after MemoryStore.empty

/-- The store holds the documents of all that happened and no others, and every generator has read the number of
those that it has seen. -/
structure Watched (settings : ι → Settings) (S : Schema) (bound total : Int)
    (history : List (Event ι MemoryStore)) (fleet : Fleet ι MemoryStore) : Prop where
  stocked : ∃ last, fleet.counters.Stocked S total (documents history) last
  ready : ∀ i, (fleet.generators i).Ready ⟨settings i, S, bound, total⟩ (numberSeen i history)

variable {settings : ι → Settings} {S : Schema} {bound total : Int}

theorem watched_fresh (hS : S.KeysDistinct) {insertStart : Int} (hwtotal : Numeral.IsWritable total)
    (hwseed : Numeral.IsWritable (total + 1 + insertStart)) {source : ι → RandomSource}
    (hfair : ∀ i, (source i).Fair bound) :
    Watched settings S bound total [] (fresh settings S source total insertStart) := by
  have hseeded := MemoryStore.Stocked.of_seedCounters hS hwtotal hwseed
  refine ⟨⟨total + 1 + insertStart, ?_⟩, fun i => ready_make (hfair i)⟩
  unfold fresh
  dsimp only
  exact hseeded

theorem perform_watched [Powers] (hS : S.KeysDistinct) {history : List (Event ι MemoryStore)}
    {fleet : Fleet ι MemoryStore} (h : Watched settings S bound total history fleet) (worker : ι)
    (call : Call) :
    (perform worker call).Returns fleet fun event fleet' => event.asked = (worker, call) ∧
      Watched settings S bound total (history ++ [event]) fleet' := by
  obtain ⟨start, hstart⟩ := hS.keyStart_isText
  obtain ⟨⟨last, hstocked⟩, hready⟩ := h
  have hsite : Site.At ⟨settings worker, S, bound, total⟩ (numberSeen worker history) fleet.counters
      (fleet.site worker) := ⟨hready worker, rfl⟩
  have hcall := perform_stocked hS hstart (numberSeen_mem worker history) hsite hstocked worker call
  have hperform := perform_returns_of_ensures (fun reply site' =>
    site'.Stocked ⟨settings worker, S, bound, total⟩
      (call.readAfter (numberSeen worker history) (documents history).length)
      (documents history ++
        (Event.mk worker call reply fleet.counters site'.counters).document?.toList)) hcall
  refine hperform.mono ?_ fun _ _ h => h
  rintro _ _ ⟨reply, site', ⟨_, last', ⟨hready', rfl⟩, hstocked'⟩, rfl, rfl⟩
  refine ⟨rfl, ⟨last', ?_⟩, fun i => ?_⟩
  · rw [documents_concat]
    exact hstocked'
  · by_cases hi : i = worker
    · have hseen := numberSeen_concat history ⟨worker, call, reply, fleet.counters, site'.counters⟩
      dsimp only at hseen
      rw [hi, withSite_generators_self, hseen]
      exact hready'
    · rw [withSite_generators_of_ne _ hi, numberSeen_concat_of_ne _ (Ne.symm hi)]
      exact hready i

/-- Any number of generators, fresh at first, at a store that was empty and seeded: whatever they have done so far,
and whatever of it has failed, each of them serves the documents of the ingests that have returned, and makes
its inserts and updates of those that were stored when it first read a number of them that was not zero. -/
theorem run_sampling [Powers] (hS : S.KeysDistinct) {total insertStart : Int} (htotal : 0 < total)
    (hwtotal : Numeral.IsWritable total) (hwseed : Numeral.IsWritable (total + 1 + insertStart))
    (settings : ι → Settings) {source : ι → RandomSource} (calls : List (ι × Call))
    (hfair : ∀ i, (source i).Fair (max total calls.length)) :
    ∃ start, S.keyStart = .text start ∧
      (run calls).Returns (fresh settings S source total insertStart) fun events fleet =>
        events.map Event.asked = calls ∧ ∃ last, fleet.counters.Counts S.insertKey last ∧ ∀ i,
          (fleet.generators i).settings = settings i ∧
          Serves S start (knownTo i events) (documents events) last (fleet.site i) := by
  obtain ⟨start, hstart⟩ := hS.keyStart_isText
  refine ⟨start, hstart, ?_⟩
  have hinit : Watched settings S (max total calls.length) total [] _ :=
    watched_fresh hS hwtotal hwseed hfair
  have hrun := run_returns_of_perform (Watched settings S (max total calls.length) total)
    (fun _ _ worker call h => perform_watched hS h worker call) calls hinit
  refine hrun.mono ?_ fun _ _ h => h
  rintro events fleet ⟨hasked, ⟨last, hstocked⟩, hready⟩
  rw [List.nil_append] at hstocked hready
  refine ⟨hasked, last, hstocked.inserts, fun i => ⟨(hready i).settings, ?_⟩⟩
  have hlength : (documents events).length ≤ calls.length := by
    rw [← hasked, List.length_map]
    exact length_documents_le events
  have hsite : Site.At ⟨settings i, S, max total calls.length, total⟩ (numberSeen i events) fleet.counters
      (fleet.site i) := ⟨hready i, rfl⟩
  refine serves_of_at hS hstart (numberSeen_mem i events) hsite hstocked htotal ?_ ?_
    (knownTo_isPrefix i events) (known_numberSeen i events)
  · exact Int.le_max_left ..
  · dsimp only
    omega

theorem run_sampling_pair : Schema.incidents.KeysDistinct ∧ (0 : Int) < 3 ∧ Numeral.IsWritable 3 ∧
    Numeral.IsWritable (3 + 1 + 0) ∧ (∀ i : Bool, (RandomSource.ofSeed i.toNat).Fair (max 3 2)) ∧
    ∃ start, Schema.incidents.keyStart = .text start ∧
      (run [(true, .ingest "key" (.object [])), (false, .compileInsert)]).Returns
        (fresh (fun _ => {}) .incidents (fun i : Bool => .ofSeed i.toNat) 3 0) fun events fleet =>
          ∃ last, ∀ i,
            Serves .incidents start (knownTo i events) (documents events) last (fleet.site i) := by
  have hw : ∀ z : Int, z.natAbs < 10 → Numeral.IsWritable z := fun z hz =>
    Numeral.isWritable_of_natAbs_lt hz
  have hfair : ∀ i : Bool, (RandomSource.ofSeed i.toNat).Fair (max 3 2) := fun i =>
    RandomSource.fair_ofSeed _ i.toNat
  obtain ⟨start, hstart, hrun⟩ := run_sampling Schema.keysDistinct_incidents (by decide) (hw 3 (by decide))
    (hw (3 + 1 + 0) (by decide)) (fun _ => {})
    [(true, .ingest "key" (.object [])), (false, .compileInsert)] hfair
  refine ⟨Schema.keysDistinct_incidents, by decide, hw _ (by decide), hw _ (by decide), hfair, start, hstart,
    hrun.mono ?_ fun _ _ h => h⟩
  exact fun events fleet ⟨_, last, _, h⟩ => ⟨last, fun i => (h i).2⟩

/-- Settings that want the latest documents, with a window of the greatest bounds that can be written. -/
def longWindow : Settings where
  distribution := .latest
  window :=
    let longest : Nat := Nat.pow 10 Numeral.maxDigits - 1
    .ofBounds 10 longest 10 longest

/-- The slot that is picked there is a long way below zero. -/
theorem index_longWindow {index : Int}
    (h : index = 3 - 1 - (longWindow.window.limitMax + longWindow.window.offsetMax)) :
    index < 0 ∧ ¬ Numeral.IsWritable index := by
  have hnine : Numeral.IsWritable 9 := Numeral.isWritable_of_natAbs_lt (by decide)
  unfold longWindow Window.ofBounds at h
  dsimp only at h
  unfold Numeral.IsWritable at hnine ⊢
  generalize Nat.pow 10 Numeral.maxDigits = bound at h hnine ⊢
  omega

/-- A slot that is too long to be written is not said to hold nothing, although it does: with windows of these
settings, a read of the latest document fails for its number, whether a slot is picked or not. -/
theorem run_sampling_longWindow :
    (run [((), .ingest "key" (.object []))]).Returns
      (fresh (fun _ => longWindow) .incidents (fun _ => .ofSeed 1) 3 0) fun events fleet =>
        (documents events).length = 1 ∧
        (∀ index, distributedIndex.outcome (fleet.site ()) = .ok index → index < 0) ∧
        ∃ n, (compileReadFor (some false)).outcome (fleet.site ()) = .error (.number n) := by
  have hw : ∀ z : Int, z.natAbs < 10 → Numeral.IsWritable z := fun z hz =>
    Numeral.isWritable_of_natAbs_lt hz
  have hS := Schema.keysDistinct_incidents
  obtain ⟨start, hstart⟩ := hS.keyStart_isText
  obtain ⟨⟨last, hm⟩, hready⟩ : Watched (fun _ : Unit => longWindow) .incidents 3 3 []
      (fresh (fun _ => longWindow) .incidents (fun _ => .ofSeed 1) 3 0) :=
    watched_fresh hS (hw 3 (by decide)) (hw (3 + 1 + 0) (by decide)) fun _ =>
      RandomSource.fair_ofSeed 3 1
  have hfresh : ((fresh (fun _ : Unit => longWindow) .incidents (fun _ => .ofSeed 1) 3 0).generators
      ()).sampler = .make .latest longWindow.window defaultTheta (.ofSeed 1) := rfl
  -- the seeded store is not to be evaluated
  generalize fresh (fun _ : Unit => longWindow) .incidents (fun _ => .ofSeed 1) 3 0 = fleet at *
  have hsite : Site.At ⟨longWindow, .incidents, 3, 3⟩ 0 fleet.counters (fleet.site ()) :=
    ⟨hready (), rfl⟩
  have hcontents : (contents? .incidents (.object [])).isSome := by decide +kernel
  have hcall := perform_ingest hS hsite hm "key" hcontents (hw 1 (by decide))
  have hperform := perform_returns_of_ensures (fun reply site' => ∃ slot, reply = .ok (.slot slot) ∧
    (∃ m', site'.At ⟨longWindow, .incidents, 3, 3⟩ 0 m' ∧
      m'.Stocked .incidents 3 [("key", .object [])] last) ∧
    site'.generator.sampler = (fleet.site ()).generator.sampler)
    (hcall.mono (fun _ _ ⟨⟨slot, hslot⟩, h⟩ => ⟨slot, congrArg _ hslot, h⟩) fun _ _ h => h.elim)
  unfold run
  refine Action.Ensures.bind hperform ?_ fun _ _ h => h
  rintro _ _ ⟨_, site', ⟨slot, rfl, ⟨m', hsite', hm'⟩, hkept⟩, rfl, rfl⟩
  have hserves : Serves .incidents start [("key", .object [])] [("key", .object [])] last site' :=
    serves_of_at hS hstart ⟨by decide, by decide⟩ hsite' hm' (by decide) (by decide) (by decide)
      (List.prefix_refl _) rfl
  have hpick := distributedIndex_of_fresh hS hsite' hm' (by decide) (hkept.trans hfresh)
  unfold run
  refine Action.ensures_pure.mpr ⟨rfl, ?_⟩
  rw [site_withSite]
  refine ⟨fun index hindex => (index_longWindow (hpick.of_outcome hindex)).1, ?_⟩
  rcases hpick.outcome_cases with ⟨index, hindex, h⟩ | ⟨_, he, n, rfl⟩
  · exact ⟨_, (hserves.tooLong index (some false) hindex (index_longWindow h).2).1⟩
  · exact ⟨n, (hserves.unpicked _ (some false) he).2.2.1⟩

end Fleet

end GeoWorkload
