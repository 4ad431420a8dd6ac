import GeoWorkload.Proofs.StockedCompiling
import GeoWorkload.Proofs.Transactions
import GeoWorkload.Workload.Load

/-!
# What loading writes

Loading documents into a seeded store, with a fresh generator and a trace that takes every line, ingests them all
and writes every insert (`Load.run_loads`).  The number of stored documents is read at the first insert, when
there is one, and kept: every insert has the body of the first document, whatever is drawn.
-/

namespace GeoWorkload

open Generator

namespace Load

/-- The insert of a body under a number. -/
def insertRequest (table : Json.Value) (start body : String) (number : Int) : Request :=
  .predicate .insert table (.ofDocument (start ++ Numeral.decimal number) body)

theorem isWritable_insertRequest {table : Json.Value} (htable : table.isWritable = true) (start body : String)
    (number : Int) : (insertRequest table start body number).isWritable = true := by
  unfold insertRequest
  rw [Request.isWritable_predicate, htable]
  rfl

/-- The lines of the inserts of a body under the `count` numbers after `last`. -/
def insertLines (table : Json.Value) (start body : String) (last : Int) (count : Nat) : List String :=
  (List.range count).map fun j : Nat => (insertRequest table start body (last + (j + 1))).line

theorem insertLines_add (table : Json.Value) (start body : String) (last : Int) (j k : Nat) :
    insertLines table start body last (j + k) =
      insertLines table start body last j ++ insertLines table start body (last + j) k := by
  unfold insertLines
  rw [List.range_add, List.map_append, List.map_map]
  congr 1
  refine List.map_congr_left fun i _ => ?_
  rw [Function.comp_apply, Int.natCast_add, Int.add_assoc, Int.add_assoc]

/-- A station where documents are loaded: its generator is ready for the store, which is stocked, and its trace
takes every line. -/
structure Loads (w : Setup) (read : Int) (docs : List (String × Json.Value)) (last : Int) (t : Trace)
    (station : Station MemoryStore) : Prop where
  ready : station.generator.Ready w read
  stocked : station.counters.Stocked w.schema w.total docs last
  documents : station.documents = .trace t
  writes : t.refused = []

variable {w : Setup} {start : String} {read last : Int} {docs : List (String × Json.Value)} {t : Trace}
  {station : Station MemoryStore} {table : Json.Value} {body : String}

/-- A generator that goes by one document inserts that. -/
theorem insert_returns [Powers] (htable : table.isWritable = true) (hS : w.schema.KeysDistinct)
    (hstart : w.schema.keyStart = .text start)
    (hbound : 1 ≤ w.bound) (h : Loads w read docs last t station)
    (hknown : known read docs.length = 1) (hread : 0 ≤ read ∧ read ≤ docs.length)
    (hbody : slotText (bodies docs) 0 = some body) (hw : Numeral.IsWritable (last + 1)) :
    (insert table).Returns station fun status station' => status = .ok ∧
      Loads w 1 docs (last + 1) (t.record (insertRequest table start body (last + 1))) station' := by
  have hsite : Site.At w read station.counters ⟨station.generator, station.counters⟩ := ⟨h.ready, rfl⟩
  have hcompile := compileInsert_ensures hS hstart hread hsite h.stocked
  rw [hknown] at hcompile
  have hperform : (Transaction.perform table .insert).Returns station fun status station' =>
      status = .ok ∧
        Loads w 1 docs (last + 1) (t.record (insertRequest table start body (last + 1))) station' := by
    show (Transaction.send table .insert compileInsert).Returns station _
    refine (Station.onSite_ensures hcompile).bind ?_ ?_
    · rintro _ station₁ ⟨⟨slot, body', m', hbody', hslot, rfl, ⟨hready, rfl⟩, hm'⟩, hdocuments⟩
      -- the one slot below one is that of the first document
      obtain rfl : slot = 0 := by
        have h0 := (isSome_slotText.mp (Option.isSome_of_eq_some hbody')).1
        have := hslot hbound
        omega
      rw [hbody] at hbody'
      cases hbody'
      refine (Station.onDocuments_request_returns (hdocuments.trans h.documents) h.writes
        (isWritable_insertRequest htable start body (last + 1))).mono ?_ fun _ _ h => h
      rintro _ _ ⟨rfl, rfl⟩
      exact ⟨rfl, hready, hm', rfl, h.writes⟩
    · rintro e station₁ ⟨⟨_, hshort⟩, _⟩
      exact hshort Int.one_pos hbound hw
  unfold insert
  refine hperform.attempt_ok.bind ?_ fun _ _ h => h
  rintro _ station' ⟨_, rfl, rfl, h'⟩
  exact Action.ensures_pure.mpr ⟨rfl, h'⟩

/-- Every one of a number of inserts is written. -/
theorem inserts_returns [Powers] (htable : table.isWritable = true) (hS : w.schema.KeysDistinct)
    (hstart : w.schema.keyStart = .text start)
    (hbound : 1 ≤ w.bound) (hbody : slotText (bodies docs) 0 = some body) {count : Nat}
    (counts : LoadCounts) (h : Loads w read docs last t station)
    (hknown : 0 < count → known read docs.length = 1) (hread : 0 ≤ read ∧ read ≤ docs.length)
    (hw : Numeral.IsWritable (last + count)) :
    (inserts table count counts).Returns station fun counts' station' =>
      counts' = { counts with inserted := counts.inserted + count } ∧
      ∃ read' t', Loads w read' docs (last + count) t' station' ∧
        (if count = 0 then read' = read else read' = 1) ∧
        t'.lines.toList = t.lines.toList ++ insertLines table start body last count := by
  induction count generalizing read last t station counts with
  | zero =>
      unfold inserts
      refine Action.ensures_pure.mpr ⟨rfl, read, t, ?_, rfl, ?_⟩
      · rwa [Int.natCast_zero, Int.add_zero]
      · exact (List.append_nil _).symm
  | succ count ih =>
      have hnext : Numeral.IsWritable (last + 1) :=
        h.stocked.writable.of_le_of_le hw (by omega) (by omega)
      have hone : 1 ≤ (docs.length : Int) := by
        have := (isSome_slotText.mp (Option.isSome_of_eq_some hbody)).2
        simp only [bodies, List.length_map] at this
        omega
      have hlast : last + ((count + 1 : Nat) : Int) = last + 1 + count := by omega
      rw [hlast] at hw ⊢
      unfold inserts
      refine (insert_returns htable hS hstart hbound h (hknown (Nat.succ_pos count)) hread hbody hnext).bind ?_
        fun _ _ h => h
      rintro _ station₁ ⟨rfl, h₁⟩
      refine (ih _ h₁ (fun _ => rfl) ⟨by omega, hone⟩ hw).mono ?_ fun _ _ h => h
      rintro _ station₂ ⟨rfl, read', t', h₂, hread', hlines⟩
      refine ⟨?_, read', t', h₂, ?_, ?_⟩
      · simp only [LoadCounts.count, Status.isOk, decide_true, if_true]
        congr 1
        omega
      · rw [if_neg (Nat.succ_ne_zero count)]
        split at hread' <;> exact hread'
      · rw [hlines, Nat.add_comm count 1, insertLines_add]
        simp [Trace.record, insertLines]

/-! ### Documents -/

theorem randomDocId_returns (hS : w.schema.KeysDistinct) (htotal : 0 < w.total)
    (hbound : w.total ≤ w.bound) (hw : Numeral.IsWritable w.total) {m : MemoryStore}
    {site : Site MemoryStore} (hsite : site.At w read m) (hm : m.Stocked w.schema w.total docs last) :
    randomDocId.Returns site fun _ site' => site'.At w read m := by
  have hindex := randomIndex_ensures hS hsite hm
  unfold randomDocId
  apply hindex.bind
  · rintro index site' ⟨hsite', hin⟩
    obtain ⟨h0, hlt⟩ := hin hbound
    have hzero : Numeral.IsWritable 0 := Numeral.isWritable_of_natAbs_lt (by decide)
    have hwrite : Numeral.IsWritable index := hzero.of_le_of_le hw h0 (by omega)
    rw [Numeral.writeInteger_eq, if_pos hwrite]
    exact Action.ensures_ofExcept.mpr ⟨fun _ _ => hsite', fun e he => by cases he⟩
  · rintro e site' ⟨_, hempty⟩
    have := hempty hbound
    omega

/-- A document that can be ingested is, under an id that is drawn. -/
theorem ingest_returns (hS : w.schema.KeysDistinct) (htotal : 0 < w.total) (hbound : w.total ≤ w.bound)
    (hw : Numeral.IsWritable w.total) (h : Loads w read docs last t station) {document : Json.Value}
    (hcontents : (contents? w.schema document).isSome) (hlength : Numeral.IsWritable (docs.length + 1))
    {α : Type} {f : Action (Station MemoryStore) α} {ok : α → Station MemoryStore → Prop}
    (hf : ∀ key station', Loads w read (docs ++ [(key, document)]) last t station' →
      f.Returns station' ok) :
    (do
      let key ← Station.onSite randomDocId
      let _ ← Station.onSite (ingestDocument key document)
      f).Returns station ok := by
  have hsite : Site.At w read station.counters ⟨station.generator, station.counters⟩ := ⟨h.ready, rfl⟩
  refine (Station.onSite_ensures (randomDocId_returns hS htotal hbound hw hsite h.stocked)).bind ?_
    fun _ _ h => h.1
  rintro key station₁ ⟨hsite₁, hdocuments₁⟩
  refine (Station.onSite_ensures (ingestDocument_stocked hS hsite₁ h.stocked key document)).bind ?_
    fun _ _ h => h.1.2 hcontents hlength
  rintro slot station₂ ⟨⟨m', ⟨hready, rfl⟩, hm'⟩, hdocuments₂⟩
  exact hf key station₂ ⟨hready, hm', hdocuments₂.trans (hdocuments₁.trans h.documents), h.writes⟩

theorem bodies_concat (key : String) (document : Json.Value) :
    bodies (docs ++ [(key, document)]) = bodies docs ++ [bodyOf document] := by
  simp [bodies]

variable (w) in
/-- Every document is ingested, and every insert after it is one of the first document: it is the only one
when the generator reads the number of stored documents, or it was when the generator read that. -/
theorem documents_returns [Powers] (htable : table.isWritable = true) (hS : w.schema.KeysDistinct)
    (hstart : w.schema.keyStart = .text start)
    (htotal : 0 < w.total) (hbound : w.total ≤ w.bound) (hw : Numeral.IsWritable w.total)
    (perDocument : Nat) {rest : List Json.Value}
    (hcontents : ∀ document ∈ rest, (contents? w.schema document).isSome) (counts : LoadCounts)
    (h : Loads w read docs last t station)
    (hfirst : (bodies docs ++ rest.map bodyOf)[0]? = some body)
    (hknown : 0 < perDocument → known read (docs.length + 1) = 1)
    (hread : 0 ≤ read ∧ read ≤ docs.length)
    (hlength : Numeral.IsWritable (docs.length + rest.length))
    (hlast : Numeral.IsWritable (last + (rest.length * perDocument : Nat))) :
    (documents table perDocument rest counts).Returns station fun counts' station' =>
      counts' = ⟨counts.ingested + rest.length, counts.inserted + rest.length * perDocument,
        counts.failed⟩ ∧
      station'.documents.lines =
        t.lines.toList ++ insertLines table start body last (rest.length * perDocument) := by
  induction rest generalizing read docs last t station counts with
  | nil =>
      unfold documents
      refine Action.ensures_pure.mpr ⟨by simp, ?_⟩
      rw [h.documents]
      simp [DocumentStore.lines, insertLines]
  | cons document rest ih =>
      have hcount : (document :: rest).length * perDocument = perDocument + rest.length * perDocument := by
        rw [List.length_cons, Nat.succ_mul, Nat.add_comm]
      have hnext : Numeral.IsWritable (docs.length + 1) := by
        refine h.stocked.archive.writable.of_le_of_le hlength (by omega) ?_
        rw [List.length_cons]
        omega
      rw [hcount] at hlast ⊢
      unfold documents
      refine ingest_returns hS htotal hbound hw h (hcontents _ List.mem_cons_self) hnext ?_
      intro key station₁ h₁
      have hlength₁ : ((docs ++ [(key, document)]).length : Int) = docs.length + 1 := by simp
      have hfirst₁ : (bodies (docs ++ [(key, document)]) ++ rest.map bodyOf)[0]? = some body := by
        rw [bodies_concat, List.append_assoc]
        exact hfirst
      have hbody : slotText (bodies (docs ++ [(key, document)])) 0 = some body := by
        rw [← hfirst₁, ← Int.natCast_zero, slotText_natCast, List.getElem?_append_left]
        simp [bodies]
      have hmiddle : Numeral.IsWritable (last + perDocument) :=
        h.stocked.writable.of_le_of_le hlast (by omega) (by push_cast; omega)
      refine (inserts_returns htable hS hstart (by omega) hbody _ h₁ (hlength₁ ▸ hknown)
        (by rw [hlength₁]; omega) hmiddle).bind ?_ fun _ _ h => h
      rintro _ station₂ ⟨rfl, read', t', h₂, hread', hlines⟩
      have hread₂ : 0 ≤ read' ∧ read' ≤ (docs ++ [(key, document)]).length := by
        rw [hlength₁]
        split at hread' <;> omega
      refine (ih (fun d hd => hcontents d (List.mem_cons_of_mem _ hd)) _ h₂ hfirst₁ ?_ hread₂ ?_ ?_).mono
        ?_ fun _ _ h => h
      · intro hpositive
        rw [if_neg (by omega)] at hread'
        rw [hread']
        rfl
      · rw [hlength₁]
        rw [List.length_cons] at hlength
        rwa [show (docs.length : Int) + 1 + rest.length = docs.length + (rest.length + 1 : Nat) by omega]
      · rwa [Int.add_assoc, ← Int.natCast_add]
      · rintro _ station₃ ⟨rfl, hlines₃⟩
        refine ⟨?_, ?_⟩
        · dsimp only
          rw [List.length_cons]
          congr 1 <;> omega
        · rw [hlines₃, hlines, insertLines_add, List.append_assoc]

/-- Loading documents that can all be ingested into a seeded store, with a fresh generator and an empty trace:
every document is ingested and every insert is written, with the ids that follow what the store was seeded with,
and with the body of the first document.  The table may be any text, as a text can always be written. -/
theorem run_loads [Powers] {S : Schema} (hS : S.KeysDistinct) {table : Json.Value} (htable : table.isWritable = true)
    {records total perDocument : Int} (htotal : 1 ≤ total)
    (hper : insertsPerDocument records total = .ok perDocument) (insertStart : Int) (settings : Settings)
    {source : RandomSource} (hfair : source.Fair total) {document : Json.Value}
    {rest : List Json.Value} (hcontents : ∀ doc ∈ document :: rest, (contents? S doc).isSome)
    (hwtotal : Numeral.IsWritable total) (hwseed : Numeral.IsWritable (total + 1 + insertStart))
    (hwlast : Numeral.IsWritable
      (total + 1 + insertStart + ((document :: rest).length * perDocument.toNat : Nat)))
    (hwlength : Numeral.IsWritable (document :: rest).length) :
    ∃ start, S.keyStart = .text start ∧
      (run table records total (document :: rest)).Returns
        ⟨.make settings S source, (CounterStore.seedCounters S total insertStart).after MemoryStore.empty,
          .trace .empty⟩
        fun counts station =>
          counts = ⟨(document :: rest).length, (document :: rest).length * perDocument.toNat, 0⟩ ∧
          station.documents.lines = (List.range counts.inserted).map fun j : Nat =>
            (insertRequest table start (bodyOf document) (total + 1 + insertStart + (j + 1))).line := by
  obtain ⟨start, hstart⟩ := hS.keyStart_isText
  refine ⟨start, hstart, ?_⟩
  have hstocked := MemoryStore.Stocked.of_seedCounters hS hwtotal hwseed
  have h : Loads ⟨settings, S, total, total⟩ 0 [] (total + 1 + insertStart) .empty
      ⟨.make settings S source, (CounterStore.seedCounters S total insertStart).after MemoryStore.empty,
        .trace .empty⟩ := by
    refine ⟨ready_make hfair, ?_, rfl, rfl⟩
    dsimp only
    exact hstocked
  have hlength : Numeral.IsWritable
      ((([] : List (String × Json.Value)).length : Int) + (document :: rest).length) := by
    rwa [List.length_nil, Int.natCast_zero, Int.zero_add]
  have hfirst : (bodies [] ++ (document :: rest).map bodyOf)[0]? = some (bodyOf document) := rfl
  have hknown : 0 < perDocument.toNat →
      known 0 ((([] : List (String × Json.Value)).length : Int) + 1) = 1 := fun _ => rfl
  have hdocuments : (documents table perDocument.toNat (document :: rest) {}).Returns _ _ :=
    documents_returns ⟨settings, S, total, total⟩ htable hS hstart htotal (Int.le_refl total)
      hwtotal perDocument.toNat hcontents {} h hfirst hknown ⟨Int.le_refl 0, Int.le_refl 0⟩ hlength hwlast
  have hnumber : ∀ station : Station MemoryStore, (Action.ofNumber (insertsPerDocument records total)
      : Action (Station MemoryStore) Int).Returns station
        fun n station' => n = perDocument ∧ station' = station := by
    rw [hper]
    exact fun station => Action.returns_of_run fun log => ⟨log, rfl⟩
  unfold run
  refine (hnumber _).bind ?_ fun _ _ h => h
  rintro _ _ ⟨rfl, rfl⟩
  refine hdocuments.bind ?_ fun _ _ h => h
  rintro _ station ⟨rfl, hlines⟩
  refine Action.ensures_log_bind (Action.ensures_pure.mpr ⟨by simp, ?_⟩)
  rw [hlines]
  simp [Trace.empty, insertLines]

/-- Two documents, of which the second one has a type. -/
def twoDocuments : List Json.Value := [.object [], .object [("type", .string "Feature")]]

/-- Six records for two documents: two inserts follow each of them, all with the body of the first one. -/
theorem run_loads_twoDocuments :
    Schema.incidents.KeysDistinct ∧ (Json.Value.string "usertable").isWritable = true ∧ (1 : Int) ≤ 2 ∧
      insertsPerDocument 6 2 = .ok 2 ∧ (RandomSource.ofSeed 0).Fair 2 ∧
      (∀ doc ∈ twoDocuments, (contents? .incidents doc).isSome) ∧
      Numeral.IsWritable 2 ∧ Numeral.IsWritable (2 + 1 + 0) ∧
      Numeral.IsWritable (2 + 1 + 0 + (twoDocuments.length * (2 : Int).toNat : Nat)) ∧
      Numeral.IsWritable twoDocuments.length ∧
      ∃ start, Schema.incidents.keyStart = .text start ∧
        (run (.string "usertable") 6 2 twoDocuments).Returns
          ⟨.make {} .incidents (.ofSeed 0),
            (CounterStore.seedCounters .incidents 2 0).after MemoryStore.empty, .trace .empty⟩
          fun counts station => counts = ⟨2, 4, 0⟩ ∧ station.documents.lines =
            [4, 5, 6, 7].map fun number => (insertRequest (.string "usertable") start "\x7b\x7d" number).line := by
  have htable : (Json.Value.string "usertable").isWritable = true := rfl
  have hper : insertsPerDocument 6 2 = .ok 2 := by decide +kernel
  have hfair := RandomSource.fair_ofSeed 2 0
  have hcontents : ∀ doc ∈ twoDocuments, (contents? .incidents doc).isSome := by decide +kernel
  have hw : ∀ z : Int, z.natAbs < 10 → Numeral.IsWritable z := fun z hz =>
    Numeral.isWritable_of_natAbs_lt hz
  obtain ⟨start, hstart, hrun⟩ := run_loads Schema.keysDistinct_incidents htable (by decide) hper 0 {} hfair
    hcontents (hw _ (by decide)) (hw _ (by decide)) (hw _ (by decide)) (hw _ (by decide))
  refine ⟨Schema.keysDistinct_incidents, htable, by decide, hper, hfair, hcontents, hw _ (by decide),
    hw _ (by decide), hw _ (by decide), hw _ (by decide), start, hstart, hrun.mono ?_ fun _ _ h => h⟩
  rintro _ station ⟨rfl, hlines⟩
  exact ⟨rfl, hlines⟩

end Load

end GeoWorkload
