import GeoWorkload.Proofs.Fleet
import GeoWorkload.Proofs.Seeding

/-!
# The archive of documents

A store in memory that was seeded holds the documents of the ingests that returned, in the slots from zero on
and in no others (`Archive`).  The archive grows by one document with every ingest that returns and by
nothing else, whichever generators work on it and whatever of their operations fails (`Fleet.run_archive`).
-/

namespace GeoWorkload

/-! ### Texts by slot -/

/-- The text in a slot, if there is one: the texts stand in the slots from zero on. -/
def slotText (texts : List String) (k : Int) : Option String :=
  if 0 ≤ k then texts[k.toNat]? else none

theorem isSome_slotText {texts : List String} {k : Int} :
    (slotText texts k).isSome ↔ 0 ≤ k ∧ k < texts.length := by
  unfold slotText
  split
  · rw [isSome_getElem?]
    omega
  · simp only [Option.isSome_none, Bool.false_eq_true, false_iff]
    omega

theorem slotText_natCast (texts : List String) (k : Nat) : slotText texts k = texts[k]? := by
  unfold slotText
  rw [if_pos (Int.natCast_nonneg k), Int.toNat_natCast]

theorem slotText_concat (texts : List String) (text : String) (k : Int) :
    slotText (texts ++ [text]) k = if k = texts.length then some text else slotText texts k := by
  unfold slotText
  by_cases hk : 0 ≤ k
  · obtain ⟨j, rfl⟩ := Int.eq_ofNat_of_zero_le hk
    rw [if_pos hk, if_pos hk, Int.toNat_natCast]
    rcases Nat.lt_trichotomy j texts.length with hlt | rfl | hlt
    · rw [List.getElem?_append_left hlt, if_neg (by omega)]
    · rw [List.getElem?_concat_length, if_pos rfl]
    · rw [if_neg (by omega), List.getElem?_eq_none (by rw [List.length_append]; exact hlt),
        List.getElem?_eq_none (by omega)]
  · rw [if_neg hk, if_neg hk, if_neg (by omega)]

/-! ### Archives -/

/-- The store holds documents, each with its key: their number, which can be written, and the key and the
body of each in its slot, and none in any other slot. -/
structure Archive (S : Schema) (docs : List (String × Json.Value)) (m : MemoryStore) : Prop where
  stored : m.get? S.storedKey = some (Numeral.decimal docs.length)
  writable : Numeral.IsWritable docs.length
  docId : ∀ k : Int, m.get? (S.docIdKey k) = slotText (docs.map (·.1)) k
  body : ∀ k : Int, m.get? (S.bodyKey k) = slotText (docs.map fun doc => Generator.bodyOf doc.2) k

namespace Archive

variable {S : Schema} {docs : List (String × Json.Value)} {m m' : MemoryStore}

/-- A seeded store holds no documents. -/
theorem of_seeded (hS : S.KeysDistinct) (h : m.Seeded S) : Archive S [] m where
  stored := h.get?_storedKey hS
  writable := Numeral.isWritable_of_natAbs_lt (by decide)
  docId k := by
    refine (h.get?_eq_none hS ?_ ?_ ?_).trans (by simp [slotText])
    · exact hS.ne (.docId k) .total trivial trivial nofun
    · exact hS.ne (.docId k) .inserts trivial trivial nofun
    · exact hS.ne (.docId k) .stored trivial trivial nofun
  body k := by
    refine (h.get?_eq_none hS ?_ ?_ ?_).trans (by simp [slotText])
    · exact hS.ne (.body k) .total trivial trivial nofun
    · exact hS.ne (.body k) .inserts trivial trivial nofun
    · exact hS.ne (.body k) .stored trivial trivial nofun

theorem counts_stored (h : Archive S docs m) : m.Counts S.storedKey docs.length :=
  MemoryStore.counts_of_decimal h.writable h.stored

/-- Numbers of inserts leave the archive as it is. -/
theorem of_advanced (hS : S.KeysDistinct) (h : Archive S docs m) {k : Nat} (hm : S.Advanced k m m') :
    Archive S docs m' where
  stored := (hm.outside _ (hS.ne .stored .inserts trivial trivial nofun)).trans h.stored
  writable := h.writable
  docId k := (hm.outside _ (hS.ne (.docId k) .inserts trivial trivial nofun)).trans (h.docId k)
  body k := (hm.outside _ (hS.ne (.body k) .inserts trivial trivial nofun)).trans (h.body k)

/-- An ingest takes the slot after those of the archive. -/
theorem slot_eq (h : Archive S docs m) {slot : Int} (hclaimed : S.Claimed slot m m') :
    slot = docs.length :=
  hclaimed.before.unique h.counts_stored

/-- An ingest that gives a slot adds its document to the archive. -/
theorem concat (hS : S.KeysDistinct) (h : Archive S docs m) {slot : Int} {key body : String}
    {document : Json.Value} {tokens : Tokens} {flag flag' : Bool}
    (hcontents : Generator.contents? S document = some (body, tokens))
    (hm : Generator.Ingested S slot key body tokens flag flag' m m') :
    Archive S (docs ++ [(key, document)]) m' := by
  obtain ⟨hbody, htokens⟩ := Generator.contents?_eq_some_iff.mp hcontents
  have hbodyOf : body = Generator.bodyOf document := by
    unfold Generator.bodyOf? at hbody
    split at hbody <;> cases hbody
    rfl
  have hslot := h.slot_eq hm.claimed
  have hlength : ((docs ++ [(key, document)]).length : Int) = slot + 1 := by
    rw [hslot, List.length_append]
    rfl
  constructor
  · rw [hlength]
    refine (hm.get?_of_ne_fieldKey hS htokens fun p hp j => ?_).trans
      (Schema.get?_filed_storedKey hS m slot key body)
    exact hS.ne .stored (.field p j) trivial hp nofun
  · rw [hlength]
    exact hm.writable
  · intro k
    rw [List.map_append, List.map_singleton, slotText_concat, List.length_map, ← hslot, ← h.docId]
    refine (hm.get?_of_ne_fieldKey hS htokens fun p hp j => ?_).trans
      (Schema.get?_filed_docIdKey hS m slot key body k)
    exact hS.ne (.docId k) (.field p j) trivial hp nofun
  · intro k
    rw [List.map_append, List.map_singleton, slotText_concat, List.length_map, ← hslot, ← h.body,
      ← hbodyOf]
    refine (hm.get?_of_ne_fieldKey hS htokens fun p hp j => ?_).trans
      (Schema.get?_filed_bodyKey hS m slot key body k)
    exact hS.ne (.body k) (.field p j) trivial hp nofun

end Archive

/-! ### Runs on an archive -/

namespace Fleet

variable {ι σ : Type}

/-- The key and the document of an ingest that returned. -/
def Event.document? (event : Event ι σ) : Option (String × Json.Value) :=
  match event.call, event.reply with
  | .ingest key document, .ok _ => some (key, document)
  | _, _ => none

/-- The slot that an operation gave. -/
def Event.slot? (event : Event ι σ) : Option Int :=
  match event.reply with
  | .ok (.slot slot) => some slot
  | _ => none

/-- The documents of the ingests that returned, with their keys, in order. -/
def documents (events : List (Event ι σ)) : List (String × Json.Value) :=
  events.filterMap Event.document?

theorem documents_concat (events : List (Event ι σ)) (event : Event ι σ) :
    documents (events ++ [event]) = documents events ++ event.document?.toList := by
  unfold documents
  rw [List.filterMap_append]
  cases h : event.document? <;> simp [h]

/-- An archive after an operation, which adds the document of an ingest if it has tokens and the number of
documents can be written. -/
def accept (S : Schema) (docs : List (String × Json.Value)) : Call → List (String × Json.Value)
  | .ingest key document =>
    if (Generator.contents? S document).isSome ∧ Numeral.IsWritable (docs.length + 1) then
      docs ++ [(key, document)]
    else docs
  | _ => docs

/-- What an event at an archive does: it adds the document of an ingest that returned, which is given the
slot after those of the archive, and one that fails leaves the store as it was. -/
structure Archived (S : Schema) (docs : List (String × Json.Value)) (event : Event ι MemoryStore) :
    Prop where
  archive : Archive S (docs ++ event.document?.toList) event.after
  slot : event.slot? = event.document?.map fun _ => (docs.length : Int)
  accepted : accept S docs event.call = docs ++ event.document?.toList
  failed : event.call.isIngest = true → (∃ e, event.reply = .error e) → event.after = event.before

theorem accept_of_not_isIngest (S : Schema) (docs : List (String × Json.Value)) {call : Call}
    (h : call.isIngest = false) : accept S docs call = docs := by
  cases call with
  | ingest key document => cases h
  | _ => rfl

theorem Event.document?_of_not_isIngest {event : Event ι σ} (h : event.call.isIngest = false) :
    event.document? = none := by
  obtain ⟨worker, call, reply, before, after⟩ := event
  cases call with
  | ingest key document => cases h
  | _ => rfl

theorem Event.document?_of_error {event : Event ι σ} {e : Failure} (h : event.reply = .error e) :
    event.document? = none := by
  unfold document?
  rw [h]
  split
  · rename_i heq
    cases heq
  · rfl

/-- An operation other than an ingest, which gives no slot, leaves the archive as it is. -/
theorem Archived.of_not_isIngest {S : Schema} {docs : List (String × Json.Value)}
    {event : Event ι MemoryStore} (hcall : event.call.isIngest = false) (hslot : event.slot? = none)
    (h : Archive S docs event.after) : Archived S docs event := by
  have hnone : docs ++ event.document?.toList = docs := by
    rw [Event.document?_of_not_isIngest hcall]
    exact List.append_nil docs
  constructor
  · rwa [hnone]
  · rw [hslot, Event.document?_of_not_isIngest hcall]
    rfl
  · rw [hnone, accept_of_not_isIngest S docs hcall]
  · intro hingest
    rw [hcall] at hingest
    cases hingest

theorem Happened.archived {S : Schema} (hS : S.KeysDistinct) {fleet fleet' : Fleet ι MemoryStore}
    {event : Event ι MemoryStore} (hfleet : ∀ i, (fleet.generators i).schema = S)
    (h : Happened fleet event fleet') {docs : List (String × Json.Value)}
    (hdocs : Archive S docs fleet.counters) : Archived S docs event := by
  obtain ⟨worker, call, reply, before, after⟩ := event
  have hbefore := h.before
  have hafter := h.after
  have heffect : Effect False (fleet.generators worker) fleet.counters call reply
    (fleet'.generators worker).allInitialized fleet'.counters := h.effect
  dsimp only at hbefore hafter
  subst hbefore hafter
  have hschema := hfleet worker
  subst hschema
  cases heffect with
  | ingested hcontents hm =>
      refine ⟨hdocs.concat hS hcontents hm, ?_, ?_, ?_⟩
      · show some _ = some _
        rw [hdocs.slot_eq hm.claimed]
      · have hw := hm.writable
        rw [hdocs.slot_eq hm.claimed] at hw
        exact if_pos ⟨by rw [hcontents]; rfl, hw⟩
      · rintro _ ⟨e, he⟩
        cases he
  | ingestFailed hm hflag =>
      rcases hm with ⟨hm, hwhy⟩ | ⟨hrefuse, _⟩
      · constructor
        · rw [Event.document?_of_error rfl, Option.toList_none, List.append_nil]
          show Archive _ docs fleet'.counters
          rw [hm]
          exact hdocs
        · rfl
        · rw [Event.document?_of_error rfl, Option.toList_none, List.append_nil]
          refine if_neg ?_
          rintro ⟨hsome, hw⟩
          rcases hwhy with hrefuse | htokens | hcounts
          · exact hrefuse
          · exact htokens hsome
          · exact hcounts _ hdocs.counts_stored hw
        · exact fun _ _ => hm
      · exact hrefuse.elim
  | @returned _ reply _ _ _ hcall hreply hk hm hid hflag =>
      refine .of_not_isIngest hcall ?_ (hdocs.of_advanced hS hm)
      cases reply with
      | slot slot => exact absurd rfl (hreply slot)
      | _ => rfl
  | failed hcall hk hm hflag => exact .of_not_isIngest hcall rfl (hdocs.of_advanced hS hm)

/-- A run on an archive: the documents of all that happened are archived after every event, and the slots
that were given are those from zero on, in order. -/
structure Archiving (S : Schema) (history : List (Event ι MemoryStore)) (m : MemoryStore) : Prop where
  archive : Archive S (documents history) m
  archives : ∀ i event, history[i]? = some event →
    Archive S (documents (history.take (i + 1))) event.after
  slots : history.filterMap Event.slot? = (List.range (documents history).length).map Int.ofNat
  accepted : (history.map Event.call).foldl (accept S) [] = documents history
  failed : ∀ event ∈ history, event.call.isIngest = true → (∃ e, event.reply = .error e) →
    event.after = event.before

theorem Archiving.concat {S : Schema} {history : List (Event ι MemoryStore)} {m : MemoryStore}
    (h : Archiving S history m) {event : Event ι MemoryStore}
    (hevent : Archived S (documents history) event) :
    Archiving S (history ++ [event]) event.after := by
  have harchive : Archive S (documents (history ++ [event])) event.after := by
    rw [documents_concat]
    exact hevent.archive
  refine ⟨harchive, fun i e he => ?_, ?_, ?_, fun e he => ?_⟩
  · rcases getElem?_concat_take (b := event) rfl he with ⟨he, _, htake⟩ | ⟨rfl, _, htake⟩
    · rw [htake]
      exact h.archives i e he
    · rw [htake]
      exact harchive
  · rw [List.filterMap_append, h.slots, documents_concat]
    have hslot := hevent.slot
    cases hdoc : event.document? with
    | none =>
        rw [hdoc] at hslot
        simp [hslot]
    | some doc =>
        rw [hdoc] at hslot
        simp [hslot, List.range_succ]
  · rw [List.map_append, List.foldl_append, h.accepted, documents_concat]
    exact hevent.accepted
  · rcases List.mem_append.mp he with he | he
    · exact h.failed e he
    · rw [List.mem_singleton.mp he]
      exact hevent.failed

/-- Which documents a run archives depends on the operations alone, not on who carries them out. -/
theorem Archiving.documents_eq {S : Schema} {history : List (Event ι MemoryStore)} {m : MemoryStore}
    (h : Archiving S history m) {calls : List (ι × Call)} (hasked : history.map Event.asked = calls) :
    documents history = (calls.map (·.2)).foldl (accept S) [] := by
  rw [← h.accepted, ← hasked, List.map_map]
  rfl

theorem Archiving.of_seeded {S : Schema} (hS : S.KeysDistinct) {m : MemoryStore} (h : m.Seeded S) :
    Archiving S ([] : List (Event ι MemoryStore)) m where
  archive := .of_seeded hS h
  archives i event he := by simp at he
  slots := rfl
  accepted := rfl
  failed event he := absurd he List.not_mem_nil

theorem run_archiving [Powers] [DecidableEq ι] {S : Schema} (hS : S.KeysDistinct) {fleet : Fleet ι MemoryStore}
    (hfleet : ∀ i, (fleet.generators i).schema = S) (hseeded : fleet.counters.Seeded S)
    (calls : List (ι × Call)) :
    (run calls).Returns fleet fun events fleet' =>
      events.map Event.asked = calls ∧ Archiving S events fleet'.counters := by
  have hrun := run_returns hS fun (history : List (Event ι MemoryStore)) fleet' =>
    Archiving S history fleet'.counters
  refine hrun (fun history fleet₁ event fleet₂ hfleet hhistory h => ?_) calls hfleet ?_
  · rw [← h.after]
    exact hhistory.concat (h.archived hS hfleet hhistory.archive)
  · exact .of_seeded hS hseeded

/-- However many generators work on a seeded store, and whatever of their operations fails, the store counts
the ingests that returned, which were given the slots from zero on in their order, and holds the key and the
body of each in its slot for ever after, and none in any other slot.  An ingest that fails leaves the whole
store as it was. -/
theorem run_archive [Powers] [DecidableEq ι] {S : Schema} (hS : S.KeysDistinct) {fleet : Fleet ι MemoryStore}
    (hfleet : ∀ i, (fleet.generators i).schema = S) (hseeded : fleet.counters.Seeded S)
    (calls : List (ι × Call)) :
    (run calls).Returns fleet fun events fleet' => events.map Event.asked = calls ∧
      fleet'.counters.get? S.storedKey = some (Numeral.decimal (documents events).length) ∧
      events.filterMap Event.slot? = (List.range (documents events).length).map Int.ofNat ∧
      (∀ k : Int,
        ((fleet'.counters.get? (S.bodyKey k)).isSome ↔ 0 ≤ k ∧ k < (documents events).length) ∧
        ((fleet'.counters.get? (S.docIdKey k)).isSome ↔ 0 ≤ k ∧ k < (documents events).length)) ∧
      (∀ (k : Nat) key document, (documents events)[k]? = some (key, document) →
        fleet'.counters.get? (S.bodyKey k) = some (Generator.bodyOf document) ∧
        fleet'.counters.get? (S.docIdKey k) = some key) ∧
      (∀ i event, events[i]? = some event →
        Archive S (documents (events.take (i + 1))) event.after) ∧
      ∀ event ∈ events, event.call.isIngest = true → (∃ e, event.reply = .error e) →
        event.after = event.before := by
  refine (run_archiving hS hfleet hseeded calls).mono ?_ fun _ _ h => h
  rintro events fleet' ⟨hasked, h⟩
  refine ⟨hasked, h.archive.stored, h.slots, fun k => ⟨?_, ?_⟩, ?_, h.archives, h.failed⟩
  · rw [h.archive.body, isSome_slotText, List.length_map]
  · rw [h.archive.docId, isSome_slotText, List.length_map]
  · intro k key document hdoc
    rw [h.archive.body, h.archive.docId, slotText_natCast, slotText_natCast, List.getElem?_map,
      List.getElem?_map, hdoc]
    exact ⟨rfl, rfl⟩

/-- Two fresh generators at a seeded store. -/
def seededPair : Fleet Bool MemoryStore where
  generators _ := .make {} .incidents (.ofSeed 0)
  counters := (CounterStore.seedCounters .incidents 3 0).after MemoryStore.empty

theorem seeded_seededPair : seededPair.counters.Seeded .incidents := by
  have htotal : Numeral.IsWritable 3 := Numeral.isWritable_of_natAbs_lt (by decide)
  have hinserts : Numeral.IsWritable (3 + 1 + 0) := Numeral.isWritable_of_natAbs_lt (by decide)
  have h := MemoryStore.Seeded.of_isWritable Schema.keysDistinct_incidents htotal hinserts
  unfold seededPair
  dsimp only
  exact h

theorem run_archive_seededPair : Schema.incidents.KeysDistinct ∧
    (∀ i, (seededPair.generators i).schema = .incidents) ∧ seededPair.counters.Seeded .incidents ∧
    (run [(true, .ingest "first" (.object [])), (false, .compileInsert),
      (false, .ingest "second" (.string "text"))]).Returns seededPair fun events fleet' =>
        events.filterMap Event.slot? = (List.range (documents events).length).map Int.ofNat ∧
        ∀ k : Int, (fleet'.counters.get? (Schema.incidents.bodyKey k)).isSome ↔
          0 ≤ k ∧ k < (documents events).length := by
  have hrun := run_archive Schema.keysDistinct_incidents (fun i => rfl) seeded_seededPair
    [(true, .ingest "first" (.object [])), (false, .compileInsert),
      (false, .ingest "second" (.string "text"))]
  refine ⟨Schema.keysDistinct_incidents, fun i => rfl, seeded_seededPair, hrun.mono ?_ fun _ _ h => h⟩
  rintro events fleet' ⟨_, _, hslots, hpresent, _⟩
  exact ⟨hslots, fun k => (hpresent k).1⟩

end Fleet

end GeoWorkload
