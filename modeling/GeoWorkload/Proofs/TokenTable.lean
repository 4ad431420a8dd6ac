import GeoWorkload.Proofs.Archive

/-!
# The table of tokens

The tokens that a seeded store holds are those of its archive, in closed form: in each slot the last token of
the field up to the slot, or else the first one of all once there are three documents (`TokenTable`).  The
flag of a generator tells that every field has a token (`Complete`), and so what a generator leaves out of the
repair is settled already.
-/

namespace GeoWorkload

open Column

/-- The token of a field in a document, if there is one. -/
def Schema.tokenOf (S : Schema) (document : Json.Value) (path : Label) : Option String :=
  (Generator.contents? S document).bind fun contents => contents.2.get path

/-- The token of a field in one of many documents. -/
def Schema.tokenAt (S : Schema) (docs : List (String × Json.Value)) (path : Label) (j : Nat) :
    Option String :=
  docs[j]?.bind fun doc => S.tokenOf doc.2 path

/-- The store holds the settled tokens of the documents in their slots, and no tokens in other slots. -/
structure TokenTable (S : Schema) (docs : List (String × Json.Value)) (m : MemoryStore) : Prop where
  inside : ∀ p ∈ S.fieldPaths, ∀ j < docs.length,
    S.column m p j = settled (S.tokenAt docs p) docs.length j
  outside : ∀ p ∈ S.fieldPaths, ∀ k : Int, k < 0 ∨ docs.length ≤ k → m.get? (S.fieldKey p k) = none

/-- There are three documents or more, and every field has a token in one of them. -/
structure Complete (S : Schema) (docs : List (String × Json.Value)) : Prop where
  three_le : 3 ≤ docs.length
  isSome : ∀ p ∈ S.fieldPaths, (firstSome (S.tokenAt docs p) docs.length).isSome

variable {S : Schema} {docs : List (String × Json.Value)}

theorem Schema.tokenAt_concat_of_lt (doc : String × Json.Value) (p : Label) {j : Nat} (hj : j < docs.length) :
    S.tokenAt (docs ++ [doc]) p j = S.tokenAt docs p j := by
  rw [tokenAt, tokenAt, List.getElem?_append_left hj]

theorem Schema.tokenAt_concat_length (doc : String × Json.Value) (p : Label) :
    S.tokenAt (docs ++ [doc]) p docs.length = S.tokenOf doc.2 p := by
  rw [tokenAt, List.getElem?_concat_length]
  rfl

theorem Complete.concat (h : Complete S docs) (doc : String × Json.Value) :
    Complete S (docs ++ [doc]) := by
  constructor
  · rw [List.length_append]
    have := h.three_le
    omega
  · intro p hp
    obtain ⟨v, hv⟩ := Option.isSome_iff_exists.mp (h.isSome p hp)
    rw [← firstSome_congr fun j hj => S.tokenAt_concat_of_lt doc p hj] at hv
    rw [List.length_append, firstSome_eq_of_le (Nat.le_add_right _ _) hv]
    rfl

theorem Complete.append (h : Complete S docs) (doc? : Option (String × Json.Value)) :
    Complete S (docs ++ doc?.toList) := by
  cases doc? with
  | none =>
      rw [Option.toList_none, List.append_nil]
      exact h
  | some doc => exact h.concat doc

/-! ### One more document -/

/-- A column of tokens with one more document whose token is kept, but not repaired yet. -/
structure Grown (S : Schema) (docs : List (String × Json.Value)) (doc : String × Json.Value)
    (m : MemoryStore) : Prop where
  inside : ∀ p ∈ S.fieldPaths, ∀ j < docs.length,
    S.column m p j = settled (S.tokenAt (docs ++ [doc]) p) docs.length j
  last : ∀ p ∈ S.fieldPaths,
    S.column m p docs.length = lastSome (S.tokenAt (docs ++ [doc]) p) (docs.length + 1)
  outside : ∀ p ∈ S.fieldPaths, ∀ k : Int, k < 0 ∨ docs.length + 1 ≤ k →
    m.get? (S.fieldKey p k) = none

/-- Keeping the tokens of a document that was filed makes the table grow. -/
theorem TokenTable.grown (hS : S.KeysDistinct) {m m' : MemoryStore} (h : TokenTable S docs m)
    {key body : String} {document : Json.Value} {tokens : Tokens}
    (hcontents : Generator.contents? S document = some (body, tokens))
    (hm : TokensKept S docs.length tokens (S.filed m docs.length key body) m') :
    Grown S docs (key, document) m' := by
  obtain ⟨_, htokens⟩ := Generator.contents?_eq_some_iff.mp hcontents
  have htext : ∀ e ∈ tokens, e.1.IsText := fun e he =>
    hS.isText_of_mem_fieldPaths (mem_fieldPaths_of_tokenize hS htokens he)
  have hother : ∀ p ∈ S.fieldPaths, ∀ k : Int, k ≠ docs.length →
      m'.get? (S.fieldKey p k) = m.get? (S.fieldKey p k) := by
    intro p hp k hk
    rw [hm.outside _ fun e he ekey => hk ?_, Schema.get?_filed_fieldKey hS m _ key body hp]
    exact (hS.fieldKey_inj hp (mem_fieldPaths_of_tokenize hS htokens he) ekey).2
  have hcolumn : ∀ p ∈ S.fieldPaths, ∀ j < docs.length,
      S.column (S.filed m docs.length key body) p j =
        settled (S.tokenAt (docs ++ [(key, document)]) p) docs.length j := by
    intro p hp j hj
    rw [← settled_congr (fun i hi => (S.tokenAt_concat_of_lt _ p hi).symm) hj, ← h.inside p hp j hj]
    exact Schema.get?_filed_fieldKey hS m _ key body hp j
  constructor
  · intro p hp j hj
    rw [← hcolumn p hp j hj, Schema.column, Schema.column, hother p hp j (by omega)]
    exact (Schema.get?_filed_fieldKey hS m _ key body hp j).symm
  · intro p hp
    obtain ⟨e, he, rfl⟩ := List.mem_map.mp ((mem_paths_of_tokenize_iff hS htokens).mpr hp)
    have htoken : S.tokenAt (docs ++ [(key, document)]) e.1 docs.length = e.2 := by
      rw [Schema.tokenAt_concat_length, Schema.tokenOf, hcontents]
      exact Tokens.get_of_mem htext (nodup_of_tokenize hS htokens) he
    have hfree : (S.filed m docs.length key body).get? (S.fieldKey e.1 docs.length) = none := by
      rw [Schema.get?_filed_fieldKey hS m _ key body hp]
      exact h.outside e.1 hp _ (Or.inr (Int.le_refl _))
    rw [Schema.column, hm.kept e he, hfree, Option.or_none, Schema.keptFor, Int.toNat_natCast,
      lastSome_settled (hcolumn e.1 hp), lastSome, htoken]
  · intro p hp k hk
    rw [hother p hp k (by omega)]
    exact h.outside p hp k (by omega)

/-- A table that has grown is settled after the repair, and a flag that is set then tells the truth. -/
theorem Grown.repaired {doc : String × Json.Value} {m m' : MemoryStore} (hS : S.KeysDistinct)
    (h : Grown S docs doc m) {flag flag' : Bool} (hflag : flag = true → Complete S docs)
    (hm : Generator.RepairedAfter S docs.length flag flag' m m') :
    TokenTable S (docs ++ [doc]) m' ∧ (flag' = true → Complete S (docs ++ [doc])) := by
  have hlength : (docs ++ [doc]).length = docs.length + 1 := List.length_append
  -- the repair is left out where a generator knows of no gaps, and for the first two documents
  by_cases hskip : flag = true ∨ (docs.length : Int) ≤ 1
  · obtain ⟨rfl, rfl⟩ := hm.skipped hskip
    refine ⟨⟨fun p hp j hj => ?_, fun p hp k hk => h.outside p hp k (by omega)⟩, fun hflag' => ?_⟩
    · rw [hlength] at hj ⊢
      rcases hskip with hset | hle
      · have hcomplete := hflag hset
        refine settled_succ_of_firstSome (h.inside p hp) (h.last p hp) hcomplete.three_le ?_ hj
        rw [firstSome_congr fun j hj => S.tokenAt_concat_of_lt doc p hj]
        exact hcomplete.isSome p hp
      · exact settled_succ_of_lt (h.inside p hp) (h.last p hp) (by omega) hj
    · exact (hflag hflag').concat doc
  · rw [not_or, Bool.not_eq_true, Int.not_le] at hskip
    obtain ⟨hrepaired, hcomplete⟩ := hm.done hskip.1 hskip.2
    have hslot : ((docs.length : Int) + 1).toNat = docs.length + 1 := by omega
    rw [hslot] at hrepaired hcomplete
    refine ⟨⟨fun p hp j hj => ?_, fun p hp k hk => ?_⟩, fun hflag' => ⟨by omega, fun p hp => ?_⟩⟩
    · rw [hlength] at hj ⊢
      rw [hrepaired.filled p hp j hj]
      exact settled_succ_of_leadingFilled (h.inside p hp) (h.last p hp) (by omega) hj
    · rw [hrepaired.outside _ fun q hq j hj e => ?_]
      · exact h.outside p hp k (by omega)
      · have := (hS.fieldKey_inj hp hq e).2
        omega
    · rw [hlength, ← firstSome_grown (h.inside p hp) (h.last p hp)]
      exact hcomplete.mp hflag' p hp

/-- Numbers of inserts leave the table as it is. -/
theorem TokenTable.of_advanced (hS : S.KeysDistinct) {m m' : MemoryStore} (h : TokenTable S docs m)
    {k : Nat} (hm : S.Advanced k m m') : TokenTable S docs m' := by
  have hfield : ∀ p ∈ S.fieldPaths, ∀ j : Int, m'.get? (S.fieldKey p j) = m.get? (S.fieldKey p j) :=
    fun p hp j => hm.outside _ (hS.ne (.field p j) .inserts hp trivial nofun)
  constructor
  · intro p hp j hj
    rw [← h.inside p hp j hj]
    exact hfield p hp j
  · intro p hp k hk
    rw [hfield p hp]
    exact h.outside p hp k hk

theorem TokenTable.of_seeded (hS : S.KeysDistinct) {m : MemoryStore} (h : m.Seeded S) :
    TokenTable S [] m := by
  refine ⟨fun p _ j hj => absurd hj (Nat.not_lt_zero j), fun p hp k _ => h.get?_eq_none hS ?_ ?_ ?_⟩
  · exact hS.ne (.field p k) .total hp trivial nofun
  · exact hS.ne (.field p k) .inserts hp trivial nofun
  · exact hS.ne (.field p k) .stored hp trivial nofun

/-- The documents settle what is under the keys of fields. -/
theorem TokenTable.unique {m m' : MemoryStore} (h : TokenTable S docs m) (h' : TokenTable S docs m')
    {p : Label} (hp : p ∈ S.fieldPaths) (k : Int) :
    m.get? (S.fieldKey p k) = m'.get? (S.fieldKey p k) := by
  by_cases hk : 0 ≤ k ∧ k < docs.length
  · obtain ⟨j, rfl⟩ := Int.eq_ofNat_of_zero_le hk.1
    have hj : j < docs.length := by omega
    exact (h.inside p hp j hj).trans (h'.inside p hp j hj).symm
  · rw [h.outside p hp k (by omega), h'.outside p hp k (by omega)]

/-! ### Runs -/

namespace Fleet

variable {ι : Type}

/-- The store of a fleet holds the table of the documents, and no generator has set its flag before its
time. -/
structure Tabled (S : Schema) (docs : List (String × Json.Value)) (fleet : Fleet ι MemoryStore) :
    Prop where
  table : TokenTable S docs fleet.counters
  flags : ∀ i, (fleet.generators i).allInitialized = true → Complete S docs

theorem Effect.tabled {g : Generator} {m m' : MemoryStore} {call : Call}
    {reply : Except Failure Reply} {flag' : Bool} (hS : g.schema.KeysDistinct)
    (h : Effect False g m call reply flag' m') (hdocs : Archive g.schema docs m)
    (htable : TokenTable g.schema docs m) (hflag : g.allInitialized = true → Complete g.schema docs)
    (worker : ι) (before after : MemoryStore) :
    let docs' := docs ++ (Event.mk worker call reply before after).document?.toList
    TokenTable g.schema docs' m' ∧ (flag' = true → Complete g.schema docs') := by
  cases h with
  | ingested hcontents hm =>
      obtain ⟨m₁, hkept, hrepaired⟩ := hm.stored
      rw [hdocs.slot_eq hm.claimed] at hkept hrepaired
      exact (htable.grown hS hcontents hkept).repaired hS hflag hrepaired
  | ingestFailed hm hflag' =>
      rcases hm with ⟨hm, _⟩ | ⟨hrefuse, _⟩
      · rw [Event.document?_of_error rfl, Option.toList_none, List.append_nil, hm, hflag']
        exact ⟨htable, hflag⟩
      · exact hrefuse.elim
  | returned hcall hreply hk hm hid hflag' =>
      rw [Event.document?_of_not_isIngest hcall, Option.toList_none, List.append_nil, hflag']
      exact ⟨htable.of_advanced hS hm, hflag⟩
  | failed hcall hk hm hflag' =>
      rw [Event.document?_of_not_isIngest hcall, Option.toList_none, List.append_nil, hflag']
      exact ⟨htable.of_advanced hS hm, hflag⟩

theorem Happened.tabled (hS : S.KeysDistinct) {fleet fleet' : Fleet ι MemoryStore}
    {event : Event ι MemoryStore} (hfleet : ∀ i, (fleet.generators i).schema = S)
    (h : Happened fleet event fleet') (hdocs : Archive S docs fleet.counters)
    (htabled : Tabled S docs fleet) : Tabled S (docs ++ event.document?.toList) fleet' := by
  obtain ⟨worker, call, reply, before, after⟩ := event
  have heffect : Effect False (fleet.generators worker) fleet.counters call reply
    (fleet'.generators worker).allInitialized fleet'.counters := h.effect
  have hflag := htabled.flags worker
  have htable := htabled.table
  rw [← hfleet worker] at hS hdocs hflag htable
  obtain ⟨htable', hflag'⟩ := heffect.tabled hS hdocs htable hflag worker before after
  rw [hfleet worker] at htable' hflag'
  refine ⟨htable', fun i hset => ?_⟩
  by_cases hi : i = worker
  · rw [hi] at hset
    exact hflag' hset
  · exact (htabled.flags i ((h.others i hi).symm.trans hset)).append _

theorem run_tabled [Powers] [DecidableEq ι] (hS : S.KeysDistinct) {fleet : Fleet ι MemoryStore}
    (hfleet : ∀ i, (fleet.generators i).schema = S)
    (hfresh : ∀ i, (fleet.generators i).allInitialized = false) (hseeded : fleet.counters.Seeded S)
    (calls : List (ι × Call)) :
    (run calls).Returns fleet fun events fleet' => events.map Event.asked = calls ∧
      Archiving S events fleet'.counters ∧ Tabled S (documents events) fleet' := by
  have hrun := run_returns hS fun (history : List (Event ι MemoryStore)) fleet' =>
    Archiving S history fleet'.counters ∧ Tabled S (documents history) fleet'
  refine hrun (fun history fleet₁ event fleet₂ hfleet hhistory h => ?_) calls hfleet ⟨?_, ?_, ?_⟩
  · have harchived := hhistory.1.concat (h.archived hS hfleet hhistory.1.archive)
    rw [h.after] at harchived
    rw [documents_concat]
    exact ⟨harchived, h.tabled hS hfleet hhistory.1.archive hhistory.2⟩
  · exact .of_seeded hS hseeded
  · exact .of_seeded hS hseeded
  · intro i hset
    rw [hfresh i] at hset
    cases hset

/-- However many fresh generators work on a seeded store, it holds the closed form of the tokens of the `n`
documents of the ingests that returned, in the slots from zero to before `n` and in no others.  Which
generator carried out which operation does not matter: others that carry out the same operations on a seeded
store come to the same tokens.  And where the flag of a generator is set, no field lacks a token in any of
the slots. -/
theorem run_tokens [Powers] [DecidableEq ι] (hS : S.KeysDistinct) {fleet : Fleet ι MemoryStore}
    (hfleet : ∀ i, (fleet.generators i).schema = S)
    (hfresh : ∀ i, (fleet.generators i).allInitialized = false) (hseeded : fleet.counters.Seeded S)
    (calls : List (ι × Call)) :
    (run calls).Returns fleet fun events fleet' => events.map Event.asked = calls ∧
      (∀ p ∈ S.fieldPaths, ∀ j < (documents events).length,
        ClosedForm (S.tokenAt (documents events) p) (documents events).length j
          (fleet'.counters.get? (S.fieldKey p j))) ∧
      (∀ p ∈ S.fieldPaths, ∀ k : Int, k < 0 ∨ (documents events).length ≤ k →
        fleet'.counters.get? (S.fieldKey p k) = none) ∧
      (∀ {κ : Type} [DecidableEq κ] (other : Fleet κ MemoryStore) (calls' : List (κ × Call)),
        (∀ i, (other.generators i).schema = S) → (∀ i, (other.generators i).allInitialized = false) →
        other.counters.Seeded S → calls'.map (·.2) = calls.map (·.2) →
        (run calls').Returns other fun _ other' => ∀ p ∈ S.fieldPaths, ∀ k : Int,
          other'.counters.get? (S.fieldKey p k) = fleet'.counters.get? (S.fieldKey p k)) ∧
      ∀ i, (fleet'.generators i).allInitialized = true → ∀ p ∈ S.fieldPaths,
        ∀ j < (documents events).length, (fleet'.counters.get? (S.fieldKey p j)).isSome := by
  refine (run_tabled hS hfleet hfresh hseeded calls).mono ?_ fun _ _ h => h
  rintro events fleet' ⟨hasked, harchiving, htabled⟩
  have hkept : ∀ p ∈ S.fieldPaths, ∀ j < (documents events).length,
      fleet'.counters.get? (S.fieldKey p j) =
        settled (S.tokenAt (documents events) p) (documents events).length j := htabled.table.inside
  refine ⟨hasked, fun p hp j hj => ?_, htabled.table.outside, ?_, fun i hset p hp j hj => ?_⟩
  · rw [hkept p hp j hj]
    exact closedForm_settled _ _ j
  · intro κ _ other calls' hother hfresh' hseeded' hcalls
    refine (run_tabled hS hother hfresh' hseeded' calls').mono ?_ fun _ _ h => h
    rintro events' other' ⟨hasked', harchiving', htabled'⟩ p hp k
    have hdocs : documents events' = documents events := by
      rw [harchiving'.documents_eq hasked', harchiving.documents_eq hasked, hcalls]
    exact (hdocs ▸ htabled'.table).unique htabled.table hp k
  · rw [hkept p hp j hj]
    have hcomplete := htabled.flags i hset
    exact isSome_settled hcomplete.three_le (hcomplete.isSome p hp)

theorem run_tokens_seededPair : Schema.incidents.KeysDistinct ∧
    (∀ i, (seededPair.generators i).schema = .incidents) ∧
    (∀ i, (seededPair.generators i).allInitialized = false) ∧
    seededPair.counters.Seeded .incidents ∧
    (run [(true, .ingest "first" (.object [])),
      (false, .ingest "second" (.object [("type", .string "Feature")]))]).Returns seededPair
        fun events fleet' => ∀ p ∈ Schema.incidents.fieldPaths, ∀ j < (documents events).length,
          ClosedForm (Schema.incidents.tokenAt (documents events) p) (documents events).length j
            (fleet'.counters.get? (Schema.incidents.fieldKey p j)) := by
  have hrun := run_tokens Schema.keysDistinct_incidents (fun i => rfl) (fun i => rfl)
    seeded_seededPair [(true, .ingest "first" (.object [])),
      (false, .ingest "second" (.object [("type", .string "Feature")]))]
  refine ⟨Schema.keysDistinct_incidents, fun i => rfl, fun i => rfl, seeded_seededPair, ?_⟩
  exact hrun.mono (fun _ _ h => h.2.1) fun _ _ h => h

end Fleet

end GeoWorkload
