import GeoWorkload.Generator.Ingest
import GeoWorkload.Proofs.Sites
import GeoWorkload.Proofs.TokenPaths
import GeoWorkload.Proofs.TokenStorage

/-!
# What an ingest does

An ingest that takes a slot counts it, and apart from the count it changes texts of that slot alone and fills
places of fields that had none in slots before it (`Schema.Claimed`).  That holds however the ingest ends;
one that fails before it took a slot changes nothing, and one that gives its slot has stored the id, the body
and the tokens of the document (`ingestDocument_ensures`).
-/

namespace GeoWorkload

open Column MemoryBacked

/-! ### Slots that are taken -/

/-- The key is one of a slot: of its id, of its body or of one of its fields. -/
def Schema.IsKeyOf (S : Schema) (slot : Int) (key : Label) : Prop :=
  key = S.docIdKey slot ∨ key = S.bodyKey slot ∨ ∃ p ∈ S.fieldPaths, key = S.fieldKey p slot

/-- The slot has been taken: the stored documents are one more, all other texts but those of the slot are
what they were, and new ones stand in the slot, or for fields in slots from zero to before it. -/
structure Schema.Claimed (S : Schema) (slot : Int) (m m' : MemoryStore) : Prop where
  before : m.Counts S.storedKey slot
  after : m'.Counts S.storedKey (slot + 1)
  kept : ∀ key text, m.get? key = some text → key ≠ S.storedKey → ¬ S.IsKeyOf slot key →
    m'.get? key = some text
  made : ∀ key, m.get? key = none → m'.get? key ≠ none → S.IsKeyOf slot key ∨
    ∃ p ∈ S.fieldPaths, ∃ j : Nat, (j : Int) < slot ∧ key = S.fieldKey p j

namespace Schema

variable {S : Schema} {slot : Int} {m m' m'' : MemoryStore}

theorem KeysDistinct.not_isKeyOf_storedKey (hS : S.KeysDistinct) : ¬ S.IsKeyOf slot S.storedKey := by
  rintro (h | h | ⟨p, hp, h⟩)
  · exact hS.ne .stored (.docId slot) trivial trivial nofun h
  · exact hS.ne .stored (.body slot) trivial trivial nofun h
  · exact hS.ne .stored (.field p slot) trivial hp nofun h

/-- Counting a slot takes it. -/
theorem Claimed.of_put (hS : S.KeysDistinct) (h : m.Counts S.storedKey slot)
    (hw : Numeral.IsWritable (slot + 1)) :
    S.Claimed slot m (m.put S.storedKey (Numeral.decimal (slot + 1))) where
  before := h
  after := MemoryStore.counts_of_decimal hw (MemoryStore.get?_put_self _ _ _)
  kept key text hkey hne _ := by rw [MemoryStore.get?_put_of_ne hS.storedKey_isText m _ hne, hkey]
  made key hnone hsome := by
    obtain ⟨text, htext, _⟩ := h
    have hne : key ≠ S.storedKey := by
      rintro rfl
      rw [hnone] at htext
      cases htext
    rw [MemoryStore.get?_put_of_ne hS.storedKey_isText m _ hne] at hsome
    exact absurd hnone hsome

/-- Changing texts of a slot that is taken. -/
theorem Claimed.of_slot (hS : S.KeysDistinct) (h : S.Claimed slot m m')
    (hslot : ∀ key, ¬ S.IsKeyOf slot key → m''.get? key = m'.get? key) : S.Claimed slot m m'' where
  before := h.before
  after := by
    obtain ⟨text, htext, hread⟩ := h.after
    exact ⟨text, (hslot _ hS.not_isKeyOf_storedKey).trans htext, hread⟩
  kept key text hkey hne hkeyOf := (hslot key hkeyOf).trans (h.kept key text hkey hne hkeyOf)
  made key hnone hsome := by
    by_cases hkeyOf : S.IsKeyOf slot key
    · exact Or.inl hkeyOf
    · rw [hslot key hkeyOf] at hsome
      exact h.made key hnone hsome

/-- Filling places before a slot that is taken. -/
theorem Claimed.of_fills (h : S.Claimed slot m m') (hfills : OnlyFills S S.fieldPaths slot m' m'') :
    S.Claimed slot m m'' where
  before := h.before
  after := by
    obtain ⟨text, htext, hread⟩ := h.after
    exact ⟨text, hfills.kept _ _ htext, hread⟩
  kept key text hkey hne hkeyOf := hfills.kept _ _ (h.kept key text hkey hne hkeyOf)
  made key hnone hsome := by
    rcases hmid : m'.get? key with _ | text
    · exact Or.inr (hfills.made key hmid hsome)
    · exact h.made key hnone (by simp [hmid])

theorem Claimed.put (hS : S.KeysDistinct) (h : S.Claimed slot m m') {key : Label} (ht : key.IsText)
    (hkey : S.IsKeyOf slot key) (text : String) : S.Claimed slot m (m'.put key text) := by
  refine h.of_slot hS fun other hother => ?_
  refine MemoryStore.get?_put_of_ne ht m' text ?_
  rintro rfl
  exact hother hkey

end Schema

/-- The memory after a slot was counted and an id and a body were put under its keys. -/
def Schema.filed (S : Schema) (m : MemoryStore) (slot : Int) (key body : String) : MemoryStore :=
  ((m.put S.storedKey (Numeral.decimal (slot + 1))).put (S.docIdKey slot) key).put (S.bodyKey slot) body

section filed

variable {S : Schema} (hS : S.KeysDistinct) (m : MemoryStore) (slot : Int) (key body : String)
include hS

theorem Schema.get?_filed (other : Label) : (S.filed m slot key body).get? other =
    if other = S.bodyKey slot then some body
    else if other = S.docIdKey slot then some key
    else if other = S.storedKey then some (Numeral.decimal (slot + 1)) else m.get? other := by
  unfold filed
  rw [MemoryStore.get?_put_of_isText (hS.bodyKey_isText slot),
    MemoryStore.get?_put_of_isText (hS.docIdKey_isText slot),
    MemoryStore.get?_put_of_isText hS.storedKey_isText]

theorem Schema.get?_filed_storedKey :
    (S.filed m slot key body).get? S.storedKey = some (Numeral.decimal (slot + 1)) := by
  have hbody : S.storedKey ≠ S.bodyKey slot := hS.ne .stored (.body slot) trivial trivial nofun
  have hid : S.storedKey ≠ S.docIdKey slot := hS.ne .stored (.docId slot) trivial trivial nofun
  rw [get?_filed hS, if_neg hbody, if_neg hid, if_pos rfl]

theorem Schema.get?_filed_docIdKey (k : Int) : (S.filed m slot key body).get? (S.docIdKey k) =
    if k = slot then some key else m.get? (S.docIdKey k) := by
  have hbody : S.docIdKey k ≠ S.bodyKey slot := hS.ne (.docId k) (.body slot) trivial trivial nofun
  have hstored : S.docIdKey k ≠ S.storedKey := hS.ne (.docId k) .stored trivial trivial nofun
  have hinj : S.docIdKey k = S.docIdKey slot ↔ k = slot := hS.docIdKey_inj
  simp only [get?_filed hS, if_neg hbody, if_neg hstored, hinj]

theorem Schema.get?_filed_bodyKey (k : Int) : (S.filed m slot key body).get? (S.bodyKey k) =
    if k = slot then some body else m.get? (S.bodyKey k) := by
  have hid : S.bodyKey k ≠ S.docIdKey slot := hS.ne (.body k) (.docId slot) trivial trivial nofun
  have hstored : S.bodyKey k ≠ S.storedKey := hS.ne (.body k) .stored trivial trivial nofun
  have hinj : S.bodyKey k = S.bodyKey slot ↔ k = slot := hS.bodyKey_inj
  simp only [get?_filed hS, if_neg hid, if_neg hstored, hinj]

theorem Schema.get?_filed_fieldKey {p : Label} (hp : p ∈ S.fieldPaths) (k : Int) :
    (S.filed m slot key body).get? (S.fieldKey p k) = m.get? (S.fieldKey p k) := by
  have hbody : S.fieldKey p k ≠ S.bodyKey slot := hS.ne (.field p k) (.body slot) hp trivial nofun
  have hid : S.fieldKey p k ≠ S.docIdKey slot := hS.ne (.field p k) (.docId slot) hp trivial nofun
  have hstored : S.fieldKey p k ≠ S.storedKey := hS.ne (.field p k) .stored hp trivial nofun
  rw [get?_filed hS, if_neg hbody, if_neg hid, if_neg hstored]

end filed

theorem Schema.claimed_filed {S : Schema} (hS : S.KeysDistinct) {m : MemoryStore} {slot : Int}
    (h : m.Counts S.storedKey slot) (hw : Numeral.IsWritable (slot + 1)) (key body : String) :
    S.Claimed slot m (S.filed m slot key body) := by
  have hcounted := Claimed.of_put hS h hw
  have hid := hcounted.put hS (hS.docIdKey_isText slot) (Or.inl rfl) key
  exact hid.put hS (hS.bodyKey_isText slot) (Or.inr (Or.inl rfl)) body

theorem TokensKept.claimed {S : Schema} (hS : S.KeysDistinct) {body : String} {slot : Int} {tokens : Tokens}
    {m m' m'' : MemoryStore} (htokens : (tokenize S body).result = .ok tokens)
    (h : TokensKept S slot tokens m' m'') (hclaimed : S.Claimed slot m m') : S.Claimed slot m m'' := by
  refine hclaimed.of_slot hS fun key hkey => h.outside key fun e he hekey => hkey ?_
  exact Or.inr (Or.inr ⟨e.1, mem_fieldPaths_of_tokenize hS htokens he, hekey⟩)

namespace Generator

open Site

variable {σ : Type} [CounterStore σ] [MemoryBacked σ] {g : Generator} {m : MemoryStore}

/-! ### The repair after an ingest -/

/-- The repair after an ingest into a slot: none where the flag is set or the slot is one of the first two,
and else the repair pass, which sets the flag if every field has a value. -/
structure RepairedAfter (S : Schema) (slot : Int) (flag flag' : Bool) (m m' : MemoryStore) : Prop where
  skipped : flag = true ∨ slot ≤ 1 → m' = m ∧ flag' = flag
  done : flag = false → 1 < slot → Repaired S S.fieldPaths (slot + 1).toNat m m' ∧
    (flag' = true ↔ ∀ p ∈ S.fieldPaths, (firstSome (S.column m p) (slot + 1).toNat).isSome)

theorem repair_ensures (hS : g.schema.KeysDistinct) (slot : Int) {site : Site σ}
    (hsite : site.Holds g m) : (repair slot).Ensures site
      (fun _ site' => ∃ m' flag', site'.Holds { g with allInitialized := flag' } m' ∧
        RepairedAfter g.schema slot g.allInitialized flag' m m' ∧
        OnlyFills g.schema g.schema.fieldPaths slot m m')
      fun _ site' => ∃ m', site'.Holds g m' ∧
        OnlyFills g.schema g.schema.fieldPaths slot m m' ∧ mayRefuse σ := by
  unfold repair
  refine Action.ensures_look_bind ?_
  split
  · rename_i hrepair
    rw [Bool.and_eq_true, Bool.not_eq_true', decide_eq_true_eq, hsite.alike.flag] at hrepair
    have hpass : Works g m (onCounters (backfillLeading site.generator.schema slot)
        : Action (Site σ) Bool) (fun complete m' =>
          RepairedAfter g.schema slot g.allInitialized complete m m' ∧
          OnlyFills g.schema g.schema.fieldPaths slot m m')
        fun _ m' => OnlyFills g.schema g.schema.fieldPaths slot m m' ∧ mayRefuse σ := by
      refine works_onCounters fun s hs => ?_
      rw [hsite.alike.schema, ← hs]
      refine (backfillLeading_ensures hS slot s).mono ?_ fun _ _ h => h.2
      rintro complete s' ⟨hrepaired, hfills, hcomplete⟩
      refine ⟨⟨fun hskip => ?_, fun _ _ => ⟨hrepaired, hcomplete⟩⟩, hfills⟩
      rcases hskip with hflag | hle
      · rw [hrepair.1] at hflag
        cases hflag
      · omega
    refine (hpass site hsite).bind ?_ fun _ _ h => h
    rintro complete site₁ ⟨m₁, hsite₁, hrepaired⟩
    have hflagged : (onGenerator (Action.change fun g => { g with allInitialized := complete })
        : Action (Site σ) Unit).Ensures site₁
        (fun _ site₂ => site₂.Holds { g with allInitialized := complete } m₁) fun _ _ => False :=
      Action.Ensures.within (Action.ensures_change.mpr
        ⟨⟨hsite₁.alike.settings, hsite₁.alike.schema, rfl⟩, hsite₁.memory⟩)
    refine hflagged.bind ?_ fun _ _ h => h.elim
    intro _ site₂ hsite₂
    split
    · exact Action.ensures_log.mpr ⟨m₁, complete, hsite₂, hrepaired⟩
    · exact Action.ensures_pure.mpr ⟨m₁, complete, hsite₂, hrepaired⟩
  · rename_i hskip
    rw [Bool.and_eq_true, Bool.not_eq_true', decide_eq_true_eq, hsite.alike.flag] at hskip
    refine Action.ensures_pure.mpr ⟨m, g.allInitialized, hsite, ⟨fun _ => ⟨rfl, rfl⟩, ?_⟩, .refl _ _ _⟩
    exact fun hflag hlt => absurd ⟨hflag, hlt⟩ hskip

/-! ### Ingests -/

/-- What an ingest that gives a slot has done: the slot is taken, and its id, its body and its tokens are
stored, followed by the repair. -/
structure Ingested (S : Schema) (slot : Int) (key body : String) (tokens : Tokens) (flag flag' : Bool)
    (m m' : MemoryStore) : Prop where
  claimed : S.Claimed slot m m'
  writable : Numeral.IsWritable (slot + 1)
  stored : ∃ m₁, TokensKept S slot tokens (S.filed m slot key body) m₁ ∧
    RepairedAfter S slot flag flag' m₁ m'

theorem works_storeTokens (hS : g.schema.KeysDistinct) {body : String} {tokens : Tokens}
    (htokens : (tokenize g.schema body).result = .ok tokens) (slot : Int) :
    Works g m (onCounters (storeTokens g.schema slot tokens) : Action (Site σ) Tokens)
      (fun _ m' => TokensKept g.schema slot tokens m m')
      fun _ m' => (∀ key, ¬ g.schema.IsKeyOf slot key → m'.get? key = m.get? key) ∧ mayRefuse σ := by
  have hpaths : ∀ e ∈ tokens, e.1 ∈ g.schema.fieldPaths := fun e he =>
    mem_fieldPaths_of_tokenize hS htokens he
  refine works_onCounters fun s hs => ?_
  rw [← hs]
  refine (storeTokens_ensures hS slot hpaths (nodup_of_tokenize hS htokens) s).mono ?_ ?_
  · exact fun _ _ h => h.2
  · rintro _ s' ⟨hother, hrefuse⟩
    refine ⟨fun key hkey => hother key fun e he hekey => hkey ?_, hrefuse⟩
    exact Or.inr (Or.inr ⟨e.1, hpaths e he, hekey⟩)

theorem RepairedAfter.get?_of_ne_fieldKey {S : Schema} {slot : Int} {flag flag' : Bool} {m m' : MemoryStore}
    (h : RepairedAfter S slot flag flag' m m') {key : Label}
    (hkey : ∀ p ∈ S.fieldPaths, ∀ k, key ≠ S.fieldKey p k) : m'.get? key = m.get? key := by
  by_cases hskip : flag = true ∨ slot ≤ 1
  · rw [(h.skipped hskip).1]
  · rw [not_or, Bool.not_eq_true, Int.not_le] at hskip
    exact (h.done hskip.1 hskip.2).1.outside key fun p hp j _ => hkey p hp j

/-- Under other keys than those of fields, an ingest leaves what filing the document does. -/
theorem Ingested.get?_of_ne_fieldKey {S : Schema} (hS : S.KeysDistinct) {slot : Int} {key body : String}
    {tokens : Tokens} {flag flag' : Bool} {m m' : MemoryStore}
    (htokens : (tokenize S body).result = .ok tokens)
    (h : Ingested S slot key body tokens flag flag' m m') {other : Label}
    (hother : ∀ p ∈ S.fieldPaths, ∀ k, other ≠ S.fieldKey p k) :
    m'.get? other = (S.filed m slot key body).get? other := by
  obtain ⟨m₁, hkept, hrepaired⟩ := h.stored
  rw [hrepaired.get?_of_ne_fieldKey hother]
  exact hkept.outside other fun e he => hother e.1 (mem_fieldPaths_of_tokenize hS htokens he) slot

/-- What an ingest that failed has left: the memory as it was, which happens without a refused call only
where there are no tokens or no further slot, or a slot that is taken. -/
def IngestFailed (S : Schema) (hasTokens mayRefuse : Prop) (m m' : MemoryStore) : Prop :=
  (m' = m ∧ (mayRefuse ∨ ¬ hasTokens ∨ ∀ c, m.Counts S.storedKey c → ¬ Numeral.IsWritable (c + 1))) ∨
    (mayRefuse ∧ ∃ slot, S.Claimed slot m m')

theorem ingest_ensures (hS : g.schema.KeysDistinct) (key body : String) {site : Site σ}
    (hsite : site.Holds g m) : (ingest key body).Ensures site
      (fun slot site' => ∃ tokens m' flag', (tokenize g.schema body).result = .ok tokens ∧
        site'.Holds { g with allInitialized := flag' } m' ∧
        Ingested g.schema slot key body tokens g.allInitialized flag' m m')
      fun _ site' => ∃ m', site'.Holds g m' ∧ IngestFailed g.schema
        (∃ tokens, (tokenize g.schema body).result = .ok tokens) (mayRefuse σ) m m' := by
  unfold ingest
  refine works_ownSchema.pass_ensures hsite ?_ fun _ _ h => h
  rintro _ site hsite rfl
  have hlog : Works g m (Action.logAll ((tokenize g.schema body).warnings.map (·.record))
      : Action (Site σ) Unit) (fun _ m' => True ∧ m' = m) fun _ _ => False :=
    works_logAll ⟨trivial, rfl⟩
  refine hlog.pass_ensures hsite ?_ fun _ _ h => h.elim
  intro _ site hsite _
  have hresult : Works g m (Action.ofExcept (tokenize g.schema body).result : Action (Site σ) Tokens)
      (fun tokens m' => (tokenize g.schema body).result = .ok tokens ∧ m' = m)
      fun _ m' => m' = m ∧ ¬ ∃ tokens, (tokenize g.schema body).result = .ok tokens := by
    refine works_ofExcept (fun tokens h => ⟨h, rfl⟩) fun e he => ⟨rfl, ?_⟩
    rintro ⟨tokens, htokens⟩
    rw [he] at htokens
    cases htokens
  refine hresult.pass_ensures hsite ?_ fun _ _ ⟨hm, hnone⟩ => Or.inl ⟨hm, Or.inr (Or.inl hnone)⟩
  intro tokens site hsite htokens
  refine (works_increment hS.storedKey_isText 1).bind_ensures hsite ?_ fun _ _ ⟨hm, hwhy⟩ =>
    Or.inl ⟨hm, hwhy.imp_right Or.inr⟩
  rintro _ m₁ site hsite ⟨slot, hcounts, rfl, hw, hm₁⟩
  dsimp only
  rw [Int.add_sub_cancel]
  -- from here on the slot is taken, and a refusal at any later step leaves it so
  have h₁ : g.schema.Claimed slot m m₁ := hm₁ ▸ .of_put hS hcounts hw
  refine (works_set (hS.docIdKey_isText slot) key).bind_ensures hsite ?_ fun _ _ ⟨hm, hrefuse⟩ =>
    Or.inr ⟨hrefuse, slot, hm ▸ h₁⟩
  intro _ m₂ site hsite hm₂
  have h₂ : g.schema.Claimed slot m m₂ := hm₂ ▸ h₁.put hS (hS.docIdKey_isText slot) (Or.inl rfl) key
  refine (works_set (hS.bodyKey_isText slot) body).bind_ensures hsite ?_ fun _ _ ⟨hm, hrefuse⟩ =>
    Or.inr ⟨hrefuse, slot, hm ▸ h₂⟩
  intro _ m₃ site hsite hm₃
  have hfiled : m₃ = g.schema.filed m slot key body := by
    rw [hm₃, hm₂, hm₁]
    rfl
  have h₃ : g.schema.Claimed slot m m₃ := hfiled ▸ Schema.claimed_filed hS hcounts hw key body
  refine (works_storeTokens hS htokens slot).bind_ensures hsite ?_ fun _ _ ⟨hother, hrefuse⟩ =>
    Or.inr ⟨hrefuse, slot, h₃.of_slot hS hother⟩
  intro _ m₄ site hsite hkept
  have h₄ : g.schema.Claimed slot m m₄ := hkept.claimed hS htokens h₃
  refine (repair_ensures hS slot hsite).bind ?_ ?_
  · rintro _ site ⟨m₅, flag', hsite, hrepaired, hfills⟩
    refine Action.Ensures.bind (Action.ensures_log.mpr ?_) (fun _ _ h => Action.ensures_pure.mpr h)
      fun _ _ h => h
    exact ⟨tokens, m₅, flag', htokens, hsite, h₄.of_fills hfills, hw, m₄, hfiled ▸ hkept, hrepaired⟩
  · rintro _ site ⟨m₅, hsite, hfills, hrefuse⟩
    exact ⟨m₅, hsite, Or.inr ⟨hrefuse, slot, h₄.of_fills hfills⟩⟩

/-! ### Ingests of documents -/

/-- The body and the tokens of a document, unless it cannot be ingested. -/
def contents? (S : Schema) (document : Json.Value) : Option (String × Tokens) :=
  match bodyOf? document with
  | .error _ => none
  | .ok body =>
    match (tokenize S body).result with
    | .error _ => none
    | .ok tokens => some (body, tokens)

theorem contents?_eq_some_iff {S : Schema} {document : Json.Value} {body : String} {tokens : Tokens} :
    contents? S document = some (body, tokens) ↔
      bodyOf? document = .ok body ∧ (tokenize S body).result = .ok tokens := by
  unfold contents?
  rcases hbody : bodyOf? document with e | body'
  · simp
  · simp only [Except.ok.injEq]
    rcases htokens : (tokenize S body').result with e | tokens'
    · simp only [reduceCtorEq, false_iff]
      rintro ⟨rfl, h⟩
      rw [htokens] at h
      cases h
    · simp only [Option.some.injEq, Prod.mk.injEq]
      refine and_congr_right fun e => ?_
      rw [← e, htokens, Except.ok.injEq]

theorem ingestDocument_ensures (hS : g.schema.KeysDistinct) (key : String) (document : Json.Value)
    {site : Site σ} (hsite : site.Holds g m) : (ingestDocument key document).Ensures site
      (fun slot site' => ∃ body tokens m' flag',
        contents? g.schema document = some (body, tokens) ∧
        site'.Holds { g with allInitialized := flag' } m' ∧
        Ingested g.schema slot key body tokens g.allInitialized flag' m m')
      fun _ site' => ∃ m', site'.Holds g m' ∧
        IngestFailed g.schema ((contents? g.schema document).isSome) (mayRefuse σ) m m' := by
  have hbody : Works g m (Action.ofNumber (bodyOf? document) : Action (Site σ) String)
      (fun body m' => bodyOf? document = .ok body ∧ m' = m)
      fun _ m' => m' = m ∧ contents? g.schema document = none := by
    unfold contents?
    refine works_ofExcept ?_ ?_
    all_goals cases bodyOf? document <;> simp [Except.mapError]
  unfold ingestDocument
  refine hbody.pass_ensures hsite ?_ fun _ _ ⟨hm, hnone⟩ => Or.inl ⟨hm, Or.inr (Or.inl (by simp [hnone]))⟩
  intro body site hsite hbody
  refine (ingest_ensures hS key body hsite).mono ?_ ?_
  · rintro slot site' ⟨tokens, m', flag', htokens, hsite', hingested⟩
    exact ⟨body, tokens, m', flag', contents?_eq_some_iff.mpr ⟨hbody, htokens⟩, hsite', hingested⟩
  · rintro _ site' ⟨m', hsite', hfailed⟩
    have hiff : (∃ tokens, (tokenize g.schema body).result = .ok tokens) ↔
        (contents? g.schema document).isSome := by
      constructor
      · rintro ⟨tokens, htokens⟩
        rw [contents?_eq_some_iff.mpr ⟨hbody, htokens⟩]
        rfl
      · intro hsome
        obtain ⟨⟨body', tokens⟩, hcontents⟩ := Option.isSome_iff_exists.mp hsome
        obtain ⟨hbody', htokens⟩ := contents?_eq_some_iff.mp hcontents
        rw [hbody] at hbody'
        cases hbody'
        exact ⟨tokens, htokens⟩
    rw [hiff] at hfailed
    exact ⟨m', hsite', hfailed⟩

end Generator

end GeoWorkload
