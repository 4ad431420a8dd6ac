import GeoWorkload.Schema
import GeoWorkload.Proofs.Decimals

/-!
# Keys that do not collide

What the keys of a schema are for (`StoreKey`), and the schemas whose keys are texts that differ wherever
their purposes do (`Schema.KeysDistinct`).  A key of a slot is the collection, the family and the slot with
the delimiter between them; where the delimiter holds a character that no decimal holds, the key gives
the family and the slot back (`slotText_inj`).  The schema of incident reports has keys that do not
collide (`keysDistinct_incidents`).
-/

namespace GeoWorkload

/-! ### Labels that are texts -/

namespace Label

/-- The label is a text. -/
def IsText (l : Label) : Prop := ∃ t, l = .text t

@[simp] theorem isText_text (t : String) : IsText (.text t) := ⟨t, rfl⟩

instance : DecidablePred IsText
  | .text t => isTrue ⟨t, rfl⟩
  | .texts _ | .other _ | .broken _ => isFalse nofun

theorem isText_append_iff {a b : Label} : (a ++ b).IsText ↔ a.IsText ∧ b.IsText := by
  constructor
  · rintro ⟨t, h⟩
    change join a b = .text t at h
    unfold join at h
    split at h
    · cases h
    · cases h
    · exact ⟨isText_text _, isText_text _⟩
    · cases h
    · split at h
      · split at h <;> cases h
      · cases h
  · rintro ⟨⟨s, rfl⟩, t, rfl⟩
    exact isText_text _

theorem IsText.keyFault? {l : Label} (h : l.IsText) : l.keyFault? = none := by
  obtain ⟨t, rfl⟩ := h
  rfl

theorem IsText.same_iff {l other : Label} (h : l.IsText) : l.same other = true ↔ other = l := by
  obtain ⟨t, rfl⟩ := h
  exact text_same_iff

end Label

/-! ### Purposes of keys -/

/-- What a key of a store is for. -/
inductive StoreKey where
  | total
  | inserts
  | stored
  | docId (slot : Int)
  | body (slot : Int)
  | field (path : Label) (slot : Int)
deriving DecidableEq

namespace Schema

variable (S : Schema)

/-- The key for a purpose. -/
def keyFor : StoreKey → Label
  | .total => S.totalKey
  | .inserts => S.insertKey
  | .stored => S.storedKey
  | .docId slot => S.docIdKey slot
  | .body slot => S.bodyKey slot
  | .field path slot => S.fieldKey path slot

/-- The purposes that the schema has keys for: tokens are kept for its own fields alone. -/
def Uses : StoreKey → Prop
  | .field path _ => path ∈ S.fieldPaths
  | _ => True

/-- The keys of the schema are texts. -/
def KeysText : Prop := ∀ k, S.Uses k → (S.keyFor k).IsText

/-- The keys of the schema are texts, and different ones for different purposes. -/
structure KeysDistinct : Prop where
  isText : ∀ k, S.Uses k → (S.keyFor k).IsText
  inj : ∀ k k', S.Uses k → S.Uses k' → S.keyFor k = S.keyFor k' → k = k'

namespace KeysDistinct

variable {S} (h : S.KeysDistinct)
include h

theorem ne (k k' : StoreKey) (hk : S.Uses k) (hk' : S.Uses k') (hne : k ≠ k') :
    S.keyFor k ≠ S.keyFor k' :=
  fun e => hne (h.inj k k' hk hk' e)

theorem keysText : S.KeysText := h.isText

theorem totalKey_isText : S.totalKey.IsText := h.isText .total trivial

theorem storedKey_isText : S.storedKey.IsText := h.isText .stored trivial

theorem insertKey_isText : S.insertKey.IsText := h.isText .inserts trivial

theorem docIdKey_isText (slot : Int) : (S.docIdKey slot).IsText := h.isText (.docId slot) trivial

theorem bodyKey_isText (slot : Int) : (S.bodyKey slot).IsText := h.isText (.body slot) trivial

theorem fieldKey_isText {path : Label} (hp : path ∈ S.fieldPaths) (slot : Int) :
    (S.fieldKey path slot).IsText :=
  h.isText (.field path slot) hp

theorem fieldKey_inj {path path' : Label} (hp : path ∈ S.fieldPaths) (hp' : path' ∈ S.fieldPaths)
    {slot slot' : Int} (e : S.fieldKey path slot = S.fieldKey path' slot') :
    path = path' ∧ slot = slot' := by
  simpa using h.inj (.field path slot) (.field path' slot') hp hp' e

theorem docIdKey_inj {i j : Int} : S.docIdKey i = S.docIdKey j ↔ i = j := by
  refine ⟨fun e => ?_, fun e => by rw [e]⟩
  simpa using h.inj (.docId i) (.docId j) trivial trivial e

theorem bodyKey_inj {i j : Int} : S.bodyKey i = S.bodyKey j ↔ i = j := by
  refine ⟨fun e => ?_, fun e => by rw [e]⟩
  simpa using h.inj (.body i) (.body j) trivial trivial e

theorem keyStart_isText : S.keyStart.IsText :=
  (Label.isText_append_iff.mp h.totalKey_isText).1

/-- The paths of the fields are texts, since they are parts of keys. -/
theorem isText_of_mem_fieldPaths {path : Label} (hp : path ∈ S.fieldPaths) : path.IsText := by
  obtain ⟨hstart, _⟩ := Label.isText_append_iff.mp (h.fieldKey_isText hp 0)
  obtain ⟨hstart, _⟩ := Label.isText_append_iff.mp hstart
  exact (Label.isText_append_iff.mp hstart).2

end KeysDistinct

/-! ### Keys of slots -/

/-- A character that may stand in a decimal. -/
def isDecimalChar (c : Char) : Bool := c.isDigit || c = '-'

/-- A text gives the slot behind a delimiter back, and what stands before the delimiter, wherever the
delimiter holds a character that no decimal holds. -/
theorem slotText_inj {d : String} (hd : ∃ c ∈ d.toList, isDecimalChar c = false) {s t : String}
    {i j : Int} (h : s ++ d ++ Numeral.decimal i = t ++ d ++ Numeral.decimal j) : s = t ∧ i = j := by
  have hrev := congrArg (fun u => (String.toList u).reverse) h
  simp only [String.toList_append, List.reverse_append] at hrev
  have hdec : ∀ (k : Int), ∀ c ∈ (Numeral.decimal k).toList.reverse, isDecimalChar c = true := by
    intro k c hc
    rcases Numeral.of_mem_decimal (List.mem_reverse.mp hc) with h | rfl
    · simp [isDecimalChar, h]
    · decide
  -- the longest run of such characters at the end is the decimal with what of the delimiter goes before
  have htake := congrArg (List.takeWhile isDecimalChar) hrev
  have hstop : ∀ u : List Char, (d.toList.reverse ++ u).takeWhile isDecimalChar =
      d.toList.reverse.takeWhile isDecimalChar := by
    intro u
    obtain ⟨c, hc, hcd⟩ := hd
    have : (d.toList.reverse.takeWhile isDecimalChar).length ≠ d.toList.reverse.length := by
      intro e
      have hself := (List.takeWhile_prefix isDecimalChar).eq_of_length e
      have hall := List.all_eq_true.mp (hself ▸ List.all_takeWhile) c (List.mem_reverse.mpr hc)
      exact absurd hall (by simp [hcd])
    rw [List.takeWhile_append, if_neg this]
  rw [List.takeWhile_append_of_pos (hdec i), List.takeWhile_append_of_pos (hdec j), hstop, hstop]
    at htake
  have hij : i = j :=
    Numeral.decimal_inj.mp (String.ext (List.reverse_inj.mp (List.append_cancel_right htake)))
  subst hij
  refine ⟨?_, rfl⟩
  have hcut := List.append_cancel_left (List.append_cancel_left hrev)
  exact String.ext (List.reverse_inj.mp hcut)

/-- The schema is made of texts, its delimiter holds a character that no decimal holds, no field is named
like a family of keys, and the counters are three whose names do not hold the delimiter. -/
structure Delimited (S : Schema) : Prop where
  collection : S.collection.IsText
  delimiter : ∃ d, S.delimiter = .text d ∧ ∃ c ∈ d.toList, isDecimalChar c = false
  families : S.docIdFamily.IsText ∧ S.bodyFamily.IsText ∧ S.docIdFamily ≠ S.bodyFamily
  paths : ∀ p ∈ S.fieldPaths, p.IsText ∧ p ≠ S.docIdFamily ∧ p ≠ S.bodyFamily
  counters : S.insertCounter ≠ S.storedCounter ∧ S.insertCounter ≠ S.totalCounter ∧
    S.storedCounter ≠ S.totalCounter
  apart : ∀ l ∈ [S.insertCounter, S.storedCounter, S.totalCounter],
    ∃ t, l = .text t ∧ ∀ d, S.delimiter = .text d → ¬ d.toList <:+: t.toList

namespace Delimited

variable {S} (h : S.Delimited)
include h

/-- What every key starts with is a text. -/
theorem exists_keyStart : ∃ start, S.keyStart = .text start := by
  obtain ⟨c, hc⟩ := h.collection
  obtain ⟨d, hd, _⟩ := h.delimiter
  exact ⟨c ++ d, by rw [keyStart, hc, hd, Label.text_append_text]⟩

theorem slotKey_inj {f g : Label} (hf : f.IsText) (hg : g.IsText) {i j : Int}
    (e : S.slotKey f i = S.slotKey g j) : f = g ∧ i = j := by
  obtain ⟨start, hs⟩ := h.exists_keyStart
  obtain ⟨d, hd, hdec⟩ := h.delimiter
  obtain ⟨f, rfl⟩ := hf
  obtain ⟨g, rfl⟩ := hg
  simp only [slotKey, hs, hd, Label.text_append_text, Label.text.injEq] at e
  obtain ⟨hfg, hij⟩ := slotText_inj hdec e
  exact ⟨congrArg _ ((String.append_right_inj start).mp hfg), hij⟩

theorem counterKey_inj {a b : Label} (ha : a.IsText) (hb : b.IsText)
    (e : S.counterKey a = S.counterKey b) : a = b := by
  obtain ⟨start, hs⟩ := h.exists_keyStart
  obtain ⟨a, rfl⟩ := ha
  obtain ⟨b, rfl⟩ := hb
  simp only [counterKey, hs, Label.text_append_text, Label.text.injEq] at e
  exact congrArg _ ((String.append_right_inj start).mp e)

/-- No counter is a key of a slot, which holds the delimiter behind the start. -/
theorem counterKey_ne_slotKey {l f : Label} (hl : l ∈ [S.insertCounter, S.storedCounter, S.totalCounter])
    (hf : f.IsText) (i : Int) : S.counterKey l ≠ S.slotKey f i := by
  obtain ⟨start, hs⟩ := h.exists_keyStart
  obtain ⟨d, hd, _⟩ := h.delimiter
  obtain ⟨t, rfl, hapart⟩ := h.apart l hl
  obtain ⟨f, rfl⟩ := hf
  intro e
  simp only [counterKey, slotKey, hs, hd, Label.text_append_text, Label.text.injEq,
    String.append_assoc] at e
  have ht := (String.append_right_inj start).mp e
  refine hapart d hd ⟨f.toList, (Numeral.decimal i).toList, ?_⟩
  simp [ht]

theorem isText_counter {l : Label} (hl : l ∈ [S.insertCounter, S.storedCounter, S.totalCounter]) :
    l.IsText := by
  obtain ⟨t, rfl, _⟩ := h.apart l hl
  exact Label.isText_text t

end Delimited

/-- What a key is made of: the name of a counter, or a family and a slot. -/
def part (S : Schema) : StoreKey → Label × Option Int
  | .total => (S.totalCounter, none)
  | .inserts => (S.insertCounter, none)
  | .stored => (S.storedCounter, none)
  | .docId slot => (S.docIdFamily, some slot)
  | .body slot => (S.bodyFamily, some slot)
  | .field path slot => (path, some slot)

theorem keyFor_eq_part (k : StoreKey) :
    S.keyFor k = match S.part k with
      | (counter, none) => S.counterKey counter
      | (family, some slot) => S.slotKey family slot := by
  cases k <;> rfl

namespace Delimited

variable {S} (h : S.Delimited)
include h

theorem isText_part {k : StoreKey} (hk : S.Uses k) : (S.part k).1.IsText := by
  cases k with
  | total | inserts | stored => exact h.isText_counter (by simp [part])
  | docId slot => exact h.families.1
  | body slot => exact h.families.2.1
  | field path slot => exact (h.paths path hk).1

theorem part_inj {k k' : StoreKey} (hk : S.Uses k) (hk' : S.Uses k') (e : S.part k = S.part k') :
    k = k' := by
  obtain ⟨_, _, hne⟩ := h.families
  obtain ⟨h1, h2, h3⟩ := h.counters
  have hpath : ∀ p ∈ S.fieldPaths, S.docIdFamily ≠ p ∧ S.bodyFamily ≠ p :=
    fun p hp => ⟨Ne.symm (h.paths p hp).2.1, Ne.symm (h.paths p hp).2.2⟩
  cases k <;> cases k' <;> simp_all [part, Uses, Ne.symm]

omit h in
theorem mem_counters_of_part {k : StoreKey} (hk : (S.part k).2 = none) :
    (S.part k).1 ∈ [S.insertCounter, S.storedCounter, S.totalCounter] := by
  cases k <;> simp_all [part]

/-- The keys of a delimited schema do not collide. -/
theorem keysDistinct : S.KeysDistinct where
  isText k hk := by
    obtain ⟨start, hs⟩ := h.exists_keyStart
    obtain ⟨d, hd, _⟩ := h.delimiter
    have ht := h.isText_part hk
    rw [keyFor_eq_part]
    generalize S.part k = p at ht ⊢
    obtain ⟨l, _ | slot⟩ := p
    · exact Label.isText_append_iff.mpr ⟨⟨start, hs⟩, ht⟩
    · simpa [slotKey, hs, hd, Label.isText_append_iff] using ht
  inj k k' hk hk' e := by
    have ht := h.isText_part hk
    have ht' := h.isText_part hk'
    have hc := mem_counters_of_part (S := S) (k := k)
    have hc' := mem_counters_of_part (S := S) (k := k')
    apply h.part_inj hk hk'
    rw [keyFor_eq_part, keyFor_eq_part] at e
    generalize S.part k = p at ht hc e ⊢
    generalize S.part k' = p' at ht' hc' e ⊢
    obtain ⟨l, _ | i⟩ := p <;> obtain ⟨l', _ | j⟩ := p'
    · exact Prod.ext (h.counterKey_inj ht ht' e) rfl
    · exact absurd e (h.counterKey_ne_slotKey (hc rfl) ht' j)
    · exact absurd e.symm (h.counterKey_ne_slotKey (hc' rfl) ht i)
    · obtain ⟨hl, hij⟩ := h.slotKey_inj ht ht' e
      exact Prod.ext hl (congrArg some hij)

end Delimited

/-- Counters that lack a character of the delimiter do not hold the delimiter. -/
theorem apart_of_notMem {S : Schema} {d : String} {c : Char} (hd : S.delimiter = .text d)
    (hc : c ∈ d.toList) {counters : List Label}
    (h : ∀ l ∈ counters, ∃ t, l = .text t ∧ c ∉ t.toList) :
    ∀ l ∈ counters, ∃ t, l = .text t ∧ ∀ d, S.delimiter = .text d → ¬ d.toList <:+: t.toList := by
  intro l hl
  obtain ⟨t, rfl, ht⟩ := h l hl
  refine ⟨t, rfl, fun d' hd' hin => ht (hin.subset ?_)⟩
  rwa [← Label.text.inj (hd.symm.trans hd')]

theorem delimited_incidents : incidents.Delimited where
  collection := ⟨_, rfl⟩
  delimiter := ⟨_, rfl, ':', by decide, by decide⟩
  families := by decide
  paths := by decide
  counters := by decide
  apart := apart_of_notMem (c := ':') rfl (by decide) (by
    simp only [List.forall_mem_cons]
    exact ⟨⟨_, rfl, by decide⟩, ⟨_, rfl, by decide⟩, ⟨_, rfl, by decide⟩, nofun⟩)

/-- The keys of the schema of incident reports do not collide. -/
theorem keysDistinct_incidents : incidents.KeysDistinct := delimited_incidents.keysDistinct

end Schema

end GeoWorkload
