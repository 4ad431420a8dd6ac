import GeoWorkload.Proofs.StoreKeys
import Mathlib.Data.List.Nodup

/-!
# All keys of a schema

The keys that a schema has for its counters and for the documents in some slots (`Schema.keys`).  Each of
them is the key for one purpose (`Schema.keyFor`), and no two purposes in the list are the same; so where the
keys do not collide, no two keys in the list are the same either (`keys_apart`).
-/

namespace GeoWorkload

/-- The slot a key is about, where it is about one. -/
def StoreKey.slot? : StoreKey → Option Int
  | .total | .inserts | .stored => none
  | .docId slot | .body slot | .field _ slot => some slot

namespace Schema

/-- The keys of the counters and of the documents in some slots. -/
def keys (S : Schema) (slots : List Int) : List Label :=
  [S.insertKey, S.storedKey, S.totalKey] ++
    slots.flatMap fun slot => S.docIdKey slot :: S.bodyKey slot :: S.fieldPaths.map (S.fieldKey · slot)

/-- What the keys of the document in a slot are for. -/
def slotPurposes (S : Schema) (slot : Int) : List StoreKey :=
  .docId slot :: .body slot :: S.fieldPaths.map (.field · slot)

/-- What the keys of the counters and of the documents in some slots are for. -/
def purposes (S : Schema) (slots : List Int) : List StoreKey :=
  [.inserts, .stored, .total] ++ slots.flatMap S.slotPurposes

theorem keys_eq_map_keyFor (S : Schema) (slots : List Int) :
    S.keys slots = (S.purposes slots).map S.keyFor := by
  simp [keys, purposes, slotPurposes, keyFor, List.map_flatMap, Function.comp_def]

theorem mem_slotPurposes {S : Schema} {slot : Int} {k : StoreKey} :
    k ∈ S.slotPurposes slot ↔
      k = .docId slot ∨ k = .body slot ∨ ∃ p ∈ S.fieldPaths, .field p slot = k := by
  simp [slotPurposes]

theorem uses_of_mem_purposes {S : Schema} {slots : List Int} {k : StoreKey}
    (h : k ∈ S.purposes slots) : S.Uses k := by
  rcases List.mem_append.mp h with h | h
  · simp only [List.mem_cons, List.not_mem_nil, or_false] at h
    rcases h with rfl | rfl | rfl <;> trivial
  · obtain ⟨slot, _, h⟩ := List.mem_flatMap.mp h
    rcases mem_slotPurposes.mp h with rfl | rfl | ⟨p, hp, rfl⟩
    · trivial
    · trivial
    · exact hp

theorem slot?_of_mem_slotPurposes {S : Schema} {slot : Int} {k : StoreKey}
    (h : k ∈ S.slotPurposes slot) : k.slot? = some slot := by
  rcases mem_slotPurposes.mp h with rfl | rfl | ⟨p, _, rfl⟩ <;> rfl

theorem nodup_slotPurposes {S : Schema} (hpaths : S.fieldPaths.Nodup) (slot : Int) :
    (S.slotPurposes slot).Nodup := by
  have hfields : (S.fieldPaths.map (StoreKey.field · slot)).Nodup :=
    hpaths.map fun p q h => (StoreKey.field.inj h).1
  simp [slotPurposes, hfields]

theorem nodup_purposes {S : Schema} (hpaths : S.fieldPaths.Nodup) {slots : List Int}
    (hslots : slots.Nodup) : (S.purposes slots).Nodup := by
  have hflat : (slots.flatMap S.slotPurposes).Nodup := by
    refine List.nodup_flatMap.mpr ⟨fun slot _ => nodup_slotPurposes hpaths slot, ?_⟩
    refine hslots.imp fun hne => List.disjoint_left.mpr fun k hk hk' => hne ?_
    exact Option.some.inj ((slot?_of_mem_slotPurposes hk).symm.trans (slot?_of_mem_slotPurposes hk'))
  refine List.nodup_append.mpr ⟨by decide, hflat, fun k hk k' hk' e => ?_⟩
  obtain ⟨slot, _, hk'⟩ := List.mem_flatMap.mp hk'
  have hslot := slot?_of_mem_slotPurposes (e ▸ hk')
  simp only [List.mem_cons, List.not_mem_nil, or_false] at hk
  rcases hk with rfl | rfl | rfl <;> cases hslot

/-- The keys of the counters and of the documents in any slots, also in negative ones, are texts that differ
wherever the counter, the family, the path or the slot differs, in every schema that is delimited and has
different paths: the path and the slot of a field key can be told from the key, whatever the paths hold.
The schema of incident reports is such a schema. -/
theorem keys_apart :
    (∀ S : Schema, S.Delimited → S.fieldPaths.Nodup →
      (∀ slots : List Int, slots.Nodup → (S.keys slots).Nodup ∧ ∀ key ∈ S.keys slots, key.IsText) ∧
      ∀ (p q : Label) (i j : Int), p.IsText → q.IsText → S.fieldKey p i = S.fieldKey q j →
        p = q ∧ i = j) ∧
    incidents.Delimited ∧ incidents.fieldPaths.Nodup := by
  refine ⟨fun S h hpaths => ⟨fun slots hslots => ?_, fun p q i j hp hq => h.slotKey_inj hp hq⟩,
    delimited_incidents, by decide⟩
  have hdistinct := h.keysDistinct
  rw [keys_eq_map_keyFor]
  constructor
  · exact (nodup_purposes hpaths hslots).map_on fun k hk k' hk' =>
      hdistinct.inj k k' (uses_of_mem_purposes hk) (uses_of_mem_purposes hk')
  · intro key hkey
    obtain ⟨k, hk, rfl⟩ := List.mem_map.mp hkey
    exact hdistinct.isText k (uses_of_mem_purposes hk)

/-- A schema whose collection and paths hold the delimiter, which ends in a digit. -/
def tagged : Schema where
  name := "tagged"
  collection := "c-:1"
  delimiter := "-:1"
  idField := "type-:1"
  stringFields := ["type", "type-:1-1"]
  propertyIntFields := ["1", "1-:1"]

theorem delimited_tagged : tagged.Delimited where
  collection := ⟨_, rfl⟩
  delimiter := ⟨_, rfl, ':', by decide, by decide⟩
  families := by decide
  paths := by decide
  counters := by decide
  apart := apart_of_notMem (c := ':') rfl (by decide) (by
    simp only [List.forall_mem_cons]
    exact ⟨⟨_, rfl, by decide⟩, ⟨_, rfl, by decide⟩, ⟨_, rfl, by decide⟩, nofun⟩)

theorem keys_apart_tagged : (tagged.keys [-1, 1, 11]).Nodup ∧
    tagged.fieldKey "type" (-1) ≠ tagged.fieldKey "type-:1-1" 1 := by
  obtain ⟨hkeys, hfields⟩ := keys_apart.1 tagged delimited_tagged (by decide)
  exact ⟨(hkeys [-1, 1, 11] (by decide)).1, fun h =>
    absurd (hfields "type" "type-:1-1" (-1) 1 ⟨_, rfl⟩ ⟨_, rfl⟩ h).2 (by decide)⟩

end Schema

end GeoWorkload
