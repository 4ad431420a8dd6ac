import GeoWorkload.Proofs.TokenStorage
import Mathlib.Data.List.Forall2

/-!
# Which tokens a slot keeps

A slot keeps each of its tokens, and where one is missing the text of the nearest slot before it that the store
held before the call (`Inherited`).  The keys that are written belong to the slot and to the paths of the
tokens, so no token bears on what is kept for another one, and the order of the tokens does not matter
(`storeTokens_inherits`).
-/

namespace GeoWorkload

open Column MemoryBacked

/-- What a slot keeps for a path: its own token; without one the text that the store holds for the path in the
greatest slot from zero to before this one; and nothing if there is none. -/
structure Inherited (S : Schema) (m : MemoryStore) (slot : Int) (path : Label)
    (token kept : Option String) : Prop where
  own : ∀ text, token = some text → kept = some text
  earlier : token = none → ∀ (j : Int) (text : String), 0 ≤ j → j < slot →
    m.get? (S.fieldKey path j) = some text →
    (∀ k, j < k → k < slot → m.get? (S.fieldKey path k) = none) → kept = some text
  absent : token = none → (∀ j, 0 ≤ j → j < slot → m.get? (S.fieldKey path j) = none) → kept = none

variable {σ : Type} [CounterStore σ] [MemoryBacked σ] {S : Schema}

theorem inherited_keptFor (S : Schema) (m : MemoryStore) (slot : Int) (path : Label)
    (token : Option String) : Inherited S m slot path token (S.keptFor m slot path token) where
  own := by
    rintro text rfl
    rfl
  earlier := by
    rintro rfl j text hj hlt hget hlater
    obtain ⟨j, rfl⟩ := Int.eq_ofNat_of_zero_le hj
    refine lastSome_eq_some_iff.mpr ⟨j, by omega, hget, fun k hjk hk => ?_⟩
    exact hlater k (by omega) (by omega)
  absent := by
    rintro rfl hnone
    exact lastSome_eq_none_iff.mpr fun j hj => hnone j (by omega) (by omega)

namespace TokensKept

variable {slot : Int} {tokens tokens' : Tokens} {m m' m'' : MemoryStore}

/-- The key of a token holds what is kept for the token. -/
theorem get?_of_keptFor (h : TokensKept S slot tokens m m') {e : Label × Option String} (he : e ∈ tokens)
    {text : String} (hkept : S.keptFor m slot e.1 e.2 = some text) :
    m'.get? (S.fieldKey e.1 slot) = some text := by
  rw [h.kept e he, hkept]
  rfl

/-- A key under which no text is kept is left alone, also where it is the key of a token. -/
theorem get?_of_ne (h : TokensKept S slot tokens m m') {key : Label}
    (hkey : ∀ e ∈ tokens, (S.keptFor m slot e.1 e.2).isSome → key ≠ S.fieldKey e.1 slot) :
    m'.get? key = m.get? key := by
  by_cases hof : ∃ e ∈ tokens, key = S.fieldKey e.1 slot
  · obtain ⟨e, he, rfl⟩ := hof
    have hnone : S.keptFor m slot e.1 e.2 = none :=
      Option.not_isSome_iff_eq_none.mp fun hsome => hkey e he hsome rfl
    rw [h.kept e he, hnone]
    rfl
  · exact h.outside key fun e he hkey => hof ⟨e, he, hkey⟩

/-- Keeping the same tokens in another order leaves the same texts. -/
theorem get?_of_perm (h : TokensKept S slot tokens m m') (h' : TokensKept S slot tokens' m m'')
    (hperm : tokens'.Perm tokens) (key : Label) : m''.get? key = m'.get? key := by
  by_cases hof : ∃ e ∈ tokens, key = S.fieldKey e.1 slot
  · obtain ⟨e, he, rfl⟩ := hof
    rw [h.kept e he, h'.kept e (hperm.mem_iff.mpr he)]
  · rw [h.outside key fun e he hkey => hof ⟨e, he, hkey⟩,
      h'.outside key fun e he hkey => hof ⟨e, hperm.mem_iff.mp he, hkey⟩]

end TokensKept

/-- Keeping the tokens of a slot gives each path what the slot inherits for it, as the store was before the
call, and puts the texts among that under the field keys of the slot.  Nothing else in the store changes, and
tokens in another order come to the same. -/
theorem storeTokens_inherits (hσ : ¬ mayRefuse σ) (hS : S.KeysDistinct) (slot : Int) {tokens : Tokens}
    (hpaths : ∀ e ∈ tokens, e.1 ∈ S.fieldPaths) (hnodup : (tokens.map (·.1)).Nodup) (s : σ) :
    (storeTokens S slot tokens).Returns s fun kept s' =>
      List.Forall₂ (fun e k => k.1 = e.1 ∧ Inherited S (memory s) slot e.1 e.2 k.2) tokens kept ∧
      (∀ k ∈ kept, ∀ text, k.2 = some text →
        (memory s').get? (S.fieldKey k.1 slot) = some text) ∧
      (∀ key, (∀ k ∈ kept, k.2.isSome → key ≠ S.fieldKey k.1 slot) →
        (memory s').get? key = (memory s).get? key) ∧
      ∀ tokens', tokens'.Perm tokens → (storeTokens S slot tokens').Returns s fun kept' s'' =>
        kept'.Perm kept ∧ ∀ key, (memory s'').get? key = (memory s').get? key := by
  refine (storeTokens_ensures hS slot hpaths hnodup s).mono ?_ fun _ _ h => hσ h.2
  rintro kept s' ⟨rfl, htokens⟩
  refine ⟨?_, ?_, ?_, ?_⟩
  · rw [List.forall₂_map_right_iff, List.forall₂_same]
    exact fun e _ => ⟨rfl, inherited_keptFor S _ slot e.1 e.2⟩
  · intro k hk text htext
    obtain ⟨e, he, rfl⟩ := List.mem_map.mp hk
    exact htokens.get?_of_keptFor he htext
  · intro key hkey
    exact htokens.get?_of_ne fun e he => hkey _ (List.mem_map_of_mem he)
  · intro tokens' hperm
    have hpaths' : ∀ e ∈ tokens', e.1 ∈ S.fieldPaths := fun e he => hpaths e (hperm.mem_iff.mp he)
    have hnodup' := (hperm.map (·.1)).nodup_iff.mpr hnodup
    refine (storeTokens_ensures hS slot hpaths' hnodup' s).mono ?_ fun _ _ h => hσ h.2
    rintro kept' s'' ⟨rfl, htokens'⟩
    exact ⟨hperm.map _, htokens.get?_of_perm htokens' hperm⟩

/-- A store with the types of the documents in the slots zero, one and four. -/
def gappedStore : MemoryStore :=
  ((MemoryStore.empty.put (Schema.incidents.fieldKey "type" 0) "a").put
    (Schema.incidents.fieldKey "type" 1) "b").put (Schema.incidents.fieldKey "type" 4) "c"

theorem storeTokens_inherits_gappedStore :
    (storeTokens .incidents 3 [(.text "type", none), (.text "_id", some "7")]).Returns gappedStore
      fun kept s' => kept = [(.text "type", some "b"), (.text "_id", some "7")] ∧
        s'.get? (Schema.incidents.fieldKey "type" 3) = some "b" ∧
        s'.get? (Schema.incidents.fieldKey "type" 4) = some "c" := by
  refine (storeTokens_inherits (σ := MemoryStore) id Schema.keysDistinct_incidents 3 (by decide)
    (by decide) gappedStore).mono ?_ fun _ _ h => h
  rintro kept s' ⟨hall, hheld, hother, _⟩
  obtain ⟨⟨p, v⟩, rest, ⟨rfl, htype⟩, hrest, rfl⟩ := List.forall₂_cons_left_iff.mp hall
  obtain ⟨⟨q, w⟩, tail, ⟨rfl, hid⟩, htail, rfl⟩ := List.forall₂_cons_left_iff.mp hrest
  obtain rfl := List.forall₂_nil_left_iff.mp htail
  obtain rfl : w = some "7" := hid.own "7" rfl
  -- the last type before slot three stands in slot one
  obtain rfl : v = some "b" := by
    refine htype.earlier rfl 1 "b" (by decide) (by decide) (by rfl) fun k hk hk' => ?_
    obtain rfl : k = 2 := by omega
    rfl
  refine ⟨rfl, hheld _ List.mem_cons_self "b" rfl, ?_⟩
  rw [show s'.get? _ = _ from hother _ (by decide)]
  rfl

end GeoWorkload
