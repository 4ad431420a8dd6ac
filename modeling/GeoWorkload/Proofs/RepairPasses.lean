import GeoWorkload.Proofs.CutShort
import GeoWorkload.Proofs.TokenStorage

/-!
# Repair passes that are cut short

What a repair pass comes to, told by keys: every field is given its first value up to a slot in the slots
before that value, and no other key is touched (`Backfilled`).  A pass that a fault cuts short leaves the
store so that filling the leading places still comes to the same (`Resumable`), and so passes may be cut
short any number of times: the one that is carried to its end leaves what a single one would have left
(`backfillLeading_resumes`).
-/

namespace GeoWorkload

open Column MemoryBacked

variable {S : Schema}

/-! ### What a pass comes to -/

/-- Among the slots from zero to `slot`, `i` is the first in which the store holds a text for the path, and this
is the text. -/
structure Schema.FirstAt (S : Schema) (m : MemoryStore) (path : Label) (slot i : Int) (text : String) :
    Prop where
  nonneg : 0 ≤ i
  le : i ≤ slot
  holds : m.get? (S.fieldKey path i) = some text
  first : ∀ j, 0 ≤ j → j < i → m.get? (S.fieldKey path j) = none

/-- What a pass up to a slot makes of a store, and what it tells: texts that were there stay, the slots before
the first text of a field hold that text, no other key is there that was not there before, and the pass tells
whether every field has a text in some slot up to the given one. -/
structure Backfilled (S : Schema) (slot : Int) (m m' : MemoryStore) (complete : Bool) : Prop where
  kept : ∀ key text, m.get? key = some text → m'.get? key = some text
  filled : ∀ p ∈ S.fieldPaths, ∀ i text, S.FirstAt m p slot i text → ∀ j, 0 ≤ j → j < i →
    m'.get? (S.fieldKey p j) = some text
  made : ∀ key, m.get? key = none → m'.get? key ≠ none → ∃ p ∈ S.fieldPaths, ∃ i text j,
    S.FirstAt m p slot i text ∧ 0 ≤ j ∧ j < i ∧ key = S.fieldKey p j
  complete_iff : complete = true ↔ ∀ p ∈ S.fieldPaths, ∃ j, 0 ≤ j ∧ j ≤ slot ∧
    m.get? (S.fieldKey p j) ≠ none

theorem Schema.FirstAt.exists_isFirst {m : MemoryStore} {path : Label} {slot i : Int} {text : String}
    (h : S.FirstAt m path slot i text) : ∃ k : Nat, i = k ∧
      IsFirst (S.column m path) 0 (slot + 1).toNat (some (k, text)) := by
  obtain ⟨k, rfl⟩ := Int.eq_ofNat_of_zero_le h.nonneg
  have hle := h.le
  exact ⟨k, rfl, Nat.zero_le k, by omega, h.holds, fun j _ hj => h.first j (by omega) (by omega)⟩

/-- A text of a field up to a slot shows where the first one stands. -/
theorem Schema.exists_firstAt {m : MemoryStore} {path : Label} {slot : Int} {text : String}
    (h : firstSome (S.column m path) (slot + 1).toNat = some text) :
    ∃ i, S.FirstAt m path slot i text := by
  obtain ⟨k, hk, hcol, hfirst⟩ := firstSome_eq_some_iff.mp h
  refine ⟨k, ⟨by omega, by omega, hcol, fun j hj hjk => ?_⟩⟩
  obtain ⟨j, rfl⟩ := Int.eq_ofNat_of_zero_le hj
  exact hfirst j (by omega)

theorem isSome_firstSome_iff {m : MemoryStore} {path : Label} {slot : Int} :
    (firstSome (S.column m path) (slot + 1).toNat).isSome ↔
      ∃ j, 0 ≤ j ∧ j ≤ slot ∧ m.get? (S.fieldKey path j) ≠ none := by
  rw [Option.isSome_iff_ne_none, Ne, firstSome_eq_none_iff]
  constructor
  · intro h
    by_contra hout
    refine h fun j hj => ?_
    by_contra hcol
    exact hout ⟨j, by omega, by omega, hcol⟩
  · rintro ⟨j, hj, hle, hcol⟩ hnone
    obtain ⟨j, rfl⟩ := Int.eq_ofNat_of_zero_le hj
    exact hcol (hnone j (by omega))

/-- The first text of the leading places is that of a slot after them. -/
theorem Repaired.backfilled {slot : Int} {m m' : MemoryStore} {complete : Bool}
    (h : Repaired S S.fieldPaths (slot + 1).toNat m m')
    (hcomplete : complete = true ↔
      ∀ p ∈ S.fieldPaths, (firstSome (S.column m p) (slot + 1).toNat).isSome) :
    Backfilled S slot m m' complete where
  kept key text hkey := by
    by_cases hof : ∃ p ∈ S.fieldPaths, ∃ j : Nat, j < (slot + 1).toNat ∧ key = S.fieldKey p j
    · obtain ⟨p, hp, j, hj, rfl⟩ := hof
      have hcol : S.column m p j = some text := hkey
      have hlast : lastSome (S.column m p) (j + 1) ≠ none := by simp [lastSome, hcol]
      refine (h.filled p hp j hj).trans ?_
      rw [leadingFilled, if_neg hlast, hcol]
    · rw [h.outside key fun p hp j hj e => hof ⟨p, hp, j, hj, e⟩, hkey]
  filled p hp i text hfirst j hj hji := by
    obtain ⟨k, rfl, hisFirst⟩ := hfirst.exists_isFirst
    obtain ⟨j, rfl⟩ := Int.eq_ofNat_of_zero_le hj
    have hk := hisFirst.2.1
    refine (h.filled p hp j (by omega)).trans ?_
    rw [leadingFilled_of_isFirst hisFirst, if_pos (by omega)]
  made key hnone hsome := by
    by_contra hout
    refine hsome ((h.outside key ?_).trans hnone)
    rintro p hp j hj rfl
    rcases hfirst : firstSome (S.column m p) (slot + 1).toNat with _ | text
    · -- a column without a value is left alone
      refine hsome ((h.filled p hp j hj).trans ?_)
      rw [leadingFilled, hfirst, firstSome_eq_none_iff.mp hfirst j hj, ite_self]
    · obtain ⟨i, hi⟩ := Schema.exists_firstAt hfirst
      refine hout ⟨p, hp, i, text, j, hi, by omega, ?_, rfl⟩
      by_contra hle
      obtain ⟨k, rfl, hisFirst⟩ := hi.exists_isFirst
      refine hsome ((h.filled p hp j hj).trans ?_)
      rw [leadingFilled_of_isFirst hisFirst, if_neg (by omega)]
      exact hnone
  complete_iff := by
    rw [hcomplete]
    exact forall₂_congr fun p _ => isSome_firstSome_iff

/-- What a pass comes to is one thing. -/
theorem Backfilled.unique {slot : Int} {m m' m'' : MemoryStore} {complete complete' : Bool}
    (h : Backfilled S slot m m' complete) (h' : Backfilled S slot m m'' complete') :
    complete' = complete ∧ ∀ key, m''.get? key = m'.get? key := by
  refine ⟨Bool.eq_iff_iff.mpr (h'.complete_iff.trans h.complete_iff.symm), fun key => ?_⟩
  rcases hkey : m.get? key with _ | text
  · by_cases hnone : m'.get? key = none
    · by_contra hne
      obtain ⟨p, hp, i, text, j, hfirst, hj, hji, rfl⟩ := h'.made key hkey (hnone ▸ hne)
      rw [h.filled p hp i text hfirst j hj hji] at hnone
      cases hnone
    · obtain ⟨p, hp, i, text, j, hfirst, hj, hji, rfl⟩ := h.made key hkey hnone
      rw [h.filled p hp i text hfirst j hj hji, h'.filled p hp i text hfirst j hj hji]
  · rw [h.kept key text hkey, h'.kept key text hkey]

/-! ### Going on after a pass that was cut short -/

theorem Repaired.resumable {paths : List Label} {n : Nat} {m m' : MemoryStore}
    (h : Repaired S paths n m m') : Resumable S paths n m m' := by
  refine ⟨fun p hp j hj => ?_, h.outside⟩
  rw [leadingFilled_congr (h.filled p hp) hj, leadingFilled_leadingFilled]

theorem Resumable.repaired {paths : List Label} {n : Nat} {m m' m'' : MemoryStore}
    (h : Resumable S paths n m m') (h' : Repaired S paths n m' m'') : Repaired S paths n m m'' :=
  ⟨fun p hp j hj => (h'.filled p hp j hj).trans (h.filled p hp j hj),
    fun key hkey => (h'.outside key hkey).trans (h.outside key hkey)⟩

/-! ### Passes without faults -/

namespace FaultyStore

variable {α β : Type}

/-- From a store without faults the action gives a value and leaves no faults behind. -/
def Unfailing (x : Action FaultyStore α) : Prop :=
  ∀ s : FaultyStore, s.faults = [] → x.Returns s fun _ s' => s'.faults = []

namespace Unfailing

theorem pure (a : α) : Unfailing (Pure.pure a) := fun _ hs => Action.ensures_pure.mpr hs

theorem log (level : LogLevel) (text : String) : Unfailing (Action.log level text) :=
  fun _ hs => Action.ensures_log.mpr hs

theorem bind {x : Action FaultyStore α} {f : α → Action FaultyStore β} (hx : Unfailing x)
    (hf : ∀ a, Unfailing (f a)) : Unfailing (x >>= f) :=
  fun s hs => (hx s hs).bind (fun a s' hs' => hf a s' hs') fun _ _ h => h

theorem guarded {call : StoreCall} {key : Label} (hkey : key.IsText)
    {f : MemoryStore → Except Failure α × MemoryStore} (hf : ∀ m, ∃ a, (f m).1 = .ok a) :
    Unfailing (FaultyStore.guarded call key f) := by
  obtain ⟨key, rfl⟩ := hkey
  intro s hs
  show (Action.step _).Ensures _ _ _
  rw [Action.ensures_step, hs]
  obtain ⟨a, ha⟩ := hf s.memory
  rcases hm : f s.memory with ⟨r, m⟩
  rw [hm] at ha
  subst ha
  simp [Fault.strike, Label.IsText.keyFault?]

theorem get {key : Label} (hkey : key.IsText) :
    Unfailing (CounterStore.get key : Action FaultyStore (Option String)) :=
  guarded (f := fun m => (.ok (m.get? key), m)) hkey fun _ => ⟨_, rfl⟩

theorem set {key : Label} (hkey : key.IsText) (value : String) :
    Unfailing (CounterStore.set key value : Action FaultyStore Unit) :=
  guarded (f := fun m => (.ok (), m.put key value)) hkey fun _ => ⟨_, rfl⟩

end Unfailing

variable {path : Label} (hS : S.KeysDistinct)
include hS

theorem unfailing_seekForward (hp : path ∈ S.fieldPaths) (n i : Nat) :
    Unfailing (seekForward S path n i) := by
  induction n generalizing i with
  | zero => exact .pure none
  | succ n ih =>
      refine .bind (.get (hS.fieldKey_isText hp i)) fun found => ?_
      cases found with
      | none => exact ih (i + 1)
      | some value => exact .pure _

theorem unfailing_copyDown (hp : path ∈ S.fieldPaths) (value : String) (n : Nat) :
    Unfailing (copyDown S path value n) := by
  induction n with
  | zero => exact .pure ()
  | succ n ih => exact .bind (.set (hS.fieldKey_isText hp n) value) fun _ => ih

theorem unfailing_backfillField (hp : path ∈ S.fieldPaths) (slot : Int) :
    Unfailing (backfillField S slot path) := by
  refine .bind (unfailing_seekForward hS hp _ 0) fun found => ?_
  cases found with
  | none => exact .bind (.log _ _) fun _ => .pure false
  | some first => exact .bind (unfailing_copyDown hS hp first.2 first.1) fun _ => .pure true

theorem unfailing_backfillFields {paths : List Label} (hpaths : ∀ p ∈ paths, p ∈ S.fieldPaths)
    (slot : Int) : Unfailing (backfillFields S slot paths) := by
  induction paths with
  | nil => exact .pure true
  | cons path paths ih =>
      obtain ⟨hp, hrest⟩ := List.forall_mem_cons.mp hpaths
      exact .bind (unfailing_backfillField hS hp slot) fun _ => .bind (ih hrest) fun _ => .pure _

end FaultyStore

/-! ### Passes that are resumed -/

/-- A pass after any passes that were cut short, wherever the faults struck, does what one pass does, and
without faults it is carried to its end. -/
theorem resumed_backfillLeading (hS : S.KeysDistinct) (slot : Int) (cuts : List (List Fault))
    (last : List Fault) (s : FaultyStore) : (FaultyStore.resumed (backfillLeading S slot) cuts last).Ensures s
      (fun complete s' => Backfilled S slot s.memory s'.memory complete)
      fun _ _ => last ≠ [] := by
  have hturn : ∀ s : FaultyStore, (backfillLeading S slot).Ensures s
      (fun _ s' => Resumable S S.fieldPaths (slot + 1).toNat s.memory s'.memory)
      fun _ s' => Resumable S S.fieldPaths (slot + 1).toNat s.memory s'.memory := fun s =>
    (backfillLeading_ensures hS slot s).mono (fun _ _ h => h.1.resumable) fun _ _ h => h.1
  refine FaultyStore.resumed_ensures (Resumable S S.fieldPaths (slot + 1).toNat) (fun _ => .refl _ _ _)
    (fun h h' => h.trans h') hturn cuts last fun s' hcut => ?_
  have hpass := backfillLeading_ensures hS slot { s' with faults := last }
  have hend : (backfillLeading S slot).Ensures { s' with faults := last } (fun _ _ => True)
      fun _ _ => last ≠ [] := by
    by_cases hlast : last = []
    · have hquiet := FaultyStore.unfailing_backfillFields hS (fun _ h => h) slot
        { s' with faults := last } hlast
      exact hquiet.mono (fun _ _ _ => trivial) fun _ _ h => h.elim
    · exact Action.ensures_true.mono (fun _ _ _ => trivial) fun _ _ _ => hlast
  refine (hpass.and hend).mono ?_ fun _ _ h => h.2
  rintro complete s'' ⟨⟨hrepaired, _, hcomplete⟩, _⟩
  refine (hcut.repaired hrepaired).backfilled (hcomplete.trans ?_)
  exact forall₂_congr fun p hp => by
    rw [show firstSome (S.column (memory _) p) _ = _ from hcut.firstSome_column hp]

/-- A repair pass fills the slots before the first value of every field and touches nothing else.  Where
passes are cut short by faults at any of their calls, any number of times, the next pass that is carried to its
end tells the same and leaves the same store as a single pass on what the store held at first; and
without faults it is carried to its end. -/
theorem backfillLeading_resumes (hS : S.KeysDistinct) (slot : Int) (m : MemoryStore) :
    (backfillLeading S slot).Returns m fun complete m' =>
      Backfilled S slot m m' complete ∧
      ∀ (s : FaultyStore) (cuts : List (List Fault)) (last : List Fault), s.memory = m →
        (FaultyStore.resumed (backfillLeading S slot) cuts last).Ensures s
          (fun complete' s' => complete' = complete ∧ ∀ key, s'.memory.get? key = m'.get? key)
          fun _ _ => last ≠ [] := by
  refine (backfillLeading_ensures hS slot m).mono ?_ fun _ _ h => h.2.2
  rintro complete m' ⟨hrepaired, _, hcomplete⟩
  have hdone := hrepaired.backfilled hcomplete
  refine ⟨hdone, fun s cuts last hs => ?_⟩
  subst hs
  exact (resumed_backfillLeading hS slot cuts last s).mono (fun _ _ h => hdone.unique h) fun _ _ h => h

/-- A store with types in the slots two and four and an id in slot one. -/
def ungroomedStore : FaultyStore where
  memory := ((MemoryStore.empty.put (Schema.incidents.fieldKey "type" 2) "a").put
    (Schema.incidents.fieldKey "type" 4) "b").put (Schema.incidents.fieldKey "_id" 1) "7"

/-- The first pass is cut short after one copy of the type, the second one when it reads its third text. -/
theorem backfillLeading_resumes_ungroomedStore :
    (FaultyStore.resumed (backfillLeading .incidents 3)
      [[⟨.set, none, 1, "refused"⟩], [⟨.get, none, 2, "lost"⟩]] []).Returns ungroomedStore fun complete s' =>
        complete = false ∧ s'.memory.get? (Schema.incidents.fieldKey "type" 0) = some "a" := by
  obtain ⟨complete, _, hdone, hresumes⟩ := (backfillLeading_resumes Schema.keysDistinct_incidents 3
    ungroomedStore.memory).exists_outcome
  refine (hresumes ungroomedStore _ [] rfl).mono ?_ fun _ _ h => h rfl
  rintro _ s' ⟨rfl, hsame⟩
  have hfirst : Schema.incidents.FirstAt ungroomedStore.memory "type" 3 2 "a" := by
    refine ⟨by decide, by decide, rfl, fun j hj hlt => ?_⟩
    obtain rfl | rfl : j = 0 ∨ j = 1 := by omega
    · rfl
    · rfl
  have hmissing : ∀ j, 0 ≤ j → j ≤ 3 → ungroomedStore.memory.get?
      (Schema.incidents.fieldKey Schema.incidents.coordinatesPath j) = none := by
    intro j hj hle
    obtain rfl | rfl | rfl | rfl : j = 0 ∨ j = 1 ∨ j = 2 ∨ j = 3 := by omega
    all_goals rfl
  constructor
  · refine Bool.eq_false_iff.mpr fun h => ?_
    obtain ⟨j, hj, hle, hget⟩ := hdone.complete_iff.mp h Schema.incidents.coordinatesPath (by decide)
    exact hget (hmissing j hj hle)
  · rw [hsame]
    exact hdone.filled "type" (by decide) 2 "a" hfirst 0 (by decide) (by decide)

end GeoWorkload
