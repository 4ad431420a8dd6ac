import GeoWorkload.Proofs.CutShort
import GeoWorkload.Proofs.Decimals

/-!
# Seeding that is cut short

Seeding adds the three counters of a schema in turn, and a counter that is there is left alone.  So what a seeding
that was cut short leaves is on the way to what a whole one makes (`MemoryStore.Underway`), and seeding again
comes to the same however often it was cut short (`MemoryStore.Underway.withCounters_eq`).

This holds of a store that adds a key in one step and of one that looks for the key and then sets it, since either
does to its memory what adding in one step does (`CounterStore.AddsTo`).  The main statement puts both together:
seeding adds exactly the counters that are missing, a second seeding changes nothing, and one that is carried to its
end after others that were not leaves what a single one leaves (`CounterStore.seedCounters_restarts`).
-/

namespace GeoWorkload

/-! ### Keys that are added -/

theorem Label.same_congr_right (a : Label) {b c : Label} (h : b.same c = true) : a.same b = a.same c := by
  rw [same_comm a b, same_comm a c, same_congr h]

theorem LabelMap.get?_of_same {α : Type} (m : LabelMap α) {key other : Label} (h : key.same other = true) :
    m.get? key = m.get? other := by
  unfold get?
  congr 2
  funext entry
  exact Label.same_congr_right _ h

namespace MemoryStore

/-- Labels that are the same key have the same text. -/
theorem get?_of_same (m : MemoryStore) {key other : Label} (h : key.same other = true) :
    m.get? key = m.get? other := by
  cases key with
  | text k => rw [Label.text_same_iff.mp h]
  | _ =>
      cases other with
      | text o => cases Label.same_text_iff.mp h
      | _ => exact m.others.get?_of_same h

/-- The store has a text under the key. -/
def Has (m : MemoryStore) (key : Label) : Prop := (m.get? key).isSome

theorem add_of_has {m : MemoryStore} {key : Label} (h : m.Has key) (value : String) :
    m.add key value = (false, m) := by
  obtain ⟨text, htext⟩ := Option.isSome_iff_exists.mp h
  rw [add, htext]

/-- Adding a key gives it the text if it has none. -/
theorem get?_add_or (m : MemoryStore) (key other : Label) (value : String) :
    (m.add key value).2.get? other = (m.get? other).or (if key.same other then some value else none) := by
  unfold add
  by_cases hsame : key.same other = true
  · rw [if_pos hsame, ← m.get?_of_same hsame]
    rcases hget : m.get? key with _ | text
    · exact (get?_put m key other value).trans (if_pos hsame)
    · exact (m.get?_of_same hsame).symm.trans hget
  · rw [if_neg hsame, Option.or_none]
    split
    · rfl
    · exact (get?_put m key other value).trans (if_neg hsame)

theorem Has.add {m : MemoryStore} {other : Label} (h : m.Has other) (key : Label) (value : String) :
    (m.add key value).2.Has other := by
  unfold Has
  rw [get?_add_or, Option.isSome_or, h, Bool.true_or]

theorem has_add (m : MemoryStore) (key : Label) (value : String) : (m.add key value).2.Has key := by
  unfold Has
  rw [get?_add_or, if_pos (Label.same_self key), Option.isSome_or, Option.isSome_some, Bool.or_true]

end MemoryStore

/-! ### The counters of a schema -/

/-- The labels of the three counters are keys, and three different ones. -/
structure Schema.CountersApart (S : Schema) : Prop where
  totalKey : S.totalKey.keyFault? = none
  insertKey : S.insertKey.keyFault? = none
  storedKey : S.storedKey.keyFault? = none
  total_insert : S.totalKey.same S.insertKey = false
  total_stored : S.totalKey.same S.storedKey = false
  insert_stored : S.insertKey.same S.storedKey = false

namespace MemoryStore

variable (S : Schema) (total start : Int)

/-- The store with the number of all documents added. -/
def withTotal (m : MemoryStore) : MemoryStore := (m.add S.totalKey (Numeral.decimal total)).2

/-- The store with the number of the last insert added, which stands behind those of all documents. -/
def withInserts (m : MemoryStore) : MemoryStore := (m.add S.insertKey (Numeral.decimal (total + 1 + start))).2

/-- The store with the number of stored documents added. -/
def withStored (m : MemoryStore) : MemoryStore := (m.add S.storedKey (Numeral.decimal 0)).2

/-- The store with the three counters added. -/
def withCounters (m : MemoryStore) : MemoryStore :=
  ((m.withTotal S total).withInserts S total start).withStored S

/-- What a seeding that was cut short may leave: no counter added, the first or the first two. -/
inductive Underway (m : MemoryStore) : MemoryStore → Prop where
  | none : Underway m m
  | total : Underway m (m.withTotal S total)
  | inserts : Underway m ((m.withTotal S total).withInserts S total start)

/-- The store has all three counters. -/
structure HasCounters (m : MemoryStore) : Prop where
  total : m.Has S.totalKey
  inserts : m.Has S.insertKey
  stored : m.Has S.storedKey

variable {S total start} {m m' : MemoryStore}

theorem withTotal_of_has (h : m.Has S.totalKey) : m.withTotal S total = m :=
  congrArg Prod.snd (add_of_has h _)

theorem withInserts_of_has (h : m.Has S.insertKey) : m.withInserts S total start = m :=
  congrArg Prod.snd (add_of_has h _)

theorem withStored_of_has (h : m.Has S.storedKey) : m.withStored S = m :=
  congrArg Prod.snd (add_of_has h _)

theorem HasCounters.withCounters_eq (h : m.HasCounters S) : m.withCounters S total start = m := by
  rw [withCounters, withTotal_of_has h.total, withInserts_of_has h.inserts, withStored_of_has h.stored]

theorem hasCounters_withCounters (S : Schema) (total start : Int) (m : MemoryStore) :
    (m.withCounters S total start).HasCounters S where
  total := ((m.has_add _ _).add _ _).add _ _
  inserts := (has_add _ _ _).add _ _
  stored := has_add _ _ _

/-- Seeding goes on from where it was cut short. -/
theorem Underway.withCounters_eq (h : Underway S total start m m') :
    m'.withCounters S total start = m.withCounters S total start := by
  cases h with
  | none => rfl
  | total =>
      have htotal : (m.withTotal S total).Has S.totalKey := has_add _ _ _
      rw [withCounters, withTotal_of_has htotal]
      rfl
  | inserts =>
      have htotal : ((m.withTotal S total).withInserts S total start).Has S.totalKey := (has_add _ _ _).add _ _
      have hinserts : ((m.withTotal S total).withInserts S total start).Has S.insertKey := has_add _ _ _
      rw [withCounters, withTotal_of_has htotal, withInserts_of_has hinserts]
      rfl

/-- Nothing is on the way where the counters are there. -/
theorem Underway.eq_of_hasCounters (h : Underway S total start m m') (hm : m.HasCounters S) : m' = m := by
  cases h with
  | none => rfl
  | total => exact withTotal_of_has hm.total
  | inserts => rw [withTotal_of_has hm.total, withInserts_of_has hm.inserts]

end MemoryStore

/-- What seeding makes of a store: texts that are there stay, the counters that are missing are added with the
numbers that they start from, and nothing else is. -/
structure Schema.SeedsTo (S : Schema) (total start : Int) (m m' : MemoryStore) : Prop where
  keeps : ∀ key text, m.get? key = some text → m'.get? key = some text
  addsTotal : m.get? S.totalKey = none → m'.get? S.totalKey = some (Numeral.decimal total)
  addsInserts : m.get? S.insertKey = none → m'.get? S.insertKey = some (Numeral.decimal (total + 1 + start))
  addsStored : m.get? S.storedKey = none → m'.get? S.storedKey = some (Numeral.decimal 0)
  addsNoOther : ∀ key, S.totalKey.same key = false → S.insertKey.same key = false →
    S.storedKey.same key = false → m'.get? key = m.get? key

theorem MemoryStore.get?_withCounters (S : Schema) (total start : Int) (m : MemoryStore) (key : Label) :
    (m.withCounters S total start).get? key =
      (((m.get? key).or (if S.totalKey.same key then some (Numeral.decimal total) else none)).or
        (if S.insertKey.same key then some (Numeral.decimal (total + 1 + start)) else none)).or
          (if S.storedKey.same key then some (Numeral.decimal 0) else none) := by
  rw [withCounters, withStored, get?_add_or, withInserts, get?_add_or, withTotal, get?_add_or]

theorem Schema.CountersApart.seedsTo {S : Schema} (hS : S.CountersApart) (total start : Int) (m : MemoryStore) :
    S.SeedsTo total start m (m.withCounters S total start) where
  keeps key text hkey := by
    rw [MemoryStore.get?_withCounters, hkey]
    rfl
  addsTotal hnone := by
    rw [MemoryStore.get?_withCounters, hnone, Label.same_self]
    rfl
  addsInserts hnone := by
    rw [MemoryStore.get?_withCounters, hnone, hS.total_insert, Label.same_self]
    rfl
  addsStored hnone := by
    rw [MemoryStore.get?_withCounters, hnone, hS.total_stored, hS.insert_stored, Label.same_self]
    rfl
  addsNoOther key htotal hinserts hstored := by
    rw [MemoryStore.get?_withCounters, htotal, hinserts, hstored]
    simp only [Bool.false_eq_true, if_false, Option.or_none]

namespace CounterStore

/-! ### Stores that add keys -/

variable {σ : Type} [CounterStore σ]

/-- Why adding an integer fails: a call is refused, which a quiet store does not do, or the integer is too long to be
written. -/
inductive AddFault (quiet : Prop) (z : Int) : Failure → Prop where
  | refused (message : String) (h : ¬ quiet) : AddFault quiet z (.callRefused message)
  | unwritable (h : ¬ Numeral.IsWritable z) : AddFault quiet z (.number .unwritable)

theorem AddFault.mono {quiet quiet' : Prop} {z : Int} {e : Failure} (h : AddFault quiet' z e)
    (hquiet : quiet → quiet') : AddFault quiet z e := by
  cases h with
  | refused message hnoisy => exact .refused message fun hq => hnoisy (hquiet hq)
  | unwritable hlong => exact .unwritable hlong

/-- Adding a key does to the memory of the store what adding it in one step does, or a call is refused and the memory
stays as it was; a quiet store refuses no call and stays quiet. -/
def AddsTo (memory : σ → MemoryStore) (quiet : σ → Prop) : Prop :=
  ∀ (key : Label) (value : String) (s : σ), key.keyFault? = none → (add key value).Ensures s
    (fun _ s' => memory s' = ((memory s).add key value).2 ∧ (quiet s → quiet s'))
    fun e s' => memory s' = memory s ∧ ¬ quiet s ∧ ∃ message, e = .callRefused message

namespace AddsTo

variable {memory : σ → MemoryStore} {quiet : σ → Prop} (h : AddsTo memory quiet)
include h

theorem addInteger {key : Label} (hkey : key.keyFault? = none) (z : Int) (s : σ) : (addInteger key z).Ensures s
    (fun _ s' => memory s' = ((memory s).add key (Numeral.decimal z)).2 ∧ (quiet s → quiet s'))
    fun e s' => memory s' = memory s ∧ AddFault (quiet s) z e := by
  unfold CounterStore.addInteger
  rcases Numeral.writeInteger_cases z with ⟨_, htext⟩ | ⟨hlong, htext⟩
  · rw [htext]
    refine (Action.ends_ofExcept _).bind_ensures ((h key _ s hkey).bind (fun _ s' hs' => ?_) fun e s' he => ?_)
    · exact Action.ensures_pure.mpr hs'
    · obtain ⟨hs', hnoisy, message, rfl⟩ := he
      exact ⟨hs', .refused message hnoisy⟩
  · rw [htext]
    exact (Action.ends_ofExcept _).bind_error.ensures ⟨rfl, .unwritable hlong⟩

/-- Seeding adds the counters, or it is cut short on the way. -/
theorem seedCounters {S : Schema} (hS : S.CountersApart) (total start : Int) (s : σ) :
    (seedCounters S total start).Ensures s
      (fun _ s' => memory s' = (memory s).withCounters S total start)
      fun e s' => (memory s).Underway S total start (memory s') ∧
        ∃ z, (z = total ∨ z = total + 1 + start ∨ z = 0) ∧ AddFault (quiet s) z e := by
  unfold CounterStore.seedCounters
  refine (h.addInteger hS.totalKey total s).bind (fun _ s₁ ⟨hs₁, hquiet₁⟩ => ?_) fun e s' ⟨hs', he⟩ => ?_
  · refine (h.addInteger hS.insertKey (total + 1 + start) s₁).bind (fun _ s₂ ⟨hs₂, hquiet₂⟩ => ?_)
      fun e s' ⟨hs', he⟩ => ?_
    · refine (h.addInteger hS.storedKey 0 s₂).mono (fun _ s' ⟨hs', _⟩ => ?_) fun e s' ⟨hs', he⟩ => ?_
      · rw [hs', hs₂, hs₁]
        rfl
      · rw [hs', hs₂, hs₁]
        exact ⟨.inserts, 0, Or.inr (Or.inr rfl), he.mono fun hs => hquiet₂ (hquiet₁ hs)⟩
    · rw [hs', hs₁]
      exact ⟨.total, _, Or.inr (Or.inl rfl), he.mono hquiet₁⟩
  · rw [hs']
    exact ⟨.none, _, Or.inl rfl, he⟩

/-- Where the counters are there, seeding changes nothing. -/
theorem seedCounters_of_hasCounters {S : Schema} (hS : S.CountersApart) (total start : Int) {s : σ}
    (hs : (memory s).HasCounters S) : (CounterStore.seedCounters S total start).Ensures s
      (fun _ s' => memory s' = memory s) fun _ s' => memory s' = memory s :=
  (h.seedCounters hS total start s).mono (fun _ _ hs' => hs'.trans hs.withCounters_eq)
    fun _ _ hs' => hs'.1.eq_of_hasCounters hs

end AddsTo

end CounterStore

theorem MemoryStore.addsTo : CounterStore.AddsTo (σ := MemoryStore) id fun _ => True := by
  intro key value m hkey
  show (MemoryStore.under key _).Ensures _ _ _
  rw [MemoryStore.under, hkey]
  exact Action.ensures_step.mpr ⟨rfl, id⟩

namespace FaultyStore

/-- No fault waits for a call. -/
def IsQuiet (s : FaultyStore) : Prop := s.faults = []

/-- A call that only the store could refuse does what the memory does, or is refused. -/
theorem guarded_ensures {α : Type} (call : StoreCall) {key : Label} (hkey : key.keyFault? = none)
    (f : MemoryStore → α × MemoryStore) (s : FaultyStore) :
    (guarded call key fun m => (.ok (f m).1, (f m).2)).Ensures s
      (fun a s' => a = (f s.memory).1 ∧ s'.memory = (f s.memory).2 ∧ (s.IsQuiet → s'.IsQuiet))
      fun e s' => s'.memory = s.memory ∧ ¬ s.IsQuiet ∧ ∃ message, e = .callRefused message := by
  have hstep : guarded call key (fun m => (.ok (f m).1, (f m).2)) = Action.step fun s =>
      match Fault.strike call key s.faults with
      | (some message, faults) => (.error (.callRefused message), { s with faults })
      | (none, faults) => (.ok (f s.memory).1, { s with memory := (f s.memory).2, faults }) := by
    unfold guarded
    split
    · cases hkey
    · rw [hkey]
      congr 1
      funext s
      rcases Fault.strike call key s.faults with ⟨_ | message, faults⟩ <;> rfl
  rw [hstep]
  refine Action.ensures_step.mpr ?_
  rcases hstrike : Fault.strike call key s.faults with ⟨_ | message, faults⟩
  · refine ⟨rfl, rfl, fun hquiet => ?_⟩
    rw [hquiet] at hstrike
    cases hstrike
    rfl
  · refine ⟨rfl, fun hquiet => ?_, message, rfl⟩
    rw [hquiet] at hstrike
    cases hstrike

theorem get_ensures {key : Label} (hkey : key.keyFault? = none) (s : FaultyStore) : (get key).Ensures s
    (fun found s' => found = s.memory.get? key ∧ s'.memory = s.memory ∧ (s.IsQuiet → s'.IsQuiet))
    fun e s' => s'.memory = s.memory ∧ ¬ s.IsQuiet ∧ ∃ message, e = .callRefused message :=
  guarded_ensures .get hkey (fun m => (m.get? key, m)) s

theorem set_ensures {key : Label} (hkey : key.keyFault? = none) (value : String) (s : FaultyStore) :
    (set key value).Ensures s
      (fun _ s' => s'.memory = s.memory.put key value ∧ (s.IsQuiet → s'.IsQuiet))
      fun e s' => s'.memory = s.memory ∧ ¬ s.IsQuiet ∧ ∃ message, e = .callRefused message :=
  (guarded_ensures .set hkey (fun m => ((), m.put key value)) s).mono (fun _ _ h => h.2) fun _ _ h => h

theorem addsTo : CounterStore.AddsTo FaultyStore.memory IsQuiet := by
  intro key value s hkey
  show (CounterStore.addByGetAndSet get set key value).Ensures _ _ _
  unfold CounterStore.addByGetAndSet MemoryStore.add
  refine (get_ensures hkey s).bind (fun found s₁ ⟨hfound, hs₁, hquiet₁⟩ => ?_) fun _ _ he => he
  rw [← hfound]
  cases found with
  | some text => exact Action.ensures_pure.mpr ⟨hs₁, hquiet₁⟩
  | none =>
      refine (set_ensures hkey value s₁).bind (fun _ s' ⟨hs', hquiet'⟩ => ?_) fun e s' ⟨hs', hnoisy, he⟩ => ?_
      · rw [hs₁] at hs'
        exact Action.ensures_pure.mpr ⟨hs', fun hs => hquiet' (hquiet₁ hs)⟩
      · exact ⟨hs'.trans hs₁, fun hs => hnoisy (hquiet₁ hs), he⟩

end FaultyStore

theorem Schema.countersApart_incidents : Schema.incidents.CountersApart := by
  constructor <;> rfl

namespace CounterStore

section resumed

variable {S : Schema} (hS : S.CountersApart) (total start : Int)
include hS

/-- However seeding ends, what it leaves is on the way to the same. -/
theorem seedCounters_leads (s : FaultyStore) : (seedCounters S total start).Ensures s
    (fun _ s' => s'.memory.withCounters S total start = s.memory.withCounters S total start)
    fun _ s' => s'.memory.withCounters S total start = s.memory.withCounters S total start := by
  refine (FaultyStore.addsTo.seedCounters hS total start s).mono (fun _ s' hs' => ?_)
    fun _ s' hs' => hs'.1.withCounters_eq
  rw [hs', (MemoryStore.hasCounters_withCounters S total start _).withCounters_eq]

/-- A seeding that is carried to its end after others that were cut short leaves what a single one leaves. -/
theorem resumed_seedCounters (cuts : List (List Fault)) (last : List Fault) (s : FaultyStore) :
    (FaultyStore.resumed (seedCounters S total start) cuts last).Ensures s
      (fun _ s' => s'.memory = s.memory.withCounters S total start)
      fun e _ => ∃ z, (z = total ∨ z = total + 1 + start ∨ z = 0) ∧ AddFault (last = []) z e := by
  refine FaultyStore.resumed_ensures (fun m m' => m'.withCounters S total start = m.withCounters S total start)
    (fun _ => rfl) (fun h h' => h'.trans h) (seedCounters_leads hS total start) cuts last fun s' hcut => ?_
  refine (FaultyStore.addsTo.seedCounters hS total start _).mono (fun _ s'' hs'' => ?_) fun _ _ he => he.2
  exact hs''.trans hcut

end resumed

/-- Seeding changes no text that is there and adds exactly the counters that are missing; seeding again, from whatever
numbers, changes nothing.  Where the store looks for a key and then sets it and faults cut seeding short at any of
these calls, any number of times, the next seeding that is carried to its end leaves the same, and only a fault can
keep it from its end. -/
theorem seedCounters_restarts {S : Schema} (hS : S.CountersApart) {total start : Int}
    (htotal : Numeral.IsWritable total) (hstart : Numeral.IsWritable (total + 1 + start)) (m : MemoryStore) :
    (seedCounters S total start).Returns m fun _ m' =>
      S.SeedsTo total start m m' ∧
      (∀ total' start', (seedCounters S total' start').Ensures m' (fun _ m'' => m'' = m') fun _ m'' => m'' = m') ∧
      ∀ (s : FaultyStore) (cuts : List (List Fault)) (last : List Fault), s.memory = m →
        (FaultyStore.resumed (seedCounters S total start) cuts last).Ensures s
          (fun _ s' => s'.memory = m' ∧ ∀ total' start', (seedCounters S total' start').Ensures s'
            (fun _ s'' => s''.memory = m') fun _ s'' => s''.memory = m')
          fun e _ => last ≠ [] ∧ ∃ message, e = .callRefused message := by
  have hwritable : ∀ {quiet : Prop} {e : Failure},
      (∃ z, (z = total ∨ z = total + 1 + start ∨ z = 0) ∧ AddFault quiet z e) →
      ¬ quiet ∧ ∃ message, e = .callRefused message := by
    rintro quiet e ⟨z, hz, he⟩
    cases he with
    | refused message hnoisy => exact ⟨hnoisy, message, rfl⟩
    | unwritable hlong =>
        rcases hz with rfl | rfl | rfl
        · exact absurd htotal hlong
        · exact absurd hstart hlong
        · exact absurd (Numeral.isWritable_of_natAbs_lt (by decide)) hlong
  have hcounters := MemoryStore.hasCounters_withCounters S total start m
  refine (MemoryStore.addsTo.seedCounters hS total start m).mono (fun _ m' hm' => ?_)
    fun _ _ he => (hwritable he.2).1 trivial
  obtain rfl : m' = m.withCounters S total start := hm'
  refine ⟨hS.seedsTo total start m, fun total' start' => ?_, fun s cuts last hs => ?_⟩
  · exact MemoryStore.addsTo.seedCounters_of_hasCounters hS total' start' hcounters
  · subst hs
    refine (resumed_seedCounters hS total start cuts last s).mono (fun _ s' hs' => ⟨hs', ?_⟩)
      fun _ _ he => hwritable he
    intro total' start'
    rw [← hs'] at hcounters ⊢
    exact FaultyStore.addsTo.seedCounters_of_hasCounters hS total' start' hcounters

/-- A store that has counted its inserts before. -/
def halfSeededStore : FaultyStore where
  memory := MemoryStore.empty.put Schema.incidents.insertKey "40"

/-- The first seeding is cut short when it sets a second key, the second one when it looks for a third. -/
theorem seedCounters_restarts_halfSeededStore :
    (FaultyStore.resumed (seedCounters .incidents 3 2)
      [[⟨.set, none, 1, "refused"⟩], [⟨.get, none, 2, "lost"⟩]] []).Returns
      halfSeededStore fun _ s' => s'.memory.get? Schema.incidents.totalKey = some "3" ∧
        s'.memory.get? Schema.incidents.insertKey = some "40" ∧
        s'.memory.get? Schema.incidents.storedKey = some "0" := by
  obtain ⟨_, _, hseeds, _, hresumes⟩ := (seedCounters_restarts Schema.countersApart_incidents
    (Numeral.isWritable_of_natAbs_lt (show (3 : Int).natAbs < 10 by decide))
    (Numeral.isWritable_of_natAbs_lt (show (3 + 1 + 2 : Int).natAbs < 10 by decide))
    halfSeededStore.memory).exists_outcome
  refine (hresumes halfSeededStore _ [] rfl).mono ?_ fun _ _ h => h.1 rfl
  rintro _ s' ⟨hs', _⟩
  rw [hs']
  exact ⟨hseeds.addsTotal rfl, hseeds.keeps _ _ rfl, hseeds.addsStored rfl⟩

end CounterStore

end GeoWorkload
