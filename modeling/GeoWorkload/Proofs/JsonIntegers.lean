import Mathlib.Data.List.TakeWhile
import GeoWorkload.Json.Reader
import GeoWorkload.Proofs.Decimals
import GeoWorkload.Proofs.Outcomes

/-!
# Integers of JSON texts

The reader takes no integer with too many digits, and so every integer of a value that is read, however deep it stands,
may be written again (`Json.isWritable_of_read`).  The readers of values, items and members call each other with less
fuel, and the induction is on that for all three at once.
-/

namespace GeoWorkload.Json

/-- The integer stands in the value. -/
inductive Value.Holds (z : Int) : Value → Prop
  | int : Holds z (.int z)
  | item {v : Value} {items : List Value} (hv : v ∈ items) (h : v.Holds z) : Holds z (.array items)
  | member {name : String} {v : Value} {members : Members} (hv : (name, v) ∈ members) (h : v.Holds z) :
      Holds z (.object members)

/-- All integers of the value may be written. -/
def Value.IsWritable (v : Value) : Prop := ∀ z, v.Holds z → Numeral.IsWritable z

theorem Value.isWritable_of_plain {v : Value} (h : ∀ z, ¬ v.Holds z) : v.IsWritable :=
  fun z hz => absurd hz (h z)

theorem Value.isWritable_array {items : List Value} (h : ∀ v ∈ items, v.IsWritable) : (array items).IsWritable := by
  intro z hz
  cases hz with
  | item hv hz => exact h _ hv z hz

theorem Value.isWritable_object {members : Members} (h : ∀ m ∈ members, m.2.IsWritable) :
    (object members).IsWritable := by
  intro z hz
  cases hz with
  | member hv hz => exact h _ hv z hz

theorem Value.IsWritable.get {members : Members} (h : (object members).IsWritable) (name : String) :
    (members.get name).IsWritable := by
  unfold Members.get Members.get?
  cases hfind : members.find? fun member => member.1 = name with
  | none => exact isWritable_of_plain fun _ hz => by cases hz
  | some member => exact fun z hz => h z (.member (List.mem_of_find?_eq_some hfind) hz)

theorem Members.forall_mem_set {p : String × Value → Prop} {members : Members} {name : String} {v : Value}
    (h : ∀ m ∈ members, p m) (hv : p (name, v)) : ∀ m ∈ members.set name v, p m := by
  induction members with
  | nil => simpa [set] using hv
  | cons m members ih =>
      obtain ⟨hm, hrest⟩ := List.forall_mem_cons.mp h
      unfold set
      split
      · exact List.forall_mem_cons.mpr ⟨hv, hrest⟩
      · exact List.forall_mem_cons.mpr ⟨hm, ih hrest⟩

/-! ### Numbers -/

theorem spanDigits_lt {s : List Char} : ∀ d ∈ (Numeral.spanDigits s).1, d < 10 := by
  intro d hd
  obtain ⟨c, hc, rfl⟩ := List.mem_map.mp hd
  have hdigit : c.isDigit = true := List.mem_takeWhile_imp hc
  have hrange : 48 ≤ c.toNat ∧ c.toNat ≤ 57 := by
    simpa [Char.isDigit, UInt32.le_iff_toNat_le] using hdigit
  omega

theorem readWhole?_lt {s rest : List Char} {ds : List Nat} (h : readWhole? s = some (ds, rest)) : ∀ d ∈ ds, d < 10 := by
  unfold readWhole? at h
  split at h
  · cases h
    simp
  · dsimp only at h
    split at h
    · cases h
    · cases h
      exact spanDigits_lt

theorem readNumber_isWritable {s rest : List Char} {v : Value} (h : readNumber s = .ok (v, rest)) : v.IsWritable := by
  unfold readNumber at h
  dsimp only at h
  split at h
  · cases h
  · rename_i whole tail hwhole
    split at h
    · cases h
      exact Value.isWritable_of_plain fun _ hz => by cases hz
    · split at h
      · cases h
      · rename_i hlength
        cases h
        intro z hz
        cases hz
        exact Numeral.isWritable_ofDigits (readWhole?_lt hwhole) (Nat.not_lt.mp hlength) _

theorem readAtom_isWritable {s rest : List Char} {v : Value} (h : readAtom s = .ok (v, rest)) : v.IsWritable := by
  unfold readAtom at h
  split at h
  · rename_i word v' hfind
    cases h
    have hplain : ∀ entry ∈ words, ∀ z, ¬ entry.2.Holds z := by
      simp only [words, List.forall_mem_cons, List.not_mem_nil, false_imp_iff, implies_true, and_true]
      refine ⟨?_, ?_, ?_, ?_, ?_, ?_⟩ <;> exact fun _ hz => by cases hz
    exact Value.isWritable_of_plain (hplain _ (List.mem_of_find?_eq_some hfind))
  · exact readNumber_isWritable h

/-! ### Values -/

/-- With this much fuel the readers give values all integers of which may be written. -/
structure ReadsWritable (n : Nat) : Prop where
  value : ∀ {s rest v}, readValue n s = .ok (v, rest) → v.IsWritable
  items : ∀ {s rest vs}, readItems n s = .ok (vs, rest) → ∀ v ∈ vs, v.IsWritable
  members : ∀ {ms s rest ms'}, (∀ m ∈ ms, m.2.IsWritable) → readMembers n ms s = .ok (ms', rest) →
    ∀ m ∈ ms', m.2.IsWritable

section succ

variable {n : Nat} (ih : ReadsWritable n)
include ih

theorem readValue_isWritable {s rest : List Char} {v : Value} (h : readValue (n + 1) s = .ok (v, rest)) :
    v.IsWritable := by
  unfold readValue at h
  split at h
  · cases h
  · obtain ⟨⟨content, rest'⟩, _, h⟩ := exists_of_bind_eq_ok h
    cases h
    exact Value.isWritable_of_plain fun _ hz => by cases hz
  · split at h
    · cases h
      exact Value.isWritable_object (List.forall_mem_nil _)
    · obtain ⟨⟨members, rest'⟩, hmembers, h⟩ := exists_of_bind_eq_ok h
      cases h
      exact Value.isWritable_object (ih.members (List.forall_mem_nil _) hmembers)
  · split at h
    · cases h
      exact Value.isWritable_array (List.forall_mem_nil _)
    · obtain ⟨⟨items, rest'⟩, hitems, h⟩ := exists_of_bind_eq_ok h
      cases h
      exact Value.isWritable_array (ih.items hitems)
  · exact readAtom_isWritable h

theorem readItems_isWritable {s rest : List Char} {vs : List Value} (h : readItems (n + 1) s = .ok (vs, rest)) :
    ∀ v ∈ vs, v.IsWritable := by
  unfold readItems at h
  obtain ⟨⟨v, rest'⟩, hv, h⟩ := exists_of_bind_eq_ok h
  have hfirst := ih.value hv
  dsimp only at h
  split at h
  · cases h
    exact List.forall_mem_singleton.mpr hfirst
  · obtain ⟨⟨vs', rest''⟩, hvs, h⟩ := exists_of_bind_eq_ok h
    cases h
    exact List.forall_mem_cons.mpr ⟨hfirst, ih.items hvs⟩
  · cases h

theorem readMembers_isWritable {ms ms' : Members} {s rest : List Char} (hms : ∀ m ∈ ms, m.2.IsWritable)
    (h : readMembers (n + 1) ms s = .ok (ms', rest)) : ∀ m ∈ ms', m.2.IsWritable := by
  unfold readMembers at h
  split at h
  · obtain ⟨⟨content, rest'⟩, _, h⟩ := exists_of_bind_eq_ok h
    dsimp only at h
    split at h
    · obtain ⟨⟨v, rest''⟩, hv, h⟩ := exists_of_bind_eq_ok h
      have hset : ∀ m ∈ ms.set (String.ofList content) v, m.2.IsWritable :=
        Members.forall_mem_set (p := fun m => m.2.IsWritable) hms (ih.value hv)
      dsimp only at h
      split at h
      · cases h
        exact hset
      · exact ih.members hset h
      · cases h
    · cases h
  · cases h

end succ

theorem readsWritable (n : Nat) : ReadsWritable n := by
  induction n with
  | zero =>
      refine ⟨fun h => ?_, fun h => ?_, fun _ h => ?_⟩
      · unfold readValue at h
        cases h
      · unfold readItems at h
        cases h
      · unfold readMembers at h
        cases h
  | succ n ih => exact ⟨readValue_isWritable ih, readItems_isWritable ih, readMembers_isWritable ih⟩

/-- All integers of a value that is read may be written. -/
theorem isWritable_of_read {text : String} {v : Value} (h : read text = .ok v) : v.IsWritable := by
  have h := of_mapError_eq_ok h
  unfold readChars at h
  split at h
  · cases h
  · obtain ⟨⟨v', rest⟩, hv, h⟩ := exists_of_bind_eq_ok h
    dsimp only at h
    split at h
    · cases h
      exact (readsWritable _).value hv
    · cases h

end GeoWorkload.Json
