import GeoWorkload.Proofs.IntegerTexts
import GeoWorkload.Proofs.JsonIntegers
import GeoWorkload.Proofs.JsonRendering
import GeoWorkload.Proofs.NearestNumbers
import GeoWorkload.Proofs.TokenGroups
import Mathlib.Data.List.Pairwise

/-!
# Tokens of integers

The token of an integer field is the decimal of the integer that the value of the field denotes (`Value.Denotes`): the
integer itself, the whole part of a number toward zero, or the integer that a text writes.  Of the many texts of an
integer the decimal is the canonical one (`Canonical`), and it is read as the same integer again.  So a document in
which the token stands in place of the value is filled as the document was, up to the field, and has the same token
there (`tokenize_integer_stable`).  It takes that the field paths are different keys: otherwise the field might be read
once more as a part of the geometry.
-/

namespace GeoWorkload

/-! ### Canonical decimals -/

namespace Numeral

/-- The characters are the canonical decimal of the integer: a zero alone, or an optional minus and digits of which the
first is no zero. -/
inductive Canonical : List Char → Int → Prop
  | zero : Canonical ['0'] 0
  | digits {c : Char} {cs : List Char} (negative : Bool) (hc : c.isDigit = true) (hne : c ≠ '0')
      (hcs : ∀ d ∈ cs, d.isDigit = true) :
      Canonical (Json.minus negative ++ c :: cs) (signed negative (Json.valueOf (c :: cs)))

theorem canonical_decimal (z : Int) : Canonical (decimal z).toList z := by
  by_cases hz : z = 0
  · rw [hz]
    exact .zero
  · have hdigits : ∀ d ∈ Nat.toDigits 10 z.natAbs, d.isDigit = true := fun d hd =>
      Nat.isDigit_of_mem_toDigits (by decide) (by decide) hd
    have hfirst := (Json.whole_toDigits z.natAbs).2
    have hvalue := Json.valueOf_toDigits z.natAbs
    rw [toList_decimal]
    rcases htext : Nat.toDigits 10 z.natAbs with _ | ⟨c, cs⟩
    · exact absurd htext Nat.toDigits_ne_nil
    · rw [htext] at hdigits hfirst hvalue
      obtain ⟨hc, hcs⟩ := List.forall_mem_cons.mp hdigits
      have hne : c ≠ '0' := by
        rintro rfl
        have := hfirst rfl
        omega
      have hcanonical := Canonical.digits (decide (z < 0)) hc hne hcs
      have hsign : Json.minus (decide (z < 0)) = if z < 0 then ['-'] else [] := by simp [Json.minus]
      have hsigned : signed (decide (z < 0)) z.natAbs = z := by
        simp only [signed, decide_eq_true_eq]
        omega
      rwa [hsign, hvalue, hsigned] at hcanonical

theorem strip_decimal (z : Int) : Text.strip (decimal z) = decimal z := by
  have hplain : ∀ c ∈ (decimal z).toList, Text.isBlank c = false := by
    intro c hc
    rcases of_mem_decimal hc with hdigit | rfl
    · exact isBlank_of_isDigit hdigit
    · decide
  have hreverse : ∀ c ∈ (decimal z).toList.reverse, Text.isBlank c = false := fun c hc =>
    hplain c (List.mem_reverse.mp hc)
  rw [Text.strip, Text.stripChars, Json.dropWhile_eq_self hplain, Json.dropWhile_eq_self hreverse, List.reverse_reverse,
    String.ofList_toList]

end Numeral

/-! ### Values that denote integers -/

namespace Json

/-- The value denotes the integer: it is the integer, a finite number whose whole part toward zero it is, or a text that
writes it when the blanks around it are left out. -/
inductive Value.Denotes : Value → Int → Prop
  | int (z : Int) : Denotes (.int z) z
  | float {x : Binary64} (hx : x.isFinite = true) :
      Denotes (.float x) (if x.toRat < 0 then ⌈x.toRat⌉ else ⌊x.toRat⌋)
  | text {s : String} {z : Int} (h : Numeral.IntegerText (Text.strip s).toList z) : Denotes (.string s) z

/-- The whole part of a number may be written. -/
theorem isWritable_of_truncate? {x : Binary64} {z : Int} (h : x.truncate? = some z) : Numeral.IsWritable z := by
  cases x with
  | finite negative m e hcanonical =>
      obtain rfl := Option.some.inj h
      obtain ⟨hm, _, he, _⟩ := hcanonical
      have hdigits : 53 + e.toNat ≤ Numeral.maxDigits := by
        unfold Numeral.maxDigits
        omega
      have hbase : ∀ k, Nat.pow 2 k ≤ Nat.pow 10 k := Nat.pow_le_pow_left (by decide)
      have hmono : ∀ {j k : Nat}, j ≤ k → Nat.pow 10 j ≤ Nat.pow 10 k := Nat.pow_le_pow_right (by decide)
      have hwhole : m * Nat.pow 2 e.toNat / Nat.pow 2 (-e).toNat < Nat.pow 10 Numeral.maxDigits :=
        calc m * Nat.pow 2 e.toNat / Nat.pow 2 (-e).toNat
            ≤ m * Nat.pow 2 e.toNat := Nat.div_le_self _ _
          _ < Nat.pow 10 53 * Nat.pow 10 e.toNat :=
            Nat.mul_lt_mul_of_lt_of_le (Nat.lt_of_lt_of_le hm (hbase 53)) (hbase _) (Nat.pow_pos (by decide))
          _ = Nat.pow 10 (53 + e.toNat) := (Nat.pow_add 10 53 e.toNat).symm
          _ ≤ Nat.pow 10 Numeral.maxDigits := hmono hdigits
      unfold Numeral.IsWritable
      generalize m * Nat.pow 2 e.toNat / Nat.pow 2 (-e).toNat = whole at hwhole ⊢
      cases negative with
      | false => exact hwhole
      | true =>
          rw [if_pos rfl, Int.natAbs_neg]
          exact hwhole
  | infinite negative => cases h
  | nan => cases h

theorem Value.Denotes.isWritable {v : Value} {z : Int} (h : v.Denotes z) (hv : v.IsWritable) : Numeral.IsWritable z := by
  cases h with
  | int => exact hv z .int
  | @float x hx =>
      cases x with
      | finite => exact isWritable_of_truncate? Binary64.truncate?_eq_some
      | infinite => cases hx
      | nan => cases hx
  | text htext => exact Numeral.isWritable_of_readInteger (Numeral.readInteger_eq_ok_iff.mpr htext)

end Json

namespace FieldValue

theorem whole_eq_ok_iff {field t : String} {x : Binary64} : whole field x = .ok t ↔
    x.isFinite = true ∧ t = Numeral.decimal (if x.toRat < 0 then ⌈x.toRat⌉ else ⌊x.toRat⌋) := by
  unfold whole
  cases x with
  | finite negative m e hcanonical => simp [Binary64.truncate?_eq_some, Binary64.isFinite, eq_comm]
  | infinite negative => simp [Binary64.truncate?, Binary64.isFinite]
  | nan => simp [Binary64.truncate?, Binary64.isFinite]

/-- The token of an integer field is the decimal of what its value denotes. -/
theorem integer_eq_ok_iff {field t : String} {v : Json.Value} :
    integer field v = .ok t ↔ ∃ z, v.Denotes z ∧ t = Numeral.decimal z := by
  constructor
  · intro h
    cases v with
    | int z => exact ⟨z, .int z, (Except.ok.inj h).symm⟩
    | float x =>
        obtain ⟨hx, ht⟩ := whole_eq_ok_iff.mp h
        exact ⟨_, .float hx, ht⟩
    | string s =>
        simp only [integer] at h
        split at h
        · rename_i z hread
          exact ⟨z, .text (Numeral.readInteger_eq_ok_iff.mp hread), (Except.ok.inj h).symm⟩
        · cases h
    | _ => cases h
  · rintro ⟨z, hdenotes, rfl⟩
    cases hdenotes with
    | int => rfl
    | float hx => exact whole_eq_ok_iff.mpr ⟨hx, rfl⟩
    | text htext => simp only [integer, Numeral.readInteger_eq_ok_iff.mpr htext]

/-- A decimal is its own token. -/
theorem integer_decimal (field : String) {z : Int} (hz : Numeral.IsWritable z) :
    integer field (.string (Numeral.decimal z)) = .ok (Numeral.decimal z) := by
  refine integer_eq_ok_iff.mpr ⟨z, .text ?_, rfl⟩
  rw [Numeral.strip_decimal]
  exact Numeral.readInteger_eq_ok_iff.mp (Numeral.readInteger_decimal hz)

end FieldValue

/-! ### Names of a schema with fields of the properties -/

/-- Of two labels that join both are texts or neither is. -/
theorem Label.isText_iff_of_joined {a b : Label} (h : ∀ fault, a ++ b ≠ .broken fault) : a.IsText ↔ b.IsText := by
  change ∀ fault, join a b ≠ .broken fault at h
  unfold join at h
  split at h
  · exact absurd rfl (h _)
  · exact absurd rfl (h _)
  · exact ⟨fun _ => isText_text _, fun _ => isText_text _⟩
  · exact ⟨fun ⟨_, h⟩ => (by cases h), fun ⟨_, h⟩ => (by cases h)⟩
  · split at h
    · rename_i ha hb
      constructor
      · rintro ⟨_, rfl⟩
        cases ha
      · rintro ⟨_, rfl⟩
        cases hb
    · exact absurd rfl (h _)

/-- Where three labels make a key and the second or the last is a text, all of them are texts. -/
theorem Label.isText_of_joined {a b c : Label} (h : (a ++ b ++ c).keyFault? = none) (hbc : b.IsText ∨ c.IsText) :
    a.IsText ∧ b.IsText ∧ c.IsText := by
  have houter : ∀ fault, a ++ b ++ c ≠ .broken fault := by
    intro fault hbroken
    rw [hbroken] at h
    cases h
  have hinner : ∀ fault, a ++ b ≠ .broken fault := by
    intro fault hbroken
    exact houter fault (by rw [hbroken, broken_append])
  have hlast := isText_iff_of_joined houter
  have hfirst := isText_iff_of_joined hinner
  rw [isText_append_iff] at hlast
  tauto

/-- Where the paths are keys, one of them of a field of the properties, the names that make the paths are texts. -/
theorem Schema.namesKeys_of_mem_propertyFields {S : Schema} (hkeys : S.fieldPaths.findSome? (·.keyFault?) = none)
    {name : String} (hname : name ∈ S.propertyFields) : S.propertiesField.IsText ∧ S.NamesKeys := by
  have hkey : ∀ p ∈ S.fieldPaths, p.keyFault? = none := List.findSome?_eq_none_iff.mp hkeys
  have hid := hkey S.idField (by simp [fieldPaths])
  have hproperty := hkey (S.propertyPath name) (by simp [fieldPaths, List.mem_map_of_mem hname])
  obtain ⟨hproperties, hdelimiter, _⟩ := Label.isText_of_joined hproperty (.inr (Label.isText_text name))
  have htype := hkey S.geometryTypePath (by simp [fieldPaths])
  obtain ⟨hgeometry, _, htype⟩ := Label.isText_of_joined htype (.inl hdelimiter)
  have hcoordinates := hkey S.coordinatesPath (by simp [fieldPaths])
  obtain ⟨_, _, hcoordinates⟩ := Label.isText_of_joined hcoordinates (.inl hdelimiter)
  exact ⟨hproperties, hid, hproperties.keyFault?, hgeometry.keyFault?, htype.keyFault?, hcoordinates.keyFault?⟩

/-! ### Documents with another value in a field of the properties -/

/-- The documents have the same values but for the field of the properties, where the second one has the value. -/
structure Schema.Replaces (S : Schema) (name : String) (v : Json.Value) (doc doc' : Json.Members) : Prop where
  outside : doc.Agree (fun other => S.propertiesField ≠ .text other) doc'
  inside : ∃ props props' : Json.Members, S.propertiesField.memberOf doc = .object props ∧
    S.propertiesField.memberOf doc' = .object props' ∧ props.Agree (· ≠ name) props' ∧ props'.get name = v

theorem Json.Members.get_set_self (members : Json.Members) (name : String) (v : Json.Value) :
    (members.set name v).get name = v := by
  rw [get, get?_set_self, Option.getD_some]

theorem Json.Members.get_set_of_ne {members : Json.Members} {name other : String} {v : Json.Value} (h : name ≠ other) :
    (members.set name v).get other = members.get other := by
  rw [get, get, get?_set_of_ne h]

/-- The value can be put in the place of the one that is there. -/
theorem Schema.exists_replaces {S : Schema} {doc props : Json.Members}
    (hprops : S.propertiesField.memberOf doc = .object props) (name : String) (v : Json.Value) :
    ∃ doc', S.Replaces name v doc doc' := by
  obtain ⟨field, hfield⟩ : S.propertiesField.IsText := by
    cases h : S.propertiesField with
    | text field => exact Label.isText_text field
    | _ =>
        rw [h] at hprops
        cases hprops
  rw [hfield] at hprops
  refine ⟨doc.set field (.object (props.set name v)), ?_, props, props.set name v, ?_, ?_, ?_, ?_⟩
  · intro other hother
    rw [hfield] at hother
    exact Json.Members.get_set_of_ne fun h => hother (congrArg Label.text h)
  · rw [hfield, hprops]
  · rw [hfield]
    exact Json.Members.get_set_self doc field _
  · exact fun other hother => Json.Members.get_set_of_ne (Ne.symm hother)
  · exact Json.Members.get_set_self props name v

/-- A path belongs to one part. -/
theorem Schema.part_eq_of_path {S : Schema} (hpaths : S.fieldPaths.Pairwise fun p q => p.same q = false)
    {part part' : ObjectPart} (hpart : part ∈ S.parts) (hpart' : part' ∈ S.parts) {path : Label}
    (hpath : part.path? S = some path) (hpath' : part'.path? S = some path) : part = part' := by
  obtain ⟨_, hparts, _⟩ := S.paths_apart hpaths
  by_contra hne
  have hsymm : Std.Symm fun a b : ObjectPart =>
      ∀ p, a.path? S = some p → ∀ q, b.path? S = some q → p.same q = false :=
    ⟨fun a b h p hp q hq => by rw [Label.same_comm]; exact h q hq p hp⟩
  have happart := (List.pairwise_filterMap.mp hparts).forall hpart hpart' hne path hpath path hpath'
  rw [Label.same_self] at happart
  cases happart

namespace ObjectPart

theorem result_eq_of_value {S : Schema} {doc doc' : Json.Members} {part : ObjectPart}
    (h : part.value S doc' = part.value S doc) : part.result S doc' = part.result S doc := by
  rw [result, result, h]

/-- An object is no fault where an id or an object is read. -/
theorem exists_result_of_object {S : Schema} {doc members : Json.Members} {part : ObjectPart}
    (hpart : part = id ∨ part = properties ∨ part = geometry) (h : part.value S doc = .object members) :
    ∃ token, part.result S doc = .ok token := by
  rw [result, h]
  rcases hpart with rfl | rfl | rfl <;> exact ⟨_, rfl⟩

/-- A field that has a token is a field of an object, with a value that is converted to the token. -/
theorem exists_of_result_propertyInteger {S : Schema} {doc : Json.Members} {name t : String}
    (h : (propertyInteger name).result S doc = .ok (some t)) : ∃ props : Json.Members,
    S.propertiesField.memberOf doc = .object props ∧ FieldValue.integer name (props.get name) = .ok t := by
  have hnull : Json.Members.get [] name = .null := rfl
  simp only [result, value, Json.Members.membersIn] at h
  cases hprops : S.propertiesField.memberOf doc with
  | object props =>
      refine ⟨props, rfl, ?_⟩
      simp only [hprops] at h
      split at h
      · cases h
      · cases htoken : FieldValue.integer name (Json.Members.get props name) with
        | error stop =>
            rw [convert, htoken] at h
            cases h
        | ok token =>
            rw [convert, htoken] at h
            cases h
            rfl
  | _ =>
      simp only [hprops, hnull] at h
      cases h

end ObjectPart

namespace Schema.Replaces

variable {S : Schema} {name : String} {v : Json.Value} {doc doc' : Json.Members} (h : S.Replaces name v doc doc')
include h

/-- Other labels have the same values. -/
theorem memberOf_eq {l : Label} (hl : l ≠ S.propertiesField) : l.memberOf doc' = l.memberOf doc :=
  Label.memberOf_eq_of_agree h.outside fun _ hother hproperties => hl (hother.trans hproperties.symm)

/-- The objects under labels have the same values but for the field. -/
theorem memberOf_membersIn_eq {label inner : Label} (hl : label ≠ S.propertiesField ∨ inner ≠ .text name) :
    inner.memberOf (doc'.membersIn label) = inner.memberOf (doc.membersIn label) := by
  by_cases hlabel : label = S.propertiesField
  · obtain ⟨props, props', hprops, hprops', hagree, _⟩ := h.inside
    have hinner := hl.resolve_left fun hne => hne hlabel
    rw [hlabel, Json.Members.membersIn, Json.Members.membersIn, hprops, hprops']
    refine Label.memberOf_eq_of_agree hagree ?_
    rintro other rfl rfl
    exact hinner rfl
  · rw [Json.Members.membersIn, Json.Members.membersIn, h.memberOf_eq hlabel]

/-- The result of the field is that of the value. -/
theorem result_propertyInteger {t : String} (ht : FieldValue.integer name v = .ok t) (hv : v ≠ .null) :
    (ObjectPart.propertyInteger name).result S doc' = .ok (some t) := by
  obtain ⟨_, props', _, hprops', _, hvalue⟩ := h.inside
  have hv' : (ObjectPart.propertyInteger name).value S doc' = v := by
    rw [ObjectPart.value, Json.Members.membersIn, hprops']
    exact hvalue
  rw [ObjectPart.result, hv']
  cases v with
  | null => exact absurd rfl hv
  | _ =>
      dsimp only [ObjectPart.convert]
      rw [ht]
      rfl

/-- The labels of the document have the same values, or hold the properties of both documents. -/
theorem memberOf_eq_or (l : Label) : l.memberOf doc' = l.memberOf doc ∨
    ∃ props props', l.memberOf doc = .object props ∧ l.memberOf doc' = .object props' := by
  by_cases hl : l = S.propertiesField
  · obtain ⟨props, props', hprops, hprops', _⟩ := h.inside
    rw [hl]
    exact Or.inr ⟨props, props', hprops, hprops'⟩
  · exact Or.inl (h.memberOf_eq hl)

/-- A part with another path than the field is read from the same value, or from the objects that differ in it. -/
theorem value_eq_or {part : ObjectPart} (hpath : part.path? S ≠ some (S.propertyPath name)) :
    part.value S doc' = part.value S doc ∨ (part = .id ∨ part = .properties ∨ part = .geometry) ∧
      ∃ props props', part.value S doc = .object props ∧ part.value S doc' = .object props' := by
  have hgeometry : ∀ inner : Label, S.geometryPath inner ≠ S.propertyPath name →
      inner.memberOf (doc'.membersIn S.geometryField) = inner.memberOf (doc.membersIn S.geometryField) := by
    intro inner hne
    apply h.memberOf_membersIn_eq
    by_contra hboth
    simp only [not_or, not_not] at hboth
    obtain ⟨hlabel, rfl⟩ := hboth
    exact hne (by rw [geometryPath, hlabel, propertyPath])
  cases part with
  | id => exact (h.memberOf_eq_or S.idField).imp_right fun hobjects => ⟨by simp, hobjects⟩
  | properties => exact (h.memberOf_eq_or S.propertiesField).imp_right fun hobjects => ⟨by simp, hobjects⟩
  | geometry => exact (h.memberOf_eq_or S.geometryField).imp_right fun hobjects => ⟨by simp, hobjects⟩
  | propertyText other | propertyInteger other =>
      have hne : Label.text other ≠ .text name := by
        rintro heq
        cases heq
        exact hpath rfl
      exact Or.inl (h.memberOf_membersIn_eq (.inr hne))
  | geometryType => exact Or.inl (hgeometry S.geometryTypeField fun heq => hpath (congrArg some heq))
  | coordinates => exact Or.inl (hgeometry S.geometryCoordinatesField fun heq => hpath (congrArg some heq))

/-- Where the field was read and the value is too, the parts fail to be read where they did. -/
theorem result_eq_error_iff (hpaths : S.fieldPaths.Pairwise fun p q => p.same q = false)
    (hfield : .propertyInteger name ∈ S.parts) {token token' : Option String}
    (hdoc : (ObjectPart.propertyInteger name).result S doc = .ok token)
    (hdoc' : (ObjectPart.propertyInteger name).result S doc' = .ok token') {part : ObjectPart} (hpart : part ∈ S.parts)
    (stop : Stop) : part.result S doc' = .error stop ↔ part.result S doc = .error stop := by
  by_cases hself : part = .propertyInteger name
  · rw [hself, hdoc, hdoc']
    simp
  · have hpath : part.path? S ≠ some (S.propertyPath name) := fun hpath =>
      hself (S.part_eq_of_path hpaths hpart hfield hpath rfl)
    obtain hvalue | ⟨hkind, props, props', hprops, hprops'⟩ := h.value_eq_or hpath
    · rw [ObjectPart.result_eq_of_value hvalue]
    · obtain ⟨_, hok⟩ := ObjectPart.exists_result_of_object hkind hprops
      obtain ⟨_, hok'⟩ := ObjectPart.exists_result_of_object hkind hprops'
      rw [hok, hok']
      simp

end Schema.Replaces

open Filling

/-- Steps that are stopped in the same way end in the same way. -/
theorem Filling.stop?_map_congr {α : Type} {items : List α} {step step' : α → Step}
    (h : ∀ a ∈ items, ∀ stop, step a = .error stop ↔ step' a = .error stop) :
    stop? (items.map step) = stop? (items.map step') := by
  induction items with
  | nil => rfl
  | cons a items ih =>
      obtain ⟨hfirst, hrest⟩ := List.forall_mem_cons.mp h
      rw [List.map_cons, List.map_cons]
      cases hstep : step a with
      | error stop =>
          rw [(hfirst stop).mp hstep]
          rfl
      | ok entry =>
          cases hstep' : step' a with
          | error stop =>
              rw [(hfirst stop).mpr hstep'] at hstep
              cases hstep
          | ok entry' => exact ih hrest

/-- What a document that is tokenized to a token of the field has read. -/
theorem Schema.exists_of_get_propertyPath {S : Schema} (hpaths : S.fieldPaths.Pairwise fun p q => p.same q = false)
    {name t : String} (hname : name ∈ S.propertyIntFields) {doc : Json.Members}
    (ht : (S.tokensOf doc).get (S.propertyPath name) = some t) : ∃ before after,
    S.parts = before ++ .propertyInteger name :: after ∧
    (∀ part ∈ before ++ [.propertyInteger name], ¬ part.IsViolated S doc) ∧
    (ObjectPart.propertyInteger name).result S doc = .ok (some t) := by
  have hfield : .propertyInteger name ∈ S.parts := by simp [parts, hname]
  obtain ⟨before, after, hparts⟩ := List.append_of_mem hfield
  have hturn := S.filledInTurn_objects hpaths doc
  have hkept : ∀ part ∈ before ++ [.propertyInteger name], ¬ part.IsViolated S doc := by
    intro part hpart hviolated
    rw [hturn.lost before _ after _ hparts rfl ⟨part, hpart, hviolated⟩] at ht
    cases ht
  rw [hturn.kept before _ after _ hparts rfl hkept, ObjectPart.token] at ht
  refine ⟨before, after, hparts, hkept, ?_⟩
  cases hresult : (ObjectPart.propertyInteger name).result S doc with
  | error stop =>
      rw [hresult] at ht
      cases ht
  | ok token =>
      rw [hresult] at ht
      exact congrArg Except.ok ht

/-- A document that is the same but for the field is filled in the same way, up to the token of the field. -/
theorem Schema.Replaces.exists_tokenizeObject {S : Schema} (hS : S.NamesKeys)
    (hpaths : S.fieldPaths.Pairwise fun p q => p.same q = false) {name t t' : String} (hname : name ∈ S.propertyIntFields)
    {v : Json.Value} {doc doc' : Json.Members} (h : S.Replaces name v doc doc') (hv : v ≠ .null)
    (ht' : FieldValue.integer name v = .ok t') (htame : ∀ f, stop? (objectSteps S doc) ≠ some (.failure f))
    (ht : (S.tokensOf doc).get (S.propertyPath name) = some t) :
    (tokenizeObject S doc').result = .ok (S.tokensOf doc') ∧ (S.tokensOf doc').get (S.propertyPath name) = some t' := by
  obtain ⟨before, after, hparts, hkept, hresult⟩ := S.exists_of_get_propertyPath hpaths hname ht
  have hresult' := h.result_propertyInteger ht' hv
  have hfield : .propertyInteger name ∈ S.parts := by simp [hparts]
  have herror : ∀ part ∈ S.parts, ∀ stop, part.result S doc' = .error stop ↔ part.result S doc = .error stop :=
    fun part hpart => h.result_eq_error_iff hpaths hfield hresult hresult' hpart
  have hstop : stop? (objectSteps S doc') = stop? (objectSteps S doc) := by
    rw [← (alike_parts S doc').stop?, ← (alike_parts S doc).stop?]
    refine stop?_map_congr fun part hpart stop => ?_
    rw [← (ObjectPart.fillsIn_step S doc' part).stopped, ← (ObjectPart.fillsIn_step S doc part).stopped]
    exact herror part hpart stop
  have hkept' : ∀ part ∈ before ++ [.propertyInteger name], ¬ part.IsViolated S doc' := by
    rintro part hpart ⟨stop, hviolated⟩
    have hmem : part ∈ S.parts := by
      rw [hparts, List.append_cons]
      exact List.mem_append_left after hpart
    exact hkept part hpart ⟨stop, (herror part hmem stop).mp hviolated⟩
  constructor
  · rw [tokenizeObject_of_tame hS (hstop ▸ htame)]
  · rw [(S.filledInTurn_objects hpaths doc').kept before _ after _ hparts rfl hkept', ObjectPart.token, hresult']
    rfl

/-! ### Tokens that stay -/

/-- A token that is not null comes of a document. -/
theorem exists_read_of_get {S : Schema} {body t : String} {tokens : Tokens} {path : Label}
    (h : (tokenize S body).result = .ok tokens) (ht : tokens.get path = some t) :
    S.fieldPaths.findSome? (·.keyFault?) = none ∧ ∃ doc, Json.read body = .ok (.object doc) := by
  cases hkeys : S.fieldPaths.findSome? (·.keyFault?) with
  | some fault =>
      unfold tokenize tokenizeValue at h
      rw [hkeys] at h
      cases h
  | none =>
      refine ⟨rfl, ?_⟩
      have hblank : tokens ≠ .blank S.fieldPaths := by
        rintro rfl
        rw [Tokens.get_blank] at ht
        cases ht
      rw [tokenize_of_keys hkeys] at h
      cases hread : Json.read body with
      | error e =>
          rw [tokenizeText_of_error hread] at h
          exact absurd (Except.ok.inj h).symm hblank
      | ok v =>
          by_cases hobject : ∃ doc, v = .object doc
          · obtain ⟨doc, rfl⟩ := hobject
            exact ⟨doc, rfl⟩
          · rw [tokenizeText_of_not_object hread fun doc hv => hobject ⟨doc, hv⟩] at h
            exact absurd (Except.ok.inj h).symm hblank

/-- Where the field paths are different keys, the token of an integer field is the canonical decimal of the integer that
the value of the field denotes.  It stays the same: in any document with the token in place of the value, and the same
values elsewhere, it is the token of the field again. -/
theorem tokenize_integer_stable {S : Schema} (hpaths : S.fieldPaths.Pairwise fun p q => p.same q = false)
    {body : String} {tokens : Tokens} (h : (tokenize S body).result = .ok tokens) {name t : String}
    (hname : name ∈ S.propertyIntFields) (ht : tokens.get (S.propertyPath name) = some t) :
    ∃ doc props z, Json.read body = .ok (.object doc) ∧ S.propertiesField.memberOf doc = .object props ∧
      (Json.Members.get props name).Denotes z ∧ Numeral.Canonical t.toList z ∧
      (∃ doc', S.Replaces name (.string t) doc doc') ∧
      ∀ doc', S.Replaces name (.string t) doc doc' → ∃ tokens', (tokenizeObject S doc').result = .ok tokens' ∧
        tokens'.get (S.propertyPath name) = some t ∧
        ∀ body', Json.read body' = .ok (.object doc') → (tokenize S body').result = .ok tokens' := by
  obtain ⟨hkeys, doc, hread⟩ := exists_read_of_get h ht
  obtain ⟨⟨field, hfield⟩, hS⟩ :=
    S.namesKeys_of_mem_propertyFields hkeys (List.mem_append_right S.propertyStringFields hname)
  obtain rfl := tokensOf_of_tokenize hread h
  rw [tokenize_of_keys hkeys, tokenizeText_of_object hread] at h
  have htame : ∀ f, stop? (objectSteps S doc) ≠ some (.failure f) := by
    intro f hstop
    rw [tokenizeObject_of_failure hS hstop] at h
    cases h
  obtain ⟨_, _, _, _, hresult⟩ := S.exists_of_get_propertyPath hpaths hname ht
  obtain ⟨props, hprops, htoken⟩ := ObjectPart.exists_of_result_propertyInteger hresult
  obtain ⟨z, hdenotes, rfl⟩ := FieldValue.integer_eq_ok_iff.mp htoken
  have hwritable : Numeral.IsWritable z := by
    have hobject := (Json.isWritable_of_read hread).get field
    rw [hfield] at hprops
    rw [show Json.Members.get doc field = .object props from hprops] at hobject
    exact hdenotes.isWritable (hobject.get name)
  refine ⟨doc, props, z, hread, hprops, hdenotes, Numeral.canonical_decimal z, S.exists_replaces hprops name _,
    fun doc' hreplaces => ?_⟩
  obtain ⟨htokens', ht'⟩ := hreplaces.exists_tokenizeObject hS hpaths hname Json.Value.noConfusion
    (FieldValue.integer_decimal name hwritable) htame ht
  refine ⟨S.tokensOf doc', htokens', ht', fun body' hread' => ?_⟩
  rw [tokenize_of_keys hkeys, tokenizeText_of_object hread', htokens']

/-- A report with nothing but the size. -/
def sizeReport (size : Json.Value) : Json.Members := [("properties", .object [("SQ_FT", size)])]

/-- Its text with a size in a text that is no canonical decimal. -/
def looseSizeText : String := "\x7b\"properties\":\x7b\"SQ_FT\":\" +0_7 \"\x7d\x7d"

/-- Its text with the token of that size. -/
def plainSizeText : String := "\x7b\"properties\":\x7b\"SQ_FT\":\"7\"\x7d\x7d"

theorem exists_tokenize_sizeReport {text : String} {size : Json.Value}
    (hread : Json.read text = .ok (.object (sizeReport size))) :
    (tokenize .incidents text).result = .ok (Schema.incidents.tokensOf (sizeReport size)) := by
  obtain ⟨tokens, _, htokens, hends⟩ := exists_tokenizes Schema.namesText_incidents fun doc hdoc => by
    -- there is no geometry
    rintro ⟨geometry, hgeometry, _⟩
    cases hread.symm.trans hdoc
    cases hgeometry
  obtain ⟨rfl, _⟩ := hends.object _ hread
  rw [htokens]

theorem tokenize_integer_stable_sizeReport : ∃ tokens tokens',
    (tokenize .incidents looseSizeText).result = .ok tokens ∧
    tokens.get (Schema.incidents.propertyPath "SQ_FT") = some "7" ∧
    (tokenize .incidents plainSizeText).result = .ok tokens' ∧
    tokens'.get (Schema.incidents.propertyPath "SQ_FT") = some "7" := by
  have hread : Json.read looseSizeText = .ok (.object (sizeReport (.string " +0_7 "))) :=
    Json.read_of_readChars (by cbv)
  have hread' : Json.read plainSizeText = .ok (.object (sizeReport (.string "7"))) :=
    Json.read_of_readChars (by cbv)
  have htokens := exists_tokenize_sizeReport hread
  have htoken : (Schema.incidents.tokensOf (sizeReport (.string " +0_7 "))).get
      (Schema.incidents.propertyPath "SQ_FT") = some "7" := by decide +kernel
  obtain ⟨doc, _, _, hdoc, _, _, _, _, hstable⟩ :=
    tokenize_integer_stable Schema.groupsApart_incidents.paths htokens (by decide) htoken
  cases hread.symm.trans hdoc
  have hreplaces : Schema.incidents.Replaces "SQ_FT" (.string "7") (sizeReport (.string " +0_7 "))
      (sizeReport (.string "7")) := by
    refine ⟨fun other hother => ?_, _, _, rfl, rfl, fun other hother => ?_, rfl⟩
    · have hne : ¬ "properties" = other := fun h => hother (congrArg Label.text h)
      simp [sizeReport, Json.Members.get, Json.Members.get?, hne]
    · simp [Json.Members.get, Json.Members.get?, Ne.symm hother]
  obtain ⟨tokens', _, htoken', htokens'⟩ := hstable _ hreplaces
  exact ⟨_, tokens', htokens, htoken, htokens' _ hread', htoken'⟩

end GeoWorkload
