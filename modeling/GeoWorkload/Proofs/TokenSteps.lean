import GeoWorkload.Proofs.JsonTexts
import GeoWorkload.Proofs.TokenPaths

/-!
# Tokens step by step

Tokenizing a document goes through steps in a fixed order: those of the plain fields (`plainSteps`) and
those of the id, the properties and the geometry (`objectSteps`).  A step gives a token, gives none, or
stops the rest of its group; which of these depends on the value of its field alone, and so the tokens of a
group are those of the steps up to the first that stops it (`Filling.Does`).

Where the names of the schema are texts, tokenizing any body gives tokens for the field paths, each once,
and a warning for each group that a step stops (`tokenize_total`).  There is one exception: an integer
beyond the range of binary64 at the start of the coordinates ends it all (`Schema.MeetsTooLarge`,
`tokenize_farPoint`).
-/

namespace GeoWorkload

/-- The names that a schema is made of are texts. -/
structure Schema.NamesText (S : Schema) : Prop where
  delimiter : S.delimiter.IsText
  idField : S.idField.IsText
  propertiesField : S.propertiesField.IsText
  geometryField : S.geometryField.IsText
  geometryTypeField : S.geometryTypeField.IsText
  geometryCoordinatesField : S.geometryCoordinatesField.IsText

/-- The names that are looked up in a document are keys. -/
structure Schema.NamesKeys (S : Schema) : Prop where
  idField : S.idField.keyFault? = none
  propertiesField : S.propertiesField.keyFault? = none
  geometryField : S.geometryField.keyFault? = none
  geometryTypeField : S.geometryTypeField.keyFault? = none
  geometryCoordinatesField : S.geometryCoordinatesField.keyFault? = none

theorem Schema.NamesText.namesKeys {S : Schema} (h : S.NamesText) : S.NamesKeys where
  idField := h.idField.keyFault?
  propertiesField := h.propertiesField.keyFault?
  geometryField := h.geometryField.keyFault?
  geometryTypeField := h.geometryTypeField.keyFault?
  geometryCoordinatesField := h.geometryCoordinatesField.keyFault?

theorem Schema.NamesText.isText_of_mem_fieldPaths {S : Schema} (h : S.NamesText) {path : Label}
    (hp : path ∈ S.fieldPaths) : path.IsText := by
  have hproperty : ∀ name, (S.propertyPath name).IsText := fun name =>
    Label.isText_append_iff.mpr
      ⟨Label.isText_append_iff.mpr ⟨h.propertiesField, h.delimiter⟩, Label.isText_text name⟩
  have hgeometry : ∀ field : Label, field.IsText → (S.geometryPath field).IsText := fun field hf =>
    Label.isText_append_iff.mpr ⟨Label.isText_append_iff.mpr ⟨h.geometryField, h.delimiter⟩, hf⟩
  simp only [Schema.fieldPaths, List.mem_append, List.mem_map, List.mem_cons, List.not_mem_nil,
    or_false] at hp
  rcases hp with ((⟨name, _, rfl⟩ | rfl) | ⟨name, _, rfl⟩) | rfl | rfl
  · exact Label.isText_text name
  · exact h.idField
  · exact hproperty name
  · exact hgeometry _ h.geometryTypeField
  · exact hgeometry _ h.geometryCoordinatesField

theorem LabelMap.setAll_append {α : Type} (m : LabelMap α) (entries more : List (Label × α)) :
    m.setAll (entries ++ more) = (m.setAll entries).setAll more := List.foldl_append

namespace Filling

/-! ### Steps -/

/-- A step: a token and its path, none for a field that is absent or null, or what stops the group. -/
abbrev Step := Except Stop (Option (Label × Option String))

/-- The tokens of steps up to the first that stops them. -/
def given : List Step → List (Label × Option String)
  | .ok entry :: rest => entry.toList ++ given rest
  | _ => []

/-- What stops steps, if anything does. -/
def stop? : List Step → Option Stop
  | [] => none
  | .ok _ :: rest => stop? rest
  | .error stop :: _ => some stop

theorem stop?_append (steps more : List Step) :
    stop? (steps ++ more) = (stop? steps).or (stop? more) := by
  induction steps with
  | nil => rfl
  | cons step steps ih =>
      cases step with
      | error stop => rfl
      | ok entry => exact ih

theorem given_append (steps more : List Step) :
    given (steps ++ more) = given steps ++ if (stop? steps).isNone then given more else [] := by
  induction steps with
  | nil => simp [given, stop?]
  | cons step steps ih =>
      cases step with
      | error stop => simp [given, stop?]
      | ok entry => simp [given, stop?, ih]

/-- The filling puts what the steps give and ends where they are stopped. -/
def Does (x : Filling Unit) (steps : List Step) : Prop :=
  ∀ tokens : Tokens, x.run.run tokens =
    (match stop? steps with
      | none => .ok ()
      | some stop => .error stop, tokens.setAll (given steps))

theorem does_pure : Does (pure ()) [] := fun _ => rfl

theorem does_throw (stop : Stop) : Does (throw stop) [.error stop] := fun _ => rfl

theorem does_put (path : Label) (token : Option String) :
    Does (put path token) [.ok (some (path, token))] := fun _ => rfl

theorem Does.bind {x : Filling Unit} {f : Unit → Filling Unit} {steps more : List Step}
    (hx : Does x steps) (hf : Does (f ()) more) : Does (x >>= f) (steps ++ more) := by
  intro tokens
  show (match x.run.run tokens with
    | (r, tokens') => (ExceptT.bindCont f r tokens' : Except Stop Unit × Tokens)) = _
  rw [hx tokens, stop?_append, given_append]
  cases h : stop? steps with
  | none =>
      have hrest := hf (LabelMap.setAll tokens (given steps))
      rw [Option.isNone_none, if_pos rfl, LabelMap.setAll_append]
      exact hrest
  | some stop =>
      rw [Option.isNone_some, if_neg Bool.false_ne_true, List.append_nil]
      rfl

/-! ### The steps of a document -/

/-- The step of a field. -/
def fieldStep (doc : Json.Members) (name path : Label)
    (convert : String → Json.Value → Except Stop String) : Step :=
  match name.memberOf doc with
  | .null => .ok none
  | v => (convert name.display v).map fun token => some (path, some token)

/-- The steps of an object in a field: none where the field is absent or null. -/
def stepsIn (doc : Json.Members) (name : Label) (steps : Json.Members → List Step) : List Step :=
  match name.memberOf doc with
  | .null => []
  | .object members => steps members
  | v => [.error (.fault (.notObject name.display v.kind))]

/-- The steps of the plain fields. -/
def plainSteps (S : Schema) (doc : Json.Members) : List Step :=
  S.stringFields.map fun name => fieldStep doc (.text name) (.text name) FieldValue.text

/-- The steps of the fields of the properties. -/
def propertySteps (S : Schema) (props : Json.Members) : List Step :=
  (S.propertyStringFields.map fun name =>
    fieldStep props (.text name) (S.propertyPath name) FieldValue.text) ++
  S.propertyIntFields.map fun name =>
    fieldStep props (.text name) (S.propertyPath name) FieldValue.integer

/-- The step of the type of the geometry. -/
def typeStep (S : Schema) (geometry : Json.Members) : Step :=
  fieldStep geometry S.geometryTypeField S.geometryTypePath FieldValue.text

/-- The step of the coordinates, which also gives what is no token. -/
def coordinatesStep (S : Schema) (geometry : Json.Members) : Step :=
  (FieldValue.coordinates (S.geometryCoordinatesField.memberOf geometry)).map fun token =>
    some (S.coordinatesPath, token)

/-- The steps of the id and the properties. -/
def leadingSteps (S : Schema) (doc : Json.Members) : List Step :=
  fieldStep doc S.idField S.idField FieldValue.id :: stepsIn doc S.propertiesField (propertySteps S)

/-- The steps of the id, the properties and the geometry. -/
def objectSteps (S : Schema) (doc : Json.Members) : List Step :=
  leadingSteps S doc ++
    stepsIn doc S.geometryField fun geometry => [typeStep S geometry, coordinatesStep S geometry]

theorem lookup_of_isKey {doc : Json.Members} {name : Label} (h : name.keyFault? = none) :
    lookup doc name = pure (name.memberOf doc) := by
  rw [lookup, h]

theorem does_result (path : Label) (result : Except Stop String) :
    Does (match result with
      | .ok token => put path (some token)
      | .error stop => throw stop) [result.map fun token => some (path, some token)] := by
  cases result with
  | ok token => exact does_put path (some token)
  | error stop => exact does_throw stop

theorem does_field {doc : Json.Members} {name path : Label}
    {convert : String → Json.Value → Except Stop String} (h : name.keyFault? = none) :
    Does (field doc name path convert) [fieldStep doc name path convert] := by
  unfold field fieldStep
  rw [lookup_of_isKey h, pure_bind]
  generalize name.memberOf doc = v
  cases v with
  | null => exact fun _ => rfl
  | _ => exact does_result path _

theorem does_fields {doc : Json.Members} {pathOf : String → Label}
    {convert : String → Json.Value → Except Stop String} (names : List String) :
    Does (fields doc pathOf convert names)
      (names.map fun name => fieldStep doc (.text name) (pathOf name) convert) := by
  induction names with
  | nil => exact does_pure
  | cons name rest ih => exact (does_field (Label.keyFault?_text name)).bind ih

theorem does_objectIn {doc : Json.Members} {name : Label} (h : name.keyFault? = none)
    {f : Option Json.Members → Filling Unit} {steps : Json.Members → List Step}
    (hnone : f none = pure ()) (hsome : ∀ members, Does (f (some members)) (steps members)) :
    Does (objectIn doc name >>= f) (stepsIn doc name steps) := by
  unfold objectIn stepsIn
  rw [lookup_of_isKey h, pure_bind]
  generalize name.memberOf doc = v
  cases v with
  | null =>
      rw [pure_bind, hnone]
      exact does_pure
  | object members => exact hsome members
  | _ => exact fun _ => rfl

theorem does_plainFields (S : Schema) (doc : Json.Members) :
    Does (plainFields S doc) (plainSteps S doc) := does_fields S.stringFields

theorem does_properties {S : Schema} (hS : S.NamesKeys) (doc : Json.Members) :
    Does (properties S doc) (stepsIn doc S.propertiesField (propertySteps S)) :=
  does_objectIn hS.propertiesField rfl fun _ => (does_fields _).bind (does_fields _)

theorem does_geometry {S : Schema} (hS : S.NamesKeys) (doc : Json.Members) :
    Does (geometry S doc) (stepsIn doc S.geometryField fun geometry =>
      [typeStep S geometry, coordinatesStep S geometry]) := by
  refine does_objectIn hS.geometryField rfl fun members => ?_
  refine (does_field hS.geometryTypeField).bind ?_
  rw [lookup_of_isKey hS.geometryCoordinatesField, pure_bind, coordinatesStep]
  cases FieldValue.coordinates (S.geometryCoordinatesField.memberOf members) with
  | ok token => exact does_put _ _
  | error stop => exact does_throw stop

theorem does_objects {S : Schema} (hS : S.NamesKeys) (doc : Json.Members) :
    Does (objects S doc) (objectSteps S doc) :=
  (does_field hS.idField).bind ((does_properties hS doc).bind (does_geometry hS doc))

end Filling

/-! ### Values that stop a step -/

/-- Integers beyond the range of binary64. -/
def Json.Value.IsTooLarge (v : Json.Value) : Prop := ∃ z, v = .int z ∧ Binary64.ofInt? z = none

/-- Finite numbers within the range of binary64. -/
def Json.Value.IsFinite : Json.Value → Prop
  | .int z => (Binary64.ofInt? z).isSome
  | .float x => x.isFinite = true
  | _ => False

/-- The value is an array that starts with an integer beyond the range of binary64, or has one after a
finite number at its start. -/
def Json.Value.StartsTooLarge (v : Json.Value) : Prop :=
  ∃ x y rest, v = .array (x :: y :: rest) ∧ (x.IsTooLarge ∨ x.IsFinite ∧ y.IsTooLarge)

namespace FieldValue

/-- The result is no failure: it is a value, or what is wrong with the field. -/
def Tame {α : Type} (result : Except Stop α) : Prop := ∀ f, result ≠ .error (.failure f)

theorem tame_text (field : String) (v : Json.Value) : Tame (text field v) := by
  intro f h
  cases v <;> cases h

theorem tame_whole (field : String) (x : Binary64) : Tame (whole field x) := by
  intro f h
  unfold whole at h
  split at h <;> cases h

theorem tame_integer (field : String) (v : Json.Value) : Tame (integer field v) := by
  intro f h
  cases v with
  | float x => exact tame_whole field x f h
  | string s =>
      simp only [integer] at h
      split at h <;> cases h
  | _ => cases h

theorem tame_id (field : String) (v : Json.Value) : Tame (id field v) := by
  intro f h
  cases v with
  | float x => exact tame_whole field x f h
  | _ => cases h

theorem isFiniteNumber_of_isTooLarge {v : Json.Value} (h : v.IsTooLarge) :
    isFiniteNumber v = .error (.failure (.number .integerTooLarge)) := by
  obtain ⟨z, rfl, hz⟩ := h
  have hnone : Binary64.ofInteger z = .error .integerTooLarge := by rw [Binary64.ofInteger, hz]
  rw [isFiniteNumber, hnone]
  rfl

theorem isFiniteNumber_of_isFinite {v : Json.Value} (h : v.IsFinite) :
    isFiniteNumber v = .ok true := by
  cases v with
  | int z =>
      obtain ⟨x, hx⟩ := Option.isSome_iff_exists.mp h
      have hsome : Binary64.ofInteger z = .ok x := by rw [Binary64.ofInteger, hx]
      rw [isFiniteNumber, hsome]
      rfl
  | float x => exact congrArg _ h
  | _ => exact absurd h (by simp [Json.Value.IsFinite])

theorem isFiniteNumber_of_not {v : Json.Value} (hlarge : ¬ v.IsTooLarge) (hfinite : ¬ v.IsFinite) :
    isFiniteNumber v = .ok false := by
  cases v with
  | int z =>
      cases hz : Binary64.ofInt? z with
      | none => exact absurd ⟨z, rfl, hz⟩ hlarge
      | some x => exact absurd (by simp [Json.Value.IsFinite, hz]) hfinite
  | float x => exact congrArg _ (Bool.eq_false_iff.mpr hfinite)
  | _ => rfl

theorem coordinates_of_startsTooLarge {v : Json.Value} (h : v.StartsTooLarge) :
    coordinates v = .error (.failure (.number .integerTooLarge)) := by
  obtain ⟨x, y, rest, rfl, hx | ⟨hx, hy⟩⟩ := h
  · simp [coordinates, isFiniteNumber_of_isTooLarge hx, bind, Except.bind]
  · simp [coordinates, isFiniteNumber_of_isFinite hx, isFiniteNumber_of_isTooLarge hy, bind,
      Except.bind]

/-- The coordinates are a pair of finite numbers, are no token without a fault, or are no array. -/
theorem tame_coordinates {v : Json.Value} (h : ¬ v.StartsTooLarge) : Tame (coordinates v) := by
  intro f hf
  match v with
  | .array (x :: y :: rest) =>
      have hx : ¬ x.IsTooLarge := fun hx => h ⟨x, y, rest, rfl, .inl hx⟩
      by_cases hxf : x.IsFinite
      · have hy : ¬ y.IsTooLarge := fun hy => h ⟨x, y, rest, rfl, .inr ⟨hxf, hy⟩⟩
        by_cases hyf : y.IsFinite
        · simp [coordinates, isFiniteNumber_of_isFinite hxf, isFiniteNumber_of_isFinite hyf, bind,
            Except.bind, pure, Except.pure] at hf
        · simp [coordinates, isFiniteNumber_of_isFinite hxf, isFiniteNumber_of_not hy hyf, bind,
            Except.bind, pure, Except.pure] at hf
      · simp [coordinates, isFiniteNumber_of_not hx hxf, bind, Except.bind, pure, Except.pure] at hf
  | .array [] | .array [_] | .null | .bool _ | .int _ | .float _ | .string _ | .object _ => cases hf

end FieldValue

namespace Filling

/-! ### Groups of steps -/

open FieldValue (Tame)

/-- What a group of steps warns of: the field that stops it, if one does. -/
def warned (warn : FieldFault → TokenWarning) (steps : List Step) : List TokenWarning :=
  match stop? steps with
  | some (.fault fault) => [warn fault]
  | _ => []

theorem mem_of_stop? {steps : List Step} {stop : Stop} (h : stop? steps = some stop) :
    .error stop ∈ steps := by
  induction steps with
  | nil => cases h
  | cons step steps ih =>
      cases step with
      | error first =>
          cases h
          exact List.mem_cons_self
      | ok entry => exact List.mem_cons_of_mem _ (ih h)

theorem stop?_ne_failure {steps : List Step} (h : ∀ step ∈ steps, Tame step) (f : Failure) :
    stop? steps ≠ some (.failure f) := fun hstop => h _ (mem_of_stop? hstop) f rfl

section fillGroup

variable {x : Filling Unit} {steps : List Step} (h : Does x steps)
  (warn : FieldFault → TokenWarning) (tokens : Tokens)
include h

theorem fillGroup_of_tame (hsteps : ∀ f, stop? steps ≠ some (.failure f)) :
    fillGroup x warn tokens = .ok (tokens.setAll (given steps), warned warn steps) := by
  rw [fillGroup, h tokens, warned]
  cases hstop : stop? steps with
  | none => rfl
  | some stop =>
      cases stop with
      | fault fault => rfl
      | failure f => exact absurd hstop (hsteps f)

theorem fillGroup_of_failure {f : Failure} (hstop : stop? steps = some (.failure f)) :
    fillGroup x warn tokens = .error f := by
  rw [fillGroup, h tokens, hstop]

end fillGroup

theorem tame_map {α β : Type} {result : Except Stop α} (h : Tame result) (f : α → β) :
    Tame (result.map f) := by
  intro g hg
  cases result with
  | ok a => cases hg
  | error stop =>
      cases hg
      exact h g rfl

theorem tame_fieldStep {doc : Json.Members} {name path : Label}
    {convert : String → Json.Value → Except Stop String}
    (h : ∀ field v, Tame (convert field v)) : Tame (fieldStep doc name path convert) := by
  unfold fieldStep
  split
  · exact fun _ h => nomatch h
  · exact tame_map (h _ _) _

theorem tame_of_mem_stepsIn {doc : Json.Members} {name : Label} {steps : Json.Members → List Step}
    (h : ∀ members, name.memberOf doc = .object members → ∀ step ∈ steps members, Tame step) :
    ∀ step ∈ stepsIn doc name steps, Tame step := by
  intro step hstep
  unfold stepsIn at hstep
  split at hstep
  · exact absurd hstep List.not_mem_nil
  · rename_i members hmembers
    exact h members hmembers step hstep
  · obtain rfl := List.mem_singleton.mp hstep
    exact fun _ h => nomatch h

variable (S : Schema) (doc : Json.Members)

theorem tame_of_mem_plainSteps : ∀ step ∈ plainSteps S doc, Tame step := by
  intro step hstep
  obtain ⟨name, _, rfl⟩ := List.mem_map.mp hstep
  exact tame_fieldStep FieldValue.tame_text

theorem tame_of_mem_leadingSteps : ∀ step ∈ leadingSteps S doc, Tame step := by
  intro step hstep
  rcases List.mem_cons.mp hstep with rfl | hstep
  · exact tame_fieldStep FieldValue.tame_id
  · refine tame_of_mem_stepsIn (fun members _ step hstep => ?_) step hstep
    rcases List.mem_append.mp hstep with hstep | hstep
    · obtain ⟨name, _, rfl⟩ := List.mem_map.mp hstep
      exact tame_fieldStep FieldValue.tame_text
    · obtain ⟨name, _, rfl⟩ := List.mem_map.mp hstep
      exact tame_fieldStep FieldValue.tame_integer

end Filling

/-! ### All of tokenizing -/

open Filling

/-- The steps come to coordinates that start with an integer beyond the range of binary64: none before them
is stopped. -/
def Schema.MeetsTooLarge (S : Schema) (doc : Json.Members) : Prop :=
  ∃ geometry, S.geometryField.memberOf doc = .object geometry ∧
    (S.geometryCoordinatesField.memberOf geometry).StartsTooLarge ∧
    stop? (leadingSteps S doc ++ [typeStep S geometry]) = none

theorem stop?_of_meetsTooLarge {S : Schema} {doc : Json.Members} (h : S.MeetsTooLarge doc) :
    stop? (objectSteps S doc) = some (.failure (.number .integerTooLarge)) := by
  obtain ⟨geometry, hgeometry, hstarts, hbefore⟩ := h
  have hsteps : objectSteps S doc =
      (leadingSteps S doc ++ [typeStep S geometry]) ++ [coordinatesStep S geometry] := by
    rw [objectSteps, stepsIn, hgeometry, List.append_assoc]
    rfl
  rw [hsteps, stop?_append, hbefore, coordinatesStep,
    FieldValue.coordinates_of_startsTooLarge hstarts]
  rfl

theorem stop?_of_not_meetsTooLarge {S : Schema} {doc : Json.Members} (h : ¬ S.MeetsTooLarge doc)
    (f : Failure) : stop? (objectSteps S doc) ≠ some (.failure f) := by
  rw [objectSteps, stop?_append]
  cases hleading : stop? (leadingSteps S doc) with
  | some stop =>
      have hne := stop?_ne_failure (tame_of_mem_leadingSteps S doc) f
      rwa [hleading] at hne
  | none =>
      rw [Option.none_or]
      cases htype : S.geometryField.memberOf doc with
      | object geometry =>
          simp only [stepsIn, htype]
          intro hstop
          have htame : FieldValue.Tame (typeStep S geometry) := tame_fieldStep FieldValue.tame_text
          cases hstep : typeStep S geometry with
          | error stop =>
              rw [hstep] at hstop htame
              exact htame f (by simpa [stop?] using hstop)
          | ok entry =>
              have hstarts : ¬ (S.geometryCoordinatesField.memberOf geometry).StartsTooLarge := by
                refine fun hstarts => h ⟨geometry, htype, hstarts, ?_⟩
                rw [stop?_append, hleading, hstep]
                rfl
              have hcoordinates := mem_of_stop? hstop
              rw [hstep] at hcoordinates
              simp only [List.mem_cons, List.not_mem_nil, or_false, reduceCtorEq, false_or] at hcoordinates
              exact tame_map (FieldValue.tame_coordinates hstarts) _ f hcoordinates.symm
      | _ => simp [stepsIn, htype, stop?]

theorem tokenize_of_keys {S : Schema} (hkeys : S.fieldPaths.findSome? (·.keyFault?) = none) (body : String) :
    tokenize S body = tokenizeText S body := by
  unfold tokenize tokenizeValue
  rw [hkeys]

theorem tokenize_eq_tokenizeText {S : Schema} (hS : S.NamesText) (body : String) :
    tokenize S body = tokenizeText S body :=
  tokenize_of_keys (List.findSome?_eq_none_iff.mpr fun _ hp => (hS.isText_of_mem_fieldPaths hp).keyFault?) body

theorem tokenizeText_of_error {S : Schema} {body : String} {e : Json.ReadError}
    (h : Json.read body = .error e) :
    tokenizeText S body = ⟨.ok (.blank S.fieldPaths), [.notJson e.message]⟩ := by
  rw [tokenizeText, h]

theorem tokenizeText_of_object {S : Schema} {body : String} {doc : Json.Members}
    (h : Json.read body = .ok (.object doc)) : tokenizeText S body = tokenizeObject S doc := by
  rw [tokenizeText, h]

theorem tokenizeText_of_not_object {S : Schema} {body : String} {v : Json.Value}
    (h : Json.read body = .ok v) (hv : ∀ doc, v ≠ .object doc) :
    tokenizeText S body = ⟨.ok (.blank S.fieldPaths), [.notObject v.kind]⟩ := by
  rw [tokenizeText, h]
  cases v with
  | object doc => exact absurd rfl (hv doc)
  | _ => rfl

/-- The tokens of a document: those of its steps, group by group. -/
def Schema.tokensOf (S : Schema) (doc : Json.Members) : Tokens :=
  ((Tokens.blank S.fieldPaths).setAll (given (plainSteps S doc))).setAll (given (objectSteps S doc))

/-- What tokenizing a document warns of: the fields that stop its two groups of steps. -/
def Schema.warningsOf (S : Schema) (doc : Json.Members) : List TokenWarning :=
  warned .plainField (plainSteps S doc) ++ warned .objectField (objectSteps S doc)

section tokenizeObject

variable {S : Schema} (hS : S.NamesKeys) {doc : Json.Members}
include hS

/-- A document no step of which meets a failure has the tokens of its steps. -/
theorem tokenizeObject_of_tame (h : ∀ f, stop? (objectSteps S doc) ≠ some (.failure f)) :
    tokenizeObject S doc = ⟨.ok (S.tokensOf doc), S.warningsOf doc⟩ := by
  have hplain := fillGroup_of_tame (does_plainFields S doc) .plainField (Tokens.blank S.fieldPaths)
    (stop?_ne_failure (tame_of_mem_plainSteps S doc))
  rw [tokenizeObject, hplain]
  dsimp only
  rw [fillGroup_of_tame (does_objects hS doc) _ _ h]
  rfl

/-- A failure that stops the steps ends tokenizing. -/
theorem tokenizeObject_of_failure {f : Failure} (h : stop? (objectSteps S doc) = some (.failure f)) :
    (tokenizeObject S doc).result = .error f := by
  have hplain := fillGroup_of_tame (does_plainFields S doc) .plainField (Tokens.blank S.fieldPaths)
    (stop?_ne_failure (tame_of_mem_plainSteps S doc))
  rw [tokenizeObject, hplain]
  dsimp only
  rw [fillGroup_of_failure (does_objects hS doc) _ _ h]

theorem tokenizeObject_of_not_meetsTooLarge (h : ¬ S.MeetsTooLarge doc) :
    tokenizeObject S doc = ⟨.ok (S.tokensOf doc), S.warningsOf doc⟩ :=
  tokenizeObject_of_tame hS (stop?_of_not_meetsTooLarge h)

theorem tokenizeObject_of_meetsTooLarge (h : S.MeetsTooLarge doc) :
    (tokenizeObject S doc).result = .error (.number .integerTooLarge) :=
  tokenizeObject_of_failure hS (stop?_of_meetsTooLarge h)

end tokenizeObject

/-- What tokenizing a body gives and warns of: no token where the body is no document, and else those of its
steps. -/
structure Schema.Tokenizes (S : Schema) (body : String) (tokens : Tokens)
    (warnings : List TokenWarning) : Prop where
  notJson : ∀ e, Json.read body = .error e →
    tokens = .blank S.fieldPaths ∧ warnings = [.notJson e.message]
  notObject : ∀ v, Json.read body = .ok v → (∀ doc, v ≠ .object doc) →
    tokens = .blank S.fieldPaths ∧ warnings = [.notObject v.kind]
  object : ∀ doc, Json.read body = .ok (.object doc) →
    tokens = S.tokensOf doc ∧ warnings = S.warningsOf doc

theorem exists_tokenizes {S : Schema} (hS : S.NamesText) {body : String}
    (hbody : ∀ doc, Json.read body = .ok (.object doc) → ¬ S.MeetsTooLarge doc) :
    ∃ tokens warnings, tokenize S body = ⟨.ok tokens, warnings⟩ ∧ S.Tokenizes body tokens warnings := by
  rw [tokenize_eq_tokenizeText hS]
  cases hread : Json.read body with
  | error e =>
      refine ⟨_, _, tokenizeText_of_error hread, fun e' he' => ?_, fun v hv => ?_, fun doc hdoc => ?_⟩
      · cases hread.symm.trans he'
        exact ⟨rfl, rfl⟩
      · cases hread.symm.trans hv
      · cases hread.symm.trans hdoc
  | ok v =>
      by_cases hobject : ∃ doc, v = .object doc
      · obtain ⟨doc, rfl⟩ := hobject
        rw [tokenizeText_of_object hread]
        refine ⟨_, _, tokenizeObject_of_not_meetsTooLarge hS.namesKeys (hbody doc hread), fun e he => ?_,
          fun v hv hne => ?_, fun doc' hdoc => ?_⟩
        · cases hread.symm.trans he
        · cases hread.symm.trans hv
          exact absurd rfl (hne doc)
        · cases hread.symm.trans hdoc
          exact ⟨rfl, rfl⟩
      · have hne : ∀ doc, v ≠ .object doc := fun doc h => hobject ⟨doc, h⟩
        refine ⟨_, _, tokenizeText_of_not_object hread hne, fun e he => ?_, fun v' hv _ => ?_,
          fun doc hdoc => ?_⟩
        · cases hread.symm.trans he
        · cases hread.symm.trans hv
          exact ⟨rfl, rfl⟩
        · cases hread.symm.trans hdoc
          exact absurd rfl (hne doc)

/-- Tokenizing a body fails where its document comes to an integer beyond the range of binary64 in its
coordinates.  Otherwise it gives tokens for the field paths, each once: none where the body is no document,
and else those of its steps up to the first that is stopped, in each of the two groups, with a warning for
each stop. -/
theorem tokenize_total {S : Schema} (hS : S.NamesText) (body : String) :
    (∀ doc, Json.read body = .ok (.object doc) → S.MeetsTooLarge doc →
      (tokenize S body).result = .error (.number .integerTooLarge)) ∧
    ((∀ doc, Json.read body = .ok (.object doc) → ¬ S.MeetsTooLarge doc) →
      ∃ tokens warnings, tokenize S body = ⟨.ok tokens, warnings⟩ ∧
        S.Tokenizes body tokens warnings ∧ (tokens.map (·.1)).Nodup ∧
        ∀ p, p ∈ tokens.map (·.1) ↔ p ∈ S.fieldPaths) := by
  refine ⟨fun doc hread hmeets => ?_, fun hbody => ?_⟩
  · rw [tokenize_eq_tokenizeText hS, tokenizeText_of_object hread]
    exact tokenizeObject_of_meetsTooLarge hS.namesKeys hmeets
  · obtain ⟨tokens, warnings, htokens, hends⟩ := exists_tokenizes hS hbody
    have hisText : ∀ p ∈ S.fieldPaths, p.IsText := fun _ hp => hS.isText_of_mem_fieldPaths hp
    have hpaths := map_fst_of_tokenize_of_isText hisText (congrArg Tokenized.result htokens)
    refine ⟨tokens, warnings, htokens, hends, ?_, fun p => ?_⟩
    · rw [hpaths]
      exact Label.nodup_distinct hisText
    · rw [hpaths]
      exact Label.mem_distinct_iff hisText

theorem Schema.namesText_incidents : Schema.incidents.NamesText :=
  ⟨⟨_, rfl⟩, ⟨_, rfl⟩, ⟨_, rfl⟩, ⟨_, rfl⟩, ⟨_, rfl⟩, ⟨_, rfl⟩⟩

/-- A document of which one field is of the wrong kind. -/
def wrongKind : Json.Members :=
  [("type", .string "Feature"), ("_id", .string "x7"), ("properties", .object [("SQ_FT", .bool true)])]

/-- Its text. -/
def wrongKindText : String :=
  "\x7b\"type\":\"Feature\",\"_id\":\"x7\",\"properties\":\x7b\"SQ_FT\":true\x7d\x7d"

theorem tokenize_total_wrongKind :
    tokenize .incidents wrongKindText =
      ⟨.ok (((Tokens.blank Schema.incidents.fieldPaths).set "type" (some "Feature")).set "_id" (some "x7")),
        [.objectField (.notInteger "SQ_FT" (.bool true))]⟩ := by
  have hchars : Json.readChars wrongKindText.toList = .ok (.object wrongKind) := by cbv
  have hread : Json.read wrongKindText = .ok (.object wrongKind) := by
    rw [Json.read, hchars]
    rfl
  have hbody : ∀ doc, Json.read wrongKindText = .ok (.object doc) →
      ¬ Schema.incidents.MeetsTooLarge doc := by
    rintro doc hdoc ⟨geometry, hgeometry, _⟩
    cases hread.symm.trans hdoc
    cases hgeometry
  obtain ⟨tokens, warnings, htokens, hends, _⟩ :=
    (tokenize_total Schema.namesText_incidents _).2 hbody
  obtain ⟨rfl, rfl⟩ := hends.object _ hread
  exact htokens

/-! ### A point too far -/

/-- A document with a point that starts with an integer. -/
def pointAt (z : Int) : Json.Members :=
  [("geometry", .object [("coordinates", .array [.int z, .int 0])])]

/-- Its text, where characters write the integer. -/
def pointText (s : List Char) : List Char :=
  Json.single "geometry".toList (Json.single "coordinates".toList ('[' :: (s ++ [',', '0', ']'])))

theorem read_pointText {s : List Char} {z : Int} (h : Json.Number s (.int z)) :
    Json.read (String.ofList (pointText s)) = .ok (.object (pointAt z)) := by
  have hzero : Json.Number ['0'] (.int 0) :=
    .int false ⟨⟨by decide, Json.forall_mem_of_all (by decide)⟩, by decide⟩ (by decide)
  have hpair := Json.Writes.array Json.blanks_nil
    (.item (.number h) Json.blanks_nil Json.blanks_nil (.lastItem (.number hzero) Json.blanks_nil))
  simp only [List.nil_append, List.append_nil, List.append_assoc, List.cons_append] at hpair
  have hpoint := Json.writes_single (Json.content_self (s := "coordinates".toList) (by decide)) hpair
  have hdoc := Json.writes_single (Json.content_self (s := "geometry".toList) (by decide)) hpoint
  have hread := Json.read_of_isText ⟨[], _, [], rfl, Json.blanks_nil, hdoc, Json.blanks_nil⟩
  rw [List.nil_append, List.append_nil] at hread
  exact hread

theorem meetsTooLarge_pointAt {z : Int} (h : Binary64.ofInt? z = none) :
    Schema.incidents.MeetsTooLarge (pointAt z) :=
  ⟨_, rfl, ⟨_, _, _, rfl, .inl ⟨z, rfl, h⟩⟩, rfl⟩

/-- A one and 309 zeros: an integer beyond the range of binary64. -/
def farDigits : List Char := '1' :: List.replicate 309 '0'

theorem number_farDigits : Json.Number farDigits (.int (Json.valueOf farDigits)) := by
  have hdigits : Json.Digits farDigits := by
    refine ⟨List.cons_ne_nil _ _, fun c hc => ?_⟩
    rcases List.mem_cons.mp hc with rfl | hc
    · decide
    · obtain rfl := List.eq_of_mem_replicate hc
      decide
  have hlen : farDigits.length ≤ Numeral.maxDigits := by
    rw [farDigits, List.length_cons, List.length_replicate]
    decide
  exact .int false ⟨hdigits, fun h => absurd (Option.some.inj h) (by decide)⟩ hlen

/-- The point whose first coordinate it is ends tokenizing. -/
theorem tokenize_farPoint :
    (tokenize .incidents (String.ofList (pointText farDigits))).result = .error (.number .integerTooLarge) := by
  have hlarge : Binary64.ofInt? (Json.valueOf farDigits) = none := by decide +kernel
  rw [tokenize_eq_tokenizeText Schema.namesText_incidents,
    tokenizeText_of_object (read_pointText number_farDigits)]
  exact tokenizeObject_of_meetsTooLarge Schema.namesText_incidents.namesKeys (meetsTooLarge_pointAt hlarge)

end GeoWorkload
