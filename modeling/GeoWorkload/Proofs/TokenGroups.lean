import GeoWorkload.Proofs.TokenSteps

/-!
# Groups of tokens apart

The steps that fill the tokens of a document form two groups: those of the plain fields, in the order of the schema,
and those of the parts of its objects (`ObjectPart`), from the id to the coordinates.  Each part reads one value of the
document, which is converted or stops the rest of the group.

Whatever the names of a schema are, a filling that does not fail does its steps (`Filling.Follows`).  So where the field
paths are different keys, a token is the conversion of the value that its own step reads, or nothing if that step or one
before it in the group is stopped (`Filling.get_setAll_given`), and the values of the one group decide nothing about the
tokens of the other (`tokenize_groups_apart`).
-/

namespace GeoWorkload

/-! ### Tokens under paths -/

theorem LabelMap.get?_setAll_of_not_same {α : Type} {entries : List (Label × α)} {key : Label}
    (h : ∀ e ∈ entries, e.1.same key = false) (m : LabelMap α) : (m.setAll entries).get? key = m.get? key := by
  induction entries generalizing m with
  | nil => rfl
  | cons e entries ih =>
      obtain ⟨hfirst, hrest⟩ := List.forall_mem_cons.mp h
      refine (ih hrest (m.set e.1 e.2)).trans ?_
      rw [get?_set, hfirst, if_neg Bool.false_ne_true]

theorem Tokens.get_setAll_of_not_same {entries : List (Label × Option String)} {path : Label}
    (h : ∀ e ∈ entries, e.1.same path = false) (tokens : Tokens) :
    Tokens.get (tokens.setAll entries) path = tokens.get path := by
  unfold Tokens.get
  rw [LabelMap.get?_setAll_of_not_same h]

theorem Tokens.get_blank (paths : List Label) (path : Label) : (Tokens.blank paths).get path = none := by
  unfold Tokens.get LabelMap.get? Tokens.blank
  rw [List.find?_map]
  rcases List.find? _ _ with _ | p <;> rfl

namespace Filling

/-! ### Fillings that may fail -/

/-- The filling fails, or it puts what the steps give and ends where they are stopped. -/
def Follows (x : Filling Unit) (steps : List Step) : Prop :=
  ∀ tokens : Tokens, (∃ f, (x.run.run tokens).1 = .error (.failure f)) ∨
    x.run.run tokens =
      (match stop? steps with
        | none => .ok ()
        | some stop => .error stop, tokens.setAll (given steps))

theorem Does.follows {x : Filling Unit} {steps : List Step} (h : Does x steps) : Follows x steps :=
  fun tokens => Or.inr (h tokens)

theorem Follows.bind {x : Filling Unit} {f : Unit → Filling Unit} {steps more : List Step} (hx : Follows x steps)
    (hf : Follows (f ()) more) : Follows (x >>= f) (steps ++ more) := by
  intro tokens
  show (∃ e, (match x.run.run tokens with
    | (r, tokens') => (ExceptT.bindCont f r tokens' : Except Stop Unit × Tokens)).1 = .error (.failure e)) ∨
    (match x.run.run tokens with
    | (r, tokens') => (ExceptT.bindCont f r tokens' : Except Stop Unit × Tokens)) = _
  rcases hx tokens with ⟨e, he⟩ | hx
  · left
    rcases hrun : x.run.run tokens with ⟨r, tokens'⟩
    rw [hrun] at he
    cases he
    exact ⟨e, rfl⟩
  · rw [hx, stop?_append, given_append]
    cases h : stop? steps with
    | none =>
        rw [Option.isNone_none, if_pos rfl, LabelMap.setAll_append]
        exact hf _
    | some stop =>
        rw [Option.isNone_some, if_neg Bool.false_ne_true, List.append_nil]
        exact Or.inr rfl

/-- A name that is no key ends all, and what follows any other one is decided by its value. -/
theorem follows_lookup (doc : Json.Members) (name : Label) {f : Json.Value → Filling Unit} {steps : List Step}
    (h : Follows (f (name.memberOf doc)) steps) : Follows (lookup doc name >>= f) steps := by
  cases hkey : name.keyFault? with
  | none => rwa [lookup_of_isKey hkey, pure_bind]
  | some fault =>
      intro tokens
      rw [lookup, hkey]
      exact Or.inl ⟨.label fault, rfl⟩

theorem follows_field (doc : Json.Members) (name path : Label)
    (convert : String → Json.Value → Except Stop String) :
    Follows (field doc name path convert) [fieldStep doc name path convert] := by
  unfold field fieldStep
  refine follows_lookup doc name ?_
  generalize name.memberOf doc = v
  cases v with
  | null => exact Does.follows fun _ => rfl
  | _ => exact (does_result path _).follows

theorem follows_objectIn (doc : Json.Members) (name : Label) {f : Option Json.Members → Filling Unit}
    {steps : Json.Members → List Step} (hnone : f none = pure ())
    (hsome : ∀ members, Follows (f (some members)) (steps members)) :
    Follows (objectIn doc name >>= f) (stepsIn doc name steps) := by
  unfold objectIn stepsIn
  rw [bind_assoc]
  refine follows_lookup doc name ?_
  generalize name.memberOf doc = v
  cases v with
  | null =>
      rw [pure_bind, hnone]
      exact does_pure.follows
  | object members => exact hsome members
  | _ => exact Does.follows fun _ => rfl

theorem follows_objects (S : Schema) (doc : Json.Members) : Follows (objects S doc) (objectSteps S doc) := by
  have hproperties : Follows (properties S doc) (stepsIn doc S.propertiesField (propertySteps S)) :=
    follows_objectIn doc _ rfl fun members => (does_fields _).follows.bind (does_fields _).follows
  refine (follows_field doc _ _ _).bind (hproperties.bind ?_)
  refine follows_objectIn doc _ rfl fun members => (follows_field members _ _ _).bind ?_
  refine follows_lookup members _ ?_
  unfold coordinatesStep
  cases FieldValue.coordinates (S.geometryCoordinatesField.memberOf members) with
  | ok token => exact (does_put _ _).follows
  | error stop => exact (does_throw stop).follows

/-- What a filling that does not fail has filled. -/
theorem Follows.of_fillGroup {x : Filling Unit} {steps : List Step} (h : Follows x steps)
    {warn : FieldFault → TokenWarning} {tokens tokens' : Tokens} {warnings : List TokenWarning}
    (hfill : fillGroup x warn tokens = .ok (tokens', warnings)) : tokens' = tokens.setAll (given steps) := by
  unfold fillGroup at hfill
  rcases h tokens with ⟨f, hf⟩ | h
  · rcases hrun : x.run.run tokens with ⟨r, filled⟩
    rw [hrun] at hf hfill
    cases hf
    cases hfill
  · rw [h] at hfill
    rcases hstop : stop? steps with _ | stop
    · rw [hstop] at hfill
      cases hfill
      rfl
    · rw [hstop] at hfill
      cases stop with
      | fault fault =>
          cases hfill
          rfl
      | failure f => cases hfill

end Filling

open Filling

/-- Whatever the names of the schema are, the tokens of a document are those of its steps. -/
theorem tokensOf_of_tokenize {S : Schema} {body : String} {doc : Json.Members} {tokens : Tokens}
    (hread : Json.read body = .ok (.object doc)) (h : (tokenize S body).result = .ok tokens) :
    tokens = S.tokensOf doc := by
  unfold tokenize tokenizeValue at h
  split at h
  · cases h
  · rename_i hbody
    cases hbody
    rw [tokenizeText_of_object hread] at h
    unfold tokenizeObject at h
    split at h
    · cases h
    · rename_i filled warnings hplain
      split at h
      · cases h
      · rename_i filled' more hobjects
        cases h
        rw [(follows_objects S doc).of_fillGroup hobjects, (does_plainFields S doc).follows.of_fillGroup hplain]
        rfl
  · rename_i hbody
    exact absurd rfl (hbody body)

/-! ### The token of a step -/

namespace Filling

/-- The token that a step gives. -/
def tokenOf : Step → Option String
  | .ok (some entry) => entry.2
  | _ => none

section steps

variable {α : Type} {step : α → Step} {path : α → Option Label}

theorem exists_of_mem_given {items : List α} {e : Label × Option String} (he : e ∈ given (items.map step)) :
    ∃ a ∈ items, step a = .ok (some e) := by
  induction items with
  | nil => exact absurd he List.not_mem_nil
  | cons a items ih =>
      rw [List.map_cons] at he
      cases hstep : step a with
      | error stop =>
          rw [hstep] at he
          exact absurd he List.not_mem_nil
      | ok entry =>
          rw [hstep] at he
          rcases List.mem_append.mp he with he | he
          · exact ⟨a, List.mem_cons_self, by rw [hstep, Option.mem_toList.mp he]⟩
          · obtain ⟨b, hb, hstep'⟩ := ih he
            exact ⟨b, List.mem_cons_of_mem a hb, hstep'⟩

/-- Steps that fill other paths leave a token as it was. -/
theorem get_setAll_given_of_apart (hpath : ∀ a e, step a = .ok (some e) → path a = some e.1) {items : List α}
    {p : Label} (hitems : ∀ a ∈ items, ∀ q, path a = some q → q.same p = false) (tokens : Tokens) :
    Tokens.get (tokens.setAll (given (items.map step))) p = tokens.get p := by
  refine Tokens.get_setAll_of_not_same (fun e he => ?_) tokens
  obtain ⟨a, ha, hstep⟩ := exists_of_mem_given he
  exact hitems a ha e.1 (hpath a e hstep)

/-- The token under the path of a step, which no other step fills, is what the step gives, unless it or one before it
is stopped. -/
theorem get_setAll_given (hpath : ∀ a e, step a = .ok (some e) → path a = some e.1) {before after : List α}
    {a : α} {p : Label} (ha : path a = some p) (hbefore : ∀ b ∈ before, ∀ q, path b = some q → q.same p = false)
    (hafter : ∀ b ∈ after, ∀ q, path b = some q → q.same p = false) {tokens : Tokens}
    (htokens : tokens.get p = none) :
    Tokens.get (tokens.setAll (given ((before ++ a :: after).map step))) p =
      if (stop? ((before ++ [a]).map step)).isNone then tokenOf (step a) else none := by
  have hfirst := (get_setAll_given_of_apart hpath hbefore tokens).trans htokens
  rw [List.map_append, List.map_append, given_append, stop?_append, LabelMap.setAll_append]
  cases hstop : stop? (before.map step) with
  | some stop => exact hfirst
  | none =>
      rw [Option.isNone_none, if_pos rfl, List.map_cons, List.map_singleton, Option.none_or]
      cases hstep : step a with
      | error stop => exact hfirst
      | ok entry =>
          cases entry with
          | none => exact (get_setAll_given_of_apart hpath hafter _).trans hfirst
          | some entry =>
              obtain ⟨q, token⟩ := entry
              obtain rfl : q = p := Option.some.inj ((hpath a _ hstep).symm.trans ha)
              refine (get_setAll_given_of_apart hpath hafter _).trans ?_
              unfold Tokens.get
              rw [LabelMap.get?_set_same]
              rfl

end steps

theorem isNone_stop?_iff {steps : List Step} :
    (stop? steps).isNone = true ↔ ∀ step ∈ steps, ∀ stop, step ≠ .error stop := by
  induction steps with
  | nil => exact ⟨fun _ => List.forall_mem_nil _, fun _ => rfl⟩
  | cons step steps ih =>
      rw [List.forall_mem_cons]
      cases step with
      | error stop => exact ⟨fun h => (by cases h), fun h => absurd rfl (h.1 stop)⟩
      | ok entry => exact ih.trans ⟨fun h => ⟨fun _ h => (by cases h), h⟩, fun h => h.2⟩

end Filling

/-! ### Steps that fill from readings -/

/-- The step fills in what a reading comes to: it is stopped where the reading fails, and what it gives is the token
that was read, under the path. -/
structure Filling.FillsIn (path : Option Label) (reading : Except Stop (Option String)) (step : Filling.Step) :
    Prop where
  path : ∀ e, step = .ok (some e) → path = some e.1
  stopped : ∀ stop, reading = .error stop ↔ step = .error stop
  token : reading.toOption.join = tokenOf step

theorem Filling.fillsIn_map {path : Option Label} {reading : Except Stop (Option String)}
    {f : Option String → Option (Label × Option String)}
    (h : ∀ token, reading = .ok token →
      tokenOf (.ok (f token)) = token ∧ ∀ e, f token = some e → path = some e.1) :
    FillsIn path reading (reading.map f) := by
  cases reading with
  | error stop =>
      refine ⟨fun _ he => (by cases he), fun stop' => ?_, rfl⟩
      exact ⟨fun h => (by cases h; rfl), fun h => (by cases h; rfl)⟩
  | ok token =>
      obtain ⟨htoken, hpath⟩ := h token rfl
      refine ⟨fun e he => hpath e (Except.ok.inj he), ?_, htoken.symm⟩
      exact fun _ => ⟨fun h => (by cases h), fun h => (by cases h)⟩

theorem Filling.fillsIn_ok_none (path : Option Label) : FillsIn path (.ok none) (.ok none) where
  path _ he := by cases he
  stopped _ := ⟨fun h => (by cases h), fun h => (by cases h)⟩
  token := rfl

/-- What a field of an object is read as. -/
def Filling.fieldReading (v : Json.Value) (convert : Json.Value → Except Stop String) : Except Stop (Option String) :=
  match v with
  | .null => .ok none
  | v => (convert v).map some

theorem Filling.fillsIn_fieldStep (members : Json.Members) (name path : Label)
    (convert : String → Json.Value → Except Stop String) :
    FillsIn (some path) (fieldReading (name.memberOf members) (convert name.display))
      (fieldStep members name path convert) := by
  have hstep : fieldStep members name path convert = (fieldReading (name.memberOf members) (convert name.display)).map
      (Option.map fun token => (path, some token)) := by
    unfold fieldStep fieldReading
    cases name.memberOf members with
    | null => rfl
    | _ =>
        dsimp only
        cases convert name.display _ <;> rfl
  rw [hstep]
  refine fillsIn_map fun token _ => ?_
  cases token with
  | none => exact ⟨rfl, fun _ he => (by cases he)⟩
  | some token => exact ⟨rfl, fun e he => (by cases he; rfl)⟩

/-- The tokens of items that are filled in turn: up to the first item that is violated each has its own token under its
path, and from there on there are none. -/
structure Tokens.FilledInTurn {α : Type} (tokens : Tokens) (items : List α) (path : α → Option Label)
    (violated : α → Prop) (token : α → Option String) : Prop where
  kept : ∀ before a after p, items = before ++ a :: after → path a = some p →
    (∀ b ∈ before ++ [a], ¬ violated b) → tokens.get p = token a
  lost : ∀ before a after p, items = before ++ a :: after → path a = some p →
    (∃ b ∈ before ++ [a], violated b) → tokens.get p = none

section filledInTurn

variable {α : Type} {items : List α} {path : α → Option Label}

/-- Steps that fill different paths fill the tokens in turn. -/
theorem Filling.filledInTurn {step : α → Step} {reading : α → Except Stop (Option String)}
    (hfills : ∀ a, FillsIn (path a) (reading a) (step a))
    (hapart : (items.filterMap path).Pairwise fun p q => p.same q = false) {tokens : Tokens}
    (htokens : ∀ a ∈ items, ∀ p, path a = some p → tokens.get p = none) :
    Tokens.FilledInTurn (tokens.setAll (given (items.map step))) items path
      (fun a => ∃ stop, reading a = .error stop) fun a => (reading a).toOption.join := by
  have hget : ∀ before a after p, items = before ++ a :: after → path a = some p →
      Tokens.get (tokens.setAll (given (items.map step))) p =
        if (stop? ((before ++ [a]).map step)).isNone then tokenOf (step a) else none := by
    rintro before a after p rfl ha
    rw [List.filterMap_append, List.filterMap_cons_some ha, List.pairwise_append, List.pairwise_cons] at hapart
    obtain ⟨_, ⟨hafter, _⟩, hbefore⟩ := hapart
    refine get_setAll_given (fun a => (hfills a).path) ha (fun b hb q hq => ?_) (fun b hb q hq => ?_)
      (htokens a (List.mem_append_right _ List.mem_cons_self) p ha)
    · exact hbefore q (List.mem_filterMap.mpr ⟨b, hb, hq⟩) p List.mem_cons_self
    · rw [Label.same_comm]
      exact hafter q (List.mem_filterMap.mpr ⟨b, hb, hq⟩)
  constructor
  · intro before a after p hitems ha hkept
    rw [hget before a after p hitems ha, (hfills a).token, if_pos]
    rw [isNone_stop?_iff, List.forall_mem_map]
    exact fun b hb stop hstop => hkept b hb ⟨stop, ((hfills b).stopped stop).mpr hstop⟩
  · rintro before a after p hitems ha ⟨b, hb, hlost⟩
    rw [hget before a after p hitems ha, if_neg]
    rw [isNone_stop?_iff, List.forall_mem_map]
    obtain ⟨stop, hstop⟩ := hlost
    exact fun h => h b hb stop (((hfills b).stopped stop).mp hstop)

namespace Tokens.FilledInTurn

variable {violated violated' : α → Prop} {token token' : α → Option String} {tokens tokens' : Tokens}

theorem congr (h : tokens.FilledInTurn items path violated token)
    (hviolated : ∀ a ∈ items, (violated a ↔ violated' a)) (htoken : ∀ a ∈ items, token a = token' a) :
    tokens.FilledInTurn items path violated' token' := by
  have hmem : ∀ {before : List α} {a : α} {after : List α}, items = before ++ a :: after →
      ∀ b ∈ before ++ [a], b ∈ items := by
    rintro before a after rfl b hb
    rw [List.append_cons]
    exact List.mem_append_left after hb
  constructor
  · intro before a after p hitems ha hkept
    rw [← htoken a (hmem hitems a (List.mem_append_right before List.mem_cons_self))]
    exact h.kept before a after p hitems ha fun b hb hlost => hkept b hb ((hviolated b (hmem hitems b hb)).mp hlost)
  · rintro before a after p hitems ha ⟨b, hb, hlost⟩
    exact h.lost before a after p hitems ha ⟨b, hb, (hviolated b (hmem hitems b hb)).mpr hlost⟩

/-- Other tokens that are the same under the paths are filled in the same way. -/
theorem of_get_eq (h : tokens.FilledInTurn items path violated token)
    (heq : ∀ a ∈ items, ∀ p, path a = some p → tokens'.get p = tokens.get p) :
    tokens'.FilledInTurn items path violated token where
  kept before a after p hitems ha hkept := by
    rw [heq a (hitems ▸ List.mem_append_right _ List.mem_cons_self) p ha]
    exact h.kept before a after p hitems ha hkept
  lost before a after p hitems ha hlost := by
    rw [heq a (hitems ▸ List.mem_append_right _ List.mem_cons_self) p ha]
    exact h.lost before a after p hitems ha hlost

/-- Such tokens are decided by the items. -/
theorem get_eq (h : tokens.FilledInTurn items path violated token)
    (h' : tokens'.FilledInTurn items path violated token) {a : α} (ha : a ∈ items) {p : Label}
    (hp : path a = some p) :
    tokens'.get p = tokens.get p := by
  obtain ⟨before, after, hitems⟩ := List.append_of_mem ha
  by_cases hlost : ∃ b ∈ before ++ [a], violated b
  · rw [h.lost before a after p hitems hp hlost, h'.lost before a after p hitems hp hlost]
  · have hkept : ∀ b ∈ before ++ [a], ¬ violated b := fun b hb hviolated => hlost ⟨b, hb, hviolated⟩
    rw [h.kept before a after p hitems hp hkept, h'.kept before a after p hitems hp hkept]

end Tokens.FilledInTurn

end filledInTurn

/-! ### The parts of objects -/

/-- The parts of the objects of a document, each of which is read in a step of its own. -/
inductive ObjectPart where
  | id
  | properties
  | propertyText (name : String)
  | propertyInteger (name : String)
  | geometry
  | geometryType
  | coordinates
deriving DecidableEq, Repr

/-- The parts of a document in the order in which they are read. -/
def Schema.parts (S : Schema) : List ObjectPart :=
  [.id, .properties] ++ (S.propertyStringFields.map .propertyText ++ S.propertyIntFields.map .propertyInteger) ++
    [.geometry, .geometryType, .coordinates]

/-- The members of the object under a name; other values have none. -/
def Json.Members.membersIn (doc : Json.Members) (name : Label) : Json.Members :=
  match name.memberOf doc with
  | .object members => members
  | _ => []

namespace ObjectPart

variable (S : Schema) (doc : Json.Members)

/-- The value that a part is read from, null where it is absent. -/
def value : ObjectPart → Json.Value
  | id => S.idField.memberOf doc
  | properties => S.propertiesField.memberOf doc
  | propertyText name | propertyInteger name => (doc.membersIn S.propertiesField).get name
  | geometry => S.geometryField.memberOf doc
  | geometryType => S.geometryTypeField.memberOf (doc.membersIn S.geometryField)
  | coordinates => S.geometryCoordinatesField.memberOf (doc.membersIn S.geometryField)

/-- The token that a value of a part is converted to, if it has one. -/
def convert : ObjectPart → Json.Value → Except Stop (Option String)
  | id, v => (FieldValue.id S.idField.display v).map some
  | properties, v => (FieldValue.object S.propertiesField.display v).map fun _ => none
  | propertyText name, v => (FieldValue.text name v).map some
  | propertyInteger name, v => (FieldValue.integer name v).map some
  | geometry, v => (FieldValue.object S.geometryField.display v).map fun _ => none
  | geometryType, v => (FieldValue.text S.geometryTypeField.display v).map some
  | coordinates, v => FieldValue.coordinates v

/-- What reading a part comes to; where it is absent or null there is no token. -/
def result (part : ObjectPart) : Except Stop (Option String) :=
  match part.value S doc with
  | .null => .ok none
  | v => part.convert S v

/-- The value of the part cannot be converted. -/
def IsViolated (part : ObjectPart) : Prop := ∃ stop, part.result S doc = .error stop

instance (part : ObjectPart) : Decidable (part.IsViolated S doc) :=
  match h : part.result S doc with
  | .error stop => isTrue ⟨stop, h⟩
  | .ok _ => isFalse fun ⟨_, hstop⟩ => by rw [h] at hstop; cases hstop

/-- The token of the part, if it has one. -/
def token (part : ObjectPart) : Option String := (part.result S doc).toOption.join

/-- The path of the token of a part; that a value is an object gives no token. -/
def path? : ObjectPart → Option Label
  | id => some S.idField
  | propertyText name | propertyInteger name => some (S.propertyPath name)
  | geometryType => some S.geometryTypePath
  | coordinates => some S.coordinatesPath
  | properties | geometry => none

/-- The step of a part. -/
def step : ObjectPart → Filling.Step
  | id => Filling.fieldStep doc S.idField S.idField FieldValue.id
  | part@properties | part@geometry => (part.result S doc).map fun _ => none
  | propertyText name =>
    Filling.fieldStep (doc.membersIn S.propertiesField) (.text name) (S.propertyPath name) FieldValue.text
  | propertyInteger name =>
    Filling.fieldStep (doc.membersIn S.propertiesField) (.text name) (S.propertyPath name) FieldValue.integer
  | geometryType => Filling.typeStep S (doc.membersIn S.geometryField)
  | coordinates =>
    match S.geometryField.memberOf doc with
    | .object members => Filling.coordinatesStep S members
    | _ => .ok none

end ObjectPart

namespace Filling

/-- Steps are alike if they give the same and are stopped by the same. -/
structure Alike (steps steps' : List Step) : Prop where
  given : given steps = given steps'
  stop? : stop? steps = stop? steps'

theorem Alike.append {steps steps' more more' : List Step} (h : Alike steps steps') (h' : Alike more more') :
    Alike (steps ++ more) (steps' ++ more') where
  given := by rw [given_append, given_append, h.given, h'.given, h.stop?]
  stop? := by rw [stop?_append, stop?_append, h.stop?, h'.stop?]

theorem alike_refl (steps : List Step) : Alike steps steps := ⟨rfl, rfl⟩

theorem fieldStep_nil (name path : Label) (convert : String → Json.Value → Except Stop String) :
    fieldStep [] name path convert = .ok none := by
  cases name <;> rfl

/-- The fields of an object without members give nothing. -/
theorem alike_fields_nil (pathOf : String → Label) (convert : String → Json.Value → Except Stop String)
    (names : List String) : Alike (names.map fun name => fieldStep [] (.text name) (pathOf name) convert) [] := by
  induction names with
  | nil => exact alike_refl []
  | cons name names ih => exact ⟨ih.given, ih.stop?⟩

variable (S : Schema) (doc : Json.Members)

theorem alike_properties : Alike (ObjectPart.properties.step S doc ::
    ((S.propertyStringFields.map fun name => ObjectPart.step S doc (.propertyText name)) ++
      S.propertyIntFields.map fun name => ObjectPart.step S doc (.propertyInteger name)))
    (stepsIn doc S.propertiesField (propertySteps S)) := by
  simp only [ObjectPart.step, ObjectPart.result, ObjectPart.value, Json.Members.membersIn, stepsIn]
  cases S.propertiesField.memberOf doc with
  | null =>
      have hfields := (alike_fields_nil S.propertyPath FieldValue.text S.propertyStringFields).append
        (alike_fields_nil S.propertyPath FieldValue.integer S.propertyIntFields)
      exact ⟨hfields.given, hfields.stop?⟩
  | _ => exact ⟨rfl, rfl⟩

theorem alike_geometry : Alike ([.geometry, .geometryType, .coordinates].map (ObjectPart.step S doc))
    (stepsIn doc S.geometryField fun geometry => [typeStep S geometry, coordinatesStep S geometry]) := by
  simp only [List.map_cons, List.map_nil, ObjectPart.step, ObjectPart.result, ObjectPart.value,
    Json.Members.membersIn, stepsIn, typeStep]
  cases S.geometryField.memberOf doc with
  | null =>
      rw [fieldStep_nil]
      exact ⟨rfl, rfl⟩
  | _ => exact ⟨rfl, rfl⟩

/-- The steps of the parts come to those of the objects. -/
theorem alike_parts : Alike (S.parts.map (ObjectPart.step S doc)) (objectSteps S doc) := by
  have hsteps : S.parts.map (ObjectPart.step S doc) = [ObjectPart.id.step S doc] ++
      (ObjectPart.properties.step S doc ::
        ((S.propertyStringFields.map fun name => ObjectPart.step S doc (.propertyText name)) ++
          S.propertyIntFields.map fun name => ObjectPart.step S doc (.propertyInteger name))) ++
      [.geometry, .geometryType, .coordinates].map (ObjectPart.step S doc) := by
    simp [Schema.parts, Function.comp_def]
  rw [hsteps]
  exact ((alike_refl _).append (alike_properties S doc)).append (alike_geometry S doc)

end Filling

namespace ObjectPart

open Filling

/-- That a value is an object gives no token. -/
theorem fillsIn_object (path : Option Label) (field : String) (v : Json.Value) {reading : Except Stop (Option String)}
    (h : reading = match v with
      | .null => .ok none
      | v => (FieldValue.object field v).map fun _ => none) :
    FillsIn path reading (reading.map fun _ => none) := by
  refine fillsIn_map fun token htoken => ?_
  rw [h] at htoken
  obtain rfl : none = token := by
    cases v with
    | null => exact Except.ok.inj htoken
    | object members => exact Except.ok.inj htoken
    | _ => cases htoken
  exact ⟨rfl, fun _ he => (by cases he)⟩

/-- The step of a part fills in what the part is read as. -/
theorem fillsIn_step (S : Schema) (doc : Json.Members) (part : ObjectPart) :
    FillsIn (part.path? S) (part.result S doc) (part.step S doc) := by
  cases part with
  | id => exact fillsIn_fieldStep _ _ _ _
  | propertyText name => exact fillsIn_fieldStep _ (.text name) _ _
  | propertyInteger name => exact fillsIn_fieldStep _ (.text name) _ _
  | geometryType => exact fillsIn_fieldStep _ _ _ _
  | properties => exact fillsIn_object _ S.propertiesField.display _ rfl
  | geometry => exact fillsIn_object _ S.geometryField.display _ rfl
  | coordinates =>
      have hreading : coordinates.result S doc =
          FieldValue.coordinates (S.geometryCoordinatesField.memberOf (doc.membersIn S.geometryField)) := by
        unfold result value convert
        cases S.geometryCoordinatesField.memberOf (doc.membersIn S.geometryField) <;> rfl
      rw [hreading]
      unfold step Json.Members.membersIn
      cases S.geometryField.memberOf doc with
      | object members =>
          refine fillsIn_map fun token _ => ⟨rfl, fun e he => ?_⟩
          cases he
          rfl
      | _ =>
          have hnull : S.geometryCoordinatesField.memberOf [] = .null := by
            cases S.geometryCoordinatesField <;> rfl
          dsimp only
          rw [hnull]
          exact fillsIn_ok_none _

end ObjectPart

/-! ### Groups apart -/

/-- The field paths are different keys, and no plain field has the name of the id, the properties or the geometry. -/
structure Schema.GroupsApart (S : Schema) : Prop where
  paths : S.fieldPaths.Pairwise fun p q => p.same q = false
  names : ∀ name ∈ S.stringFields,
    S.idField ≠ .text name ∧ S.propertiesField ≠ .text name ∧ S.geometryField ≠ .text name

/-- A plain field is violated by a value that is neither null nor a text. -/
def PlainField.IsViolated (doc : Json.Members) (name : String) : Prop :=
  doc.get name ≠ .null ∧ ∀ s, doc.get name ≠ .string s

/-- The token of a plain field: its text, if it has one. -/
def PlainField.token (doc : Json.Members) (name : String) : Option String :=
  match doc.get name with
  | .string s => some s
  | _ => none

theorem Schema.fieldPaths_eq (S : Schema) : S.fieldPaths =
    S.stringFields.filterMap (fun name => some (.text name)) ++ S.parts.filterMap (ObjectPart.path? S) := by
  have hfirst : ([.id, .properties] : List ObjectPart).filterMap (ObjectPart.path? S) = [S.idField] := rfl
  have hlast : ([.geometry, .geometryType, .coordinates] : List ObjectPart).filterMap (ObjectPart.path? S) =
      [S.geometryTypePath, S.coordinatesPath] := rfl
  have htexts : (S.propertyStringFields.map ObjectPart.propertyText).filterMap (ObjectPart.path? S) =
      S.propertyStringFields.map S.propertyPath := by
    rw [List.filterMap_map]
    exact congrFun List.filterMap_eq_map' _
  have hintegers : (S.propertyIntFields.map ObjectPart.propertyInteger).filterMap (ObjectPart.path? S) =
      S.propertyIntFields.map S.propertyPath := by
    rw [List.filterMap_map]
    exact congrFun List.filterMap_eq_map' _
  rw [parts, List.filterMap_append, List.filterMap_append, List.filterMap_append, hfirst, htexts, hintegers, hlast,
    fieldPaths, propertyFields, List.map_append, List.filterMap_eq_map']
  simp only [List.append_assoc]

theorem PlainField.isViolated_iff {doc : Json.Members} {name : String} :
    (∃ stop, fieldReading (doc.get name) (FieldValue.text name) = .error stop) ↔
      PlainField.IsViolated doc name := by
  unfold PlainField.IsViolated
  cases doc.get name with
  | null => exact ⟨fun ⟨_, h⟩ => (by cases h), fun h => absurd rfl h.1⟩
  | string s => exact ⟨fun ⟨_, h⟩ => (by cases h), fun h => absurd rfl (h.2 s)⟩
  | _ => exact ⟨fun _ => ⟨Json.Value.noConfusion, fun _ => Json.Value.noConfusion⟩, fun _ => ⟨_, rfl⟩⟩

theorem PlainField.toOption_join_fieldReading (doc : Json.Members) (name : String) :
    (fieldReading (doc.get name) (FieldValue.text name)).toOption.join = PlainField.token doc name := by
  unfold PlainField.token
  cases doc.get name <;> rfl

section tokensOf

variable {S : Schema} (hpaths : S.fieldPaths.Pairwise fun p q => p.same q = false) (doc : Json.Members)
include hpaths

/-- The paths of the plain fields are different, those of the parts are, and no path is one of both. -/
theorem Schema.paths_apart :
    (S.stringFields.filterMap fun name => some (Label.text name)).Pairwise (fun p q => p.same q = false) ∧
      (S.parts.filterMap (ObjectPart.path? S)).Pairwise (fun p q => p.same q = false) ∧
      ∀ name ∈ S.stringFields, ∀ part ∈ S.parts, ∀ p, part.path? S = some p →
        (Label.text name).same p = false := by
  rw [S.fieldPaths_eq, List.pairwise_append] at hpaths
  obtain ⟨hplain, hparts, hapart⟩ := hpaths
  refine ⟨hplain, hparts, fun name hname part hpart p hp => ?_⟩
  exact hapart _ (List.mem_filterMap.mpr ⟨name, hname, rfl⟩) p (List.mem_filterMap.mpr ⟨part, hpart, hp⟩)

theorem Schema.filledInTurn_plain : (S.tokensOf doc).FilledInTurn S.stringFields (fun name => some (.text name))
    (PlainField.IsViolated doc) (PlainField.token doc) := by
  obtain ⟨hplain, _, hapart⟩ := S.paths_apart hpaths
  have hfills : ∀ name, FillsIn (some (.text name)) (fieldReading (doc.get name) (FieldValue.text name))
      (fieldStep doc (.text name) (.text name) FieldValue.text) :=
    fun name => fillsIn_fieldStep doc (.text name) (.text name) FieldValue.text
  have hturn := (Filling.filledInTurn hfills hplain fun _ _ p _ => Tokens.get_blank S.fieldPaths p).congr
    (fun _ _ => PlainField.isViolated_iff) fun name _ => PlainField.toOption_join_fieldReading doc name
  -- the parts of objects fill none of the paths of the plain fields
  refine hturn.of_get_eq fun name hname p hp => ?_
  unfold Schema.tokensOf
  rw [← (alike_parts S doc).given]
  refine get_setAll_given_of_apart (fun part => (ObjectPart.fillsIn_step S doc part).path) (fun part hpart q hq => ?_) _
  obtain rfl := Option.some.inj hp
  rw [Label.same_comm]
  exact hapart name hname part hpart q hq

theorem Schema.filledInTurn_objects : (S.tokensOf doc).FilledInTurn S.parts (ObjectPart.path? S)
    (ObjectPart.IsViolated S doc) (ObjectPart.token S doc) := by
  obtain ⟨_, hparts, hapart⟩ := S.paths_apart hpaths
  unfold Schema.tokensOf
  rw [← (alike_parts S doc).given]
  refine Filling.filledInTurn (ObjectPart.fillsIn_step S doc) hparts fun part hpart p hp => ?_
  refine (get_setAll_given_of_apart (fun name => (fillsIn_fieldStep doc (.text name) (.text name) _).path)
    (fun name hname q hq => ?_) _).trans (Tokens.get_blank S.fieldPaths p)
  obtain rfl := Option.some.inj hq
  exact hapart name hname part hpart p hp

end tokensOf

/-! ### Documents that agree on a group -/

/-- Two documents have the same values under some names. -/
def Json.Members.Agree (names : String → Prop) (doc doc' : Json.Members) : Prop :=
  ∀ name, names name → doc'.get name = doc.get name

theorem Label.memberOf_eq_of_agree {names : String → Prop} {doc doc' : Json.Members} (h : doc.Agree names doc')
    {l : Label} (hl : ∀ name, l = .text name → names name) : l.memberOf doc' = l.memberOf doc := by
  cases l with
  | text name => exact h name (hl name rfl)
  | _ => rfl

/-- The parts are read from the values of the id, the properties and the geometry. -/
theorem ObjectPart.result_eq_of_agree {S : Schema} {names : String → Prop} {doc doc' : Json.Members}
    (h : doc.Agree names doc') (hnames : ∀ name, S.idField = .text name ∨ S.propertiesField = .text name ∨
      S.geometryField = .text name → names name) : ObjectPart.result S doc' = ObjectPart.result S doc := by
  have hid := Label.memberOf_eq_of_agree h (l := S.idField) fun name hname => hnames name (.inl hname)
  have hproperties := Label.memberOf_eq_of_agree h (l := S.propertiesField) fun name hname =>
    hnames name (.inr (.inl hname))
  have hgeometry := Label.memberOf_eq_of_agree h (l := S.geometryField) fun name hname =>
    hnames name (.inr (.inr hname))
  have hvalue : ObjectPart.value S doc' = ObjectPart.value S doc := by
    funext part
    cases part <;> simp only [value, Json.Members.membersIn, hid, hproperties, hgeometry]
  funext part
  rw [result, result, hvalue]

/-- Where the field paths are different keys and no plain field has the name of the id, the properties or the geometry,
the two groups of tokens are filled in turn: the plain fields in the order of the schema, and the parts of the objects
from the id to the coordinates.  A document that differs in plain fields only has the same tokens under all other paths,
and one that differs in the id, the properties and the geometry only has the same tokens of the plain fields. -/
theorem tokenize_groups_apart {S : Schema} (hS : S.GroupsApart) {body : String} {doc : Json.Members} {tokens : Tokens}
    (hread : Json.read body = .ok (.object doc)) (h : (tokenize S body).result = .ok tokens) :
    tokens.FilledInTurn S.stringFields (fun name => some (.text name)) (PlainField.IsViolated doc)
      (PlainField.token doc) ∧
    tokens.FilledInTurn S.parts (ObjectPart.path? S) (ObjectPart.IsViolated S doc) (ObjectPart.token S doc) ∧
    ∀ body' doc' tokens', Json.read body' = .ok (.object doc') → (tokenize S body').result = .ok tokens' →
      (doc.Agree (· ∉ S.stringFields) doc' →
        ∀ p ∈ S.fieldPaths, (∀ name ∈ S.stringFields, p ≠ .text name) → tokens'.get p = tokens.get p) ∧
      (doc.Agree (fun name => S.idField ≠ .text name ∧ S.propertiesField ≠ .text name ∧
          S.geometryField ≠ .text name) doc' →
        ∀ name ∈ S.stringFields, tokens'.get (.text name) = tokens.get (.text name)) := by
  obtain rfl := tokensOf_of_tokenize hread h
  refine ⟨S.filledInTurn_plain hS.paths doc, S.filledInTurn_objects hS.paths doc, fun body' doc' tokens' hread' h' => ?_⟩
  obtain rfl := tokensOf_of_tokenize hread' h'
  refine ⟨fun hagree p hp hother => ?_, fun hagree name hname => ?_⟩
  · have hresult : ObjectPart.result S doc' = ObjectPart.result S doc := by
      refine ObjectPart.result_eq_of_agree hagree fun name hname hplain => ?_
      obtain ⟨hid, hproperties, hgeometry⟩ := hS.names name hplain
      rcases hname with hname | hname | hname
      · exact hid hname
      · exact hproperties hname
      · exact hgeometry hname
    have hobjects' : (S.tokensOf doc').FilledInTurn S.parts (ObjectPart.path? S) (ObjectPart.IsViolated S doc)
        (ObjectPart.token S doc) :=
      (S.filledInTurn_objects hS.paths doc').congr (fun part _ => by rw [ObjectPart.IsViolated, ObjectPart.IsViolated, hresult])
        fun part _ => by rw [ObjectPart.token, ObjectPart.token, hresult]
    rw [S.fieldPaths_eq, List.mem_append] at hp
    rcases hp with hp | hp
    · obtain ⟨name, hname, hp⟩ := List.mem_filterMap.mp hp
      exact absurd (Option.some.inj hp).symm (hother name hname)
    · obtain ⟨part, hpart, hp⟩ := List.mem_filterMap.mp hp
      exact (S.filledInTurn_objects hS.paths doc).get_eq hobjects' hpart hp
  · have hplain' : (S.tokensOf doc').FilledInTurn S.stringFields (fun name => some (.text name))
        (PlainField.IsViolated doc) (PlainField.token doc) :=
      (S.filledInTurn_plain hS.paths doc').congr
        (fun name hname => by rw [PlainField.IsViolated, PlainField.IsViolated, hagree name (hS.names name hname)])
        fun name hname => by rw [PlainField.token, PlainField.token, hagree name (hS.names name hname)]
    exact (S.filledInTurn_plain hS.paths doc).get_eq hplain' hname rfl

theorem Schema.groupsApart_incidents : Schema.incidents.GroupsApart where
  paths := by decide
  names := by decide

/-- A report in which a field of the properties is of the wrong kind, and its type any value. -/
def mistypedReport (type : Json.Value) : Json.Members :=
  [("type", type), ("_id", .string "x7"), ("properties", .object [("LOCATION", .string "here"), ("SQ_FT", .bool true)]),
    ("geometry", .object [("type", .string "Point")])]

/-- Its text, from that of the type. -/
def mistypedReportText (type : String) : String :=
  "\x7b\"type\":" ++ type ++ ",\"_id\":\"x7\",\"properties\":\x7b\"LOCATION\":\"here\",\"SQ_FT\":true\x7d," ++
    "\"geometry\":\x7b\"type\":\"Point\"\x7d\x7d"

theorem exists_tokenize_mistypedReport {text : String} {type : Json.Value}
    (hread : Json.read text = .ok (.object (mistypedReport type))) :
    ∃ tokens, (tokenize .incidents text).result = .ok tokens := by
  obtain ⟨tokens, _, htokens, _⟩ := exists_tokenizes Schema.namesText_incidents fun doc hdoc => by
    -- there are no coordinates
    rintro ⟨geometry, hgeometry, ⟨x, y, rest, hstarts, _⟩, _⟩
    cases hread.symm.trans hdoc
    cases hgeometry
    cases hstarts
  exact ⟨tokens, congrArg Tokenized.result htokens⟩

theorem tokenize_groups_apart_mistypedReport : ∃ tokens tokens',
    (tokenize .incidents (mistypedReportText "true")).result = .ok tokens ∧
    (tokenize .incidents (mistypedReportText "\"Feature\"")).result = .ok tokens' ∧
    tokens.get "type" = none ∧ tokens.get "_id" = some "x7" ∧
    tokens.get (Schema.incidents.propertyPath "LOCATION") = some "here" ∧
    tokens.get (Schema.incidents.propertyPath "SQ_FT") = none ∧
    tokens.get Schema.incidents.geometryTypePath = none ∧
    tokens'.get "_id" = tokens.get "_id" := by
  have hread : Json.read (mistypedReportText "true") = .ok (.object (mistypedReport (.bool true))) :=
    Json.read_of_readChars (by cbv)
  have hread' : Json.read (mistypedReportText "\"Feature\"") = .ok (.object (mistypedReport (.string "Feature"))) :=
    Json.read_of_readChars (by cbv)
  obtain ⟨tokens, htokens⟩ := exists_tokenize_mistypedReport hread
  obtain ⟨tokens', htokens'⟩ := exists_tokenize_mistypedReport hread'
  obtain ⟨hplain, hparts, hapart⟩ := tokenize_groups_apart Schema.groupsApart_incidents hread htokens
  have htype : PlainField.IsViolated (mistypedReport (.bool true)) "type" :=
    ⟨fun h => (by cases h), fun s h => (by cases h)⟩
  have hagree : (mistypedReport (.bool true)).Agree (· ∉ Schema.incidents.stringFields)
      (mistypedReport (.string "Feature")) := by
    intro name hname
    have hne : ¬ "type" = name := by
      rintro rfl
      exact hname List.mem_cons_self
    simp only [mistypedReport, Json.Members.get, Json.Members.get?, List.find?_cons, hne, decide_false]
  refine ⟨tokens, tokens', htokens, htokens', ?_, ?_, ?_, ?_, ?_, ?_⟩
  · exact hplain.lost [] "type" [] _ rfl rfl ⟨"type", List.mem_cons_self, htype⟩
  · exact hparts.kept [] .id _ _ rfl rfl (by decide)
  · exact hparts.kept [.id, .properties, .propertyText "INCIDENT_NUMBER"] (.propertyText "LOCATION") _ _ rfl rfl
      (by decide)
  · exact hparts.lost (Schema.incidents.parts.take 11) (.propertyInteger "SQ_FT") _ _ rfl rfl (by decide)
  · exact hparts.lost (Schema.incidents.parts.take 13) .geometryType _ _ rfl rfl (by decide)
  · exact (hapart _ _ tokens' hread' htokens').1 hagree "_id" (by decide) (by decide)

end GeoWorkload
