import GeoWorkload.Amount
import GeoWorkload.Json.Display
import GeoWorkload.Json.Printer

/-!
# Labels

A label is what stands where a text is expected: as a rule a text, but a definition may give a list of texts
or any other value in its place (`Label`).  Labels are put together like texts: two texts join, and so do two
lists and two numbers.  Others make a broken label, which says what does not join and stays broken
whatever is added to it.  `Label.same` tells whether two labels are the same key.
-/

namespace GeoWorkload

/-- Why a label cannot be used. -/
inductive LabelFault where
  /-- Labels of these kinds do not join. -/
  | notJoinable (left right : String)
  /-- Two numbers have no sum. -/
  | number (error : NumberError)
  /-- A label of this kind is no key. -/
  | noKey (kind : String)
  /-- Labels of these kinds have no order. -/
  | notComparable (left right : String)
deriving DecidableEq, Repr

/-- The wording of a label fault. -/
def LabelFault.message : LabelFault → String
  | notJoinable left right =>
    if left = "str" || left = "tuple" then
      "can only concatenate " ++ left ++ " (not \x22" ++ right ++ "\x22) to " ++ left
    else "unsupported operand type(s) for +: '" ++ left ++ "' and '" ++ right ++ "'"
  | number error => error.message
  | noKey kind => "unhashable type: '" ++ kind ++ "'"
  | notComparable left right =>
    "'<' not supported between instances of '" ++ left ++ "' and '" ++ right ++ "'"

/-- What stands where a text is expected. -/
inductive Label where
  | text (s : String)
  | texts (items : List String)
  /-- A value that is not taken for a text or a list of texts. -/
  | other (value : Json.Value)
  /-- What has come of labels that do not join. -/
  | broken (fault : LabelFault)
deriving DecidableEq, Repr

namespace Label

instance : Coe String Label := ⟨text⟩

instance : Inhabited Label := ⟨text ""⟩

/-- The label that a value is. -/
def ofValue : Json.Value → Label
  | .string s => text s
  | v => other v

/-- The label that an attribute of a definition gives; the items of an array become texts. -/
def ofAttribute : Json.Value → Label
  | .string s => text s
  | .array items => texts (items.map (·.display))
  | v => other v

/-- The name of the kind of a label. -/
def kind : Label → String
  | text _ => "str"
  | texts _ => "tuple"
  | other v => v.kind
  | broken _ => "fault"

/-- The number that a label is, if it is one. -/
def amount? : Label → Option Amount
  | other v => Amount.ofValue? v
  | _ => none

/-- Two labels put together. -/
def join : Label → Label → Label
  | broken fault, _ => broken fault
  | _, broken fault => broken fault
  | text s, text t => text (s ++ t)
  | texts s, texts t => texts (s ++ t)
  | a, b =>
    match a.amount?, b.amount? with
    | some m, some n =>
      match m.add n with
      | .ok sum => other sum.toValue
      | .error e => broken (.number e)
    | _, _ => broken (.notJoinable a.kind b.kind)

instance : Append Label := ⟨join⟩

@[simp] theorem text_append_text (s t : String) : text s ++ text t = text (s ++ t) := rfl

@[simp] theorem broken_append (fault : LabelFault) (l : Label) : broken fault ++ l = broken fault :=
  rfl

/-- The label that stands for all that are the same key: a number without a fraction is an
integer. -/
def canonical (l : Label) : Label :=
  match l.amount? with
  | some n => other n.reduced.toValue
  | none => l

@[simp] theorem canonical_text (s : String) : (text s).canonical = text s := rfl

/-- Whether two labels are the same key. -/
def same (a b : Label) : Bool := a.canonical = b.canonical

@[simp] theorem same_text (s t : String) : same (text s) (text t) = decide (s = t) := by
  simp [same]

theorem same_self (l : Label) : l.same l = true := by simp [same]

theorem same_comm (a b : Label) : a.same b = b.same a := by simp only [same, eq_comm]

theorem same_congr {a b : Label} (h : a.same b = true) (c : Label) : a.same c = b.same c := by
  simp only [same, decide_eq_true_eq] at h
  simp [same, h]

theorem canonical_eq_text_iff {l : Label} {s : String} : l.canonical = text s ↔ l = text s := by
  cases l with
  | other v => cases h : Amount.ofValue? v <;> simp [canonical, amount?, h]
  | _ => simp [canonical, amount?]

theorem same_text_iff {l : Label} {s : String} : l.same (text s) = true ↔ l = text s := by
  simp [same, canonical_eq_text_iff]

theorem text_same_iff {l : Label} {s : String} : (text s).same l = true ↔ l = text s := by
  simp [same, eq_comm, canonical_eq_text_iff]

/-- Why a label is no key, if it is none: it is broken, an array or an object. -/
def keyFault? : Label → Option LabelFault
  | broken fault => some fault
  | other (.array _) => some (.noKey "list")
  | other (.object _) => some (.noKey "dict")
  | _ => none

@[simp] theorem keyFault?_text (s : String) : (text s).keyFault? = none := rfl

/-- The label, unless it is broken. -/
def unbroken : Label → Except LabelFault Label
  | broken fault => .error fault
  | l => .ok l

/-- The text that a label is. -/
def toText : Label → Except LabelFault String
  | text s => .ok s
  | broken fault => .error fault
  | l => .error (.notJoinable "str" l.kind)

/-- Whether the label counts as true: neither empty, null, false nor zero. -/
def isTruthy : Label → Bool
  | text s => s ≠ ""
  | texts items => !items.isEmpty
  | other v => v.isTruthy
  | broken _ => false

/-- A list of texts in parentheses, a comma after a single one. -/
def quotedTexts (items : List String) : String :=
  match items with
  | [s] => "(" ++ Text.quoted s ++ ",)"
  | items => "(" ++ String.intercalate ", " (items.map Text.quoted) ++ ")"

/-- A label as messages show it, a text in quotes. -/
def quoted : Label → String
  | text s => Text.quoted s
  | texts items => quotedTexts items
  | other v => v.quoted
  | broken fault => fault.message

/-- A label as messages show it, a text as it is. -/
def display : Label → String
  | text s => s
  | l => l.quoted

/-- The JSON value of a label. -/
def toJson : Label → Json.Value
  | text s => .string s
  | texts items => .array (items.map .string)
  | other v => v
  | broken _ => .null

/-- The name of a member that stands for a label: what is no text is written as JSON. -/
def memberName : Label → Except LabelFault String
  | text s => .ok s
  | texts _ => .error (.noKey "tuple")
  | other v => .ok v.compactText
  | broken fault => .error fault

/-- The value under a label in an object, null where it is absent; only texts are names. -/
def memberOf (members : Json.Members) : Label → Json.Value
  | text s => members.get s
  | _ => .null

/-- The labels without those that are the same key as an earlier one. -/
def distinct (labels : List Label) : List Label := labels.eraseDupsBy same

/-- Whether a label is at most another: texts, numbers and lists of texts have an order. -/
def isAtMost? : Label → Label → Option Bool
  | text s, text t => some (s ≤ t)
  | texts s, texts t => some !(t < s)
  | a, b => do return (← a.amount?).isAtMost (← b.amount?)

/-- Labels in ascending order. -/
def sorted : List Label → Except LabelFault (List Label)
  | [] => .ok []
  | l :: rest =>
    match rest.find? fun m => (l.isAtMost? m).isNone with
    | some m => .error (.notComparable m.kind l.kind)
    | none => .ok ((l :: rest).mergeSort fun a b => (a.isAtMost? b).getD true)

end Label

end GeoWorkload
