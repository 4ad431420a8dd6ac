import GeoWorkload.Binary64.Arithmetic

/-!
# JSON values

A JSON value keeps integers of any size apart from binary64 numbers, and an object keeps its members
in order (`Value`).  `Value.set` is how an object gains a member: a name that is there keeps its
place and takes the new value.

The strings are sequences of characters.  Half of a pair of UTF-16 units that stands without the other half is no
character, and so a document that holds one is outside of all that is said about documents.
-/

namespace GeoWorkload.Json

/-- A JSON value. -/
inductive Value where
  | null
  | bool (b : Bool)
  | int (n : Int)
  | float (x : Binary64)
  | string (s : String)
  | array (items : List Value)
  | object (members : List (String × Value))
deriving Repr, Inhabited

/-- The members of an object, in order. -/
abbrev Members := List (String × Value)

namespace Value

mutual

/-- Decides whether two values are equal. -/
def decEq : (v w : Value) → Decidable (v = w)
  | null, null => isTrue rfl
  | bool a, bool b => if h : a = b then isTrue (h ▸ rfl) else isFalse (by simp [h])
  | int a, int b => if h : a = b then isTrue (h ▸ rfl) else isFalse (by simp [h])
  | float a, float b => if h : a = b then isTrue (h ▸ rfl) else isFalse (by simp [h])
  | string a, string b => if h : a = b then isTrue (h ▸ rfl) else isFalse (by simp [h])
  | array a, array b =>
    match decEqItems a b with
    | isTrue h => isTrue (h ▸ rfl)
    | isFalse h => isFalse (by simp [h])
  | object a, object b =>
    match decEqMembers a b with
    | isTrue h => isTrue (h ▸ rfl)
    | isFalse h => isFalse (by simp [h])
  | null, bool _ | null, int _ | null, float _ | null, string _ | null, array _ | null, object _
  | bool _, null | bool _, int _ | bool _, float _ | bool _, string _ | bool _, array _
  | bool _, object _
  | int _, null | int _, bool _ | int _, float _ | int _, string _ | int _, array _
  | int _, object _
  | float _, null | float _, bool _ | float _, int _ | float _, string _ | float _, array _
  | float _, object _
  | string _, null | string _, bool _ | string _, int _ | string _, float _ | string _, array _
  | string _, object _
  | array _, null | array _, bool _ | array _, int _ | array _, float _ | array _, string _
  | array _, object _
  | object _, null | object _, bool _ | object _, int _ | object _, float _ | object _, string _
  | object _, array _ => isFalse (by simp)
termination_by structural v => v

/-- Decides whether two lists of values are equal. -/
def decEqItems : (v w : List Value) → Decidable (v = w)
  | [], [] => isTrue rfl
  | [], _ :: _ | _ :: _, [] => isFalse (by simp)
  | v :: vs, w :: ws =>
    match decEq v w, decEqItems vs ws with
    | isTrue h, isTrue hs => isTrue (by rw [h, hs])
    | isFalse h, _ => isFalse (by simp [h])
    | _, isFalse h => isFalse (by simp [h])
termination_by structural v => v

/-- Decides whether two lists of members are equal. -/
def decEqMembers : (v w : List (String × Value)) → Decidable (v = w)
  | [], [] => isTrue rfl
  | [], _ :: _ | _ :: _, [] => isFalse (by simp)
  | v :: vs, w :: ws =>
    match decEqMember v w, decEqMembers vs ws with
    | isTrue h, isTrue hs => isTrue (by rw [h, hs])
    | isFalse h, _ => isFalse (by simp [h])
    | _, isFalse h => isFalse (by simp [h])
termination_by structural v => v

/-- Decides whether two members are equal. -/
def decEqMember : (v w : String × Value) → Decidable (v = w)
  | (k, v), (l, w) =>
    match decEq v w with
    | isTrue h => if g : k = l then isTrue (by rw [h, g]) else isFalse (by simp [g])
    | isFalse h => isFalse (by simp [h])
termination_by structural v => v

end

instance : DecidableEq Value := decEq

/-- The name of the kind of a value. -/
def kind : Value → String
  | null => "NoneType"
  | bool _ => "bool"
  | int _ => "int"
  | float _ => "float"
  | string _ => "str"
  | array _ => "list"
  | object _ => "dict"

/-- The items of an array; no other value has items. -/
def items : Value → List Value
  | array items => items
  | _ => []

/-- Whether the value counts as true: neither null, false, zero, nor empty. -/
def isTruthy : Value → Bool
  | null => false
  | bool b => b
  | int n => n ≠ 0
  | float x => !x.eq 0
  | string s => s ≠ ""
  | array items => !items.isEmpty
  | object members => !members.isEmpty

end Value

namespace Members

/-- The value under a name, if there is one. -/
def get? (members : Members) (name : String) : Option Value :=
  (members.find? fun member => member.1 = name).map (·.2)

/-- The value under a name, or null. -/
def get (members : Members) (name : String) : Value :=
  (members.get? name).getD .null

/-- The members with `value` under `name`, in the place of the member of that name or at the
end. -/
def set : (members : Members) → (name : String) → (value : Value) → Members
  | [], name, value => [(name, value)]
  | (k, v) :: rest, name, value =>
    if k = name then (name, value) :: rest else (k, v) :: set rest name value

theorem get?_set_self (members : Members) (name : String) (value : Value) :
    get? (set members name value) name = some value := by
  induction members with
  | nil => simp [set, get?]
  | cons member rest ih =>
    by_cases h : member.1 = name
    · simp [set, get?, h]
    · simpa [set, get?, h] using ih

theorem get?_set_of_ne {members : Members} {name other : String} {value : Value}
    (h : name ≠ other) : get? (set members name value) other = get? members other := by
  induction members with
  | nil => simp [set, get?, h]
  | cons member rest ih =>
    by_cases hm : member.1 = name
    · have : member.1 ≠ other := fun e => h (hm.symm.trans e)
      simp [set, get?, hm, h]
    · by_cases ho : member.1 = other
      · simp [set, get?, ho, h.symm]
      · simpa [set, get?, hm, ho] using ih

end Members

end GeoWorkload.Json
