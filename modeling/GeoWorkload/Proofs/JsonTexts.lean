import GeoWorkload.Json.Reader

/-!
# JSON texts

The texts that write a value by the grammar of JSON (`Writes`, and with blanks around `IsText`): of one
value there are many, since blanks may stand between its parts, a character of a string may be written
as an escape, and a member may be given again.  The reader takes each of them to its value
(`read_of_isText`).  It does not look at what follows a value: a text that goes on after a value is
refused for what is left (`readChars_of_writes`).
-/

namespace GeoWorkload.Json

/-- What is to hold of listed characters is decided one by one. -/
theorem forall_mem_of_all {p : Char → Prop} [DecidablePred p] {s : List Char}
    (h : (s.all fun c => p c) = true) : ∀ c ∈ s, p c := fun c hc =>
  of_decide_eq_true (List.all_eq_true.mp h c hc)

/-! ### The grammar -/

/-- The characters are blanks. -/
def Blanks (s : List Char) : Prop := ∀ c ∈ s, isBlank c = true

/-- The text starts with an escape of the second half of a pair of UTF-16 units. -/
def StartsLow (s : List Char) : Prop :=
  ∃ a b c d u t, s = '\\' :: 'u' :: a :: b :: c :: d :: t ∧ unit? a b c d = some u ∧ isLowUnit u = true

/-- What stands between the quotes of a string, and the characters that it writes.  A unit of UTF-16 that
is half of a pair and stands without the other half writes the replacement character: no string holds the half
itself, and a document of which one does is not among those that are spoken of. -/
inductive Content : List Char → List Char → Prop
  | nil : Content [] []
  | plain {c : Char} {s t : List Char} (hquote : c ≠ '"') (hslash : c ≠ '\\')
      (hcontrol : 0x20 ≤ c.toNat) (hrest : Content s t) : Content (c :: s) (c :: t)
  | escape {e c : Char} {s t : List Char} (he : shortEscape? e = some c) (hrest : Content s t) :
      Content ('\\' :: e :: s) (c :: t)
  | unit {a b c d : Char} {u : Nat} {s t : List Char} (hu : unit? a b c d = some u)
      (halone : isHighUnit u = true → ¬ StartsLow s) (hrest : Content s t) :
      Content ('\\' :: 'u' :: a :: b :: c :: d :: s) (ofUnit u :: t)
  | pair {a b c d e f g h : Char} {u v : Nat} {s t : List Char} (hu : unit? a b c d = some u)
      (hv : unit? e f g h = some v) (hhigh : isHighUnit u = true) (hlow : isLowUnit v = true)
      (hrest : Content s t) :
      Content ('\\' :: 'u' :: a :: b :: c :: d :: '\\' :: 'u' :: e :: f :: g :: h :: s)
        (ofPair u v :: t)

/-- One digit or more. -/
def Digits (ds : List Char) : Prop := ds ≠ [] ∧ ∀ d ∈ ds, d.isDigit = true

/-- The natural that digits write. -/
def valueOf (ds : List Char) : Nat := Numeral.ofDigits (ds.map fun c => c.toNat - 48)

/-- The digits before the point: a zero starts no longer number. -/
def Whole (ds : List Char) : Prop := Digits ds ∧ (ds.head? = some '0' → ds = ['0'])

/-- The fraction of a number, if there is one, and its digits. -/
inductive Fraction : List Char → List Char → Prop
  | absent : Fraction [] []
  | digits {ds : List Char} (h : Digits ds) : Fraction ('.' :: ds) ds

/-- The exponent of a number, if there is one, and its value. -/
inductive Exponent : List Char → Int → Prop
  | absent : Exponent [] 0
  | unsigned {e : Char} {ds : List Char} (he : e = 'e' ∨ e = 'E') (h : Digits ds) :
      Exponent (e :: ds) (valueOf ds)
  | positive {e : Char} {ds : List Char} (he : e = 'e' ∨ e = 'E') (h : Digits ds) :
      Exponent (e :: '+' :: ds) (valueOf ds)
  | negative {e : Char} {ds : List Char} (he : e = 'e' ∨ e = 'E') (h : Digits ds) :
      Exponent (e :: '-' :: ds) (-(valueOf ds : Int))

/-- The minus of a negative number. -/
def minus (negative : Bool) : List Char := if negative then ['-'] else []

/-- A number is an integer unless it has a fraction or an exponent. -/
inductive Number : List Char → Value → Prop
  | int (negative : Bool) {ds : List Char} (hds : Whole ds) (hlen : ds.length ≤ Numeral.maxDigits) :
      Number (minus negative ++ ds) (.int (if negative then -(valueOf ds : Int) else valueOf ds))
  | float (negative : Bool) {ds f fs e : List Char} {x : Int} (hds : Whole ds)
      (hf : Fraction f fs) (he : Exponent e x) (hne : f ++ e ≠ []) :
      Number (minus negative ++ (ds ++ (f ++ e)))
        (.float (.ofDecimal negative (valueOf (ds ++ fs)) (x - fs.length)))

/-- The members of an object that gives them in turn: a name given again keeps its place and takes the
new value. -/
def Members.setAll (members : Members) (given : Members) : Members :=
  given.foldl (fun members member => members.set member.1 member.2) members

/-- What a part of a JSON text writes. -/
inductive Part where
  | value (v : Value)
  | items (vs : List Value)
  | member (m : String × Value)
  | members (ms : Members)

/-- The text writes the part: a value, the items between the brackets of an array, a member of an object,
or all of them between its braces. -/
inductive Writes : List Char → Part → Prop
  | null : Writes ['n', 'u', 'l', 'l'] (.value .null)
  | yes : Writes ['t', 'r', 'u', 'e'] (.value (.bool true))
  | no : Writes ['f', 'a', 'l', 's', 'e'] (.value (.bool false))
  | number {s : List Char} {v : Value} (h : Number s v) : Writes s (.value v)
  | string {s t : List Char} (h : Content s t) :
      Writes ('"' :: (s ++ ['"'])) (.value (.string (String.ofList t)))
  | emptyArray {b : List Char} (hb : Blanks b) : Writes ('[' :: (b ++ [']'])) (.value (.array []))
  | array {b s : List Char} {vs : List Value} (hb : Blanks b) (h : Writes s (.items vs)) :
      Writes ('[' :: (b ++ (s ++ [']']))) (.value (.array vs))
  | emptyObject {b : List Char} (hb : Blanks b) :
      Writes ('{' :: (b ++ ['}'])) (.value (.object []))
  | object {b s : List Char} {ms : Members} (hb : Blanks b) (h : Writes s (.members ms)) :
      Writes ('{' :: (b ++ (s ++ ['}']))) (.value (.object (Members.setAll [] ms)))
  | lastItem {s b : List Char} {v : Value} (h : Writes s (.value v)) (hb : Blanks b) :
      Writes (s ++ b) (.items [v])
  | item {s b b' t : List Char} {v : Value} {vs : List Value} (h : Writes s (.value v))
      (hb : Blanks b) (hb' : Blanks b') (hrest : Writes t (.items vs)) :
      Writes (s ++ (b ++ ',' :: (b' ++ t))) (.items (v :: vs))
  | member {k name b b' s : List Char} {v : Value} (hk : Content k name) (hb : Blanks b)
      (hb' : Blanks b') (h : Writes s (.value v)) :
      Writes ('"' :: (k ++ '"' :: (b ++ ':' :: (b' ++ s)))) (.member (String.ofList name, v))
  | lastMember {s b : List Char} {m : String × Value} (h : Writes s (.member m)) (hb : Blanks b) :
      Writes (s ++ b) (.members [m])
  | memberAnd {s b b' t : List Char} {m : String × Value} {ms : Members}
      (h : Writes s (.member m)) (hb : Blanks b) (hb' : Blanks b')
      (hrest : Writes t (.members ms)) :
      Writes (s ++ (b ++ ',' :: (b' ++ t))) (.members (m :: ms))

/-- The text is a JSON text of the value: blanks may stand around it. -/
def IsText (s : List Char) (v : Value) : Prop :=
  ∃ b t b', s = b ++ (t ++ b') ∧ Blanks b ∧ Writes t (.value v) ∧ Blanks b'

theorem blanks_nil : Blanks [] := by simp [Blanks]

/-- Characters that need no escape write themselves. -/
theorem content_self {s : List Char}
    (h : (s.all fun c => c ≠ '"' && c ≠ '\\' && 0x20 ≤ c.toNat) = true) : Content s s := by
  induction s with
  | nil => exact .nil
  | cons c s ih =>
      simp only [List.all_cons, Bool.and_eq_true, decide_eq_true_eq] at h
      obtain ⟨⟨⟨hquote, hslash⟩, hcontrol⟩, hrest⟩ := h
      exact .plain hquote hslash hcontrol (ih (by simpa using hrest))

/-- The text of an object of one member, without blanks. -/
def single (k s : List Char) : List Char := '{' :: '"' :: (k ++ '"' :: ':' :: (s ++ ['}']))

theorem writes_single {k name s : List Char} {v : Value} (hk : Content k name)
    (h : Writes s (.value v)) :
    Writes (single k s) (.value (.object [(String.ofList name, v)])) := by
  have hmember : Writes ('"' :: (k ++ '"' :: ([] ++ ':' :: ([] ++ s))))
      (.member (String.ofList name, v)) := .member hk blanks_nil blanks_nil h
  have hobject := Writes.object blanks_nil (.lastMember hmember blanks_nil)
  simpa [single, Members.setAll, Members.set] using hobject

/-! ### Blanks and first characters -/

theorem skipBlanks_append {b s : List Char} (hb : Blanks b) : skipBlanks (b ++ s) = skipBlanks s := by
  induction b with
  | nil => rfl
  | cons c b ih =>
      have hc := hb c List.mem_cons_self
      rw [List.cons_append, skipBlanks, List.dropWhile_cons_of_pos hc]
      exact ih fun d hd => hb d (List.mem_cons_of_mem _ hd)

theorem skipBlanks_cons {c : Char} {s : List Char} (hc : isBlank c = false) :
    skipBlanks (c :: s) = c :: s := by
  rw [skipBlanks, List.dropWhile_cons_of_neg (by simp [hc])]

theorem skipBlanks_append_cons {b s : List Char} {c : Char} (hb : Blanks b) (hc : isBlank c = false) :
    skipBlanks (b ++ c :: s) = c :: s := by
  rw [skipBlanks_append hb, skipBlanks_cons hc]

theorem skipBlanks_of_blanks {b : List Char} (hb : Blanks b) : skipBlanks b = [] := by
  have := skipBlanks_append (s := []) hb
  rwa [List.append_nil] at this

/-- What a part of a JSON text may start with. -/
def Starts (c : Char) : Prop := c.isDigit = true ∨ c ∈ ['-', '"', '[', '{', 'n', 't', 'f']

theorem Starts.ne {c d : Char} (hc : Starts c) (hd : d.isDigit = false)
    (hmem : d ∉ ['-', '"', '[', '{', 'n', 't', 'f']) : c ≠ d := by
  rintro rfl
  rcases hc with hdigit | hc
  · exact absurd hdigit (by simp [hd])
  · exact hmem hc

theorem Starts.isBlank {c : Char} (hc : Starts c) : isBlank c = false := by
  have hall : ∀ d ∈ [' ', '\t', '\n', '\r'],
      d.isDigit = false ∧ d ∉ ['-', '"', '[', '{', 'n', 't', 'f'] := forall_mem_of_all (by decide)
  have h : ∀ d ∈ [' ', '\t', '\n', '\r'], c ≠ d := fun d hd => hc.ne (hall d hd).1 (hall d hd).2
  simp only [List.forall_mem_cons, List.not_mem_nil, false_imp_iff, implies_true, and_true] at h
  simp [Json.isBlank, h]

theorem Whole.exists_cons {ds : List Char} (h : Whole ds) :
    ∃ d t, ds = d :: t ∧ d.isDigit = true := by
  obtain ⟨⟨hne, hall⟩, _⟩ := h
  obtain ⟨d, t, rfl⟩ := List.exists_cons_of_ne_nil hne
  exact ⟨d, t, rfl, hall d List.mem_cons_self⟩

theorem Number.exists_cons {s : List Char} {v : Value} (h : Number s v) :
    ∃ c t, s = c :: t ∧ (c.isDigit = true ∨ c = '-') := by
  have hminus : ∀ (negative : Bool) {ds t : List Char}, Whole ds →
      ∃ c u, minus negative ++ (ds ++ t) = c :: u ∧ (c.isDigit = true ∨ c = '-') := by
    intro negative ds t hds
    obtain ⟨d, u, rfl, hd⟩ := hds.exists_cons
    cases negative with
    | false => exact ⟨d, u ++ t, rfl, .inl hd⟩
    | true => exact ⟨'-', _, rfl, .inr rfl⟩
  cases h with
  | int negative hds _ => simpa using hminus negative (t := []) hds
  | float negative hds => exact hminus negative hds

/-- A part of a JSON text starts with none of the blanks. -/
theorem Writes.exists_cons {s : List Char} {part : Part} (h : Writes s part) :
    ∃ c t, s = c :: t ∧ Starts c := by
  have happend : ∀ {s t : List Char}, (∃ c u, s = c :: u ∧ Starts c) →
      ∃ c u, s ++ t = c :: u ∧ Starts c := by
    rintro s t ⟨c, u, rfl, hc⟩
    exact ⟨c, u ++ t, rfl, hc⟩
  induction h with
  | number h =>
      obtain ⟨c, t, rfl, hc⟩ := h.exists_cons
      exact ⟨c, t, rfl, hc.imp_right fun e => by simp [e]⟩
  | lastItem _ _ ih => exact happend ih
  | item _ _ _ _ ih _ => exact happend ih
  | lastMember _ _ ih => exact happend ih
  | memberAnd _ _ _ _ ih _ => exact happend ih
  | _ => exact ⟨_, _, rfl, .inr (by decide)⟩

theorem skipBlanks_of_writes {b s t : List Char} {part : Part} (hb : Blanks b)
    (h : Writes s part) : skipBlanks (b ++ (s ++ t)) = s ++ t := by
  obtain ⟨c, u, rfl, hc⟩ := h.exists_cons
  rw [skipBlanks_append hb, List.cons_append, skipBlanks_cons hc.isBlank]

/-! ### Strings -/

section string

variable {opening : Nat} {a b c d : Char} {u : Nat} {s t rest : List Char}

theorem readString_plain (hquote : c ≠ '"') (hslash : c ≠ '\\') (hcontrol : 0x20 ≤ c.toNat)
    (h : readString opening s = .ok (t, rest)) :
    readString opening (c :: s) = .ok (c :: t, rest) := by
  have hc : ¬ c.toNat < 0x20 := Nat.not_lt.mpr hcontrol
  rw [readString.eq_7 _ _ _ hquote (fun e => absurd e hslash) (fun _ _ _ _ _ e => absurd e hslash)
    (fun _ e => absurd e hslash) (fun _ _ e => absurd e hslash), if_neg hc, h]
  rfl

theorem readString_escape {e : Char} (he : shortEscape? e = some c)
    (h : readString opening s = .ok (t, rest)) :
    readString opening ('\\' :: e :: s) = .ok (c :: t, rest) := by
  have hu : e ≠ 'u' := by
    rintro rfl
    have hnone : shortEscape? 'u' = none := by decide
    rw [hnone] at he
    cases he
  rw [readString.eq_6 _ _ _ (fun _ _ _ _ _ e => absurd e hu) hu, he, h]
  rfl

theorem readString_unit (hu : unit? a b c d = some u)
    (halone : isHighUnit u = true → ¬ StartsLow s) (hs : s ≠ [])
    (h : readString opening s = .ok (t, rest)) :
    readString opening ('\\' :: 'u' :: a :: b :: c :: d :: s) = .ok (ofUnit u :: t, rest) := by
  rw [readString.eq_4, List.isEmpty_eq_false_iff.mpr hs, if_neg Bool.false_ne_true, hu]
  dsimp only
  split
  · rename_i e f g k tail
    rw [readString.eq_4] at h
    cases hv : unit? e f g k with
    | none => simp [hv] at h
    | some v =>
        have hlow : isHighUnit u = true → isLowUnit v = false := fun hhigh =>
          Bool.eq_false_iff.mpr fun hlow => halone hhigh ⟨e, f, g, k, v, tail, rfl, hv, hlow⟩
        rw [← readString.eq_4] at h
        cases hhigh : isHighUnit u <;> simp_all [Except.map]
  · rw [h]
    rfl

theorem readString_pair {e f g k : Char} {v : Nat} (hu : unit? a b c d = some u)
    (hv : unit? e f g k = some v) (hhigh : isHighUnit u = true) (hlow : isLowUnit v = true)
    (hs : s ≠ []) (h : readString opening s = .ok (t, rest)) :
    readString opening
        ('\\' :: 'u' :: a :: b :: c :: d :: '\\' :: 'u' :: e :: f :: g :: k :: s) =
      .ok (ofPair u v :: t, rest) := by
  rw [readString.eq_4]
  simp [hu, hv, hhigh, hlow, List.isEmpty_eq_false_iff.mpr hs, h, Except.map]

end string

/-- Whether an escape follows is settled within the quotes. -/
theorem Content.startsLow {s t rest : List Char} (h : Content s t)
    (hstarts : StartsLow (s ++ '"' :: rest)) : StartsLow s := by
  obtain ⟨a, b, c, d, u, tail, heq, hu, hlow⟩ := hstarts
  cases h with
  | nil => simp at heq
  | plain _ hslash => exact absurd (List.cons.inj heq).1 hslash
  | @escape e _ _ _ he =>
      simp only [List.cons_append, List.cons.injEq, true_and] at heq
      have hnone : shortEscape? 'u' = none := by decide
      rw [heq.1, hnone] at he
      cases he
  | unit =>
      simp only [List.cons_append, List.cons.injEq, true_and] at heq
      obtain ⟨rfl, rfl, rfl, rfl, _⟩ := heq
      exact ⟨_, _, _, _, u, _, rfl, hu, hlow⟩
  | pair =>
      simp only [List.cons_append, List.cons.injEq, true_and] at heq
      obtain ⟨rfl, rfl, rfl, rfl, _⟩ := heq
      exact ⟨_, _, _, _, u, _, rfl, hu, hlow⟩

/-- The reader takes what stands between the quotes of a string to the characters that it writes. -/
theorem readString_of_content {s t : List Char} (h : Content s t) (opening : Nat)
    (rest : List Char) : readString opening (s ++ '"' :: rest) = .ok (t, rest) := by
  induction h with
  | nil => rfl
  | plain hquote hslash hcontrol _ ih => exact readString_plain hquote hslash hcontrol ih
  | escape he _ ih => exact readString_escape he ih
  | unit hu halone hrest ih =>
      exact readString_unit hu (fun hhigh hlow => halone hhigh (hrest.startsLow hlow)) (by simp) ih
  | pair hu hv hhigh hlow _ ih => exact readString_pair hu hv hhigh hlow (by simp) ih

/-! ### Numbers -/

/-- What may follow a number: nothing that would go on with it. -/
def Ends (rest : List Char) : Prop :=
  ∀ c ∈ rest.head?, c.isDigit = false ∧ c ≠ '.' ∧ c ≠ 'e' ∧ c ≠ 'E'

theorem Ends.nil : Ends [] := fun _ h => absurd h (by simp)

theorem Ends.cons {c : Char} (rest : List Char) (hc : c ∈ [',', ']', '}', ' ', '\t', '\n', '\r']) :
    Ends (c :: rest) := by
  intro d hd
  obtain rfl : c = d := by simpa using hd
  have hall : ∀ c ∈ [',', ']', '}', ' ', '\t', '\n', '\r'],
      c.isDigit = false ∧ c ≠ '.' ∧ c ≠ 'e' ∧ c ≠ 'E' := forall_mem_of_all (by decide)
  exact hall c hc

theorem Ends.of_isBlank {c : Char} (rest : List Char) (hc : isBlank c = true) : Ends (c :: rest) := by
  simp only [isBlank, Bool.or_eq_true, decide_eq_true_eq] at hc
  exact .cons _ (by rcases hc with ((rfl | rfl) | rfl) | rfl <;> decide)

/-- Blanks end a number, and so does what ends one itself. -/
theorem Ends.append_blanks {b rest : List Char} (hb : Blanks b) (h : Ends rest) :
    Ends (b ++ rest) := by
  cases b with
  | nil => exact h
  | cons c b => exact .of_isBlank _ (hb c List.mem_cons_self)

theorem spanDigits_append {ds rest : List Char} (h : ∀ d ∈ ds, d.isDigit = true)
    (hrest : ∀ c ∈ rest.head?, c.isDigit = false) :
    Numeral.spanDigits (ds ++ rest) = (ds.map fun c => c.toNat - 48, rest) := by
  have hnot : rest.takeWhile Char.isDigit = [] ∧ rest.dropWhile Char.isDigit = rest := by
    cases rest with
    | nil => exact ⟨rfl, rfl⟩
    | cons c rest =>
        have hc := hrest c rfl
        exact ⟨List.takeWhile_cons_of_neg (by simp [hc]), List.dropWhile_cons_of_neg (by simp [hc])⟩
  rw [Numeral.spanDigits, List.takeWhile_append_of_pos h, List.dropWhile_append_of_pos h, hnot.1,
    hnot.2, List.append_nil]

theorem readWhole?_append {ds rest : List Char} (h : Whole ds)
    (hrest : ∀ c ∈ rest.head?, c.isDigit = false) :
    readWhole? (ds ++ rest) = some (ds.map fun c => c.toNat - 48, rest) := by
  obtain ⟨⟨hne, hall⟩, hzero⟩ := h
  rcases ds with _ | ⟨d, ds⟩
  · exact absurd rfl hne
  · by_cases hd : d = '0'
    · subst hd
      obtain rfl : ds = [] := by simpa using hzero rfl
      rfl
    · rw [List.cons_append, readWhole?.eq_2 _ fun _ e => hd (List.cons.inj e).1, ← List.cons_append,
        spanDigits_append hall hrest]
      rfl

theorem readFraction?_append {f fs rest : List Char} (h : Fraction f fs)
    (hrest : ∀ c ∈ rest.head?, c.isDigit = false ∧ c ≠ '.') :
    (readFraction? (f ++ rest)).getD ([], f ++ rest) = (fs.map fun c => c.toNat - 48, rest) ∧
      (readFraction? (f ++ rest)).isSome = !f.isEmpty := by
  cases h with
  | absent =>
      have hnone : readFraction? rest = none := by
        unfold readFraction?
        split
        · exact absurd rfl (hrest '.' rfl).2
        · rfl
      rw [List.nil_append, hnone]
      exact ⟨rfl, rfl⟩
  | digits hds =>
      rw [List.cons_append, readFraction?, spanDigits_append hds.2 fun c hc => (hrest c hc).1]
      have hne : (fs.map fun c => c.toNat - 48).isEmpty = false := by simpa using hds.1
      simp [hne]

theorem splitSign_digits {ds rest : List Char} (h : Digits ds) :
    Numeral.splitSign (ds ++ rest) = (false, ds ++ rest) := by
  obtain ⟨hne, hall⟩ := h
  rcases ds with _ | ⟨d, ds⟩
  · exact absurd rfl hne
  · have hd := hall d List.mem_cons_self
    have hminus : d ≠ '-' := by
      rintro rfl
      exact absurd hd (by decide)
    have hplus : d ≠ '+' := by
      rintro rfl
      exact absurd hd (by decide)
    rw [List.cons_append, Numeral.splitSign]
    · exact fun _ e => hminus (List.cons.inj e).1
    · exact fun _ e => hplus (List.cons.inj e).1

theorem readExponent?_append {e rest : List Char} {x : Int} (h : Exponent e x) (hrest : Ends rest) :
    (Numeral.readExponent? (e ++ rest)).getD (0, e ++ rest) = (x, rest) ∧
      (Numeral.readExponent? (e ++ rest)).isSome = !e.isEmpty := by
  have hdigits : ∀ c ∈ rest.head?, c.isDigit = false := fun c hc => (hrest c hc).1
  have hne : ∀ {ds : List Char}, Digits ds →
      (ds.map fun c => c.toNat - 48).isEmpty = false := fun hds => by simpa using hds.1
  cases h with
  | absent =>
      have hnone : Numeral.readExponent? rest = none := by
        unfold Numeral.readExponent?
        split
        · rfl
        · rename_i c s
          have hc := hrest c rfl
          simp [hc.2.2.1, hc.2.2.2]
      rw [List.nil_append, hnone]
      exact ⟨rfl, rfl⟩
  | unsigned he hds =>
      rw [List.cons_append, Numeral.readExponent?, if_pos he, splitSign_digits hds]
      simp [spanDigits_append hds.2 hdigits, hne hds, valueOf]
  | positive he hds =>
      rw [List.cons_append, List.cons_append, Numeral.readExponent?, if_pos he, Numeral.splitSign]
      simp [spanDigits_append hds.2 hdigits, hne hds, valueOf]
  | negative he hds =>
      rw [List.cons_append, List.cons_append, Numeral.readExponent?, if_pos he, Numeral.splitSign]
      simp [spanDigits_append hds.2 hdigits, hne hds, valueOf]

/-- A minus goes to the sign of a number, and what starts with a digit has none. -/
theorem readNumber_minus (negative : Bool) {ds tail : List Char} (hds : Whole ds) :
    readNumber (minus negative ++ (ds ++ tail)) =
      match readWhole? (ds ++ tail) with
      | none => .error (.malformed .value (minus negative ++ (ds ++ tail)).length)
      | some (whole, rest) =>
        let fraction? := readFraction? rest
        let (fraction, rest) := fraction?.getD ([], rest)
        let exponent? := Numeral.readExponent? rest
        let (exponent, rest) := exponent?.getD (0, rest)
        if fraction?.isSome || exponent?.isSome then
          .ok (.float (.ofDecimal negative (Numeral.ofDigits (whole ++ fraction))
            (exponent - fraction.length)), rest)
        else if Numeral.maxDigits < whole.length then .error (.integerTooLong whole.length)
        else
          let n : Int := Numeral.ofDigits whole
          .ok (.int (if negative then -n else n), rest) := by
  cases negative with
  | true => rfl
  | false =>
      obtain ⟨⟨hne, hall⟩, _⟩ := hds
      rcases ds with _ | ⟨d, ds⟩
      · exact absurd rfl hne
      · have hd : d ≠ '-' := by
          rintro rfl
          exact absurd (hall '-' List.mem_cons_self) (by decide)
        show readNumber (d :: (ds ++ tail)) = _
        unfold readNumber
        split
        · rename_i heq
          split at heq
          · rename_i e
            exact absurd (List.cons.inj e).1 hd
          · cases heq
            rfl

/-- What an exponent or the end of a number starts with goes on with no digits. -/
theorem Exponent.head {e rest : List Char} {x : Int} (h : Exponent e x) (hrest : Ends rest) :
    ∀ c ∈ (e ++ rest).head?, c.isDigit = false ∧ c ≠ '.' := by
  have hletter : ∀ {e c : Char} {t : List Char}, e = 'e' ∨ e = 'E' → c ∈ (e :: t).head? →
      c.isDigit = false ∧ c ≠ '.' := by
    rintro e c t (rfl | rfl) hc
    · obtain rfl : 'e' = c := by simpa using hc
      decide
    · obtain rfl : 'E' = c := by simpa using hc
      decide
  intro c hc
  cases h with
  | absent => exact ⟨(hrest c hc).1, (hrest c hc).2.1⟩
  | unsigned he => exact hletter he hc
  | positive he => exact hletter he hc
  | negative he => exact hletter he hc

theorem Fraction.head {f fs tail : List Char} (h : Fraction f fs)
    (htail : ∀ c ∈ tail.head?, c.isDigit = false ∧ c ≠ '.') :
    ∀ c ∈ (f ++ tail).head?, c.isDigit = false := by
  intro c hc
  cases h with
  | absent => exact (htail c hc).1
  | digits hds =>
      obtain rfl : '.' = c := by simpa using hc
      decide

theorem readNumber_parts (negative : Bool) {ds f fs e rest : List Char} {x : Int} (hds : Whole ds)
    (hf : Fraction f fs) (he : Exponent e x) (hrest : Ends rest) :
    readNumber (minus negative ++ (ds ++ (f ++ (e ++ rest)))) =
      if !f.isEmpty || !e.isEmpty then
        .ok (.float (.ofDecimal negative (valueOf (ds ++ fs)) (x - fs.length)), rest)
      else if Numeral.maxDigits < ds.length then .error (.integerTooLong ds.length)
      else .ok (.int (if negative then -(valueOf ds : Int) else valueOf ds), rest) := by
  have htail := he.head hrest
  obtain ⟨hfraction, hisFraction⟩ := readFraction?_append hf htail
  obtain ⟨hexponent, hisExponent⟩ := readExponent?_append he hrest
  rw [readNumber_minus negative hds, readWhole?_append hds (hf.head htail)]
  simp only [hfraction, hexponent, hisFraction, hisExponent, List.length_map, valueOf,
    List.map_append]

/-- The reader takes the text of a number to the number, up to what ends it. -/
theorem readNumber_append {s rest : List Char} {v : Value} (h : Number s v) (hrest : Ends rest) :
    readNumber (s ++ rest) = .ok (v, rest) := by
  cases h with
  | int negative hds hlen =>
      have hparts := readNumber_parts negative hds .absent .absent hrest
      have hnot : ¬ Numeral.maxDigits < _ := Nat.not_lt.mpr hlen
      simpa [hnot] using hparts
  | @float negative ds f fs e x hds hf he hne =>
      have hsome : (!f.isEmpty || !e.isEmpty) = true := by
        cases f <;> cases e <;> simp_all
      have hparts := readNumber_parts negative hds hf he hrest
      rw [if_pos hsome] at hparts
      simpa using hparts

/-! ### Values -/

/-- No word starts like a number. -/
theorem find?_words_number {s : List Char} {v : Value} (h : Number s v) (rest : List Char) :
    words.find? (fun (word, _) => word.isPrefixOf (s ++ rest)) = none := by
  have hdigit : ∀ (negative : Bool) {ds t : List Char}, Whole ds →
      words.find? (fun (word, _) => word.isPrefixOf (minus negative ++ (ds ++ t))) = none := by
    rintro negative (_ | ⟨d, ds⟩) t ⟨⟨hne, hall⟩, _⟩
    · exact absurd rfl hne
    · have hd : ∀ c : Char, c.isDigit = false → c ≠ d := by
        rintro c hc rfl
        simp [hc] at hall
      cases negative <;>
        simp [words, minus, hd 'n' (by decide), hd 't' (by decide), hd 'f' (by decide),
          hd 'N' (by decide), hd 'I' (by decide), hd '-' (by decide)]
  cases h with
  | int negative hds _ =>
      rw [List.append_assoc]
      exact hdigit negative hds
  | float negative hds _ _ _ =>
      rw [List.append_assoc, List.append_assoc]
      exact hdigit negative hds

theorem readAtom_number {s rest : List Char} {v : Value} (h : Number s v) (hrest : Ends rest) :
    readAtom (s ++ rest) = .ok (v, rest) := by
  rw [readAtom, find?_words_number h rest]
  exact readNumber_append h hrest

/-- What does not start like a string, an object or an array is read as a word or a number. -/
theorem readValue_atom {n : Nat} {c : Char} {s : List Char} (hc : c ∉ ['"', '{', '[']) (hn : 0 < n) :
    readValue n (c :: s) = readAtom (c :: s) := by
  obtain ⟨n, rfl⟩ := Nat.exists_eq_add_one_of_ne_zero (Nat.ne_of_gt hn)
  simp only [List.mem_cons, List.not_mem_nil, or_false, not_or] at hc
  obtain ⟨hquote, hbrace, hbracket⟩ := hc
  rw [readValue]
  · simp
  · exact fun _ e => hquote (List.cons.inj e).1
  · exact fun _ e => hbrace (List.cons.inj e).1
  · exact fun _ e => hbracket (List.cons.inj e).1

theorem readValue_number {n : Nat} {s rest : List Char} {v : Value} (h : Number s v) (hn : 0 < n)
    (hrest : Ends rest) : readValue n (s ++ rest) = .ok (v, rest) := by
  have hread := readAtom_number h hrest
  obtain ⟨c, t, rfl, hc⟩ := h.exists_cons
  have hnot : c ∉ ['"', '{', '['] := by
    intro hmem
    have hall : ∀ c ∈ ['"', '{', '['], ¬ (c.isDigit = true ∨ c = '-') :=
      forall_mem_of_all (by decide)
    exact hall c hmem hc
  exact (readValue_atom hnot hn).trans hread

section productions

variable {n : Nat} {s t r rest : List Char} {v : Value}

theorem readValue_string (h : Content s t) :
    readValue (n + 1) ('"' :: (s ++ '"' :: rest)) = .ok (.string (String.ofList t), rest) := by
  show (readString _ _ >>= _) = _
  rw [readString_of_content h]
  rfl

/-- What the reader does after an opening bracket. -/
def afterBracket (n : Nat) (s : List Char) : Except Fault (Value × List Char) :=
  match skipBlanks s with
  | ']' :: rest => .ok (.array [], rest)
  | rest => do
    let (items, rest) ← readItems n rest
    return (.array items, rest)

theorem readValue_bracket : readValue (n + 1) ('[' :: r) = afterBracket n r := rfl

theorem readValue_emptyArray (h : skipBlanks r = ']' :: rest) :
    readValue (n + 1) ('[' :: r) = .ok (.array [], rest) := by
  rw [readValue_bracket, afterBracket, h]
  rfl

theorem readValue_array {vs : List Value} {c : Char} (h : skipBlanks r = c :: t) (hc : c ≠ ']')
    (hitems : readItems n (c :: t) = .ok (vs, rest)) :
    readValue (n + 1) ('[' :: r) = .ok (.array vs, rest) := by
  rw [readValue_bracket, afterBracket]
  simp [h, hc, hitems, bind, Except.bind, pure, Except.pure]

/-- What the reader does after an opening brace. -/
def afterBrace (n : Nat) (s : List Char) : Except Fault (Value × List Char) :=
  match skipBlanks s with
  | '}' :: rest => .ok (.object [], rest)
  | rest => do
    let (members, rest) ← readMembers n [] rest
    return (.object members, rest)

theorem readValue_brace : readValue (n + 1) ('{' :: r) = afterBrace n r := rfl

theorem readValue_emptyObject (h : skipBlanks r = '}' :: rest) :
    readValue (n + 1) ('{' :: r) = .ok (.object [], rest) := by
  rw [readValue_brace, afterBrace, h]
  rfl

theorem readValue_object {ms : Members} {c : Char} (h : skipBlanks r = c :: t) (hc : c ≠ '}')
    (hmembers : readMembers n [] (c :: t) = .ok (ms, rest)) :
    readValue (n + 1) ('{' :: r) = .ok (.object ms, rest) := by
  rw [readValue_brace, afterBrace]
  simp [h, hc, hmembers, bind, Except.bind, pure, Except.pure]

/-- What the reader does after an item. -/
def afterItem (n : Nat) (v : Value) (s : List Char) : Except Fault (List Value × List Char) :=
  match skipBlanks s with
  | ']' :: rest => return ([v], rest)
  | ',' :: rest => do
    let (vs, rest) ← readItems n (skipBlanks rest)
    return (v :: vs, rest)
  | rest => throw (.malformed .comma rest.length)

theorem readItems_item (h : readValue n s = .ok (v, r)) : readItems (n + 1) s = afterItem n v r := by
  show (readValue n s >>= _) = _
  rw [h]
  rfl

theorem readItems_last (h : readValue n s = .ok (v, r)) (hend : skipBlanks r = ']' :: rest) :
    readItems (n + 1) s = .ok ([v], rest) := by
  rw [readItems_item h, afterItem, hend]
  rfl

theorem readItems_cons {vs : List Value} (h : readValue n s = .ok (v, r))
    (hcomma : skipBlanks r = ',' :: t) (hitems : readItems n (skipBlanks t) = .ok (vs, rest)) :
    readItems (n + 1) s = .ok (v :: vs, rest) := by
  rw [readItems_item h, afterItem, hcomma]
  simp [hitems, bind, Except.bind, pure, Except.pure]

/-- What the reader does after a member. -/
def afterMember (n : Nat) (members : Members) (rest : List Char) :
    Except Fault (Members × List Char) :=
  match skipBlanks rest with
  | '}' :: rest => .ok (members, rest)
  | ',' :: rest => readMembers n members (skipBlanks rest)
  | rest => .error (.malformed .comma rest.length)

theorem afterMember_close {members : Members} (h : skipBlanks r = '}' :: rest) :
    afterMember n members r = .ok (members, rest) := by
  rw [afterMember, h]
  rfl

theorem afterMember_comma {members : Members} (h : skipBlanks r = ',' :: rest) :
    afterMember n members r = readMembers n members (skipBlanks rest) := by
  rw [afterMember, h]
  rfl

theorem readMembers_member {members : Members} {k name : List Char} (hk : Content k name)
    (hcolon : skipBlanks r = ':' :: t) (h : readValue n (skipBlanks t) = .ok (v, rest)) :
    readMembers (n + 1) members ('"' :: (k ++ '"' :: r)) =
      afterMember n (members.set (String.ofList name) v) rest := by
  show (readString _ _ >>= _) = _
  rw [readString_of_content hk]
  simp [hcolon, h, afterMember, bind, Except.bind, pure, Except.pure]
  rfl

end productions

/-- The reader takes a text of the part to what the part writes, whatever follows it, as long as its
number bounds the length of the text. -/
def Part.IsRead (s : List Char) : Part → Prop
  | .value v => ∀ n rest, s.length ≤ n → Ends rest → readValue n (s ++ rest) = .ok (v, rest)
  | .items vs => ∀ n rest, s.length < n → readItems n (s ++ ']' :: rest) = .ok (vs, rest)
  | .member m => ∀ n members rest, s.length ≤ n → Ends rest →
      readMembers (n + 1) members (s ++ rest) = afterMember n (members.set m.1 m.2) rest
  | .members ms => ∀ n members rest, s.length < n →
      readMembers n members (s ++ '}' :: rest) = .ok (members.setAll ms, rest)

/-- The text starts with neither a blank, nor a closing bracket or brace, nor a byte order mark. -/
def Begins (s : List Char) : Prop :=
  ∃ c t, s = c :: t ∧ isBlank c = false ∧ c ≠ ']' ∧ c ≠ '}' ∧ c ≠ '\ufeff'

theorem Begins.append {s : List Char} (h : Begins s) (t : List Char) : Begins (s ++ t) := by
  obtain ⟨c, u, rfl, hc⟩ := h
  exact ⟨c, u ++ t, rfl, hc⟩

theorem Begins.skipBlanks {b s : List Char} (h : Begins s) (hb : Blanks b) :
    skipBlanks (b ++ s) = s := by
  obtain ⟨c, t, rfl, hc, _⟩ := h
  rw [skipBlanks_append hb, skipBlanks_cons hc]

theorem Writes.begins {s : List Char} {part : Part} (h : Writes s part) : Begins s := by
  obtain ⟨c, t, rfl, hc⟩ := h.exists_cons
  exact ⟨c, t, rfl, hc.isBlank, hc.ne (by decide) (by decide), hc.ne (by decide) (by decide),
    hc.ne (by decide) (by decide)⟩

/-! ### Parts

Each call goes down by one and each part leaves a character of the whole, so the bound that holds of a whole
holds of its parts. -/

section isRead

variable {b b' s t : List Char} {v : Value} {vs : List Value} {m : String × Value} {ms : Members}

theorem isRead_number (h : Number s v) : (Part.value v).IsRead s := by
  intro n rest hn hrest
  obtain ⟨c, t, rfl, _⟩ := h.exists_cons
  exact readValue_number h (by simp at hn; omega) hrest

theorem isRead_string (h : Content s t) :
    (Part.value (.string (String.ofList t))).IsRead ('"' :: (s ++ ['"'])) := by
  rintro (_ | n) rest hn _
  · simp at hn
  · simpa using readValue_string h

theorem isRead_emptyArray (hb : Blanks b) : (Part.value (.array [])).IsRead ('[' :: (b ++ [']'])) := by
  rintro (_ | n) rest hn _
  · simp at hn
  · have hclose := skipBlanks_append_cons (c := ']') (s := rest) hb (by decide)
    simpa using readValue_emptyArray hclose

theorem isRead_array (hb : Blanks b) (hs : Begins s) (h : (Part.items vs).IsRead s) :
    (Part.value (.array vs)).IsRead ('[' :: (b ++ (s ++ [']']))) := by
  rintro (_ | n) rest hn _
  · simp at hn
  · have hskip := (hs.append (']' :: rest)).skipBlanks hb
    have hitems := h n rest (by simp at hn; omega)
    obtain ⟨c, u, rfl, _, hc, _⟩ := hs
    simpa using readValue_array hskip hc hitems

theorem isRead_emptyObject (hb : Blanks b) : (Part.value (.object [])).IsRead ('{' :: (b ++ ['}'])) := by
  rintro (_ | n) rest hn _
  · simp at hn
  · have hclose := skipBlanks_append_cons (c := '}') (s := rest) hb (by decide)
    simpa using readValue_emptyObject hclose

theorem isRead_object (hb : Blanks b) (hs : Begins s) (h : (Part.members ms).IsRead s) :
    (Part.value (.object (Members.setAll [] ms))).IsRead ('{' :: (b ++ (s ++ ['}']))) := by
  rintro (_ | n) rest hn _
  · simp at hn
  · have hskip := (hs.append ('}' :: rest)).skipBlanks hb
    have hmembers := h n [] rest (by simp at hn; omega)
    obtain ⟨c, u, rfl, _, _, hc, _⟩ := hs
    simpa using readValue_object hskip hc hmembers

theorem isRead_lastItem (hb : Blanks b) (h : (Part.value v).IsRead s) : (Part.items [v]).IsRead (s ++ b) := by
  rintro (_ | n) rest hn
  · simp at hn
  · have hread := h n (b ++ ']' :: rest) (by simp at hn; omega) (.append_blanks hb (.cons _ (by decide)))
    simpa using readItems_last hread (skipBlanks_append_cons hb (by decide))

theorem isRead_item (hb : Blanks b) (hb' : Blanks b') (h : (Part.value v).IsRead s) (ht : Begins t)
    (hrest : (Part.items vs).IsRead t) : (Part.items (v :: vs)).IsRead (s ++ (b ++ ',' :: (b' ++ t))) := by
  rintro (_ | n) rest hn
  · simp at hn
  · have hread := h n (b ++ ',' :: (b' ++ (t ++ ']' :: rest))) (by simp at hn; omega)
      (.append_blanks hb (.cons _ (by decide)))
    have hitems : readItems n (skipBlanks (b' ++ (t ++ ']' :: rest))) = .ok (vs, rest) := by
      rw [(ht.append _).skipBlanks hb']
      exact hrest n rest (by simp at hn; omega)
    simpa using readItems_cons hread (skipBlanks_append_cons hb (by decide)) hitems

theorem isRead_member {k name : List Char} (hk : Content k name) (hb : Blanks b) (hb' : Blanks b')
    (hs : Begins s) (h : (Part.value v).IsRead s) :
    (Part.member (String.ofList name, v)).IsRead ('"' :: (k ++ '"' :: (b ++ ':' :: (b' ++ s)))) := by
  intro n members rest hn hrest
  have hread : readValue n (skipBlanks (b' ++ (s ++ rest))) = .ok (v, rest) := by
    rw [(hs.append _).skipBlanks hb']
    exact h n rest (by simp at hn; omega) hrest
  simpa using readMembers_member hk (skipBlanks_append_cons hb (by decide)) hread

theorem isRead_lastMember (hb : Blanks b) (h : (Part.member m).IsRead s) :
    (Part.members [m]).IsRead (s ++ b) := by
  rintro (_ | n) members rest hn
  · simp at hn
  · have hread := h n members (b ++ '}' :: rest) (by simp at hn; omega)
      (.append_blanks hb (.cons _ (by decide)))
    rw [List.append_assoc, hread]
    exact afterMember_close (skipBlanks_append_cons hb (by decide))

theorem isRead_memberAnd (hb : Blanks b) (hb' : Blanks b') (h : (Part.member m).IsRead s) (ht : Begins t)
    (hrest : (Part.members ms).IsRead t) :
    (Part.members (m :: ms)).IsRead (s ++ (b ++ ',' :: (b' ++ t))) := by
  rintro (_ | n) members rest hn
  · simp at hn
  · have hread := h n members (b ++ ',' :: (b' ++ (t ++ '}' :: rest))) (by simp at hn; omega)
      (.append_blanks hb (.cons _ (by decide)))
    have hmembers : readMembers n (members.set m.1 m.2)
        (skipBlanks (b' ++ (t ++ '}' :: rest))) = .ok ((members.set m.1 m.2).setAll ms, rest) := by
      rw [(ht.append _).skipBlanks hb']
      exact hrest n _ rest (by simp at hn; omega)
    rw [List.append_assoc, List.append_assoc, List.cons_append, List.append_assoc, hread]
    exact (afterMember_comma (skipBlanks_append_cons hb (by decide))).trans hmembers

end isRead

theorem isRead_of_writes {s : List Char} {part : Part} (h : Writes s part) : part.IsRead s := by
  induction h with
  | null => exact fun n rest hn _ => (readValue_atom (by decide) (by simp at hn; omega)).trans rfl
  | yes => exact fun n rest hn _ => (readValue_atom (by decide) (by simp at hn; omega)).trans rfl
  | no => exact fun n rest hn _ => (readValue_atom (by decide) (by simp at hn; omega)).trans rfl
  | number h => exact isRead_number h
  | string h => exact isRead_string h
  | emptyArray hb => exact isRead_emptyArray hb
  | array hb h ih => exact isRead_array hb h.begins ih
  | emptyObject hb => exact isRead_emptyObject hb
  | object hb h ih => exact isRead_object hb h.begins ih
  | lastItem _ hb ih => exact isRead_lastItem hb ih
  | item _ hb hb' hrest ih ihrest => exact isRead_item hb hb' ih hrest.begins ihrest
  | member hk hb hb' h ih => exact isRead_member hk hb hb' h.begins ih
  | lastMember _ hb ih => exact isRead_lastMember hb ih
  | memberAnd _ hb hb' hrest ih ihrest => exact isRead_memberAnd hb hb' ih hrest.begins ihrest

/-! ### Texts -/

theorem readChars_of_isRead {b s rest : List Char} {v : Value} (hb : Blanks b) (hs : Begins s)
    (h : (Part.value v).IsRead s) (hrest : Ends rest) :
    readChars (b ++ (s ++ rest)) =
      if skipBlanks rest = [] then .ok v
      else .error (.malformed .nothingMore (skipBlanks rest).length) := by
  have hskip := (hs.append rest).skipBlanks hb
  have hread := h (2 * (b ++ (s ++ rest)).length + 2) rest (by simp; omega) hrest
  unfold readChars
  split
  · -- no blank and no value starts with a byte order mark
    rename_i heq
    obtain ⟨c, t, rfl, _, _, _, hc⟩ := hs
    rw [heq, skipBlanks_cons (by decide)] at hskip
    exact absurd (List.cons.inj hskip).1.symm hc
  · rw [hskip, hread]
    dsimp only [bind, Except.bind]
    cases skipBlanks rest with
    | nil => rfl
    | cons c t => rfl

/-- A text that starts with a value is read up to the value's end, and refused for what is left if that
is more than blanks. -/
theorem readChars_of_writes {b s rest : List Char} {v : Value} (hb : Blanks b)
    (h : Writes s (.value v)) (hrest : Ends rest) :
    readChars (b ++ (s ++ rest)) =
      if skipBlanks rest = [] then .ok v
      else .error (.malformed .nothingMore (skipBlanks rest).length) :=
  readChars_of_isRead hb h.begins (isRead_of_writes h) hrest

theorem read_of_readChars {text : String} {v : Value} (h : readChars text.toList = .ok v) : read text = .ok v := by
  rw [read, h]
  rfl

/-- The reader takes each JSON text of a value to the value. -/
theorem read_of_isText {s : List Char} {v : Value} (h : IsText s v) :
    read (String.ofList s) = .ok v := by
  obtain ⟨b, t, b', rfl, hb, ht, hb'⟩ := h
  have hrest : Ends b' := by simpa using Ends.append_blanks hb' .nil
  have hchars := readChars_of_writes hb ht hrest
  rw [if_pos (skipBlanks_of_blanks hb')] at hchars
  refine read_of_readChars ?_
  rwa [String.toList_ofList]

end GeoWorkload.Json
