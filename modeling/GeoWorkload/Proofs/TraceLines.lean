import GeoWorkload.Proofs.JsonRendering
import GeoWorkload.Proofs.WorkerAccounts

/-!
# Lines of a trace

A request that can be written can be had back from its line when each value that it carries can be had back from its
text (`Request.read_line`), since neither a request nor a predicate writes a name twice.  A trace that takes every line
has one line for each request that was sent and can be written, and nothing else: each ends with the one line feed that
it has, and all other characters are printable ASCII (`DocumentStore.sendAll_lines`).  A request that holds an integer
of too many digits is refused without a line (`DocumentStore.sendAll_overlong`).
-/

namespace GeoWorkload

namespace Predicate

/-- The values of the fields. -/
def Fields.values (f : Fields) : List Json.Value :=
  [f.name, f.valueObject, f.valueArray, f.rawValue, f.docId, f.operation, f.relation, f.type]

/-- Whether each value that a predicate carries, nested ones included, can be had back from its text. -/
def isFaithful : Predicate → Bool
  | absent => true
  | node f a b c d => f.values.all Json.Value.isFaithful &&
      (a.isFaithful && b.isFaithful && c.isFaithful && d.isFaithful)

theorem isFaithful_toJson (p : Predicate) (h : p.isFaithful = true) : p.toJson.isFaithful = true := by
  induction p with
  | absent => rfl
  | node f a b c d iha ihb ihc ihd =>
      simp only [isFaithful, Fields.values, List.all_cons, List.all_nil, Bool.and_eq_true] at h
      obtain ⟨hfields, ⟨⟨ha, hb⟩, hc⟩, hd⟩ := h
      have hnames : ((Fields.toMembers f ++ [("nestedA", a.toJson), ("nestedB", b.toJson),
          ("nestedC", c.toJson), ("nestedD", d.toJson)]).map (·.1)).Nodup := by
        simp [Fields.toMembers]
      rw [toJson, Json.isFaithful_object, decide_eq_true hnames, Bool.true_and]
      simp [Fields.toMembers, Json.membersFaithful_cons, Json.memberFaithful_eq, Json.membersFaithful,
        hfields, iha ha, ihb hb, ihc hc, ihd hd]

end Predicate

namespace Request

/-- Whether each value that a request carries can be had back from its text. -/
def isFaithful : Request → Bool
  | predicate _ table p => table.isFaithful && p.isFaithful
  | scan table .. => table.isFaithful

theorem isFaithful_toJson {r : Request} (h : r.isFaithful = true) : r.toJson.isFaithful = true := by
  cases r with
  | predicate op table p =>
      obtain ⟨htable, hp⟩ := Bool.and_eq_true_iff.mp h
      rw [toJson, Json.isFaithful_object, decide_eq_true (by simp), Bool.true_and]
      simp [Json.memberFaithful_eq, Json.membersFaithful, Json.Value.isFaithful, htable, p.isFaithful_toJson hp]
  | scan table startKey limit offset =>
      rw [isFaithful] at h
      rw [toJson, Json.isFaithful_object, decide_eq_true (by simp), Bool.true_and]
      simp [Json.memberFaithful_eq, Json.membersFaithful, Json.Value.isFaithful, h]

/-- The JSON object of a request is had back from its line. -/
theorem read_line {r : Request} (hw : r.isWritable = true) (h : r.isFaithful = true) :
    Json.read r.line = .ok r.toJson :=
  Json.read_render Json.Style.separates_compact hw (isFaithful_toJson h)

theorem printable_line {r : Request} {c : Char} (h : c ∈ r.line.toList) : Json.Printable c := by
  unfold line Json.Value.compactText at h
  rw [String.toList_ofList] at h
  exact Json.printable_render Json.Style.separates_compact _ c h

end Request

theorem Trace.text_recordAll (t : Trace) (requests : List Request) :
    (t.recordAll requests).text = t.text ++ String.join ((requests.map Request.line).map (· ++ "\n")) := by
  unfold text
  rw [t.lines_recordAll, List.map_append]
  apply String.toList_injective
  simp only [String.toList_append, String.toList_join, List.flatMap_append]

namespace DocumentStore

/-- Sends requests one after another, whatever comes of each, and gives what did. -/
def sendAll : List Request → Action DocumentStore (List (Except Failure Status))
  | [] => return []
  | r :: rest => do
    let answer ← (request r).attempt
    return answer :: (← sendAll rest)

/-- What comes of a request at a trace that takes every line. -/
def answerOf (r : Request) : Except Failure Status :=
  if r.isWritable then .ok .ok else .error (.number .unwritable)

theorem request_attempt_returns (r : Request) {t : Trace} (hwrites : t.refused = []) :
    (request r).attempt.Returns (.trace t) fun answer store =>
      answer = answerOf r ∧ store = .trace (t.recordAll ([r].filter (·.isWritable))) := by
  unfold answerOf
  by_cases hr : r.isWritable = true
  · simp only [List.filter_cons, List.filter_nil, hr, if_true]
    have hrequest : (request r).Ends (.trace t) (.ok .ok) (.trace (t.record r)) :=
      Action.ends_iff_run.mpr fun log => ⟨log, request_eq hwrites hr log⟩
    exact hrequest.attempt.returns ⟨rfl, rfl⟩
  · simp only [List.filter_cons, List.filter_nil, hr]
    have hrequest : (request r).Ends (.trace t) (.error (.number .unwritable)) (.trace t) :=
      Action.ends_iff_run.mpr fun log => ⟨log, request_of_not_isWritable hr t log⟩
    exact hrequest.attempt.returns ⟨rfl, rfl⟩

theorem sendAll_returns (requests : List Request) {t : Trace} (hwrites : t.refused = []) :
    (sendAll requests).Returns (.trace t) fun answers store =>
      answers = requests.map answerOf ∧ store = .trace (t.recordAll (requests.filter (·.isWritable))) := by
  induction requests generalizing t with
  | nil => exact Action.ensures_pure.mpr ⟨rfl, rfl⟩
  | cons r rest ih =>
      unfold sendAll
      refine (request_attempt_returns r hwrites).bind ?_ fun _ _ h => h
      rintro _ _ ⟨rfl, rfl⟩
      have hwrites' : (t.recordAll ([r].filter (·.isWritable))).refused = [] :=
        (t.refused_recordAll _).trans hwrites
      refine (ih hwrites').bind ?_ fun _ _ h => h
      rintro _ _ ⟨rfl, rfl⟩
      refine Action.ensures_pure.mpr ⟨rfl, ?_⟩
      rw [← Trace.recordAll_append, ← List.filter_append, List.singleton_append]

/-- Requests that are sent to a trace that takes every line: each that can be written is answered and has one line, in
order, which ends with the only line feed that it has and is printable ASCII otherwise, and from which the name of the
operation, the table and the predicate, or the key, the limit and the offset, are had back.  A request that holds an
integer too long to be written is refused and has no line. -/
theorem sendAll_lines (requests : List Request) {t : Trace} (hwrites : t.refused = []) :
    (sendAll requests).Returns (.trace t) fun answers store =>
      answers = requests.map (fun r => if r.isWritable then .ok .ok else .error (.number .unwritable)) ∧
      ∃ (t' : Trace) (lines : List String), store = .trace t' ∧
        lines.length = (requests.filter (·.isWritable)).length ∧ t'.records = t.records + lines.length ∧
        t'.text = t.text ++ String.join (lines.map (· ++ "\n")) ∧
        (∀ line ∈ lines, ∀ c ∈ line.toList, Json.Printable c) ∧
        ∀ (i : Nat) r, (requests.filter (·.isWritable))[i]? = some r → ∃ line, lines[i]? = some line ∧
          (r.isFaithful = true → Json.read line = .ok (match r with
            | .predicate op table p =>
              .object [("op", .string op.name), ("table", table), ("predicate", p.toJson)]
            | .scan table startKey limit offset =>
              .object [("op", .string "GEO_SCAN"), ("table", table), ("startKey", .string startKey),
                ("limit", .int limit), ("offset", .int offset)])) := by
  refine (sendAll_returns requests hwrites).mono ?_ fun _ _ h => h
  rintro answers store ⟨hanswers, rfl⟩
  have hprintable : ∀ line ∈ (requests.filter (·.isWritable)).map Request.line,
      ∀ c ∈ line.toList, Json.Printable c := by
    intro line hline c hc
    obtain ⟨r, _, rfl⟩ := List.mem_map.mp hline
    exact Request.printable_line hc
  refine ⟨hanswers, t.recordAll (requests.filter (·.isWritable)), (requests.filter (·.isWritable)).map Request.line,
    rfl, List.length_map _, ?_, t.text_recordAll _, hprintable, fun i r hr => ⟨r.line, ?_, fun hfaithful => ?_⟩⟩
  · rw [t.records_recordAll, List.length_map]
  · rw [List.getElem?_map, hr]
    rfl
  · have hwritable : r.isWritable = true := (List.mem_filter.mp (List.mem_of_getElem? hr)).2
    rw [Request.read_line hwritable hfaithful]
    cases r <;> rfl

/-- An insert with a predicate in slot C, with a line separator, quotes, control characters, a character beyond the
basic plane, and numbers. -/
def awkwardInsert : Request :=
  .predicate .insert (.string "a \"table\"") (.node
    { docId := .string "line\u2028separator\nand \x00\x7f", rawValue := .string "🌍 \\ \u00e9" }
    .absent .absent
    (.leaf { name := .string "geometry", valueObject := .object [("at", .array [.float .half, .int (-7)]),
      ("far", .float (.infinite true)), ("", .null)] })
    .absent)

/-- A scan from a key that holds a line feed. -/
def awkwardScan : Request := .scan (.string "a \"table\"") "key\n1" 10 (-3)

/-- A scan whose limit is the least integer that has too many digits. -/
def overlongScan : Request := .scan (.string "usertable") "0" (Nat.pow 10 Numeral.maxDigits : Nat) 0

theorem not_isWritable_overlongScan : ¬ overlongScan.isWritable = true := by
  have hlong : ¬ Numeral.IsWritable (Nat.pow 10 Numeral.maxDigits : Nat) := by
    unfold Numeral.IsWritable
    rw [Int.natAbs_natCast]
    exact Nat.lt_irrefl _
  rw [overlongScan, Request.isWritable_scan, decide_eq_false hlong]
  simp

theorem sendAll_lines_awkward : Trace.empty.refused = [] ∧
    (awkwardInsert.isWritable = true ∧ awkwardInsert.isFaithful = true) ∧
    (awkwardScan.isWritable = true ∧ awkwardScan.isFaithful = true) ∧
    (sendAll [awkwardInsert, overlongScan, awkwardScan]).Returns (.trace .empty) fun answers store =>
      answers = [.ok .ok, .error (.number .unwritable), .ok .ok] ∧
      ∃ (t' : Trace) (first second : String), store = .trace t' ∧ t'.records = 2 ∧
        t'.text = first ++ "\n" ++ (second ++ "\n") ∧
        Json.read first = .ok awkwardInsert.toJson ∧ Json.read second = .ok awkwardScan.toJson := by
  have hinsert : awkwardInsert.isWritable = true ∧ awkwardInsert.isFaithful = true := by decide +kernel
  have hscan : awkwardScan.isWritable = true ∧ awkwardScan.isFaithful = true := by decide +kernel
  have hwritten : [awkwardInsert, overlongScan, awkwardScan].filter (·.isWritable) = [awkwardInsert, awkwardScan] := by
    simp [hinsert.1, not_isWritable_overlongScan, hscan.1]
  refine ⟨rfl, hinsert, hscan, ?_⟩
  have hsend := sendAll_lines [awkwardInsert, overlongScan, awkwardScan] (show Trace.empty.refused = [] from rfl)
  rw [hwritten] at hsend
  refine hsend.mono ?_ fun _ _ h => h
  rintro answers store ⟨hanswers, t', lines, hstore, hlength, hrecords, htext, -, hread⟩
  obtain ⟨first, hfirst, hback₁⟩ := hread 0 awkwardInsert rfl
  obtain ⟨second, hsecond, hback₂⟩ := hread 1 awkwardScan rfl
  have hlines : lines = [first, second] := by
    match lines, hlength with
    | [a, b], _ =>
        cases hfirst
        cases hsecond
        rfl
  subst hlines
  refine ⟨?_, t', first, second, hstore, hrecords, ?_, hback₁ hinsert.2, hback₂ hscan.2⟩
  · simp [hanswers, hinsert.1, not_isWritable_overlongScan, hscan.1]
  · rw [htext]
    apply String.toList_injective
    simp [Trace.text, Trace.empty]

/-- A scan with a limit of too many digits is refused, and the first line is that of the scan after it. -/
theorem sendAll_overlong : (sendAll [overlongScan, awkwardScan]).Returns (.trace .empty) fun answers store =>
    answers = [.error (.number .unwritable), .ok .ok] ∧ store.records = 1 ∧ store.lines = [awkwardScan.line] := by
  have hscan : awkwardScan.isWritable = true := by decide +kernel
  have hwritten : [overlongScan, awkwardScan].filter (·.isWritable) = [awkwardScan] := by
    simp [not_isWritable_overlongScan, hscan]
  refine (sendAll_returns [overlongScan, awkwardScan] (show Trace.empty.refused = [] from rfl)).mono ?_
    fun _ _ h => h
  rw [hwritten]
  rintro answers store ⟨rfl, rfl⟩
  refine ⟨?_, rfl, rfl⟩
  simp [answerOf, not_isWritable_overlongScan, hscan]

end DocumentStore

end GeoWorkload
