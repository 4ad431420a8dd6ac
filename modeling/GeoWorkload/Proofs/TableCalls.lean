import GeoWorkload.Counters.Table
import GeoWorkload.Proofs.Outcomes

/-!
# Calls of the store in a table

What a call of the store in a table comes to (`TableStore.Ending`).  The server may report an error whenever it is
asked, for a connection, a cursor, a statement or a row.  The call ends at the first error, with the failure that it
becomes; an increment that finds no row ends there; otherwise the call gives what the replies to its statements say
(`TableStore.Call.answerOf`).  All along, the call stays on one connection, the one in use or the one that it opens
(`TableStore.Course`).
-/

namespace GeoWorkload

/-! ### Answers of a server -/

namespace Server

/-- What a client asks its server for. -/
inductive Channel where
  | connect
  | cursor
  | statement
  | row
  | close
deriving DecidableEq

end Server

/-- The error that an attempt to connect ends with. -/
def ConnectOutcome.error? : ConnectOutcome → Option DriverError
  | connected => none
  | refused e | notSelected e => some e

/-- The error in place of a reply. -/
def Reply.error? : Except DriverError Reply → Option DriverError
  | .ok _ => none
  | .error e => some e

namespace Server

/-- What the answers to come report on a channel, none where they report no error. -/
def reports (s : Server) : Channel → List (Option DriverError)
  | .connect => s.connects.map ConnectOutcome.error?
  | .cursor => s.cursors
  | .statement => s.statements.map Reply.error?
  | .row => s.rows
  | .close => s.closes

/-- What was taken from a list of which the rest is left. -/
def taken {α : Type} (all rest : List α) : List α := all.take (all.length - rest.length)

/-- The server has reported an error from the one state to the other. -/
def Reported (before after : Server) (e : DriverError) : Prop :=
  ∃ c, some e ∈ taken (before.reports c) (after.reports c)

/-- The server has been asked for an answer on a channel, and this is what it reported. -/
structure Asked (c : Channel) (fault : Option DriverError) (before after : Server) : Prop where
  fault : (before.reports c).head?.getD none = fault
  rest : after.reports c = (before.reports c).tail
  others : ∀ c', c' ≠ c → after.reports c' = before.reports c'

/-- The answers to come are the last ones of those that were to come. -/
def Follows (after before : Server) : Prop := ∀ c, after.reports c <:+ before.reports c

theorem taken_self {α : Type} (l : List α) : taken l l = [] := by simp [taken]

theorem taken_append {α : Type} (l rest : List α) : taken (l ++ rest) rest = l := by simp [taken]

theorem Follows.refl (s : Server) : s.Follows s := fun _ => List.suffix_rfl

theorem Follows.trans {s s' s'' : Server} (h : s''.Follows s') (h' : s'.Follows s) : s''.Follows s :=
  fun c => (h c).trans (h' c)

theorem not_reported_self (s : Server) (e : DriverError) : ¬ s.Reported s e := by
  rintro ⟨c, h⟩
  rw [taken_self] at h
  exact List.not_mem_nil h

variable {s s' s'' : Server} {c : Channel} {fault : Option DriverError}

theorem Follows.asked (h : s'.Follows s) (ha : Asked c fault s' s'') : s''.Follows s := by
  intro d
  by_cases hd : d = c
  · rw [hd, ha.rest]
    exact (List.tail_suffix _).trans (h c)
  · rw [ha.others d hd]
    exact h d

theorem mem_taken_tail {l rest : List (Option DriverError)} (h : rest <:+ l) (e : DriverError) :
    some e ∈ taken l rest.tail ↔ some e ∈ taken l rest ∨ rest.head?.getD none = some e := by
  obtain ⟨first, rfl⟩ := h
  cases rest with
  | nil => simp
  | cons a rest =>
      have hlast : taken (first ++ a :: rest) rest = first ++ [a] := by
        rw [List.append_cons, taken_append]
      rw [List.tail_cons, taken_append, hlast]
      simp [eq_comm]

/-- Asking once more adds what is reported then. -/
theorem reported_asked_iff (h : s'.Follows s) (ha : Asked c fault s' s'') (e : DriverError) :
    s.Reported s'' e ↔ s.Reported s' e ∨ fault = some e := by
  unfold Reported
  constructor
  · rintro ⟨d, hd⟩
    by_cases heq : d = c
    · rw [heq, ha.rest, mem_taken_tail (h c), ha.fault] at hd
      exact hd.imp_left fun hmem => ⟨c, hmem⟩
    · rw [ha.others d heq] at hd
      exact Or.inl ⟨d, hd⟩
  · rintro (⟨d, hd⟩ | hfault)
    · by_cases heq : d = c
      · refine ⟨c, ?_⟩
        rw [ha.rest, mem_taken_tail (h c)]
        exact Or.inl (heq ▸ hd)
      · refine ⟨d, ?_⟩
        rw [ha.others d heq]
        exact hd
    · refine ⟨c, ?_⟩
      rw [ha.rest, mem_taken_tail (h c), ha.fault]
      exact Or.inr hfault

/-! ### Single answers -/

theorem next_eq {α : Type} (a : α) (l : List α) : next a l = (l.head?.getD a, l.tail) := by
  cases l <;> rfl

theorem asked_connect (s : Server) : Asked .connect (s.connects.head?.getD .connected).error? s
    { s with connects := s.connects.tail } := by
  refine ⟨?_, by simp [reports], ?_⟩
  · cases h : s.connects <;> simp [reports, h, ConnectOutcome.error?]
  · intro c hc
    cases c <;> simp_all [reports]

theorem asked_cursor (s : Server) : Asked .cursor (s.cursors.head?.getD none) s
    { s with cursors := s.cursors.tail } := by
  refine ⟨rfl, rfl, ?_⟩
  intro c hc
  cases c <;> simp_all [reports]

theorem asked_statement (s : Server) : Asked .statement (Reply.error? (s.statements.head?.getD (.ok {}))) s
    { s with statements := s.statements.tail } := by
  refine ⟨?_, by simp [reports], ?_⟩
  · cases h : s.statements <;> simp [reports, h, Reply.error?]
  · intro c hc
    cases c <;> simp_all [reports]

theorem asked_row (s : Server) : Asked .row (s.rows.head?.getD none) s { s with rows := s.rows.tail } := by
  refine ⟨rfl, rfl, ?_⟩
  intro c hc
  cases c <;> simp_all [reports]

theorem asked_close (s : Server) : Asked .close (s.closes.head?.getD none) s { s with closes := s.closes.tail } := by
  refine ⟨rfl, rfl, ?_⟩
  intro c hc
  cases c <;> simp_all [reports]

/-- The answer to the statement that comes after so many others. -/
def answer (s : Server) (k : Nat) : Except DriverError Reply := s.statements.getD k (.ok {})

/-- The reply to it, where that is one. -/
def reply (s : Server) (k : Nat) : Reply :=
  match s.answer k with
  | .ok r => r
  | .error _ => {}

end Server

/-! ### Courses -/

namespace TableStore

/-- The connection that a call uses, the one in use or the next one to be made. -/
def line (s : TableStore) : Nat := s.held.getD s.opened

/-- What asks for a connection. -/
def connecting (s : TableStore) : ServerCall := .connect (s.access.parameters s.timeout)

/-- What selects the database on the next connection to be made. -/
def selecting (s : TableStore) : ServerCall := .selectDatabase s.opened s.access.database

/-- What a call asks the server for first, if there is no connection in use. -/
def opening (s : TableStore) : List ServerCall :=
  match s.held with
  | some _ => []
  | none => [s.connecting, s.selecting]

/-- The execution of a statement on a connection. -/
def executing (n : Nat) (item : String × Json.Value) : ServerCall := .execute n item.1 item.2

/-- A call has come so far from the first state: it is on its connection, has executed the statements there, and has
met an error or none. -/
structure Course (s₀ : TableStore) (done : List (String × Json.Value)) (fault : Option DriverError)
    (s : TableStore) : Prop where
  access : s.access = s₀.access
  table : s.table = s₀.table
  timeout : s.timeout = s₀.timeout
  held : s.held = some s₀.line
  opened : s.opened = if s₀.held = none then s₀.opened + 1 else s₀.opened
  calls : s.calls = (s₀.opening ++ done.map (executing s₀.line)).reverse ++ s₀.calls
  outcome : s₀.held = none → s₀.server.connects.head?.getD .connected = .connected
  connects : s.server.connects = if s₀.held = none then s₀.server.connects.tail else s₀.server.connects
  statements : s.server.statements = s₀.server.statements.drop done.length
  follows : s.server.Follows s₀.server
  reported : ∀ e, s₀.server.Reported s.server e ↔ fault = some e

/-- A call has found no connection: none was made, or the one that was made has no database and is not kept. -/
structure Unopened (s₀ : TableStore) (e : DriverError) (s : TableStore) : Prop where
  access : s.access = s₀.access
  table : s.table = s₀.table
  timeout : s.timeout = s₀.timeout
  free : s₀.held = none
  held : s.held = none
  outcome :
    s₀.server.connects.head?.getD .connected = .refused e ∧
        s.calls = s₀.connecting :: s₀.calls ∧ s.opened = s₀.opened ∨
      s₀.server.connects.head?.getD .connected = .notSelected e ∧
        s.calls = s₀.selecting :: s₀.connecting :: s₀.calls ∧ s.opened = s₀.opened + 1
  connects : s.server.connects = s₀.server.connects.tail
  follows : s.server.Follows s₀.server
  reported : ∀ error, s₀.server.Reported s.server error ↔ e = error

variable {s₀ s : TableStore} {done : List (String × Json.Value)} {fault : Option DriverError}

theorem line_of_held {n : Nat} (h : s.held = some n) : s.line = n := by rw [line, h, Option.getD_some]

theorem line_of_free (h : s.held = none) : s.line = s.opened := by rw [line, h, Option.getD_none]

theorem course_refl {n : Nat} (h : s.held = some n) : Course s [] none s where
  access := rfl
  table := rfl
  timeout := rfl
  held := by rw [line_of_held h, h]
  opened := by simp [h]
  calls := by simp [opening, h]
  outcome hnone := by simp [h] at hnone
  connects := by simp [h]
  statements := rfl
  follows := .refl _
  reported e := by simp [Server.not_reported_self]

theorem connectStep_ensures (h : s.held = none) : (Action.step connectStep).Ensures s
    (fun _ s' => Course s [] none s')
    fun f s' => ∃ e, f = failureOf (.unreachable s.access.target.display) e ∧ Unopened s e s' := by
  have hasked := Server.asked_connect s.server
  have hreported := Server.reported_asked_iff (.refl s.server) hasked
  have hfollows := (Server.Follows.refl s.server).asked hasked
  simp only [Server.not_reported_self, false_or] at hreported
  refine Action.ensures_step.mpr ?_
  unfold connectStep
  rw [Server.next_eq]
  cases houtcome : s.server.connects.head?.getD .connected with
  | connected =>
      rw [houtcome] at hreported
      refine ⟨rfl, rfl, rfl, ?_, ?_, ?_, fun _ => houtcome, ?_, rfl, hfollows, hreported⟩
      · rw [line_of_free h]
      · rw [if_pos h]
      · simp [opening, h, connecting, selecting]
      · rw [if_pos h]
  | refused e =>
      rw [houtcome] at hreported
      refine ⟨e, rfl, rfl, rfl, rfl, h, h, Or.inl ⟨houtcome, rfl, rfl⟩, rfl, hfollows, ?_⟩
      simpa [ConnectOutcome.error?] using hreported
  | notSelected e =>
      rw [houtcome] at hreported
      refine ⟨e, rfl, rfl, rfl, rfl, h, h, Or.inr ⟨houtcome, rfl, rfl⟩, rfl, hfollows, ?_⟩
      simpa [ConnectOutcome.error?] using hreported

/-- A connection is in use afterwards, or there is none. -/
theorem connection_ensures (s₀ : TableStore) : connection.Ensures s₀
    (fun n s => n = s₀.line ∧ Course s₀ [] none s)
    fun f s => ∃ e, f = failureOf (.unreachable s₀.access.target.display) e ∧ Unopened s₀ e s := by
  unfold connection
  refine Action.ensures_look_bind ?_
  split
  · rename_i n hheld
    refine Action.ensures_pure.mpr ⟨?_, course_refl hheld⟩
    rw [line_of_held hheld]
  · rename_i hheld
    refine Action.ensures_look_bind ?_
    refine (connectStep_ensures hheld).bind ?_ fun _ _ h => h
    intro _ s h
    refine Action.ensures_look_bind (Action.ensures_log_bind (Action.ensures_pure.mpr ⟨?_, h⟩))
    rw [line_of_free hheld]

/-- Asking for a cursor, a row or the end of the connection leaves a course as it is but for the error that is met. -/
theorem Course.asked {c : Server.Channel} {server : Server} (h : Course s₀ done none s)
    (ha : Server.Asked c fault s.server server) (hconnects : server.connects = s.server.connects)
    (hstatements : server.statements = s.server.statements) :
    Course s₀ done fault { s with server } where
  access := h.access
  table := h.table
  timeout := h.timeout
  held := h.held
  opened := h.opened
  calls := h.calls
  outcome := h.outcome
  connects := hconnects.trans h.connects
  statements := hstatements.trans h.statements
  follows := h.follows.asked ha
  reported e := by simp [Server.reported_asked_iff h.follows ha, h.reported]

theorem cursor_ensures (wrap : String → Failure) (s₀ : TableStore) : (cursor wrap).Ensures s₀
    (fun n s => n = s₀.line ∧ Course s₀ [] none s)
    fun f s => (∃ e, f = failureOf (.unreachable s₀.access.target.display) e ∧ Unopened s₀ e s) ∨
      ∃ e, f = failureOf wrap e ∧ Course s₀ [] (some e) s := by
  unfold cursor
  refine (connection_ensures s₀).bind ?_ fun _ _ h => Or.inl h
  rintro n s ⟨hn, h⟩
  refine Action.ensures_step.mpr ?_
  rw [Server.next_eq]
  have hcourse := h.asked (Server.asked_cursor s.server) rfl rfl
  cases hfault : s.server.cursors.head?.getD none with
  | none =>
      rw [hfault] at hcourse
      exact ⟨hn, hcourse⟩
  | some e =>
      rw [hfault] at hcourse
      exact Or.inr ⟨e, rfl, hcourse⟩

theorem fetch_ensures (wrap : String → Failure) (reply : Reply) (h : Course s₀ done none s) :
    (fetch wrap reply).Ensures s (fun row s' => row = reply.row ∧ Course s₀ done none s')
      fun f s' => ∃ e, f = failureOf wrap e ∧ Course s₀ done (some e) s' := by
  refine Action.ensures_step.mpr ?_
  rw [Server.next_eq]
  have hcourse := h.asked (Server.asked_row s.server) rfl rfl
  cases hfault : s.server.rows.head?.getD none with
  | none =>
      rw [hfault] at hcourse
      exact ⟨rfl, hcourse⟩
  | some e =>
      rw [hfault] at hcourse
      exact ⟨e, rfl, hcourse⟩

/-- The answer to a statement is the next of the server's. -/
theorem execute_ensures (wrap : String → Failure) (statement : String) (parameters : Json.Value)
    (h : Course s₀ done none s) : (execute wrap s₀.line statement parameters).Ensures s
      (fun reply s' => s₀.server.answer done.length = .ok reply ∧
        Course s₀ (done ++ [(statement, parameters)]) none s')
      fun f s' => ∃ e, f = failureOf wrap e ∧ s₀.server.answer done.length = .error e ∧
        Course s₀ (done ++ [(statement, parameters)]) (some e) s' := by
  refine Action.ensures_step.mpr ?_
  rw [Server.next_eq]
  have hanswer : s.server.statements.head?.getD (.ok {}) = s₀.server.answer done.length := by
    rw [h.statements, List.head?_drop]
    rfl
  have hcourse : ∀ fault, Reply.error? (s₀.server.answer done.length) = fault →
      Course s₀ (done ++ [(statement, parameters)]) fault { s with
        server := { s.server with statements := s.server.statements.tail }
        calls := .execute s₀.line statement parameters :: s.calls } := by
    rintro fault rfl
    have ha := Server.asked_statement s.server
    rw [hanswer] at ha
    refine ⟨h.access, h.table, h.timeout, h.held, h.opened, ?_, h.outcome, h.connects, ?_, h.follows.asked ha, ?_⟩
    · rw [h.calls]
      simp [executing]
    · rw [h.statements]
      simp
    · intro e
      simp [Server.reported_asked_iff h.follows ha, h.reported]
  dsimp only
  rw [hanswer]
  cases hreply : s₀.server.answer done.length with
  | ok reply => exact ⟨rfl, hcourse none (by rw [hreply]; rfl)⟩
  | error e => exact ⟨e, rfl, rfl, hcourse (some e) (by rw [hreply]; rfl)⟩

/-! ### Calls -/

/-- A call of the store. -/
inductive Call where
  | ensureTable
  | get (key : String)
  | set (key value : String)
  | add (key value : String)
  | increment (key : String) (step : Int)
  | close
deriving DecidableEq

/-- What a call gives: nothing, a text or null, whether a text was added, or a sum. -/
inductive Answer where
  | done
  | value (v : Json.Value)
  | added (isNew : Bool)
  | sum (z : Int)
deriving DecidableEq

namespace Call

/-- Carries out the call. -/
def perform : Call → Action TableStore Answer
  | ensureTable => do
    TableStore.ensureTable
    return .done
  | get key => return .value (← read key)
  | set key value => do
    put key value
    return .done
  | add key value => return .added (← TableStore.add key value)
  | increment key step => return .sum (← incrementBy key (.int step))
  | close => do
    TableStore.close
    return .done

/-- The failure that an error becomes which the server reports once there is a connection. -/
def wrap (table : String) : Call → String → Failure
  | ensureTable => .tableRefused table
  | get key => .statementFailed "get" key
  | set key _ => .statementFailed "set" key
  | add key _ => .statementFailed "add" key
  | increment key _ => .statementFailed "increment" key
  | close => .driverFailed

/-- The statements that the call executes one after another. -/
def statements (table : String) : Call → List (String × Json.Value)
  | ensureTable => [(createStatement table, .null)]
  | get key => [(selectStatement table, .array [.string key])]
  | set key value => [(putStatement table, .array [.string key, .string value])]
  | add key value => [(addStatement table, .array [.string key, .string value])]
  | increment key step =>
    [(incrementStatement table, .array [.int step, .string key]), (sumStatement, .null)]
  | close => []

/-- The call adds to a counter, and the server has executed that and found no row. -/
def FindsNone (server : Server) : Call → Prop
  | increment .. => ∃ reply, server.answer 0 = .ok reply ∧ reply.rowCount = 0
  | _ => False

/-- What the call gives where the server reports no error, by the replies to its statements. -/
def answerOf (replies : Nat → Reply) : Call → Except Failure Answer
  | ensureTable | set .. | close => .ok .done
  | get _ => do
    let row := (replies 0).row
    return .value (← if row.isTruthy then column row else .ok .null)
  | add .. => .ok (.added ((replies 0).rowCount = 1))
  | increment .. => do
    let sum ← column (replies 1).row
    return .sum (← sum.toInteger)

end Call

/-- The connection in use has been closed, which the server may have reported an error of. -/
structure Closed (s₀ : TableStore) (n : Nat) (fault : Option DriverError) (s : TableStore) : Prop where
  access : s.access = s₀.access
  table : s.table = s₀.table
  timeout : s.timeout = s₀.timeout
  used : s₀.held = some n
  held : s.held = none
  opened : s.opened = s₀.opened
  calls : s.calls = .close n :: s₀.calls
  connects : s.server.connects = s₀.server.connects
  follows : s.server.Follows s₀.server
  reported : ∀ e, s₀.server.Reported s.server e ↔ fault = some e

/-- How closing a connection ends: an error of the server is told of and no more. -/
def closing : Option DriverError → Except Failure Answer
  | none => .ok .done
  | some e => if e.isOfServer then .ok .done else .error (.driverFailed e.text)

/-- All that a call can come to. -/
inductive Ending (s₀ : TableStore) : Call → Except Failure Answer → TableStore → Prop where
  | unopened {call : Call} {e : DriverError} {s : TableStore} (hcall : call ≠ .close) (h : Unopened s₀ e s) :
      Ending s₀ call (.error (failureOf (.unreachable s₀.access.target.display) e)) s
  | reported {call : Call} {done : List (String × Json.Value)} {e : DriverError} {s : TableStore}
      (hcall : call ≠ .close) (hdone : done <+: call.statements s₀.table) (h : Course s₀ done (some e) s)
      (hfinds : done ≠ [] → ¬ call.FindsNone s₀.server) :
      Ending s₀ call (.error (failureOf (call.wrap s₀.table) e)) s
  | missing {key : String} {step : Int} {done : List (String × Json.Value)} {s : TableStore} (hne : done ≠ [])
      (hdone : done <+: Call.statements s₀.table (.increment key step)) (h : Course s₀ done none s)
      (hfinds : Call.FindsNone s₀.server (.increment key step)) :
      Ending s₀ (.increment key step) (.error (.counterMissing key)) s
  | answered {call : Call} {s : TableStore} (hcall : call ≠ .close)
      (h : Course s₀ (call.statements s₀.table) none s) (hfinds : ¬ call.FindsNone s₀.server) :
      Ending s₀ call (call.answerOf s₀.server.reply) s
  | idle (h : s₀.held = none) : Ending s₀ .close (.ok .done) s₀
  | closed {n : Nat} {fault : Option DriverError} {s : TableStore} (h : Closed s₀ n fault s) :
      Ending s₀ .close (closing fault) s

/-! ### How calls end -/

section ending

variable {call : Call} {statement : String} {parameters : Json.Value}

theorem Call.not_findsNone_of_error {server : Server} {e : DriverError} (h : server.answer 0 = .error e)
    (call : Call) : ¬ call.FindsNone server := by
  cases call with
  | increment key step =>
      rintro ⟨reply, hreply, _⟩
      rw [h] at hreply
      cases hreply
  | _ => exact not_false

theorem cursor_ending (hcall : call ≠ .close) (s₀ : TableStore) : (cursor (call.wrap s₀.table)).Ensures s₀
    (fun n s => n = s₀.line ∧ Course s₀ [] none s) fun f s => Ending s₀ call (.error f) s := by
  refine (cursor_ensures _ s₀).mono (fun _ _ h => h) ?_
  rintro f s (⟨e, rfl, h⟩ | ⟨e, rfl, h⟩)
  · exact .unopened hcall h
  · exact .reported hcall List.nil_prefix h (by simp)

theorem execute_ending (hcall : call ≠ .close) (h : Course s₀ done none s)
    (hdone : done ++ [(statement, parameters)] <+: call.statements s₀.table)
    (hfinds : done ≠ [] → ¬ call.FindsNone s₀.server) :
    (execute (call.wrap s₀.table) s₀.line statement parameters).Ensures s
      (fun reply s' => s₀.server.answer done.length = .ok reply ∧
        Course s₀ (done ++ [(statement, parameters)]) none s')
      fun f s' => Ending s₀ call (.error f) s' := by
  refine (execute_ensures _ _ _ h).mono (fun _ _ h => h) ?_
  rintro f s' ⟨e, rfl, he, h'⟩
  refine .reported hcall hdone h' fun _ => ?_
  cases done with
  | nil => exact call.not_findsNone_of_error he
  | cons first rest => exact hfinds (List.cons_ne_nil first rest)

theorem fetch_ending (hcall : call ≠ .close) (reply : Reply) (h : Course s₀ done none s)
    (hdone : done <+: call.statements s₀.table) (hfinds : ¬ call.FindsNone s₀.server) :
    (fetch (call.wrap s₀.table) reply).Ensures s (fun row s' => row = reply.row ∧ Course s₀ done none s')
      fun f s' => Ending s₀ call (.error f) s' := by
  refine (fetch_ensures _ reply h).mono (fun _ _ h => h) ?_
  rintro f s' ⟨e, rfl, h'⟩
  exact .reported hcall hdone h' fun _ => hfinds

theorem reply_eq {server : Server} {k : Nat} {r : Reply} (h : server.answer k = .ok r) : server.reply k = r := by
  unfold Server.reply
  rw [h]

theorem unbroken_bind {α : Type} {key : String} {f : Label → Action TableStore α} {ok : α → TableStore → Prop}
    {failed : Failure → TableStore → Prop} (h : (f key).Ensures s ok failed) :
    (Action.ofLabel (Label.text key).unbroken >>= f).Ensures s ok failed :=
  (Action.ends_ofExcept (.ok (Label.text key))).bind_ensures h

theorem ending_of_ends {x : Action TableStore Answer} {r : Except Failure Answer} {s' : TableStore}
    (hx : x.Ends s r s') (h : Ending s₀ call r s') :
    x.Ensures s (fun a s => Ending s₀ call (.ok a) s) fun f s => Ending s₀ call (.error f) s := by
  apply hx.ensures
  cases r with
  | ok a => exact h
  | error f => exact h

theorem ends_return {α : Type} (r : Except Failure α) (f : α → Answer) (s : TableStore) :
    (do return f (← Action.ofExcept r) : Action TableStore Answer).Ends s (do return f (← r)) s := by
  cases r with
  | ok a => exact (Action.ends_ofExcept _).bind_ok (Action.ends_pure _)
  | error e => exact (Action.ends_ofExcept _).bind_error

/-- A call opens a cursor and executes its first statement, and goes on after that. -/
theorem first_ending (hcall : call ≠ .close) (hfirst : [(statement, parameters)] <+: call.statements s₀.table)
    {f : Nat → Reply → Action TableStore Answer}
    (hf : ∀ reply s, s₀.server.answer 0 = .ok reply → Course s₀ [(statement, parameters)] none s →
      (f s₀.line reply).Ensures s (fun a s => Ending s₀ call (.ok a) s) fun f s => Ending s₀ call (.error f) s) :
    (cursor (call.wrap s₀.table) >>= fun n =>
      execute (call.wrap s₀.table) n statement parameters >>= f n).Ensures s₀
      (fun a s => Ending s₀ call (.ok a) s) fun f s => Ending s₀ call (.error f) s := by
  refine (cursor_ending hcall s₀).bind ?_ fun _ _ h => h
  rintro _ s ⟨rfl, h⟩
  refine (execute_ending hcall h hfirst fun hne => absurd rfl hne).bind ?_ fun _ _ h => h
  rintro reply s' ⟨hreply, h'⟩
  exact hf reply s' hreply h'

/-- The call ends as it can from a state. -/
def Call.Fulfils (call : Call) (s₀ : TableStore) : Prop :=
  call.perform.Ensures s₀ (fun a s => Ending s₀ call (.ok a) s) fun f s => Ending s₀ call (.error f) s

theorem fulfils_ensureTable (s₀ : TableStore) : Call.ensureTable.Fulfils s₀ := by
  have hcall : Call.ensureTable ≠ .close := by simp
  unfold Call.Fulfils Call.perform TableStore.ensureTable
  simp only [bind_assoc]
  refine Action.ensures_look_bind (first_ending hcall List.prefix_rfl ?_)
  intro _ s _ h
  exact Action.ensures_pure.mpr (.answered hcall h not_false)

theorem fulfils_set (key value : String) (s₀ : TableStore) : (Call.set key value).Fulfils s₀ := by
  have hcall : Call.set key value ≠ .close := by simp
  unfold Call.Fulfils Call.perform put
  simp only [bind_assoc]
  refine unbroken_bind (Action.ensures_look_bind (first_ending hcall List.prefix_rfl ?_))
  intro _ s _ h
  exact Action.ensures_pure.mpr (.answered hcall h not_false)

theorem fulfils_add (key value : String) (s₀ : TableStore) : (Call.add key value).Fulfils s₀ := by
  have hcall : Call.add key value ≠ .close := by simp
  unfold Call.Fulfils Call.perform TableStore.add
  simp only [bind_assoc]
  refine unbroken_bind (Action.ensures_look_bind (first_ending hcall List.prefix_rfl ?_))
  intro reply s hreply h
  have hanswered := Ending.answered hcall h not_false
  rw [Call.answerOf, reply_eq (k := 0) hreply] at hanswered
  exact ending_of_ends (Action.ends_pure _) hanswered

theorem fulfils_get (key : String) (s₀ : TableStore) : (Call.get key).Fulfils s₀ := by
  have hcall : Call.get key ≠ .close := by simp
  unfold Call.Fulfils Call.perform read
  simp only [bind_assoc]
  refine unbroken_bind (Action.ensures_look_bind (first_ending hcall List.prefix_rfl ?_))
  intro reply s hreply h
  refine (fetch_ending hcall reply h List.prefix_rfl not_false).bind ?_ fun _ _ h => h
  rintro _ s' ⟨rfl, h'⟩
  have hanswered := Ending.answered hcall h' not_false
  simp only [Call.answerOf, reply_eq (k := 0) hreply] at hanswered
  split
  · rename_i htruthy
    rw [if_pos htruthy] at hanswered
    exact ending_of_ends (ends_return _ _ _) hanswered
  · rename_i hnot
    rw [if_neg hnot] at hanswered
    exact ending_of_ends (Action.ends_pure _) hanswered

theorem findsNone_increment_iff {server : Server} {reply : Reply} (h : server.answer 0 = .ok reply) (key : String)
    (step : Int) : Call.FindsNone server (.increment key step) ↔ reply.rowCount = 0 := by
  constructor
  · rintro ⟨reply', h', hzero⟩
    rwa [Except.ok.inj (h.symm.trans h')]
  · exact fun hzero => ⟨reply, h, hzero⟩

theorem ends_sum (row : Json.Value) (s : TableStore) :
    (do
      let sum ← Action.ofExcept (column row)
      return .sum (← Action.ofExcept sum.toInteger) : Action TableStore Answer).Ends s
      (do
        let sum ← column row
        return .sum (← sum.toInteger)) s := by
  cases column row with
  | error f => exact (Action.ends_ofExcept _).bind_error
  | ok sum => exact (Action.ends_ofExcept _).bind_ok (ends_return _ _ _)

/-- An increment ends at the first statement if that finds no row, and asks for the sum otherwise. -/
theorem fulfils_increment (key : String) (step : Int) (s₀ : TableStore) : (Call.increment key step).Fulfils s₀ := by
  have hcall : Call.increment key step ≠ .close := by simp
  have hfirst : [(incrementStatement s₀.table, Json.Value.array [.int step, .string key])] <+:
      Call.statements s₀.table (.increment key step) := ⟨[(sumStatement, .null)], rfl⟩
  have hstep : ∀ f : Int → Action TableStore Answer,
      Action.ofExcept (Json.Value.int step).toInteger >>= f = f step := fun _ => rfl
  unfold Call.Fulfils Call.perform incrementBy
  simp only [bind_assoc, hstep]
  refine unbroken_bind (Action.ensures_look_bind (first_ending hcall hfirst ?_))
  intro reply s hreply h
  split
  · rename_i hzero
    have hfinds := (findsNone_increment_iff hreply key step).mpr hzero
    exact ending_of_ends ((Action.ends_fail _).bind_error) (.missing (by simp) hfirst h hfinds)
  · rename_i hfound
    have hfinds := mt (findsNone_increment_iff hreply key step).mp hfound
    simp only [bind_assoc]
    refine (execute_ending hcall h List.prefix_rfl fun _ => hfinds).bind ?_ fun _ _ h => h
    rintro reply s' ⟨hreply, h'⟩
    refine (fetch_ending hcall reply h' List.prefix_rfl hfinds).bind ?_ fun _ _ h => h
    rintro _ s'' ⟨rfl, h''⟩
    have hanswered := Ending.answered hcall h'' hfinds
    simp only [Call.answerOf, reply_eq (k := 1) hreply] at hanswered
    exact ending_of_ends (ends_sum _ _) hanswered

theorem fulfils_close (s₀ : TableStore) : Call.close.Fulfils s₀ := by
  unfold Call.Fulfils Call.perform TableStore.close
  simp only [bind_assoc]
  refine Action.ensures_look_bind ?_
  split
  · rename_i hheld
    exact ending_of_ends ((Action.ends_pure _).bind_ok (Action.ends_pure _)) (.idle hheld)
  · rename_i n hheld
    have ha := Server.asked_close s₀.server
    have hclosed : Closed s₀ n (s₀.server.closes.head?.getD none) { s₀ with
        held := none
        server := { s₀.server with closes := s₀.server.closes.tail }
        calls := .close n :: s₀.calls } := by
      refine ⟨rfl, rfl, rfl, hheld, rfl, rfl, rfl, rfl, (Server.Follows.refl _).asked ha, fun e => ?_⟩
      simp [Server.reported_asked_iff (.refl _) ha, Server.not_reported_self]
    have hending := Ending.closed hclosed
    simp only [bind_assoc]
    refine (Action.ends_step _).bind_ensures ?_
    dsimp only
    rw [Server.next_eq]
    cases hfault : s₀.server.closes.head?.getD none with
    | none =>
        rw [hfault] at hending
        exact ending_of_ends ((Action.ends_pure _).bind_ok (Action.ends_pure _)) hending
    | some e =>
        rw [hfault, closing] at hending
        dsimp only
        by_cases hserver : e.isOfServer = true
        · rw [if_pos hserver] at hending ⊢
          exact ending_of_ends ((Action.ends_log _ _).bind_ok (Action.ends_pure _)) hending
        · rw [if_neg hserver] at hending ⊢
          exact ending_of_ends (Action.ends_fail _).bind_error hending

/-- Every call ends as it can. -/
theorem fulfils (call : Call) (s₀ : TableStore) : call.Fulfils s₀ := by
  cases call with
  | ensureTable => exact fulfils_ensureTable s₀
  | get key => exact fulfils_get key s₀
  | set key value => exact fulfils_set key value s₀
  | add key value => exact fulfils_add key value s₀
  | increment key step => exact fulfils_increment key step s₀
  | close => exact fulfils_close s₀

end ending

end TableStore

end GeoWorkload
