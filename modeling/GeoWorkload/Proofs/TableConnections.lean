import GeoWorkload.Proofs.TableCalls

/-!
# Connections of the store in a table

Calls of the store in a table in turn, each made whatever the ones before it came to (`TableStore.run`).  No error of
the server escapes from a call, and the calls stay on the connection in use until it is closed
(`TableStore.run_orderly`).  Every connection that was made is in use or has been closed, but for those of which the
database could not be selected: these are neither (`TableStore.accounts_for_connections`).
-/

namespace GeoWorkload

/-- The connection that a call of a client is made on. -/
def ServerCall.connection? : ServerCall → Option Nat
  | connect _ => none
  | selectDatabase n _ | execute n _ _ | close n => some n

/-- Whether an attempt to connect makes a connection. -/
def ConnectOutcome.makes : ConnectOutcome → Bool
  | connected | notSelected _ => true
  | refused _ => false

namespace Server

/-- The attempts to come that make a connection. -/
def connections (s : Server) : List ConnectOutcome := s.connects.filter (·.makes)

/-- What becomes of the connection that is made after so many others. -/
def connection (s : Server) (n : Nat) : ConnectOutcome := s.connections.getD n .connected

variable {s s' : Server}

theorem connections_of_refused {e : DriverError} (hrest : s'.connects = s.connects.tail)
    (h : s.connects.head?.getD .connected = .refused e) : s'.connections = s.connections := by
  unfold connections
  rw [hrest]
  cases hconnects : s.connects with
  | nil => rfl
  | cons outcome rest =>
      rw [hconnects] at h
      cases h
      rfl

theorem connections_of_makes (hrest : s'.connects = s.connects.tail)
    (h : (s.connects.head?.getD .connected).makes = true) :
    s'.connections = s.connections.tail ∧ s.connection 0 = s.connects.head?.getD .connected := by
  unfold connection connections
  rw [hrest]
  cases hconnects : s.connects with
  | nil => exact ⟨rfl, rfl⟩
  | cons outcome rest =>
      rw [hconnects, List.head?_cons, Option.getD_some] at h
      rw [List.filter_cons_of_pos h]
      exact ⟨rfl, rfl⟩

/-- Errors that are reported later on were to come. -/
theorem Reported.mem_reports {before : Server} {e : DriverError} (h : s.Reported s' e) (hs : s.Follows before) :
    ∃ c, some e ∈ before.reports c := by
  obtain ⟨c, hc⟩ := h
  exact ⟨c, (hs c).subset (List.mem_of_mem_take hc)⟩

theorem isOfServer_of_forall (h : ∀ c, ∀ answer ∈ s.reports c, ∀ error ∈ answer, error.isOfServer = true) :
    ∀ c error, some error ∈ s.reports c → error.isOfServer = true :=
  fun c error hmem => h c _ hmem error rfl

end Server

namespace TableStore

/-! ### Order of a call -/

/-- The calls that the client made from the one state to the other, in turn. -/
def made (s₀ s : TableStore) : List ServerCall := (Server.taken s.calls s₀.calls).reverse

/-- A call adds to a counter, and that was executed and touched no row. -/
def FoundNone (s₀ : TableStore) (call : Call) (s : TableStore) (key : String) : Prop :=
  ∃ step n reply, call = .increment key step ∧
    executing n (incrementStatement s₀.table, .array [.int step, .string key]) ∈ made s₀ s ∧
    s₀.server.answer 0 = .ok reply ∧ reply.rowCount = 0

/-- The failure of the store that an error of the server becomes: without a connection it could not be reached. -/
def refusal (s₀ : TableStore) (call : Call) (s : TableStore) (error : DriverError) : Failure :=
  if s.held = none then .unreachable s₀.access.target.display error.text else call.wrap s₀.table error.text

/-- A call executes statements on a connection that stays in use, and asks for nothing else. -/
def Stays (s₀ : TableStore) (call : Call) (n : Nat) (s : TableStore) : Prop :=
  s.held = some n ∧ ∃ done, done <+: call.statements s₀.table ∧ made s₀ s = done.map (executing n)

/-- A call asks for a connection once, for one that no call was made on before, and goes on there if it comes to
be. -/
def Opens (s₀ : TableStore) (call : Call) (s : TableStore) : Prop :=
  (∀ c ∈ s₀.calls, c.connection? ≠ some s₀.opened) ∧
    match s₀.server.connects.head?.getD .connected with
    | .refused _ => made s₀ s = [s₀.connecting] ∧ s.held = none
    | .notSelected _ => made s₀ s = [s₀.connecting, s₀.selecting] ∧ s.held = none
    | .connected => s.held = some s₀.opened ∧ ∃ done, done <+: call.statements s₀.table ∧
        made s₀ s = s₀.connecting :: s₀.selecting :: done.map (executing s₀.opened)

/-- What a call comes to when the server reports errors of its own only: they become failures of the store, and the
call is made on the connection in use or on one that it opens. -/
structure Orderly (s₀ : TableStore) (call : Call) (outcome : Except Failure Answer) (s : TableStore) : Prop where
  contained : ∀ text, outcome ≠ .error (.driverFailed text)
  told : call ≠ .close → ∀ error, s₀.server.Reported s.server error →
    outcome = .error (refusal s₀ call s error) ∧ (refusal s₀ call s error).isOfStore = true
  missing : ∀ label, outcome = .error (.counterMissing label) ↔ ∃ key, label = .text key ∧ FoundNone s₀ call s key
  answered : (∀ error, ¬ s₀.server.Reported s.server error) → (∀ key, ¬ FoundNone s₀ call s key) →
    outcome = call.answerOf s₀.server.reply
  stays : call ≠ .close → ∀ n, s₀.held = some n → Stays s₀ call n s
  opens : call ≠ .close → s₀.held = none → Opens s₀ call s
  closes : call = .close → outcome = .ok .done ∧ s.held = none ∧ made s₀ s = s₀.held.toList.map .close

section Orderly

variable {s₀ s : TableStore} {call : Call} {r : Except Failure Answer} {error : DriverError}
  {done : List (String × Json.Value)} {fault : Option DriverError} {key : String}

theorem made_eq {l : List ServerCall} (h : s.calls = l.reverse ++ s₀.calls) : made s₀ s = l := by
  rw [made, h, Server.taken_append, List.reverse_reverse]

theorem Course.made_eq (h : Course s₀ done fault s) : made s₀ s = s₀.opening ++ done.map (executing s₀.line) :=
  TableStore.made_eq h.calls

theorem Unopened.made_prefix (h : Unopened s₀ error s) : made s₀ s <+: [s₀.connecting, s₀.selecting] := by
  obtain ⟨_, hcalls, _⟩ | ⟨_, hcalls, _⟩ := h.outcome
  · refine ⟨[s₀.selecting], ?_⟩
    rw [TableStore.made_eq (l := [s₀.connecting]) hcalls]
    rfl
  · refine ⟨[], ?_⟩
    rw [TableStore.made_eq (l := [s₀.connecting, s₀.selecting]) hcalls, List.append_nil]

theorem executing_notMem_opening (n : Nat) (item : String × Json.Value) (s : TableStore) :
    executing n item ∉ [s.connecting, s.selecting] := by
  simp [executing, connecting, selecting]

/-! ### Connections -/

/-- A call other than the closing one finds no connection or keeps to one. -/
theorem Ending.unopened_or_course (h : Ending s₀ call r s) (hcall : call ≠ .close) :
    (∃ error, Unopened s₀ error s) ∨
      ∃ done fault, done <+: call.statements s₀.table ∧ Course s₀ done fault s := by
  cases h with
  | unopened _ hunopened => exact Or.inl ⟨_, hunopened⟩
  | reported _ hdone hcourse _ => exact Or.inr ⟨_, _, hdone, hcourse⟩
  | missing _ hdone hcourse _ => exact Or.inr ⟨_, _, hdone, hcourse⟩
  | answered _ hcourse _ => exact Or.inr ⟨_, _, List.prefix_rfl, hcourse⟩
  | idle _ => exact absurd rfl hcall
  | closed _ => exact absurd rfl hcall

theorem Ending.idle_or_closed (h : Ending s₀ .close r s) :
    (s₀.held = none ∧ s = s₀ ∧ r = .ok .done) ∨ ∃ n fault, Closed s₀ n fault s ∧ r = closing fault := by
  cases h with
  | unopened hcall _ => exact absurd rfl hcall
  | reported hcall _ _ _ => exact absurd rfl hcall
  | answered hcall _ _ => exact absurd rfl hcall
  | idle hheld => exact Or.inl ⟨hheld, rfl, rfl⟩
  | closed hclosed => exact Or.inr ⟨_, _, hclosed, rfl⟩

theorem Course.stays {n : Nat} (h : Course s₀ done fault s) (hheld : s₀.held = some n)
    (hdone : done <+: call.statements s₀.table) : Stays s₀ call n s := by
  have hline := line_of_held hheld
  refine ⟨by rw [h.held, hline], done, hdone, ?_⟩
  rw [h.made_eq, hline, opening, hheld, List.nil_append]

theorem Course.opens (h : Course s₀ done fault s) (hheld : s₀.held = none)
    (hdone : done <+: call.statements s₀.table) (hnew : ∀ c ∈ s₀.calls, c.connection? ≠ some s₀.opened) :
    Opens s₀ call s := by
  have hline := line_of_free hheld
  refine ⟨hnew, ?_⟩
  rw [h.outcome hheld]
  refine ⟨by rw [h.held, hline], done, hdone, ?_⟩
  rw [h.made_eq, hline, opening, hheld]
  rfl

theorem Unopened.opens (h : Unopened s₀ error s) (hnew : ∀ c ∈ s₀.calls, c.connection? ≠ some s₀.opened) :
    Opens s₀ call s := by
  refine ⟨hnew, ?_⟩
  obtain ⟨houtcome, hcalls, _⟩ | ⟨houtcome, hcalls, _⟩ := h.outcome
  · rw [houtcome]
    exact ⟨TableStore.made_eq hcalls, h.held⟩
  · rw [houtcome]
    exact ⟨TableStore.made_eq hcalls, h.held⟩

theorem Ending.stays {n : Nat} (h : Ending s₀ call r s) (hcall : call ≠ .close) (hheld : s₀.held = some n) :
    Stays s₀ call n s := by
  obtain ⟨_, hunopened⟩ | ⟨_, _, hdone, hcourse⟩ := h.unopened_or_course hcall
  · rw [hunopened.free] at hheld
    cases hheld
  · exact hcourse.stays hheld hdone

theorem Ending.opens (h : Ending s₀ call r s) (hcall : call ≠ .close) (hheld : s₀.held = none)
    (hnew : ∀ c ∈ s₀.calls, c.connection? ≠ some s₀.opened) : Opens s₀ call s := by
  obtain ⟨_, hunopened⟩ | ⟨_, _, hdone, hcourse⟩ := h.unopened_or_course hcall
  · exact hunopened.opens hnew
  · exact hcourse.opens hheld hdone hnew

/-! ### Counters that are not there -/

theorem FoundNone.executes (h : FoundNone s₀ call s key) : ∃ n item, executing n item ∈ made s₀ s := by
  obtain ⟨_, _, _, _, hmade, _⟩ := h
  exact ⟨_, _, hmade⟩

theorem FoundNone.findsNone (h : FoundNone s₀ call s key) : call.FindsNone s₀.server := by
  obtain ⟨_, _, reply, rfl, _, hreply⟩ := h
  exact ⟨reply, hreply⟩

theorem FoundNone.key_eq {key' : String} (h : FoundNone s₀ call s key) (h' : FoundNone s₀ call s key') :
    key = key' := by
  obtain ⟨_, _, _, rfl, _⟩ := h
  obtain ⟨_, _, _, hcall, _⟩ := h'
  exact (Call.increment.inj hcall).1

theorem Unopened.not_foundNone (h : Unopened s₀ error s) (key : String) : ¬ FoundNone s₀ call s key := by
  intro hfound
  obtain ⟨n, item, hmade⟩ := hfound.executes
  exact executing_notMem_opening n item s₀ (h.made_prefix.subset hmade)

theorem Course.ne_nil_of_foundNone (h : Course s₀ done fault s) (hfound : FoundNone s₀ call s key) : done ≠ [] := by
  rintro rfl
  obtain ⟨n, item, hmade⟩ := hfound.executes
  rw [h.made_eq, List.map_nil, List.append_nil, opening] at hmade
  split at hmade
  · cases hmade
  · exact executing_notMem_opening n item s₀ hmade

theorem Course.foundNone {step : Int} (h : Course s₀ done fault s) (hne : done ≠ [])
    (hdone : done <+: Call.statements s₀.table (.increment key step))
    (hfinds : Call.FindsNone s₀.server (.increment key step)) : FoundNone s₀ (.increment key step) s key := by
  obtain ⟨reply, hreply⟩ := hfinds
  refine ⟨step, s₀.line, reply, rfl, ?_, hreply⟩
  obtain ⟨first, rest, rfl⟩ := List.exists_cons_of_ne_nil hne
  obtain ⟨rfl, _⟩ := List.cons_prefix_cons.mp hdone
  rw [h.made_eq]
  simp

/-! ### Errors -/

/-- That a value is no integer is no fault of the store, nor one of its driver. -/
theorem not_isOfStore_of_toInteger {v : Json.Value} {f : Failure} (h : v.toInteger = .error f) :
    f.isOfStore = false ∧ ∀ text, f ≠ .driverFailed text := by
  cases v with
  | int z => cases h
  | bool b => cases h
  | float x =>
      obtain ⟨_, _, rfl⟩ := exists_of_mapError h
      exact ⟨rfl, by simp⟩
  | string text =>
      obtain ⟨_, _, rfl⟩ := exists_of_mapError h
      exact ⟨rfl, by simp⟩
  | null | array _ | object _ =>
      cases h
      exact ⟨rfl, by simp⟩

theorem not_isOfStore_of_column {row : Json.Value} {f : Failure} (h : column row = .error f) :
    f.isOfStore = false ∧ ∀ text, f ≠ .driverFailed text := by
  unfold column at h
  split at h
  · split at h
    · cases h
    · cases h
      exact ⟨rfl, by simp⟩
  · cases h
    exact ⟨rfl, by simp⟩

/-- A call that meets no error of the server can fail for what a row holds only. -/
theorem Call.not_isOfStore_of_answerOf {replies : Nat → Reply} {f : Failure}
    (h : call.answerOf replies = .error f) : f.isOfStore = false ∧ ∀ text, f ≠ .driverFailed text := by
  cases call with
  | ensureTable => cases h
  | set key value => cases h
  | close => cases h
  | add key value => cases h
  | get key =>
      simp only [answerOf] at h
      split at h
      · obtain hcolumn | ⟨_, _, hvalue⟩ := error_of_bind_eq_error h
        · exact not_isOfStore_of_column hcolumn
        · cases hvalue
      · cases h
  | increment key step =>
      obtain hcolumn | ⟨sum, _, h⟩ := error_of_bind_eq_error h
      · exact not_isOfStore_of_column hcolumn
      · obtain hsum | ⟨_, _, hsum⟩ := error_of_bind_eq_error h
        · exact not_isOfStore_of_toInteger hsum
        · cases hsum

theorem failureOf_eq (wrap : String → Failure) (herror : error.isOfServer = true) :
    failureOf wrap error = wrap error.text := if_pos herror

theorem closing_eq (hserver : ∀ e, fault = some e → e.isOfServer = true) : closing fault = .ok .done := by
  cases fault with
  | none => rfl
  | some e => exact if_pos (hserver e rfl)

theorem Call.isOfStore_wrap (table text : String) (hcall : call ≠ .close) :
    (call.wrap table text).isOfStore = true := by
  cases call with
  | close => exact absurd rfl hcall
  | _ => rfl

theorem isOfStore_refusal (hcall : call ≠ .close) (s₀ s : TableStore) (error : DriverError) :
    (refusal s₀ call s error).isOfStore = true := by
  unfold refusal
  split
  · rfl
  · exact call.isOfStore_wrap _ _ hcall

theorem refusal_ne_counterMissing (s₀ s : TableStore) (call : Call) (error : DriverError) (label : Label) :
    refusal s₀ call s error ≠ .counterMissing label := by
  unfold refusal
  split
  · simp
  · cases call <;> simp [Call.wrap]

theorem Unopened.refusal_eq (h : Unopened s₀ error s) :
    refusal s₀ call s error = .unreachable s₀.access.target.display error.text := if_pos h.held

theorem Course.refusal_eq (h : Course s₀ done fault s) :
    refusal s₀ call s error = call.wrap s₀.table error.text := if_neg (by simp [h.held])

/-- The outcomes of a call whose server reports errors of its own only. -/
inductive Outcome (s₀ : TableStore) (call : Call) (s : TableStore) : Except Failure Answer → Prop where
  | refused {error : DriverError} (hcall : call ≠ .close)
      (hreported : ∀ e, s₀.server.Reported s.server e ↔ error = e) (hfound : ∀ key, ¬ FoundNone s₀ call s key) :
      Outcome s₀ call s (.error (refusal s₀ call s error))
  | missing {key : String} (hquiet : ∀ e, ¬ s₀.server.Reported s.server e) (hfound : FoundNone s₀ call s key) :
      Outcome s₀ call s (.error (.counterMissing key))
  | answered (hquiet : call ≠ .close → ∀ e, ¬ s₀.server.Reported s.server e)
      (hfound : ∀ key, ¬ FoundNone s₀ call s key) : Outcome s₀ call s (call.answerOf s₀.server.reply)

theorem Ending.outcome (h : Ending s₀ call r s)
    (hserver : ∀ e, s₀.server.Reported s.server e → e.isOfServer = true) : Outcome s₀ call s r := by
  cases h with
  | unopened hcall h =>
      rw [failureOf_eq _ (hserver _ ((h.reported _).mpr rfl)), ← h.refusal_eq]
      exact .refused hcall h.reported h.not_foundNone
  | reported hcall hdone h hfinds =>
      rw [failureOf_eq _ (hserver _ ((h.reported _).mpr rfl)), ← h.refusal_eq]
      refine .refused hcall (fun e => by simp [h.reported]) fun key hfound => ?_
      exact hfinds (h.ne_nil_of_foundNone hfound) hfound.findsNone
  | missing hne hdone h hfinds => exact .missing (fun e => by simp [h.reported]) (h.foundNone hne hdone hfinds)
  | answered hcall h hfinds =>
      exact .answered (fun _ e => by simp [h.reported]) fun key hfound => hfinds hfound.findsNone
  | idle hheld => exact .answered (fun hcall => absurd rfl hcall) fun key hfound => hfound.findsNone
  | closed h =>
      rw [closing_eq fun e he => hserver e ((h.reported e).mpr he)]
      exact .answered (fun hcall => absurd rfl hcall) fun key hfound => hfound.findsNone

theorem Outcome.contained (h : Outcome s₀ call s r) (text : String) : r ≠ .error (.driverFailed text) := by
  intro hr
  cases h with
  | refused hcall _ _ =>
      have hstore : (Failure.driverFailed text).isOfStore = true :=
        Except.error.inj hr ▸ isOfStore_refusal hcall s₀ s _
      cases hstore
  | missing _ _ => cases hr
  | answered _ _ => exact (call.not_isOfStore_of_answerOf hr).2 text rfl

theorem Outcome.counterMissing_iff (h : Outcome s₀ call s r) (label : Label) :
    r = .error (.counterMissing label) ↔ ∃ key, label = .text key ∧ FoundNone s₀ call s key := by
  constructor
  · intro hr
    cases h with
    | refused _ _ _ => exact absurd (Except.error.inj hr) (refusal_ne_counterMissing _ _ _ _ _)
    | missing _ hfound =>
        cases hr
        exact ⟨_, rfl, hfound⟩
    | answered _ _ => cases (call.not_isOfStore_of_answerOf hr).1
  · rintro ⟨key, rfl, hfound⟩
    cases h with
    | refused _ _ hnone => exact absurd hfound (hnone key)
    | missing _ hfound' => rw [hfound.key_eq hfound']
    | answered _ hnone => exact absurd hfound (hnone key)

theorem Outcome.told (h : Outcome s₀ call s r) (hcall : call ≠ .close)
    (hreported : s₀.server.Reported s.server error) : r = .error (refusal s₀ call s error) := by
  cases h with
  | refused _ h _ => rw [(h error).mp hreported]
  | missing hquiet _ => exact absurd hreported (hquiet error)
  | answered hquiet _ => exact absurd hreported (hquiet hcall error)

theorem Outcome.answered_of_quiet (h : Outcome s₀ call s r) (hquiet : ∀ e, ¬ s₀.server.Reported s.server e)
    (hfound : ∀ key, ¬ FoundNone s₀ call s key) : r = call.answerOf s₀.server.reply := by
  cases h with
  | refused _ h _ => exact absurd ((h _).mpr rfl) (hquiet _)
  | missing _ h => exact absurd h (hfound _)
  | answered _ _ => rfl

/-- The closing call gives up the connection in use, whatever the server reports of that. -/
theorem Ending.closes (h : Ending s₀ .close r s)
    (hserver : ∀ e, s₀.server.Reported s.server e → e.isOfServer = true) :
    r = .ok .done ∧ s.held = none ∧ made s₀ s = s₀.held.toList.map .close := by
  obtain ⟨hheld, rfl, rfl⟩ | ⟨n, fault, hclosed, rfl⟩ := h.idle_or_closed
  · refine ⟨rfl, hheld, ?_⟩
    rw [hheld, made, Server.taken_self]
    rfl
  · refine ⟨closing_eq fun e he => hserver e ((hclosed.reported e).mpr he), hclosed.held, ?_⟩
    rw [hclosed.used]
    exact made_eq hclosed.calls

theorem Ending.orderly (h : Ending s₀ call r s) (hserver : ∀ e, s₀.server.Reported s.server e → e.isOfServer = true)
    (hnew : ∀ c ∈ s₀.calls, c.connection? ≠ some s₀.opened) : Orderly s₀ call r s where
  contained := (h.outcome hserver).contained
  told hcall error hreported := ⟨(h.outcome hserver).told hcall hreported, isOfStore_refusal hcall ..⟩
  missing := (h.outcome hserver).counterMissing_iff
  answered := (h.outcome hserver).answered_of_quiet
  stays hcall _ hheld := h.stays hcall hheld
  opens hcall hheld := h.opens hcall hheld hnew
  closes hcall := by
    subst hcall
    exact h.closes hserver

end Orderly

/-! ### What calls keep -/

/-- What holds of a store all along, from the answers that its server had to give at first. -/
structure Sound (server : Server) (s : TableStore) : Prop where
  follows : s.server.Follows server
  held : ∀ n, s.held = some n → n < s.opened
  numbered : ∀ c ∈ s.calls, ∀ n, c.connection? = some n → n < s.opened
  rest : s.server.connections = server.connections.drop s.opened
  accounted : ∀ n < s.opened, (s.held = some n ∨ .close n ∈ s.calls) ↔ server.connection n = .connected

section Sound

variable {server : Server} {s₀ s : TableStore} {call : Call} {r : Except Failure Answer} {l : List ServerCall}

theorem sound_make {access : Access} {table : String} {timeout : Json.Value}
    (h : make access table timeout server = .ok s) : Sound server s := by
  unfold make at h
  split at h
  · cases h
    refine ⟨.refl server, by simp, by simp, ?_, by simp⟩
    rw [List.drop_zero]
  · cases h

/-- No call was made yet on the connection that is made next. -/
theorem Sound.next_unused (hs : Sound server s) : ∀ c ∈ s.calls, c.connection? ≠ some s.opened :=
  fun c hc h => Nat.lt_irrefl _ (hs.numbered c hc _ h)

theorem Sound.keep (hs : Sound server s₀) (hfollows : s.server.Follows s₀.server) (hheld : s.held = s₀.held)
    (hopened : s.opened = s₀.opened) (hrest : s.server.connections = s₀.server.connections)
    (hcalls : s.calls = l ++ s₀.calls) (hused : ∀ c ∈ l, ∀ n, c.connection? = some n → n < s₀.opened)
    (hopen : ∀ n, .close n ∉ l) : Sound server s where
  follows := hfollows.trans hs.follows
  held n hn := by
    rw [hopened]
    exact hs.held n (hheld ▸ hn)
  numbered c hc n hn := by
    rw [hopened]
    rw [hcalls, List.mem_append] at hc
    exact hc.elim (fun hc => hused c hc n hn) fun hc => hs.numbered c hc n hn
  rest := by rw [hrest, hopened, hs.rest]
  accounted n hn := by
    rw [hopened] at hn
    rw [hheld, hcalls, List.mem_append, or_iff_right (hopen n)]
    exact hs.accounted n hn

/-- One more connection, which is in use if its database could be selected. -/
theorem Sound.add (hs : Sound server s₀) (hfollows : s.server.Follows s₀.server) (hfree : s₀.held = none)
    (hopened : s.opened = s₀.opened + 1) (hconnects : s.server.connects = s₀.server.connects.tail)
    (hmakes : (s₀.server.connects.head?.getD .connected).makes = true)
    (hheld : ∀ n, s.held = some n ↔ n = s₀.opened ∧ s₀.server.connects.head?.getD .connected = .connected)
    (hcalls : s.calls = l ++ s₀.calls) (hused : ∀ c ∈ l, ∀ n, c.connection? = some n → n = s₀.opened)
    (hopen : ∀ n, .close n ∉ l) : Sound server s := by
  obtain ⟨hrest, houtcome⟩ := Server.connections_of_makes hconnects hmakes
  refine ⟨hfollows.trans hs.follows, fun n hn => ?_, fun c hc n hn => ?_, ?_, fun n hn => ?_⟩
  · have := (hheld n).mp hn
    omega
  · rw [hcalls, List.mem_append] at hc
    obtain hc | hc := hc
    · have := hused c hc n hn
      omega
    · have := hs.numbered c hc n hn
      omega
  · rw [hrest, hs.rest, hopened, List.tail_drop]
  · rw [hcalls, List.mem_append, or_iff_right (hopen n), hheld]
    obtain rfl | hlast := Decidable.em (n = s₀.opened)
    · have hconnection : server.connection s₀.opened = s₀.server.connects.head?.getD .connected := by
        rw [← houtcome, Server.connection, Server.connection, hs.rest]
        simp
      have hunused : ServerCall.close s₀.opened ∉ s₀.calls := fun hc => hs.next_unused _ hc rfl
      simp [hunused, hconnection]
    · have haccounted := hs.accounted n (by omega)
      rw [hfree] at haccounted
      simp [hlast, ← haccounted]

theorem Unopened.sound {error : DriverError} (h : Unopened s₀ error s) (hs : Sound server s₀) : Sound server s := by
  obtain ⟨houtcome, hcalls, hopened⟩ | ⟨houtcome, hcalls, hopened⟩ := h.outcome
  · refine hs.keep (l := [s₀.connecting]) h.follows (h.held.trans h.free.symm) hopened ?_ hcalls ?_ ?_
    · exact Server.connections_of_refused h.connects houtcome
    · simp [connecting, ServerCall.connection?]
    · simp [connecting]
  · refine hs.add (l := [s₀.selecting, s₀.connecting]) h.follows h.free hopened h.connects ?_ ?_ hcalls ?_ ?_
    · rw [houtcome]
      rfl
    · simp [houtcome, h.held]
    · simp [connecting, selecting, ServerCall.connection?, eq_comm]
    · simp [connecting, selecting]

/-- What a call asks for in its course, it asks for on its connection. -/
theorem connection?_of_mem_course {s₀ : TableStore} {done : List (String × Json.Value)} {c : ServerCall} {n : Nat}
    (hc : c ∈ (s₀.opening ++ done.map (executing s₀.line)).reverse) (hn : c.connection? = some n) : n = s₀.line := by
  rw [List.mem_reverse, List.mem_append, List.mem_map] at hc
  obtain hc | ⟨item, _, rfl⟩ := hc
  · unfold opening at hc
    split at hc
    · cases hc
    · rename_i hheld
      simp only [List.mem_cons, List.not_mem_nil, or_false] at hc
      obtain rfl | rfl := hc
      · cases hn
      · rw [line_of_free hheld]
        exact (Option.some.inj hn).symm
  · exact (Option.some.inj hn).symm

theorem close_notMem_course (s₀ : TableStore) (done : List (String × Json.Value)) (n : Nat) :
    ServerCall.close n ∉ (s₀.opening ++ done.map (executing s₀.line)).reverse := by
  unfold opening
  split <;> simp [connecting, selecting, executing]

theorem Course.sound {done : List (String × Json.Value)} {fault : Option DriverError} (h : Course s₀ done fault s)
    (hs : Sound server s₀) : Sound server s := by
  have hopened := h.opened
  have hconnects := h.connects
  cases hheld : s₀.held with
  | some n =>
      rw [if_neg (by simp [hheld])] at hopened hconnects
      refine hs.keep h.follows ?_ hopened ?_ h.calls (fun c hc m hm => ?_) (close_notMem_course s₀ done)
      · rw [h.held, line_of_held hheld, hheld]
      · rw [Server.connections, hconnects, Server.connections]
      · rw [connection?_of_mem_course hc hm, line_of_held hheld]
        exact hs.held n hheld
  | none =>
      have houtcome := h.outcome hheld
      rw [if_pos hheld] at hopened hconnects
      refine hs.add h.follows hheld hopened hconnects ?_ ?_ h.calls (fun c hc m hm => ?_) (close_notMem_course s₀ done)
      · rw [houtcome]
        rfl
      · simp [houtcome, h.held, line_of_free hheld, eq_comm]
      · rw [connection?_of_mem_course hc hm, line_of_free hheld]

theorem Closed.sound {n : Nat} {fault : Option DriverError} (h : Closed s₀ n fault s) (hs : Sound server s₀) :
    Sound server s where
  follows := h.follows.trans hs.follows
  held m hm := by
    rw [h.held] at hm
    cases hm
  numbered c hc m hm := by
    rw [h.opened]
    rw [h.calls] at hc
    obtain rfl | hc := List.mem_cons.mp hc
    · cases hm
      exact hs.held _ h.used
    · exact hs.numbered c hc m hm
  rest := by rw [Server.connections, h.connects, h.opened, ← hs.rest, Server.connections]
  accounted m hm := by
    rw [h.opened] at hm
    rw [← hs.accounted m hm, h.calls, h.held, h.used]
    simp [eq_comm]

/-- A call leaves a store sound, whatever it comes to. -/
theorem Ending.sound (h : Ending s₀ call r s) (hs : Sound server s₀) : Sound server s := by
  by_cases hcall : call = .close
  · subst hcall
    obtain ⟨_, rfl, _⟩ | ⟨_, _, hclosed, _⟩ := h.idle_or_closed
    · exact hs
    · exact hclosed.sound hs
  · obtain ⟨_, hunopened⟩ | ⟨_, _, _, hcourse⟩ := h.unopened_or_course hcall
    · exact hunopened.sound hs
    · exact hcourse.sound hs

end Sound

/-! ### Calls in turn -/

/-- A call of the store, what it came to, and the store before and after it. -/
structure Event where
  before : TableStore
  call : Call
  outcome : Except Failure Answer
  after : TableStore

/-- Makes calls of the store in turn, each whatever the ones before it came to. -/
def run : List Call → Action TableStore (List Event)
  | [] => return []
  | call :: calls => do
    let before ← Action.look id
    let outcome ← call.perform.attempt
    let after ← Action.look id
    return ⟨before, call, outcome, after⟩ :: (← run calls)

/-- Events follow one another from the one state to the other, each as its call can end. -/
inductive Chain : TableStore → List Event → TableStore → Prop where
  | nil (s : TableStore) : Chain s [] s
  | cons {e : Event} {events : List Event} {s : TableStore} (h : Ending e.before e.call e.outcome e.after)
      (rest : Chain e.after events s) : Chain e.before (e :: events) s

theorem run_chain (calls : List Call) (s : TableStore) :
    (run calls).Returns s fun events s' => events.map Event.call = calls ∧ Chain s events s' := by
  induction calls generalizing s with
  | nil => exact Action.ensures_pure.mpr ⟨rfl, .nil s⟩
  | cons call calls ih =>
      have hcall : call.perform.attempt.Returns s fun r s' => Ending s call r s' := (fulfils call s).attempt
      refine Action.ensures_look_bind (Action.Ensures.bind hcall ?_ fun _ _ h => h)
      intro r s' hending
      refine Action.ensures_look_bind (Action.Ensures.bind (ih s') ?_ fun _ _ h => h)
      rintro events s'' ⟨hcalls, hchain⟩
      refine Action.ensures_pure.mpr ⟨?_, .cons (e := ⟨s, call, r, s'⟩) hending hchain⟩
      rw [List.map_cons, hcalls]

/-- The events are those of the calls, one after another from the one state to the other. -/
structure Records (calls : List Call) (s : TableStore) (events : List Event) (s' : TableStore) : Prop where
  calls : events.map Event.call = calls
  states : events.map Event.before ++ [s'] = s :: events.map Event.after

/-- A connection in use stays so until it is closed, and after that the next call that is no closing one opens a
new one. -/
structure Steady (events : List Event) : Prop where
  stays : ∀ first e mid last n, events = first ++ e :: (mid ++ last) → e.after.held = some n →
    (∀ m ∈ mid, m.call ≠ .close) → ∀ m ∈ mid, Stays m.before m.call n m.after
  renews : ∀ first e mid m last, events = first ++ e :: (mid ++ m :: last) → e.call = .close →
    (∀ x ∈ mid, x.call = .close) → m.call ≠ .close → Opens m.before m.call m.after

section Chain

variable {s s' : TableStore} {events : List Event} {server : Server}

theorem Chain.of_append {first last : List Event} (h : Chain s (first ++ last) s') :
    ∃ t, Chain s first t ∧ Chain t last s' := by
  induction first generalizing s with
  | nil => exact ⟨s, .nil s, h⟩
  | cons e first ih =>
      cases h with
      | cons hending rest =>
          obtain ⟨t, hfirst, hlast⟩ := ih rest
          exact ⟨t, .cons hending hfirst, hlast⟩

theorem Chain.of_cons {e : Event} (h : Chain s (e :: events) s') :
    e.before = s ∧ Ending e.before e.call e.outcome e.after ∧ Chain e.after events s' := by
  cases h with
  | cons hending rest => exact ⟨rfl, hending, rest⟩

theorem Chain.states (h : Chain s events s') : events.map Event.before ++ [s'] = s :: events.map Event.after := by
  induction h with
  | nil => rfl
  | cons hending rest ih => rw [List.map_cons, List.map_cons, List.cons_append, ih]

theorem Chain.sound (h : Chain s events s') (hs : Sound server s) :
    ∀ e ∈ events, Sound server e.before ∧ Sound server e.after ∧
      Ending e.before e.call e.outcome e.after := by
  induction h with
  | nil => simp
  | cons hending rest ih =>
      have hafter := hending.sound hs
      intro e he
      obtain rfl | he := List.mem_cons.mp he
      · exact ⟨hs, hafter, hending⟩
      · exact ih hafter e he

theorem Chain.stays {n : Nat} (h : Chain s events s') (hheld : s.held = some n)
    (hopen : ∀ e ∈ events, e.call ≠ .close) : ∀ e ∈ events, Stays e.before e.call n e.after := by
  induction h with
  | nil => simp
  | cons hending rest ih =>
      have hstays := hending.stays (hopen _ List.mem_cons_self) hheld
      intro e he
      obtain rfl | he := List.mem_cons.mp he
      · exact hstays
      · exact ih hstays.1 (fun m hm => hopen m (List.mem_cons_of_mem _ hm)) e he

theorem Ending.held_of_close {r : Except Failure Answer} (h : Ending s .close r s') : s'.held = none := by
  obtain ⟨hheld, rfl, _⟩ | ⟨_, _, hclosed, _⟩ := h.idle_or_closed
  · exact hheld
  · exact hclosed.held

theorem Chain.held_of_closes (h : Chain s events s') (hheld : s.held = none)
    (hcloses : ∀ e ∈ events, e.call = .close) : s'.held = none := by
  induction h with
  | nil => exact hheld
  | cons hending rest ih =>
      rw [hcloses _ List.mem_cons_self] at hending
      exact ih hending.held_of_close fun m hm => hcloses m (List.mem_cons_of_mem _ hm)

theorem Chain.steady (h : Chain s events s') (hs : Sound server s) : Steady events where
  stays first e mid last n hevents hheld hopen := by
    subst hevents
    obtain ⟨_, _, htail⟩ := h.of_append
    obtain ⟨_, _, htail⟩ := htail.of_cons
    obtain ⟨_, hmid, _⟩ := htail.of_append
    exact hmid.stays hheld hopen
  renews first e mid m last hevents he hmid hm := by
    have hsound := (h.sound hs m (by simp [hevents])).1
    subst hevents
    obtain ⟨_, _, htail⟩ := h.of_append
    obtain ⟨_, hending, htail⟩ := htail.of_cons
    obtain ⟨t, hchain, hrest⟩ := htail.of_append
    obtain ⟨rfl, hlast, _⟩ := hrest.of_cons
    rw [he] at hending
    exact hlast.opens hm (hchain.held_of_closes hending.held_of_close hmid) hsound.next_unused

end Chain

/-! ### Runs -/

/-- Whatever calls are made in turn of a new store, and whenever its server reports an error, each call is orderly, and
the calls are steady together. -/
theorem run_orderly {access : Access} {table : String} {timeout : Json.Value} {server : Server} {s : TableStore}
    (hmake : make access table timeout server = .ok s)
    (hserver : ∀ c error, some error ∈ server.reports c → error.isOfServer = true) (calls : List Call) :
    (run calls).Returns s fun events s' => Records calls s events s' ∧
      (∀ e ∈ events, Orderly e.before e.call e.outcome e.after) ∧ Steady events := by
  have hs := sound_make hmake
  refine (run_chain calls s).mono ?_ fun _ _ h => h
  rintro events s' ⟨hcalls, hchain⟩
  refine ⟨⟨hcalls, hchain.states⟩, fun e he => ?_, hchain.steady hs⟩
  obtain ⟨hbefore, _, hending⟩ := hchain.sound hs e he
  refine hending.orderly (fun error hreported => ?_) hbefore.next_unused
  obtain ⟨c, hc⟩ := hreported.mem_reports hbefore.follows
  exact hserver c error hc

/-- A new store of a server with a database. -/
def benchStore (server : Server) : TableStore := { access := { database := .string "bench" }, server }

theorem make_benchStore (server : Server) :
    make { database := .string "bench" } "geo_counters" (.int 5) server = .ok (benchStore server) := rfl

/-- A server that loses its clients, and of which the database is dropped for a while. -/
def flakyServer : Server where
  connects := [.connected, .refused ⟨true, [.int 2003, .string "refused"]⟩,
    .notSelected ⟨true, [.int 1049, .string "Unknown database"]⟩]
  cursors := [none, none, some ⟨true, [.int 2013, .string "lost"]⟩]
  statements := [.ok { rowCount := 0 }, .ok { rowCount := 1 }, .error ⟨true, [.int 1205, .string "timeout"]⟩]
  closes := [some ⟨true, [.int 2006, .string "gone away"]⟩]

theorem isOfServer_of_flakyServer : ∀ c error, some error ∈ flakyServer.reports c → error.isOfServer = true := by
  apply Server.isOfServer_of_forall
  intro c
  cases c <;> decide

/-- An increment that finds no row and a call that loses its connection, which is then closed and opened anew. -/
def flakyCalls : List Call :=
  [.increment "total" 1, .get "a", .get "a", .close, .set "a" "1", .set "a" "1", .add "a" "2", .close]

theorem run_orderly_flakyServer :
    make { database := .string "bench" } "geo_counters" (.int 5) flakyServer = .ok (benchStore flakyServer) ∧
      (∀ c error, some error ∈ flakyServer.reports c → error.isOfServer = true) ∧
      (run flakyCalls).Returns (benchStore flakyServer) fun events s' =>
        Records flakyCalls (benchStore flakyServer) events s' ∧
          (∀ e ∈ events, Orderly e.before e.call e.outcome e.after) ∧ Steady events :=
  ⟨make_benchStore _, isOfServer_of_flakyServer,
    run_orderly (make_benchStore _) isOfServer_of_flakyServer flakyCalls⟩

/-- The connections that calls made in turn of a new store leave neither in use nor closed are those of which the
database could not be selected. -/
theorem accounts_for_connections {access : Access} {table : String} {timeout : Json.Value} {server : Server}
    {s : TableStore} (hmake : make access table timeout server = .ok s) (calls : List Call) :
    (run calls).Returns s fun events s' => Records calls s events s' ∧ ∀ e ∈ events, ∀ n < e.after.opened,
      (e.after.held = some n ∨ .close n ∈ e.after.calls) ↔ server.connection n = .connected := by
  refine (run_chain calls s).mono ?_ fun _ _ h => h
  rintro events s' ⟨hcalls, hchain⟩
  refine ⟨⟨hcalls, hchain.states⟩, fun e he => ?_⟩
  exact (hchain.sound (sound_make hmake) e he).2.1.accounted

/-- The server of a database that is not there yet. -/
def unselectedServer : Server where
  connects := [.notSelected ⟨true, [.int 1049, .string "Unknown database 'bench'"]⟩]

theorem accounts_for_connections_unselectedServer :
    make { database := .string "bench" } "geo_counters" (.int 5) unselectedServer =
        .ok (benchStore unselectedServer) ∧
      (run [.get "a", .get "a"]).Returns (benchStore unselectedServer) fun events s' =>
        Records [.get "a", .get "a"] (benchStore unselectedServer) events s' ∧
          ∀ e ∈ events, ∀ n < e.after.opened,
            (e.after.held = some n ∨ .close n ∈ e.after.calls) ↔ unselectedServer.connection n = .connected :=
  ⟨make_benchStore _, accounts_for_connections (make_benchStore _) [.get "a", .get "a"]⟩

/-- A call that makes a connection and cannot select its database leaves it neither in use nor closed. -/
theorem get_leaves_unselected :
    make { database := .string "bench" } "geo_counters" (.int 5) unselectedServer =
        .ok (benchStore unselectedServer) ∧
      (∀ c error, some error ∈ unselectedServer.reports c → error.isOfServer = true) ∧
      ¬ (run [.get "a"]).Returns (benchStore unselectedServer) fun events _ => ∀ e ∈ events,
        ∀ n < e.after.opened, e.after.held = some n ∨ .close n ∈ e.after.calls := by
  refine ⟨make_benchStore _, Server.isOfServer_of_forall fun c => ?_, fun h => ?_⟩
  · cases c <;> decide
  · obtain ⟨events, houtcome, hevents⟩ := h.exists_outcome
    cases houtcome
    obtain hheld | hclosed := hevents _ List.mem_cons_self 0 Nat.zero_lt_one
    · cases hheld
    · simp [benchStore] at hclosed

end TableStore

end GeoWorkload
