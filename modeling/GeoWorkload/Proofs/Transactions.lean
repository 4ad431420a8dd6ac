import GeoWorkload.Proofs.CompileFaults
import GeoWorkload.Proofs.Seeding
import GeoWorkload.Workload.Transaction

/-!
# What transactions come to

A transaction compiles a request and writes it to the store of documents (`Transaction.perform_eq`).  At a
store in memory compiling fails in one of four ways (`Generator.Fault`), whatever the store holds and whatever
is drawn: two of them give a status, and the other two end the transaction, as an insert does as long as no
document is stored (`Transaction.run_settled`, `Transaction.run_of_no_documents`).  A request that holds an
integer too long to be written ends it as well: it is no request that the transaction can make
(`Transaction.request`).
-/

namespace GeoWorkload

/-! ### Writing requests -/

/-- The trace with a request written to it. -/
def Trace.record (t : Trace) (r : Request) : Trace :=
  { t with attempts := t.attempts + 1, lines := t.lines.push r.line, records := t.records + 1 }

section writing

variable {r : Request}

theorem Trace.write_eq {t : Trace} (h : t.refused = []) (hr : r.isWritable = true) (log : Log) :
    write r t log = ((.ok .ok, t.record r), log) := by
  have hwrites : t.refused.contains (t.attempts + 1) = false := by rw [h]; rfl
  unfold write
  rw [Request.line?_of_isWritable hr]
  show (if t.refused.contains (t.attempts + 1) = true then _ else _ : Action Trace Status) t log = _
  rw [hwrites]
  rfl

/-- A request that cannot be written leaves the trace as it was. -/
theorem Trace.write_of_not_isWritable (hr : ¬ r.isWritable = true) (t : Trace) (log : Log) :
    write r t log = ((.error (.number .unwritable), t), log) := by
  unfold write
  rw [Request.line?_of_not_isWritable hr]
  rfl

theorem DocumentStore.request_eq {t : Trace} (h : t.refused = []) (hr : r.isWritable = true) (log : Log) :
    request r (.trace t) log = ((.ok .ok, .trace (t.record r)), log) := by
  show Action.within (fun _ => t) (fun t _ => DocumentStore.trace t) (Trace.write r) (.trace t) log = _
  unfold Action.within
  rw [Trace.write_eq h hr]

theorem DocumentStore.request_of_not_isWritable (hr : ¬ r.isWritable = true) (t : Trace) (log : Log) :
    request r (.trace t) log = ((.error (.number .unwritable), .trace t), log) := by
  show Action.within (fun _ => t) (fun t _ => DocumentStore.trace t) (Trace.write r) (.trace t) log = _
  unfold Action.within
  rw [Trace.write_of_not_isWritable hr]

end writing

namespace Station

variable {σ α β : Type}

theorem onSite_of_run {x : Action (Generator.Site σ) α} {station : Station σ} {r : Except Failure α}
    {site : Generator.Site σ} {log log' : Log}
    (h : x ⟨station.generator, station.counters⟩ log = ((r, site), log')) :
    onSite x station log =
      ((r, { station with generator := site.generator, counters := site.counters }), log') := by
  unfold onSite Action.within
  rw [h]

theorem onSite_ensures {x : Action (Generator.Site σ) α} {station : Station σ}
    {ok : α → Generator.Site σ → Prop} {failed : Failure → Generator.Site σ → Prop}
    (h : x.Ensures ⟨station.generator, station.counters⟩ ok failed) : (onSite x).Ensures station
      (fun a station' => ok a ⟨station'.generator, station'.counters⟩ ∧
        station'.documents = station.documents)
      fun e station' => failed e ⟨station'.generator, station'.counters⟩ ∧
        station'.documents = station.documents :=
  Action.Ensures.within (h.mono (fun _ _ ha => ⟨ha, rfl⟩) fun _ _ he => ⟨he, rfl⟩)

theorem onSite_pure (a : α) : (onSite (pure a) : Action (Station σ) α) = pure a := rfl

/-- A trace that takes every line takes the line of a request. -/
theorem onDocuments_request_returns {station : Station σ} {t : Trace} (ht : station.documents = .trace t)
    (hwrites : t.refused = []) {r : Request} (hr : r.isWritable = true) :
    (onDocuments (DocumentStore.request r)).Returns station fun status station' =>
      status = .ok ∧ station' = { station with documents := .trace (t.record r) } := by
  have hrequest := Action.returns_of_run fun log => ⟨log, DocumentStore.request_eq hwrites hr log⟩
  rw [← ht] at hrequest
  refine Action.Ensures.within (hrequest.mono ?_ fun _ _ h => h)
  rintro _ _ ⟨rfl, rfl⟩
  exact ⟨rfl, rfl⟩

/-- A request that cannot be written fails at a trace and leaves it as it was. -/
theorem onDocuments_request_fails {station : Station σ} {t : Trace} (ht : station.documents = .trace t)
    {r : Request} (hr : ¬ r.isWritable = true) :
    (onDocuments (DocumentStore.request r)).Ensures station (fun _ _ => False) fun e station' =>
      e = .number .unwritable ∧ station'.documents = .trace t := by
  have hrequest : (DocumentStore.request r).Ends (.trace t) (.error (.number .unwritable)) (.trace t) :=
    Action.ends_iff_run.mpr fun log => ⟨log, DocumentStore.request_of_not_isWritable hr t log⟩
  rw [← ht] at hrequest
  exact Action.Ensures.within (hrequest.ensures ⟨rfl, ht⟩)

theorem onSite_bind (x : Action (Generator.Site σ) α) (f : α → Action (Generator.Site σ) β) :
    (onSite (x >>= f) : Action (Station σ) β) = onSite x >>= fun a => onSite (f a) := by
  funext station log
  rcases hx : x ⟨station.generator, station.counters⟩ log with ⟨⟨e | a, site⟩, log'⟩
  · have hleft : onSite (x >>= f) station log = _ := onSite_of_run (Action.bind_of_error hx)
    have hright : (onSite x >>= fun a => onSite (f a)) station log = _ :=
      Action.bind_of_error (onSite_of_run hx)
    rw [hleft, hright]
  · rcases hf : f a site log' with ⟨⟨r, site'⟩, log''⟩
    have hleft : onSite (x >>= f) station log = _ :=
      onSite_of_run ((Action.bind_of_ok hx).trans hf)
    have hright : (onSite x >>= fun a => onSite (f a)) station log = _ :=
      (Action.bind_of_ok (onSite_of_run hx)).trans (onSite_of_run hf)
    rw [hleft, hright]

end Station

/-! ### Requests -/

namespace Transaction

open Station

section request

variable {σ : Type} [CounterStore σ]

/-- The request that an operation compiles. -/
def compiled [Powers] (table : Json.Value) : Operation → Action (Generator.Site σ) Request
  | .insert => return .predicate .insert table (← Generator.compileInsert)
  | .update => return .predicate .update table (← Generator.compileUpdate)
  | .near => return .predicate .near table (← Generator.compileRead)
  | .box => return .predicate .box table (← Generator.compileRead)
  | .intersect => return .predicate .intersect table (← Generator.compileRead)
  | .scan => do
    let startKey ← Generator.distributedDocId
    let limit ← Generator.limit
    return .scan table startKey limit (← Generator.offset)

/-- The request of an operation, refused where it cannot be written. -/
def request [Powers] (table : Json.Value) (op : Operation) : Action (Generator.Site σ) Request := do
  let r ← compiled table op
  let _ ← Action.ofNumber r.line?
  return r

/-- Carrying out an operation is compiling its request and writing that. -/
theorem perform_eq [Powers] (table : Json.Value) (op : Operation) :
    (perform table op : Action (Station σ) Status) =
      onSite (compiled table op) >>= fun r => onDocuments (DocumentStore.request r) := by
  cases op <;> simp only [perform, send, compiled, onSite_bind, onSite_pure, bind_assoc, pure_bind]

omit [CounterStore σ] in
theorem preserves_settle (p : Station σ → Prop) (name : String) (r : Except Failure Status) :
    Action.Preserves p (settle name r) fun _ => True := by
  intro station h
  unfold settle
  split
  · exact Action.ensures_pure.mpr ⟨h, trivial⟩
  · exact Action.ensures_log_bind (Action.ensures_pure.mpr ⟨h, trivial⟩)
  · split
    · exact Action.ensures_log_bind (Action.ensures_pure.mpr ⟨h, trivial⟩)
    · exact Action.ensures_fail.mpr h

variable {table : Json.Value} {op : Operation} {station : Station σ} {site : Generator.Site σ}
  {log log' : Log}

variable [Powers]

/-- A request that was made is the one that was compiled, and it can be written. -/
theorem compiled_of_request_ok {site₀ : Generator.Site σ} {r : Request}
    (h : request table op site₀ log = ((.ok r, site), log')) :
    compiled table op site₀ log = ((.ok r, site), log') ∧ r.isWritable = true := by
  unfold request at h
  rcases hcompiled : compiled table op site₀ log with ⟨⟨e | r', site'⟩, log₁⟩
  · rw [Action.bind_of_error hcompiled] at h
    cases h
  · rw [Action.bind_of_ok hcompiled] at h
    by_cases hr : r'.isWritable = true
    · rw [Request.line?_of_isWritable hr] at h
      cases h
      exact ⟨rfl, hr⟩
    · rw [Request.line?_of_not_isWritable hr] at h
      cases h

/-- No request is made where none is compiled or the one that is compiled cannot be written. -/
theorem compiled_of_request_error {site₀ : Generator.Site σ} {e : Failure}
    (h : request table op site₀ log = ((.error e, site), log')) :
    compiled table op site₀ log = ((.error e, site), log') ∨
      ∃ r : Request, compiled table op site₀ log = ((.ok r, site), log') ∧ ¬ r.isWritable = true ∧
        e = .number .unwritable := by
  unfold request at h
  rcases hcompiled : compiled table op site₀ log with ⟨⟨e | r', site'⟩, log₁⟩
  · rw [Action.bind_of_error hcompiled] at h
    cases h
    exact Or.inl rfl
  · rw [Action.bind_of_ok hcompiled] at h
    by_cases hr : r'.isWritable = true
    · rw [Request.line?_of_isWritable hr] at h
      cases h
    · rw [Request.line?_of_not_isWritable hr] at h
      cases h
      exact Or.inr ⟨r', rfl, hr, rfl⟩

theorem run_of_perform {station' : Station σ} {result : Except Failure Status}
    (h : perform table op station log = ((result, station'), log')) :
    run table op.name station log = settle op.name result station' log' := by
  unfold run dispatch
  rw [Operation.ofName?_name, Action.bind_of_ok (Action.attempt_of_run h)]

theorem run_of_request_ok {t : Trace} (ht : station.documents = .trace t) (hwrites : t.refused = [])
    {r : Request} (h : request table op ⟨station.generator, station.counters⟩ log = ((.ok r, site), log')) :
    run table op.name station log =
      ((.ok .ok, ⟨site.generator, site.counters, .trace (t.record r)⟩), log') := by
  obtain ⟨hcompiled, hr⟩ := compiled_of_request_ok h
  have hperform : perform table op station log =
      ((.ok .ok, ⟨site.generator, site.counters, .trace (t.record r)⟩), log') := by
    rw [perform_eq, Action.bind_of_ok (onSite_of_run hcompiled)]
    unfold onDocuments Action.within
    dsimp only
    rw [ht, DocumentStore.request_eq hwrites hr]
  exact run_of_perform hperform

theorem run_of_compiled_error {e : Failure}
    (h : compiled table op ⟨station.generator, station.counters⟩ log = ((.error e, site), log')) :
    run table op.name station log =
      settle op.name (.error e) ⟨site.generator, site.counters, station.documents⟩ log' := by
  refine run_of_perform ?_
  rw [perform_eq, Action.bind_of_error (onSite_of_run h)]

theorem run_of_request_error {t : Trace} (ht : station.documents = .trace t) {e : Failure}
    (h : request table op ⟨station.generator, station.counters⟩ log = ((.error e, site), log')) :
    run table op.name station log =
      settle op.name (.error e) ⟨site.generator, site.counters, .trace t⟩ log' := by
  rcases compiled_of_request_error h with hcompiled | ⟨r, hcompiled, hr, rfl⟩
  · rw [run_of_compiled_error hcompiled, ht]
  · have hperform : perform table op station log =
        ((.error (.number .unwritable), ⟨site.generator, site.counters, .trace t⟩), log') := by
      rw [perform_eq, Action.bind_of_ok (onSite_of_run hcompiled)]
      unfold onDocuments Action.within
      dsimp only
      rw [ht, DocumentStore.request_of_not_isWritable hr]
    exact run_of_perform hperform

theorem compiled_operation (table : Json.Value) (op : Operation) (site : Generator.Site σ) :
    (compiled table op).Ensures site (fun r _ => r.operation = op) fun _ _ => True := by
  cases op with
  | scan =>
      refine Action.ensures_true.bind (fun _ _ _ => ?_) fun _ _ h => h
      refine Action.ensures_true.bind (fun _ _ _ => ?_) fun _ _ h => h
      exact Action.ensures_true.bind (fun _ _ _ => Action.ensures_pure.mpr rfl) fun _ _ h => h
  | _ => exact Action.ensures_true.bind (fun _ _ _ => Action.ensures_pure.mpr rfl) fun _ _ h => h

theorem request_operation (table : Json.Value) (op : Operation) (site : Generator.Site σ) :
    (request table op).Ensures site (fun r _ => r.operation = op) fun _ _ => True := by
  refine (compiled_operation table op site).bind (fun r site' hr => ?_) fun _ _ h => h
  exact Action.ensures_true.bind (fun _ _ _ => Action.ensures_pure.mpr hr) fun _ _ h => h

end request

open Generator

theorem diagnosed_compiled [Powers] {S : Schema} (hS : S.KeysText) (table : Json.Value) (op : Operation) :
    Diagnosed S (compiled table op : Action (Site MemoryStore) Request) := by
  have hread : ∀ op, Diagnosed S (do return .predicate op table (← compileRead)
      : Action (Site MemoryStore) Request) :=
    fun op => (diagnosed_compileRead hS).bind fun _ => diagnosed_pure _
  cases op with
  | insert => exact (diagnosed_compileInsert hS).bind fun _ => diagnosed_pure _
  | update => exact (diagnosed_compileUpdate hS).bind fun _ => diagnosed_pure _
  | near => exact hread .near
  | box => exact hread .box
  | intersect => exact hread .intersect
  | scan =>
      refine (diagnosed_distributedDocId hS).bind fun startKey => diagnosed_limit.bind fun limit => ?_
      exact diagnosed_offset.bind fun _ => diagnosed_pure _

theorem diagnosed_request [Powers] {S : Schema} (hS : S.KeysText) (table : Json.Value) (op : Operation) :
    Diagnosed S (request table op : Action (Site MemoryStore) Request) :=
  (diagnosed_compiled hS table op).bind fun _ => (diagnosed_ofNumber _).bind fun _ => diagnosed_pure _

/-! ### Outcomes -/

/-- How a transaction ends, with a trace that takes every line: where a request is made, it is the one line
that is written, and the status says so.  Where none is, no line is written.  A slot without a body and a
counter that is missing or no integer give a status then; an empty population and a failure of arithmetic end
the transaction without one. -/
theorem run_settled [Powers] {S : Schema} (hS : S.KeysText) (table : Json.Value) (op : Operation)
    {station : Station MemoryStore} (hgenerator : station.generator.Usual S) {t : Trace}
    (ht : station.documents = .trace t) (hwrites : t.refused = []) :
    (∃ r, (request table op).outcome ⟨station.generator, station.counters⟩ = .ok r ∧ r.operation = op ∧
      (run table op.name).outcome station = .ok .ok ∧
      ((run table op.name).after station).documents = .trace (t.record r)) ∨
    ∃ e, (request table op).outcome ⟨station.generator, station.counters⟩ = .error e ∧
      ((run table op.name).after station).documents = .trace t ∧
      ((∃ slot, e = .slotNotFound slot (S.bodyKey slot) ∧
          ((run table op.name).after station).counters.get? (S.bodyKey slot) = none ∧
          (run table op.name).outcome station = .ok .notFound) ∨
        (∃ key ∈ [S.totalKey, S.storedKey, S.insertKey],
          ((run table op.name).after station).counters.Uncounted key e ∧
          (run table op.name).outcome station = .ok .error) ∨
        (∃ n ≤ 0, e = .populationNotPositive n ∧ (run table op.name).outcome station = .error e) ∨
        ∃ n, e = .number n ∧ (run table op.name).outcome station = .error e) := by
  have hends := ((diagnosed_request hS table op _ hgenerator).and
    (request_operation table op ⟨station.generator, station.counters⟩)).outcome_cases
  unfold Action.outcome Action.after at *
  rcases hr : request table op (⟨station.generator, station.counters⟩ : Site MemoryStore) #[] with
    ⟨⟨r, site⟩, log⟩
  rw [hr] at hends
  rcases hends with ⟨r, rfl, _, hop⟩ | ⟨e, rfl, ⟨_, hfault⟩, _⟩
  · rw [run_of_request_ok ht hwrites hr]
    exact Or.inl ⟨r, rfl, hop, rfl, rfl⟩
  · rw [run_of_request_error ht hr]
    refine Or.inr ⟨e, rfl, ?_⟩
    cases hfault with
    | counter hkey he =>
        cases he with
        | missing hnone => exact ⟨rfl, Or.inr (Or.inl ⟨_, hkey, .missing hnone, rfl⟩)⟩
        | notInteger htext hread =>
            exact ⟨rfl, Or.inr (Or.inl ⟨_, hkey, .notInteger htext hread, rfl⟩)⟩
    | body hnone => exact ⟨rfl, Or.inl ⟨_, rfl, hnone, rfl⟩⟩
    | population hn => exact ⟨rfl, Or.inr (Or.inr (Or.inl ⟨_, hn, rfl, rfl⟩))⟩
    | number n => exact ⟨rfl, Or.inr (Or.inr (Or.inr ⟨n, rfl, rfl⟩))⟩

/-- A fresh generator at a seeded store without documents, with an empty trace. -/
def emptyStation : Station MemoryStore where
  generator := .make {} .incidents (.ofSeed 1)
  counters := (CounterStore.seedCounters .incidents 3 0).after MemoryStore.empty
  documents := .trace .empty

theorem run_settled_emptyStation : Schema.incidents.KeysText ∧
    emptyStation.generator.Usual .incidents ∧ emptyStation.documents = .trace .empty ∧
    Trace.empty.refused = [] ∧
    ((run (.string "usertable") Operation.insert.name).outcome emptyStation ≠ .ok .ok →
      ((run (.string "usertable") Operation.insert.name).after emptyStation).documents =
        .trace .empty) := by
  have hgenerator : emptyStation.generator.Usual .incidents := usual_make {} .incidents (.ofSeed 1)
  have hS := Schema.keysDistinct_incidents.keysText
  refine ⟨hS, hgenerator, rfl, rfl, fun hnot => ?_⟩
  rcases run_settled hS (.string "usertable") .insert hgenerator rfl rfl with
    ⟨r, _, _, hok, _⟩ | ⟨e, _, hdocuments, _⟩
  · exact absurd hok hnot
  · exact hdocuments

/-! ### Stores without documents -/

/-- As long as no document is stored, an insert or an update of a fresh generator ends without a status, and
the store and the trace are what they were. -/
theorem run_of_no_documents [Powers] (table : Json.Value) {op : Operation} (hop : op = .insert ∨ op = .update)
    {station : Station MemoryStore} (hkey : station.generator.schema.storedKey.IsText)
    (hread : station.generator.storedRead = 0) {n : Int} (hn : n ≤ 0)
    (hcount : station.counters.Counts station.generator.schema.storedKey n) :
    (run table op.name).outcome station = .error (.populationNotPositive n) ∧
      ((run table op.name).after station).counters = station.counters ∧
      ((run table op.name).after station).documents = station.documents := by
  have hinsert : compileInsert.Ensures (⟨station.generator, station.counters⟩ : Site MemoryStore)
      (fun _ _ => False) fun e site => e = .populationNotPositive n ∧ site.counters = station.counters :=
    compileInsert_of_no_documents hkey hread hn hcount
  have hcompiled : (compiled table op).Ensures
      (⟨station.generator, station.counters⟩ : Site MemoryStore) (fun _ _ => False)
      fun e site => e = .populationNotPositive n ∧ site.counters = station.counters := by
    rcases hop with rfl | rfl
    · exact hinsert.bind (fun _ _ h => h.elim) fun _ _ h => h
    · have hupdate : compileUpdate.Ensures (⟨station.generator, station.counters⟩ : Site MemoryStore)
          (fun _ _ => False)
          fun e site => e = .populationNotPositive n ∧ site.counters = station.counters :=
        hinsert.bind (fun _ _ h => h.elim) fun _ _ h => h
      exact hupdate.bind (fun _ _ h => h.elim) fun _ _ h => h
  have hends := hcompiled.outcome_cases
  unfold Action.outcome Action.after at *
  rcases hr : compiled table op (⟨station.generator, station.counters⟩ : Site MemoryStore) #[] with
    ⟨⟨r, site⟩, log⟩
  rw [hr] at hends
  rcases hends with ⟨_, _, hfalse⟩ | ⟨e, rfl, rfl, hsite⟩
  · exact hfalse.elim
  · rw [run_of_compiled_error hr]
    exact ⟨rfl, hsite, rfl⟩

theorem seeded_emptyStation : emptyStation.counters.Seeded .incidents := by
  have htotal : Numeral.IsWritable 3 := Numeral.isWritable_of_natAbs_lt (by decide)
  have hinserts : Numeral.IsWritable (3 + 1 + 0) := Numeral.isWritable_of_natAbs_lt (by decide)
  have h := MemoryStore.Seeded.of_isWritable Schema.keysDistinct_incidents htotal hinserts
  unfold emptyStation
  dsimp only
  exact h

/-- An insert of a fresh generator at a seeded store without documents ends the transaction. -/
theorem run_insert_emptyStation :
    (run (.string "usertable") Operation.insert.name).outcome emptyStation =
        .error (.populationNotPositive 0) ∧
      ((run (.string "usertable") Operation.insert.name).after emptyStation).documents.lines = [] := by
  have hkey : emptyStation.generator.schema.storedKey.IsText :=
    Schema.keysDistinct_incidents.storedKey_isText
  have hread : emptyStation.generator.storedRead = 0 := rfl
  have hcount : emptyStation.counters.Counts emptyStation.generator.schema.storedKey 0 :=
    MemoryStore.counts_of_decimal (Numeral.isWritable_of_natAbs_lt (by decide))
      (seeded_emptyStation.get?_storedKey Schema.keysDistinct_incidents)
  obtain ⟨houtcome, _, hdocuments⟩ :=
    run_of_no_documents (.string "usertable") (Or.inl rfl) hkey hread (Int.le_refl 0) hcount
  rw [hdocuments]
  exact ⟨houtcome, rfl⟩

end Transaction

end GeoWorkload
