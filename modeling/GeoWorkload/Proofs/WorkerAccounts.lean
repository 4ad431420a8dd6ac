import GeoWorkload.Proofs.CoverageCounts
import GeoWorkload.Proofs.Transactions

/-!
# What workers account for

A worker that takes notes of its transactions works as one that takes none (`Worker.run_eq`), and what it adds to
the coverage of the board, to its failures and to the trace agrees with its notes, whatever its transactions come
to (`Worker.run_accounts`).
-/

namespace GeoWorkload

/-! ### Lines of requests -/

namespace Request

/-- How the line of a request of an operation begins. -/
def opening (op : Operation) : List Char :=
  '\x7b' :: Json.renderString "op" ++ ':' :: Json.renderString op.name

/-- The operation of which a line is a request. -/
def operationOf? (line : String) : Option Operation :=
  Operation.all.find? fun op => (opening op).isPrefixOf line.toList

theorem render_opening (op : Operation) (next : String × Json.Value) (rest : Json.Members) :
    (Json.Value.object (("op", .string op.name) :: next :: rest)).render .compact =
      opening op ++ (',' :: Json.Value.renderMembers .compact (next :: rest) ++ ['\x7d']) := by
  simp [Json.Value.render, Json.Value.renderMembers, Json.Value.renderMember, Json.Style.compact, opening]

theorem line_eq_opening (r : Request) : ∃ rest, r.line.toList = opening r.operation ++ rest := by
  unfold line Json.Value.compactText
  rw [String.toList_ofList]
  cases r with
  | predicate op table p => exact ⟨_, render_opening op _ _⟩
  | scan table startKey limit offset => exact ⟨_, render_opening .scan _ _⟩

/-- No line begins like those of two operations. -/
theorem eq_of_openings {op op' : Operation}
    (h : opening op <+: opening op' ∨ opening op' <+: opening op) : op = op' := by
  have hall : ∀ op ∈ Operation.all, ∀ op' ∈ Operation.all,
      opening op <+: opening op' ∨ opening op' <+: opening op → op = op' := by
    decide +kernel
  exact hall op op.mem_all op' op'.mem_all h

theorem isPrefixOf_opening (op op' : Operation) (rest : List Char) :
    (opening op).isPrefixOf (opening op' ++ rest) = decide (op = op') := by
  by_cases h : op = op'
  · rw [decide_eq_true h, h]
    exact List.isPrefixOf_iff_prefix.mpr (List.prefix_append _ _)
  · rw [decide_eq_false h, Bool.eq_false_iff, Ne, List.isPrefixOf_iff_prefix]
    intro hprefix
    exact h (eq_of_openings (List.prefix_or_prefix_of_prefix hprefix (List.prefix_append _ _)))

/-- The line of a request tells its operation. -/
theorem operationOf?_line (r : Request) : operationOf? r.line = some r.operation := by
  obtain ⟨rest, hline⟩ := r.line_eq_opening
  unfold operationOf?
  rw [hline]
  simp only [isPrefixOf_opening]
  cases r.operation <;> rfl

end Request

namespace Trace

/-- The trace with requests written to it one after another. -/
def recordAll (t : Trace) (requests : List Request) : Trace := requests.foldl record t

theorem recordAll_cons (t : Trace) (r : Request) (requests : List Request) :
    t.recordAll (r :: requests) = (t.record r).recordAll requests := rfl

theorem recordAll_append (t : Trace) (requests requests' : List Request) :
    t.recordAll (requests ++ requests') = (t.recordAll requests).recordAll requests' :=
  List.foldl_append

theorem refused_recordAll (t : Trace) (requests : List Request) : (t.recordAll requests).refused = t.refused := by
  induction requests generalizing t with
  | nil => rfl
  | cons r requests ih => exact ih (t.record r)

theorem lines_recordAll (t : Trace) (requests : List Request) :
    (t.recordAll requests).lines.toList = t.lines.toList ++ requests.map Request.line := by
  induction requests generalizing t with
  | nil => exact (List.append_nil _).symm
  | cons r requests ih =>
      rw [recordAll_cons, ih, List.map_cons]
      simp [record]

theorem records_recordAll (t : Trace) (requests : List Request) :
    (t.recordAll requests).records = t.records + requests.length := by
  induction requests generalizing t with
  | nil => rfl
  | cons r requests ih =>
      rw [recordAll_cons, ih, List.length_cons]
      show t.records + 1 + requests.length = _
      omega

end Trace

theorem Task.budget_eq {task : Task} (h : 1 ≤ task.operations) : (task.budget : Int) = task.operations := by
  unfold budget
  rw [if_pos (by omega), Int.toNat_of_nonneg (by omega)]

/-- Weights one of which is positive make a mix. -/
theorem Mix.exists_ofWeights {α : Type} {weights : List (α × Binary64)} {item : α × Binary64}
    (hitem : item ∈ weights) (hpositive : item.2.isPositive = true) :
    ∃ mix, Mix.ofWeights weights = .ok mix := by
  have hmem : item ∈ weights.filter fun item => item.2.isPositive := List.mem_filter.mpr ⟨hitem, hpositive⟩
  unfold Mix.ofWeights
  cases h : weights.filter fun item => item.2.isPositive with
  | nil =>
      rw [h] at hmem
      exact absurd hmem List.not_mem_nil
  | cons head tail => exact ⟨_, rfl⟩

/-! ### Transactions -/

namespace Transaction

open Station

variable {σ : Type} [CounterStore σ] {table : Json.Value} {station : Station σ} {t : Trace}

/-- What a transaction does to the trace: a request of its operation that was carried out is the one line that is
written, and otherwise none is. -/
def Wrote (t : Trace) (name : String) (status : Status) (documents : DocumentStore) : Prop :=
  ∃ op : Operation, op.name = name ∧
    if status = .ok then ∃ r : Request, r.operation = op ∧ documents = .trace (t.record r)
    else documents = .trace t

theorem Wrote.exists_trace {name : String} {status : Status} {documents : DocumentStore}
    (h : Wrote t name status documents) (hwrites : t.refused = []) :
    ∃ t', documents = .trace t' ∧ t'.refused = [] := by
  obtain ⟨op, _, h⟩ := h
  split at h
  · obtain ⟨r, _, h⟩ := h
    exact ⟨t.record r, h, hwrites⟩
  · exact ⟨t, h, hwrites⟩

theorem perform_wrote [Powers] (ht : station.documents = .trace t) (hwrites : t.refused = []) (op : Operation) :
    (perform table op).Ensures station (fun status station' => Wrote t op.name status station'.documents)
      fun _ station' => station'.documents = .trace t := by
  rw [perform_eq]
  refine (onSite_ensures (compiled_operation table op _)).bind ?_ fun _ _ h => h.2.trans ht
  rintro r station₁ ⟨hop, hdocuments⟩
  by_cases hr : r.isWritable = true
  · refine (onDocuments_request_returns (hdocuments.trans ht) hwrites hr).mono ?_ fun _ _ h => h.elim
    rintro _ _ ⟨rfl, rfl⟩
    exact ⟨op, rfl, r, hop, rfl⟩
  · exact (onDocuments_request_fails (hdocuments.trans ht) hr).mono (fun _ _ h => h.elim) fun _ _ h => h.2

omit [CounterStore σ] in
/-- A failure of an operation is settled without a line, and a name of no operation is not settled. -/
theorem settle_wrote {name : String} {e : Failure} (ht : station.documents = .trace t)
    (hname : (∃ op : Operation, op.name = name) ∨ e = .unknownOperation name) :
    (settle name (.error e)).Ensures station (fun status station' => Wrote t name status station'.documents)
      fun _ station' => station'.documents = .trace t := by
  have hwrote : ∀ status : Status, status ≠ .ok → (∃ op : Operation, op.name = name) →
      Wrote t name status station.documents := by
    rintro status hstatus ⟨op, hop⟩
    exact ⟨op, hop, by rwa [if_neg hstatus]⟩
  have hop : e.isExpected = true → ∃ op : Operation, op.name = name := by
    intro hexpected
    refine hname.resolve_right ?_
    rintro rfl
    cases hexpected
  unfold settle
  split
  · rename_i heq
    cases heq
  · rename_i heq
    cases heq
    exact Action.ensures_log_bind (Action.ensures_pure.mpr (hwrote .notFound (by decide) (hop rfl)))
  · rename_i heq
    cases heq
    split
    · rename_i hexpected
      exact Action.ensures_log_bind (Action.ensures_pure.mpr (hwrote .error (by decide) (hop hexpected)))
    · exact Action.ensures_fail.mpr ht

theorem run_wrote [Powers] (ht : station.documents = .trace t) (hwrites : t.refused = []) (name : String) :
    (run table name).Ensures station (fun status station' => Wrote t name status station'.documents)
      fun _ station' => station'.documents = .trace t := by
  have hdispatch : (dispatch table name).attempt.Returns station fun r station' =>
      (∃ status, r = .ok status ∧ Wrote t name status station'.documents) ∨
        ∃ e, r = .error e ∧ station'.documents = .trace t ∧
          ((∃ op : Operation, op.name = name) ∨ e = .unknownOperation name) := by
    refine Action.Ensures.attempt ?_
    unfold dispatch
    split
    · rename_i op hop
      obtain rfl := Operation.ofName?_eq_some_iff.mp hop
      refine (perform_wrote ht hwrites op).mono ?_ ?_
      · exact fun status _ h => Or.inl ⟨status, rfl, h⟩
      · exact fun e _ h => Or.inr ⟨e, rfl, h, Or.inl ⟨op, rfl⟩⟩
    · exact Action.ensures_fail.mpr (Or.inr ⟨_, rfl, ht, Or.inr rfl⟩)
  unfold run
  refine hdispatch.bind ?_ fun _ _ h => h.elim
  rintro r station' (⟨status, rfl, h⟩ | ⟨e, rfl, ht', hname⟩)
  · exact Action.ensures_pure.mpr h
  · exact settle_wrote ht' hname

theorem next_wrote [Powers] (ht : station.documents = .trace t) (hwrites : t.refused = []) (mix : Mix String) :
    (next table mix).Ensures station
      (fun result station' => Wrote t result.1 result.2 station'.documents)
      fun _ station' => station'.documents = .trace t := by
  unfold next
  refine (onSite_ensures Action.ensures_true).bind ?_ fun _ _ h => h.2.trans ht
  rintro name station₁ ⟨_, hdocuments⟩
  refine (run_wrote (hdocuments.trans ht) hwrites name).bind ?_ fun _ _ h => h
  exact fun status station₂ h => Action.ensures_pure.mpr h

end Transaction

/-! ### Notes -/

namespace Worker

/-- What the transactions of a worker came to, in order, and the failure that ended the last one. -/
structure Notes where
  results : List (String × Status) := []
  raised : Option Failure := none

/-- How a worker with the notes ended its transactions. -/
def Notes.outcome (notes : Notes) : Except Failure Unit :=
  match notes.raised with
  | none => .ok ()
  | some f => .error f

variable {σ : Type} [CounterStore σ]

/-- Carries out one transaction, counts it and gives what it came to. -/
def turnNoting [Powers] (task : Task) (mix : Mix String) (done : Nat) : Action (Desk σ) (String × Status) := do
  let (name, status) ← Action.within (·.station) (fun station desk => { desk with station })
    (Transaction.next task.table mix)
  Action.change fun desk =>
    { desk with coverage := desk.coverage.add (Coverage.entryName name status) 1 }
  Action.log .debug ("[W" ++ Numeral.padded 2 task.worker ++ "][" ++ Numeral.padded 5 done ++ "] " ++
    name ++ " " ++ status.name)
  return (name, status)

/-- Carries out transactions, at most as many as the budget allows after the first `done`, and takes notes. -/
def turnsNoting [Powers] (task : Task) (mix : Mix String) : (budget done : Nat) → Action (Desk σ) Notes
  | 0, _ => return {}
  | budget + 1, done => do
    if (← Action.look (·.board.stopped)) || task.isOver done then return {}
    match ← (turnNoting task mix (done + 1)).attempt with
    | .ok result =>
      let notes ← turnsNoting task mix budget (done + 1)
      return { notes with results := result :: notes.results }
    | .error f => return { raised := some f }

/-- The work of a worker at its desk, with notes. -/
def atDeskNoting [Powers] (task : Task) (mix : Mix String) : Action (Desk σ) Notes := do
  let notes ← turnsNoting task mix task.budget 0
  match notes.outcome with
  | .ok () => pure ()
  | .error f => abort task f
  report
  return notes

/-- The work of a worker with a generator, with notes. -/
def work [Powers] (task : Task) (generator : Generator) (mix : Mix String) : Action (Crew σ) Notes :=
  Action.within (Desk.ofCrew generator) (fun desk _ => desk.toCrew) (atDeskNoting task mix)

/-- Closes the use of the counter store. -/
def leave : Action (Crew σ) Unit :=
  Action.within (·.counters) (fun counters crew => { crew with counters }) CounterStore.close

theorem turn_eq [Powers] (task : Task) (mix : Mix String) (done : Nat) :
    (turn task mix done : Action (Desk σ) Unit) = turnNoting task mix done >>= fun _ => pure () := by
  simp only [turn, turnNoting, bind_assoc, pure_bind, bind_pure_unit]

/-- The notes only tell how the transactions went. -/
theorem turns_eq [Powers] (task : Task) (mix : Mix String) (budget done : Nat) :
    (turns task mix budget done : Action (Desk σ) Unit) =
      turnsNoting task mix budget done >>= fun notes => Action.ofExcept notes.outcome := by
  induction budget generalizing done with
  | zero => rfl
  | succ budget ih =>
      unfold turns turnsNoting
      rw [bind_assoc]
      refine bind_congr fun stopped => ?_
      split
      · rfl
      · rw [turn_eq, bind_assoc, Action.bind_eq_attempt_bind, bind_assoc]
        refine bind_congr fun r => ?_
        cases r with
        | ok result =>
            simp only [pure_bind, bind_assoc, ih]
            rfl
        | error f => rfl

theorem turnsNoting_returns [Powers] (task : Task) (mix : Mix String) (budget done : Nat) (desk : Desk σ) :
    (turnsNoting task mix budget done).Returns desk fun _ _ => True := by
  induction budget generalizing done desk with
  | zero => exact Action.ensures_pure.mpr trivial
  | succ budget ih =>
      unfold turnsNoting
      refine Action.ensures_look_bind ?_
      split
      · exact Action.ensures_pure.mpr trivial
      · have hturn : (turnNoting task mix (done + 1)).attempt.Returns desk fun _ _ => True :=
          Action.Ensures.attempt Action.ensures_true
        refine hturn.bind ?_ fun _ _ h => h
        rintro (f | result) desk' _
        · exact Action.ensures_pure.mpr trivial
        · exact (ih (done + 1) desk').bind (fun _ _ _ => Action.ensures_pure.mpr trivial) fun _ _ h => h

theorem atDesk_eq [Powers] (task : Task) (mix : Mix String) :
    (atDesk task mix : Action (Desk σ) Unit) = atDeskNoting task mix >>= fun _ => pure () := by
  unfold atDesk atDeskNoting
  rw [turns_eq, Action.attempt_bind_ofExcept (turnsNoting_returns task mix task.budget 0), bind_assoc,
    bind_assoc]
  refine bind_congr fun notes => ?_
  rw [pure_bind]
  cases notes.outcome with
  | ok _ => simp only [pure_bind, bind_assoc, bind_pure_unit]
  | error f => simp only [pure_bind, bind_assoc, bind_pure_unit]

/-- A worker that takes no notes works as one that takes notes and forgets them. -/
theorem run_eq [Powers] (task : Task) (settings : Settings) (S : Schema) {proportions : List (String × Binary64)}
    {mix : Mix String} (hmix : Mix.ofWeights proportions = .ok mix) :
    (run task settings S proportions : Action (Crew σ) Unit) =
      work task (generator settings S task.moment task.worker) mix >>= fun _ => leave := by
  have hdraws : (Action.ofExcept (Mix.ofWeights proportions) : Action (Crew σ) (Mix String)) = pure mix := by
    rw [hmix]
    rfl
  unfold run work leave
  rw [hdraws, pure_bind]
  dsimp only
  rw [atDesk_eq, Action.within_bind_pure _ _ fun _ => (), bind_assoc]
  simp only [pure_bind]

/-! ### Accounts -/

/-- What the notes of a worker say agrees with what it counted and with what it wrote. -/
structure Noted (t : Trace) (budget : Nat) (desk : Desk σ) (notes : Notes) (desk' : Desk σ) : Prop where
  board : desk'.board = desk.board
  coverage : desk'.coverage = desk.coverage.tally notes.results
  named : ∀ result ∈ notes.results, ∃ op : Operation, op.name = result.1
  trace : ∃ requests : List Request, desk'.station.documents = .trace (t.recordAll requests) ∧
    requests.map (·.operation.name) = (notes.results.filter fun result => result.2 = .ok).map (·.1)
  complete : notes.raised = none → notes.results.length = budget

omit [CounterStore σ] in
theorem Noted.nil {t : Trace} {desk desk' : Desk σ} (hboard : desk'.board = desk.board)
    (hcoverage : desk'.coverage = desk.coverage) (ht : desk'.station.documents = .trace t) {budget : Nat}
    {raised : Option Failure} (hcomplete : raised = none → budget = 0) :
    Noted t budget desk { raised } desk' where
  board := hboard
  coverage := hcoverage
  named := nofun
  trace := ⟨[], ht, rfl⟩
  complete h := (hcomplete h).symm

omit [CounterStore σ] in
/-- A worker that notes what a transaction came to before the others. -/
theorem Noted.cons {t t' : Trace} {budget : Nat} {desk desk₁ desk' : Desk σ} {result : String × Status}
    {notes : Notes} (hboard : desk₁.board = desk.board)
    (hcoverage : desk₁.coverage = desk.coverage.add (Coverage.entryName result.1 result.2) 1)
    (hwrote : Transaction.Wrote t result.1 result.2 (.trace t')) (h : Noted t' budget desk₁ notes desk') :
    Noted t (budget + 1) desk { notes with results := result :: notes.results } desk' := by
  obtain ⟨op, hop, hline⟩ := hwrote
  obtain ⟨requests, hrequests, hnames⟩ := h.trace
  refine ⟨h.board.trans hboard, ?_, ?_, ?_, fun hraised => ?_⟩
  · rw [h.coverage, hcoverage]
    rfl
  · intro r hr
    rcases List.mem_cons.mp hr with rfl | hr
    · exact ⟨op, hop⟩
    · exact h.named r hr
  · by_cases hok : result.2 = .ok
    · rw [if_pos hok] at hline
      obtain ⟨r, hr, ht'⟩ := hline
      cases ht'
      refine ⟨r :: requests, hrequests, ?_⟩
      rw [List.map_cons, hnames, List.filter_cons_of_pos (by simpa using hok), List.map_cons, hr, hop]
    · rw [if_neg hok] at hline
      cases hline
      refine ⟨requests, hrequests, ?_⟩
      rw [hnames, List.filter_cons_of_neg (by simpa using hok)]
  · rw [List.length_cons, h.complete hraised]

variable {desk : Desk σ} {t : Trace}

theorem turnNoting_ensures [Powers] (task : Task) (mix : Mix String) (done : Nat)
    (ht : desk.station.documents = .trace t) (hwrites : t.refused = []) :
    (turnNoting task mix done).Ensures desk
      (fun result desk' => desk'.board = desk.board ∧
        desk'.coverage = desk.coverage.add (Coverage.entryName result.1 result.2) 1 ∧
        Transaction.Wrote t result.1 result.2 desk'.station.documents)
      fun _ desk' => desk'.board = desk.board ∧ desk'.coverage = desk.coverage ∧
        desk'.station.documents = .trace t := by
  have hnext : (Action.within (·.station) (fun station (desk : Desk σ) => { desk with station })
      (Transaction.next task.table mix)).Ensures desk
        (fun result desk' => desk'.board = desk.board ∧ desk'.coverage = desk.coverage ∧
          Transaction.Wrote t result.1 result.2 desk'.station.documents)
        fun _ desk' => desk'.board = desk.board ∧ desk'.coverage = desk.coverage ∧
          desk'.station.documents = .trace t := by
    refine Action.Ensures.within ((Transaction.next_wrote ht hwrites mix).mono ?_ ?_)
    · exact fun _ _ h => ⟨rfl, rfl, h⟩
    · exact fun _ _ h => ⟨rfl, rfl, h⟩
  unfold turnNoting
  refine hnext.bind ?_ fun _ _ h => h
  rintro ⟨name, status⟩ desk' ⟨hboard, hcoverage, hwrote⟩
  refine Action.ensures_change_bind (Action.ensures_log_bind (Action.ensures_pure.mpr ⟨hboard, ?_, hwrote⟩))
  show desk'.coverage.add _ 1 = _
  rw [hcoverage]

/-- Every transaction is carried out, unless a failure ends one of them. -/
theorem turnsNoting_noted [Powers] {task : Task} (hunbounded : ∀ done, task.isOver done = false) (mix : Mix String)
    (budget done : Nat) (hclear : desk.board.stopped = false) (ht : desk.station.documents = .trace t)
    (hwrites : t.refused = []) :
    (turnsNoting task mix budget done).Returns desk fun notes desk' => Noted t budget desk notes desk' := by
  induction budget generalizing done desk t with
  | zero => exact Action.ensures_pure.mpr (.nil rfl rfl ht fun _ => rfl)
  | succ budget ih =>
      have hgoes : (desk.board.stopped || task.isOver done) = false := by rw [hclear, hunbounded]; rfl
      have hturn := turnNoting_ensures task mix (done + 1) ht hwrites
      have hattempt : (turnNoting task mix (done + 1)).attempt.Returns desk fun r desk' =>
          desk'.board = desk.board ∧
            ((∃ f, r = .error f ∧ desk'.coverage = desk.coverage ∧ desk'.station.documents = .trace t) ∨
              ∃ result, r = .ok result ∧
                desk'.coverage = desk.coverage.add (Coverage.entryName result.1 result.2) 1 ∧
                Transaction.Wrote t result.1 result.2 desk'.station.documents) := by
        refine Action.Ensures.attempt (hturn.mono ?_ ?_)
        · exact fun result _ h => ⟨h.1, Or.inr ⟨result, rfl, h.2⟩⟩
        · exact fun f _ h => ⟨h.1, Or.inl ⟨f, rfl, h.2⟩⟩
      unfold turnsNoting
      refine Action.ensures_look_bind ?_
      rw [hgoes, if_neg Bool.false_ne_true]
      refine hattempt.bind ?_ fun _ _ h => h
      rintro _ desk₁ ⟨hboard, ⟨f, rfl, hcoverage, ht₁⟩ | ⟨result, rfl, hcoverage, hwrote⟩⟩
      · exact Action.ensures_pure.mpr (.nil hboard hcoverage ht₁ nofun)
      · obtain ⟨t₁, ht₁, hwrites₁⟩ := hwrote.exists_trace hwrites
        rw [ht₁] at hwrote
        refine (ih (done + 1) (hboard ▸ hclear) ht₁ hwrites₁).bind ?_ fun _ _ h => h
        exact fun notes desk' h => Action.ensures_pure.mpr (.cons hboard hcoverage hwrote h)

/-- The board after a worker with the notes has left. -/
def Notes.board (task : Task) (notes : Notes) (board : Board) : Board where
  coverage := board.coverage.merge (Coverage.tally [] notes.results)
  errors := board.errors ++ (notes.raised.map fun f => (task.worker, f)).toList
  stopped := board.stopped || notes.raised.isSome

omit [CounterStore σ] in
theorem abort_ends (task : Task) (f : Failure) (desk : Desk σ) : (abort task f).Ends desk (.ok ())
    { desk with board :=
      { desk.board with errors := desk.board.errors ++ [(task.worker, f)], stopped := true } } :=
  (Action.ends_change _).bind_ok (Action.ends_log _ _)

theorem atDeskNoting_noted [Powers] {task : Task} (hunbounded : ∀ done, task.isOver done = false) (mix : Mix String)
    (hfresh : desk.coverage = []) (hclear : desk.board.stopped = false)
    (ht : desk.station.documents = .trace t) (hwrites : t.refused = []) :
    (atDeskNoting task mix).Returns desk fun notes desk' => ∃ desk₁, Noted t task.budget desk notes desk₁ ∧
      desk'.station = desk₁.station ∧ desk'.board = notes.board task desk.board := by
  unfold atDeskNoting
  refine (turnsNoting_noted hunbounded mix task.budget 0 hclear ht hwrites).bind ?_ fun _ _ h => h
  rintro ⟨results, raised⟩ desk₁ h
  have hcoverage : desk₁.coverage = Coverage.tally [] results := by
    rw [h.coverage, hfresh]
  have hboard := h.board
  unfold report
  cases raised with
  | none =>
      refine Action.ensures_change_bind (Action.ensures_pure.mpr ⟨desk₁, h, rfl, ?_⟩)
      unfold Notes.board
      dsimp only
      rw [hcoverage, hboard, Option.map_none, Option.toList_none, List.append_nil, Option.isSome_none,
        Bool.or_false]
  | some f =>
      refine (abort_ends task f desk₁).bind_ensures ?_
      refine Action.ensures_change_bind (Action.ensures_pure.mpr ⟨desk₁, h, rfl, ?_⟩)
      unfold Notes.board
      dsimp only
      rw [hcoverage, hboard, Option.map_some, Option.toList_some, Option.isSome_some, Bool.or_true]

/-- What a worker adds to the trace and to the board is what its notes account for: the count of an operation
grows by the lines of its requests, the count of its failures by the transactions that came to no good end, and no
other count changes; there are as many transactions as were asked for, unless a failure ended one. -/
structure Accounts (task : Task) (t : Trace) (board : Board) (notes : Notes) (t' : Trace) (board' : Board) :
    Prop where
  written : ∃ lines : List String, t'.lines.toList = t.lines.toList ++ lines ∧
    t'.records = t.records + lines.length ∧
    ∀ op : Operation, board'.coverage.get op.name = board.coverage.get op.name +
      (lines.countP fun line => Request.operationOf? line = some op : Nat)
  failed : ∀ op : Operation, board'.coverage.get (op.name ++ Coverage.failedEnding) =
    board.coverage.get (op.name ++ Coverage.failedEnding) +
      (notes.results.countP fun result => result.1 = op.name ∧ result.2 ≠ .ok : Nat)
  others : ∀ name, (∀ op : Operation, name ≠ op.name ∧ name ≠ op.name ++ Coverage.failedEnding) →
    board'.coverage.get name = board.coverage.get name
  total : notes.raised = none → (Operation.all.map fun op =>
    board'.coverage.get op.name - board.coverage.get op.name +
      (board'.coverage.get (op.name ++ Coverage.failedEnding) -
        board.coverage.get (op.name ++ Coverage.failedEnding))).sum = task.operations
  errors : board'.errors = board.errors ++ (notes.raised.map fun f => (task.worker, f)).toList
  stopped : board'.stopped = notes.raised.isSome

/-- The lines of requests tell as often of an operation as it was carried out. -/
theorem countP_operationOf? {requests : List Request} {results : List (String × Status)}
    (hnames : requests.map (·.operation.name) = (results.filter fun result => result.2 = .ok).map (·.1))
    (hnamed : ∀ result ∈ results, ∃ op : Operation, op.name = result.1) (op : Operation) :
    (requests.map Request.line).countP (fun line => Request.operationOf? line = some op) =
      results.countP fun result => Coverage.entryName result.1 result.2 = op.name := by
  calc (requests.map Request.line).countP (fun line => Request.operationOf? line = some op)
      = requests.countP fun r => r.operation.name = op.name := by
        rw [List.countP_map]
        refine List.countP_congr fun r _ => ?_
        simp only [Function.comp_apply, r.operationOf?_line, Option.some.injEq, decide_eq_true_eq]
        cases r.operation <;> cases op <;> decide
    _ = (requests.map (·.operation.name)).countP fun name => name = op.name := by
        rw [List.countP_map]
        rfl
    _ = results.countP fun result => result.1 = op.name ∧ result.2 = .ok := by
        rw [hnames, List.countP_map, List.countP_filter]
        refine List.countP_congr fun result _ => ?_
        simp
    _ = results.countP fun result => Coverage.entryName result.1 result.2 = op.name := by
        refine List.countP_congr fun result hresult => ?_
        simp only [decide_eq_true_eq]
        exact (Coverage.entryName_eq_name_iff (hnamed result hresult) op).symm

omit [CounterStore σ] in
theorem Noted.accounts {task : Task} (hoperations : 1 ≤ task.operations) {notes : Notes} {desk' : Desk σ}
    (h : Noted t task.budget desk notes desk') {board : Board} (hclear : board.stopped = false) :
    ∃ t', desk'.station.documents = .trace t' ∧ Accounts task t board notes t' (notes.board task board) := by
  obtain ⟨requests, hdocuments, hnames⟩ := h.trace
  have hget : ∀ name, (notes.board task board).coverage.get name = board.coverage.get name +
      (notes.results.countP fun result => Coverage.entryName result.1 result.2 = name : Nat) := by
    intro name
    have hnodup : (Coverage.tally [] notes.results).names.Nodup :=
      Coverage.nodup_names_tally (c := []) List.nodup_nil _
    rw [Notes.board, Coverage.get_merge _ hnodup, Coverage.get_tally, Coverage.get_nil, Int.zero_add]
  refine ⟨t.recordAll requests, hdocuments, ⟨requests.map Request.line, t.lines_recordAll requests, ?_, ?_⟩,
    ?_, ?_, ?_, rfl, ?_⟩
  · rw [t.records_recordAll, List.length_map]
  · intro op
    rw [hget, countP_operationOf? hnames h.named]
  · intro op
    have hcount : notes.results.countP (fun result =>
        Coverage.entryName result.1 result.2 = op.name ++ Coverage.failedEnding) =
          notes.results.countP fun result => result.1 = op.name ∧ result.2 ≠ .ok := by
      refine List.countP_congr fun result hresult => ?_
      simp only [decide_eq_true_eq]
      exact Coverage.entryName_eq_failed_iff (h.named result hresult) op
    rw [hget, hcount]
  · intro name hname
    rw [hget, Coverage.countP_entryName_eq_zero h.named hname, Int.natCast_zero, Int.add_zero]
  · intro hraised
    have hlength : (notes.results.length : Int) = task.operations := by
      rw [h.complete hraised, Task.budget_eq hoperations]
    have hsum := Coverage.sum_countP_entryName h.named
    simp only [Operation.all, List.map_cons, List.map_nil, List.sum_cons, List.sum_nil, hget] at hsum ⊢
    omega
  · rw [Notes.board, hclear, Bool.false_or]

/-- Whatever the generator of a worker draws and the counter store holds, and however its transactions go, its
accounts are right. -/
theorem work_accounts [Powers] {task : Task} (hoperations : 1 ≤ task.operations)
    (hunbounded : ∀ done, task.isOver done = false) (generator : Generator) (mix : Mix String)
    {crew : Crew σ} (ht : crew.documents = .trace t) (hwrites : t.refused = [])
    (hclear : crew.board.stopped = false) : (work task generator mix).Returns crew fun notes crew' =>
      ∃ t', crew'.documents = .trace t' ∧ Accounts task t crew.board notes t' crew'.board := by
  unfold work
  have hfresh : (Desk.ofCrew generator crew).coverage = [] := rfl
  refine Action.Ensures.within ?_
  refine (atDeskNoting_noted hunbounded mix hfresh hclear ht hwrites).mono ?_ fun _ _ h => h
  rintro notes desk' ⟨desk₁, h, hstation, hboard⟩
  obtain ⟨t', ht', haccounts⟩ := h.accounts hoperations hclear
  refine ⟨t', ?_, ?_⟩
  · show desk'.station.documents = _
    rw [hstation, ht']
  · show Accounts task t crew.board notes t' desk'.board
    rw [hboard]
    exact haccounts

theorem leave_ensures (crew : Crew σ) : leave.Ensures crew
    (fun _ crew' => crew'.documents = crew.documents ∧ crew'.board = crew.board)
    fun _ crew' => crew'.documents = crew.documents ∧ crew'.board = crew.board :=
  Action.Ensures.within (Action.ensures_true.mono (fun _ _ _ => ⟨rfl, rfl⟩) fun _ _ _ => ⟨rfl, rfl⟩)

/-- The accounts of a worker that is asked for some transactions, whose time is never up and that nobody stops, at
a trace that takes every line: taking notes changes nothing, and whatever its generator draws and the counter store
holds, and however its transactions go, what it adds to the trace and to the board is what its notes account for.
Closing its use of the counter store changes neither. -/
theorem run_accounts [Powers] {task : Task} (hoperations : 1 ≤ task.operations)
    (hunbounded : ∀ done, task.isOver done = false) (settings : Settings) (S : Schema)
    {proportions : List (String × Binary64)}
    (hproportions : ∃ op : Operation, ∃ w, (op.name, w) ∈ proportions ∧ w.isPositive = true) :
    ∃ mix, Mix.ofWeights proportions = .ok mix ∧
      (run task settings S proportions : Action (Crew σ) Unit) =
        work task (generator settings S task.moment task.worker) mix >>= (fun _ => leave) ∧
      (∀ (generator : Generator) (crew : Crew σ) (t : Trace), crew.documents = .trace t → t.refused = [] →
        crew.board.stopped = false → (work task generator mix).Returns crew fun notes crew' =>
          ∃ t', crew'.documents = .trace t' ∧ Accounts task t crew.board notes t' crew'.board) ∧
      ∀ crew : Crew σ, leave.Ensures crew
        (fun _ crew' => crew'.documents = crew.documents ∧ crew'.board = crew.board)
        fun _ crew' => crew'.documents = crew.documents ∧ crew'.board = crew.board := by
  obtain ⟨op, w, hw, hpositive⟩ := hproportions
  obtain ⟨mix, hmix⟩ := Mix.exists_ofWeights hw hpositive
  exact ⟨mix, hmix, run_eq task settings S hmix, fun generator crew t ht hwrites hclear =>
    work_accounts hoperations hunbounded generator mix ht hwrites hclear, leave_ensures⟩

/-- A worker that is asked for two scans. -/
def twoScans : Task where
  worker := 1
  operations := 2
  table := .string "usertable"

theorem run_accounts_twoScans : (1 : Int) ≤ twoScans.operations ∧ (∀ done, twoScans.isOver done = false) ∧
    (∃ op : Operation, ∃ w, (op.name, w) ∈ [("GEO_SCAN", (1 : Binary64))] ∧ w.isPositive = true) ∧
    Transaction.emptyStation.documents = .trace .empty ∧ Trace.empty.refused = [] ∧
    ∃ mix, Mix.ofWeights [("GEO_SCAN", (1 : Binary64))] = .ok mix ∧
      (work twoScans Transaction.emptyStation.generator mix).Returns
        ⟨Transaction.emptyStation.counters, .trace .empty, { coverage := [("GEO_SCAN", 5)] }⟩
        fun notes crew' => ∃ t', crew'.documents = .trace t' ∧
          crew'.board.coverage.get Operation.scan.name = 5 +
            (t'.lines.toList.countP fun line => Request.operationOf? line = some .scan : Nat) ∧
          (notes.raised = none ↔ crew'.board.errors = []) := by
  have hproportions : ∃ op : Operation, ∃ w, (op.name, w) ∈ [("GEO_SCAN", (1 : Binary64))] ∧
      w.isPositive = true := ⟨.scan, 1, List.mem_cons_self, by decide +kernel⟩
  refine ⟨by decide, fun _ => rfl, hproportions, rfl, rfl, ?_⟩
  have hoperations : (1 : Int) ≤ twoScans.operations := by decide
  obtain ⟨mix, hmix, _, haccounts, _⟩ :=
    run_accounts (σ := MemoryStore) hoperations (fun _ => rfl) {} .incidents hproportions
  refine ⟨mix, hmix, (haccounts Transaction.emptyStation.generator
    ⟨Transaction.emptyStation.counters, .trace .empty, { coverage := [("GEO_SCAN", 5)] }⟩ .empty rfl rfl rfl).mono
      ?_ fun _ _ h => h⟩
  rintro notes crew' ⟨t', ht', h⟩
  obtain ⟨lines, hlines, _, hcount⟩ := h.written
  refine ⟨t', ht', ?_, ?_⟩
  · rw [hcount, hlines]
    rfl
  · rw [h.errors]
    cases notes.raised <;> simp

end Worker

end GeoWorkload
