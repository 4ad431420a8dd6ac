import GeoWorkload.Action

/-!
# Outcomes of actions

What holds of an action from a given state however it ends: `Action.Ensures` puts one condition on the
value and the state where the action gives a value, and another on the failure and the state where it
fails, and `Action.Returns` says that it does not fail.  The conditions do not speak of the log, and so they
hold whatever stands in it before.  `Action.Ends` says how the action ends, and that this does not hang on the
log either.
-/

namespace GeoWorkload

/-! ### Computations that may fail -/

theorem exists_of_mapError {ε ε' α : Type} {f : ε → ε'} {r : Except ε α} {e : ε'}
    (h : r.mapError f = .error e) : ∃ e', r = .error e' ∧ e = f e' := by
  cases r with
  | error e' => exact ⟨e', rfl, (Except.error.inj h).symm⟩
  | ok a => cases h

theorem of_mapError_eq_ok {ε ε' α : Type} {f : ε → ε'} {r : Except ε α} {a : α}
    (h : r.mapError f = .ok a) : r = .ok a := by
  cases r with
  | error e => cases h
  | ok a' => exact congrArg _ (Except.ok.inj h)

theorem ok_bind {ε α β : Type} (a : α) (f : α → Except ε β) : Except.ok a >>= f = f a := rfl

theorem exists_of_bind_eq_ok {ε α β : Type} {r : Except ε α} {f : α → Except ε β} {b : β}
    (h : r >>= f = .ok b) : ∃ a, r = .ok a ∧ f a = .ok b := by
  cases r with
  | error e => cases h
  | ok a => exact ⟨a, rfl, h⟩

theorem error_of_bind_eq_error {ε α β : Type} {r : Except ε α} {f : α → Except ε β} {e : ε}
    (h : r >>= f = .error e) : r = .error e ∨ ∃ a, r = .ok a ∧ f a = .error e := by
  cases r with
  | error e' =>
      cases h
      exact Or.inl rfl
  | ok a => exact Or.inr ⟨a, rfl, h⟩

namespace Action

variable {σ τ α β : Type}

/-- From `s` the action gives a value with `ok`, or it fails with `failed`. -/
def Ensures (x : Action σ α) (s : σ) (ok : α → σ → Prop) (failed : Failure → σ → Prop) : Prop :=
  ∀ log, match (x s log).1 with
    | (.ok a, s') => ok a s'
    | (.error e, s') => failed e s'

/-- From `s` the action gives a value, with `ok`. -/
def Returns (x : Action σ α) (s : σ) (ok : α → σ → Prop) : Prop :=
  x.Ensures s ok fun _ _ => False

variable {x : Action σ α} {s : σ} {ok ok' : α → σ → Prop} {failed failed' : Failure → σ → Prop}

theorem Ensures.mono (h : x.Ensures s ok failed) (hok : ∀ a s', ok a s' → ok' a s')
    (hfailed : ∀ e s', failed e s' → failed' e s') : x.Ensures s ok' failed' := by
  intro log
  have hx := h log
  generalize (x s log).1 = r at hx ⊢
  obtain ⟨_ | _, _⟩ := r
  · exact hfailed _ _ hx
  · exact hok _ _ hx

theorem Ensures.and (h : x.Ensures s ok failed) (h' : x.Ensures s ok' failed') :
    x.Ensures s (fun a s' => ok a s' ∧ ok' a s') fun e s' => failed e s' ∧ failed' e s' := by
  intro log
  have hx := h log
  have hx' := h' log
  generalize (x s log).1 = r at hx hx' ⊢
  obtain ⟨_ | _, _⟩ := r
  · exact ⟨hx, hx'⟩
  · exact ⟨hx, hx'⟩

theorem ensures_true : x.Ensures s (fun _ _ => True) fun _ _ => True := by
  intro log
  rcases (x s log).1 with ⟨_ | _, _⟩
  · trivial
  · trivial

/-- What an action ensures holds of the value that it gives. -/
theorem Ensures.of_outcome (h : x.Ensures s ok failed) {a : α} (ha : x.outcome s = .ok a) :
    ok a (x.after s) := by
  have hx := h #[]
  unfold outcome at ha
  unfold after
  generalize (x s #[]).1 = r at hx ha ⊢
  obtain ⟨_ | _, _⟩ := r
  · cases ha
  · cases ha
    exact hx

/-- What an action ensures of failing holds of its failure. -/
theorem Ensures.of_outcome_error (h : x.Ensures s ok failed) {e : Failure} (he : x.outcome s = .error e) :
    failed e (x.after s) := by
  have hx := h #[]
  unfold outcome at he
  unfold after
  generalize (x s #[]).1 = r at hx he ⊢
  obtain ⟨_ | _, _⟩ := r
  · cases he
    exact hx
  · cases he

/-- How an action ends is one of the ways that it may. -/
theorem Ensures.outcome_cases (h : x.Ensures s ok failed) :
    (∃ a, x.outcome s = .ok a ∧ ok a (x.after s)) ∨
      ∃ e, x.outcome s = .error e ∧ failed e (x.after s) := by
  have hx := h #[]
  unfold outcome after
  generalize (x s #[]).1 = r at hx ⊢
  obtain ⟨e | a, _⟩ := r
  · exact Or.inr ⟨e, rfl, hx⟩
  · exact Or.inl ⟨a, rfl, hx⟩

/-- An action that fails nowhere gives a value. -/
theorem Returns.exists_outcome (h : x.Returns s ok) : ∃ a, x.outcome s = .ok a ∧ ok a (x.after s) := by
  have hx := h #[]
  unfold outcome after
  generalize (x s #[]).1 = r at hx ⊢
  obtain ⟨_ | a, _⟩ := r
  · exact hx.elim
  · exact ⟨a, rfl, hx⟩

/-! ### Steps in turn -/

@[simp] theorem ensures_pure {a : α} : (pure a : Action σ α).Ensures s ok failed ↔ ok a s :=
  ⟨fun h => h #[], fun h _ => h⟩

theorem bind_of_ok {f : α → Action σ β} {a : α} {s' : σ} {log log' : Log}
    (h : x s log = ((.ok a, s'), log')) : (x >>= f) s log = f a s' log' := by
  show (x s >>= fun p => ExceptT.bindCont f p.1 p.2) log = _
  show (match x s log with
    | (p, l) => ExceptT.bindCont f p.1 p.2 l) = _
  rw [h]
  rfl

theorem bind_of_error {f : α → Action σ β} {e : Failure} {s' : σ} {log log' : Log}
    (h : x s log = ((.error e, s'), log')) : (x >>= f) s log = ((.error e, s'), log') := by
  show (match x s log with
    | (p, l) => ExceptT.bindCont f p.1 p.2 l) = _
  rw [h]
  rfl

/-- How two steps end where the first gives a value is one of the ways that the second may. -/
theorem Ensures.outcome_bind {f : α → Action σ β} {ok : β → σ → Prop} {a : α}
    (hx : x.outcome s = .ok a) (hf : (f a).Ensures (x.after s) ok failed) :
    (∃ b, (x >>= f).outcome s = .ok b ∧ ok b ((x >>= f).after s)) ∨
      ∃ e, (x >>= f).outcome s = .error e ∧ failed e ((x >>= f).after s) := by
  unfold outcome after at *
  rcases hr : x s #[] with ⟨⟨_ | a', s'⟩, log⟩
  · rw [hr] at hx
    cases hx
  · rw [hr] at hx hf
    cases hx
    have hfa := hf log
    rw [bind_of_ok hr]
    generalize (f a s' log).1 = r at hfa ⊢
    obtain ⟨e | b, _⟩ := r
    · exact Or.inr ⟨e, rfl, hfa⟩
    · exact Or.inl ⟨b, rfl, hfa⟩

/-- Two steps end where the first fails. -/
theorem outcome_bind_of_error {f : α → Action σ β} {e : Failure} (hx : x.outcome s = .error e) :
    (x >>= f).outcome s = .error e ∧ (x >>= f).after s = x.after s := by
  unfold outcome after at *
  rcases hr : x s #[] with ⟨⟨e' | _, s'⟩, log⟩
  · rw [hr] at hx
    cases hx
    rw [bind_of_error hr]
    exact ⟨rfl, rfl⟩
  · rw [hr] at hx
    cases hx

theorem Ensures.bind {f : α → Action σ β} {ok' : β → σ → Prop} (h : x.Ensures s ok failed)
    (hok : ∀ a s', ok a s' → (f a).Ensures s' ok' failed')
    (hfailed : ∀ e s', failed e s' → failed' e s') : (x >>= f).Ensures s ok' failed' := by
  intro log
  have hx := h log
  rcases hr : x s log with ⟨⟨_ | a, s'⟩, log'⟩
  · rw [hr] at hx
    rw [bind_of_error hr]
    exact hfailed _ _ hx
  · rw [hr] at hx
    rw [bind_of_ok hr]
    exact hok a s' hx log'

/-! ### Single steps -/

@[simp] theorem ensures_fail {e : Failure} :
    (fail e : Action σ α).Ensures s ok failed ↔ failed e s :=
  ⟨fun h => h #[], fun h _ => h⟩

@[simp] theorem ensures_look {get : σ → α} : (look get).Ensures s ok failed ↔ ok (get s) s :=
  ⟨fun h => h #[], fun h _ => h⟩

theorem ensures_look_bind {get : σ → α} {f : α → Action σ β} {ok : β → σ → Prop}
    (h : (f (get s)).Ensures s ok failed) : (look get >>= f).Ensures s ok failed := by
  intro log
  rw [bind_of_ok rfl]
  exact h log

/-- Looking something up first makes no difference to how an action ends. -/
theorem outcome_look_bind (get : σ → α) (f : α → Action σ β) (s : σ) :
    (look get >>= f).outcome s = (f (get s)).outcome s ∧ (look get >>= f).after s = (f (get s)).after s := by
  unfold outcome after
  rw [bind_of_ok rfl]
  exact ⟨rfl, rfl⟩

theorem ensures_change_bind {f : σ → σ} {g : Unit → Action σ β} {ok : β → σ → Prop}
    (h : (g ()).Ensures (f s) ok failed) : (change f >>= g).Ensures s ok failed := by
  intro log
  rw [bind_of_ok rfl]
  exact h log

theorem ensures_log_bind {level : LogLevel} {text : String} {f : Unit → Action σ β}
    {ok : β → σ → Prop} (h : (f ()).Ensures s ok failed) :
    (log level text >>= f).Ensures s ok failed := by
  intro log
  rw [bind_of_ok rfl]
  exact h _

/-- A record that is made on a condition makes no difference to what follows. -/
theorem ensures_ite_log_bind {c : Prop} [Decidable c] {level : LogLevel} {text : String} {y : Action σ β}
    {ok : β → σ → Prop} (h : y.Ensures s ok failed) :
    (if c then log level text >>= fun _ => y else y).Ensures s ok failed := by
  split
  · exact ensures_log_bind h
  · exact h

@[simp] theorem ensures_change {f : σ → σ} {ok : Unit → σ → Prop} :
    (change f).Ensures s ok failed ↔ ok () (f s) :=
  ⟨fun h => h #[], fun h _ => h⟩

@[simp] theorem ensures_log {level : LogLevel} {text : String} {ok : Unit → σ → Prop} :
    (log level text).Ensures s ok failed ↔ ok () s :=
  ⟨fun h => h #[], fun h _ => h⟩

@[simp] theorem ensures_logAll {records : List LogRecord} {ok : Unit → σ → Prop} :
    (logAll records).Ensures s ok failed ↔ ok () s :=
  ⟨fun h => h #[], fun h _ => h⟩

theorem ensures_step {f : σ → Except Failure α × σ} :
    (step f).Ensures s ok failed ↔
      match f s with
      | (.ok a, s') => ok a s'
      | (.error e, s') => failed e s' :=
  ⟨fun h => h #[], fun h _ => h⟩

theorem ensures_ofExcept {r : Except Failure α} :
    (ofExcept r).Ensures s ok failed ↔
      (∀ a, r = .ok a → ok a s) ∧ ∀ e, r = .error e → failed e s := by
  cases r with
  | ok a =>
      constructor
      · intro h
        refine ⟨fun b hb => ?_, fun e he => by cases he⟩
        cases hb
        exact h #[]
      · intro h log
        exact h.1 a rfl
  | error e =>
      constructor
      · intro h
        refine ⟨fun b hb => (by cases hb), fun f hf => ?_⟩
        cases hf
        exact h #[]
      · intro h log
        exact h.2 e rfl

/-- What an action does with every log. -/
theorem returns_of_run {a : α} {s' : σ} (h : ∀ log, ∃ log', x s log = ((.ok a, s'), log')) :
    x.Returns s fun b t => b = a ∧ t = s' := by
  intro log
  obtain ⟨log', hlog⟩ := h log
  rw [hlog]
  exact ⟨rfl, rfl⟩

/-! ### Parts of a state -/

theorem within_of_run {get : τ → σ} {set : σ → τ → τ} {t : τ} {r : Except Failure α} {s' : σ}
    {log log' : Log} (h : x (get t) log = ((r, s'), log')) :
    x.within get set t log = ((r, set s' t), log') := by
  unfold within
  rw [h]

theorem attempt_of_run {r : Except Failure α} {s' : σ} {log log' : Log}
    (h : x s log = ((r, s'), log')) : x.attempt s log = ((.ok r, s'), log') := by
  unfold attempt
  rw [h]

theorem Ensures.within {get : τ → σ} {set : σ → τ → τ} {t : τ} {ok : α → τ → Prop}
    {failed : Failure → τ → Prop}
    (h : x.Ensures (get t) (fun a s' => ok a (set s' t)) fun e s' => failed e (set s' t)) :
    (within get set x).Ensures t ok failed := by
  intro log
  have hx := h log
  rcases hr : x (get t) log with ⟨⟨_ | a, s'⟩, log'⟩
  · rw [within_of_run hr]
    rw [hr] at hx
    exact hx
  · rw [within_of_run hr]
    rw [hr] at hx
    exact hx

/-- What an action gives on failing is the failure, and the state stays what it was then. -/
theorem Ensures.attempt {post : Except Failure α → σ → Prop}
    (h : x.Ensures s (fun a s' => post (.ok a) s') fun e s' => post (.error e) s') :
    x.attempt.Returns s post := by
  intro log
  have hx := h log
  rcases hr : x s log with ⟨⟨_ | a, s'⟩, log'⟩
  · rw [attempt_of_run hr]
    rw [hr] at hx
    exact hx
  · rw [attempt_of_run hr]
    rw [hr] at hx
    exact hx

theorem Returns.attempt_ok (h : x.Returns s ok) :
    x.attempt.Returns s fun r s' => ∃ a, r = .ok a ∧ ok a s' :=
  Ensures.attempt (h.mono (fun a _ ha => ⟨a, rfl, ha⟩) fun _ _ h => h.elim)

/-! ### Runs -/

/-- With every log, how an action ends is one of the ways that it may. -/
theorem Ensures.run_cases (h : x.Ensures s ok failed) (log : Log) :
    (∃ a s' log', x s log = ((.ok a, s'), log') ∧ ok a s') ∨
      ∃ e s' log', x s log = ((.error e, s'), log') ∧ failed e s' := by
  have hx := h log
  rcases hr : x s log with ⟨⟨e | a, s'⟩, log'⟩
  · rw [hr] at hx
    exact Or.inr ⟨e, s', log', rfl, hx⟩
  · rw [hr] at hx
    exact Or.inl ⟨a, s', log', rfl, hx⟩

/-- From `s` the action gives `a` and leaves `s'`, with some log before it. -/
def Gives (x : Action σ α) (s : σ) (a : α) (s' : σ) : Prop := ∃ log log', x s log = ((.ok a, s'), log')

/-- What an action returns is what it gives. -/
theorem Returns.gives (h : x.Returns s ok) : x.Returns s fun a s' => ok a s' ∧ x.Gives s a s' := by
  intro log
  rcases h.run_cases log with ⟨a, s', log', hrun, ha⟩ | ⟨_, _, _, _, hfalse⟩
  · rw [hrun]
    exact ⟨ha, log, log', hrun⟩
  · exact hfalse.elim

/-- What follows an action follows its attempt where that gives a value. -/
theorem bind_eq_attempt_bind (x : Action σ α) (f : α → Action σ β) :
    x >>= f = x.attempt >>= fun r => match r with
      | .ok a => f a
      | .error e => fail e := by
  funext s log
  rcases hr : x s log with ⟨⟨e | a, s'⟩, log'⟩
  · rw [bind_of_error hr, bind_of_ok (attempt_of_run hr)]
    rfl
  · rw [bind_of_ok hr, bind_of_ok (attempt_of_run hr)]

/-- An attempt at an action that only a computation after it makes fail. -/
theorem attempt_bind_ofExcept (hx : ∀ s, x.Returns s fun _ _ => True) (f : α → Except Failure β) :
    (x >>= fun a => ofExcept (f a)).attempt = x >>= fun a => pure (f a) := by
  funext s log
  rcases (hx s).run_cases log with ⟨a, s', log', hr, _⟩ | ⟨e, s', log', _, hfalse⟩
  · have hbind : (x >>= fun a => ofExcept (f a)) s log = ((f a, s'), log') := bind_of_ok hr
    rw [attempt_of_run hbind, bind_of_ok hr]
    rfl
  · exact hfalse.elim

/-- Giving another value is the same inside and outside of a part of a state. -/
theorem within_bind_pure (get : τ → σ) (set : σ → τ → τ) (f : α → β) :
    within get set (x >>= fun a => pure (f a)) = within get set x >>= fun a => pure (f a) := by
  funext t log
  rcases hr : x (get t) log with ⟨⟨e | a, s'⟩, log'⟩
  · have hbind : (x >>= fun a => pure (f a)) (get t) log = ((.error e, s'), log') := bind_of_error hr
    rw [within_of_run hbind, bind_of_error (within_of_run hr)]
  · have hbind : (x >>= fun a => pure (f a)) (get t) log = ((.ok (f a), s'), log') := bind_of_ok hr
    rw [within_of_run hbind, bind_of_ok (within_of_run hr)]
    rfl

/-! ### Exact outcomes -/

/-- From `s` the action ends with `r` and leaves `s'`, whatever stands in the log. -/
def Ends (x : Action σ α) (s : σ) (r : Except Failure α) (s' : σ) : Prop :=
  ∀ log, (x s log).1 = (r, s')

theorem ends_iff_run {r : Except Failure α} {s' : σ} :
    x.Ends s r s' ↔ ∀ log, ∃ log', x s log = ((r, s'), log') :=
  ⟨fun h log => ⟨(x s log).2, Prod.ext (h log) rfl⟩, fun h log => by
    obtain ⟨log', hlog⟩ := h log
    rw [hlog]⟩

section Ends

variable {r : Except Failure α} {s' : σ}

theorem Ends.outcome_eq (h : x.Ends s r s') : x.outcome s = r := congrArg Prod.fst (h #[])

theorem Ends.after_eq (h : x.Ends s r s') : x.after s = s' := congrArg Prod.snd (h #[])

/-- What an action ensures holds of how it ends. -/
theorem Ends.of_ensures (h : x.Ends s r s') (hx : x.Ensures s ok failed) :
    match r with
    | .ok a => ok a s'
    | .error e => failed e s' := by
  have hlog := hx #[]
  rw [h #[]] at hlog
  cases r with
  | ok a => exact hlog
  | error e => exact hlog

theorem Ends.ensures (h : x.Ends s r s') (hr : match r with
    | .ok a => ok a s'
    | .error e => failed e s') : x.Ensures s ok failed := by
  intro log
  rw [h log]
  cases r with
  | ok a => exact hr
  | error e => exact hr

theorem Ends.returns {a : α} (h : x.Ends s (.ok a) s') (hok : ok a s') : x.Returns s ok := by
  intro log
  rw [h log]
  exact hok

theorem Ends.bind_ok {f : α → Action σ β} {a : α} {r : Except Failure β} {s'' : σ}
    (hx : x.Ends s (.ok a) s') (hf : (f a).Ends s' r s'') : (x >>= f).Ends s r s'' := by
  intro log
  obtain ⟨log', hlog⟩ := ends_iff_run.mp hx log
  rw [bind_of_ok hlog]
  exact hf log'

theorem Ends.bind_error {f : α → Action σ β} {e : Failure} (hx : x.Ends s (.error e) s') :
    (x >>= f).Ends s (.error e) s' := by
  intro log
  obtain ⟨log', hlog⟩ := ends_iff_run.mp hx log
  rw [bind_of_error hlog]

theorem Ends.bind_ensures {f : α → Action σ β} {a : α} {ok : β → σ → Prop}
    (hx : x.Ends s (.ok a) s') (hf : (f a).Ensures s' ok failed) : (x >>= f).Ensures s ok failed := by
  intro log
  obtain ⟨log', hlog⟩ := ends_iff_run.mp hx log
  rw [bind_of_ok hlog]
  exact hf log'

/-- An action that gives one value in one state ends so. -/
theorem Returns.ends {a : α} (h : x.Returns s fun b t => b = a ∧ t = s') : x.Ends s (.ok a) s' := by
  intro log
  obtain ⟨_, _, log', hlog, rfl, rfl⟩ | ⟨_, _, _, _, hfalse⟩ := h.run_cases log
  · rw [hlog]
  · exact hfalse.elim

theorem ends_pure (a : α) : (pure a : Action σ α).Ends s (.ok a) s := fun _ => rfl

theorem ends_fail (e : Failure) : (fail e : Action σ α).Ends s (.error e) s := fun _ => rfl

theorem ends_look (get : σ → α) : (look get).Ends s (.ok (get s)) s := fun _ => rfl

theorem ends_change (f : σ → σ) : (change f).Ends s (.ok ()) (f s) := fun _ => rfl

theorem ends_log (level : LogLevel) (text : String) : (log level text : Action σ Unit).Ends s (.ok ()) s :=
  fun _ => rfl

theorem ends_step (f : σ → Except Failure α × σ) : (step f).Ends s (f s).1 (f s).2 := fun _ => rfl

theorem ends_ofExcept (r : Except Failure α) : (ofExcept r : Action σ α).Ends s r s := fun _ => rfl

theorem Ends.within {get : τ → σ} {set : σ → τ → τ} {t : τ} (h : x.Ends (get t) r s') :
    (within get set x).Ends t r (set s' t) := by
  intro log
  obtain ⟨log', hlog⟩ := ends_iff_run.mp h log
  rw [within_of_run hlog]

theorem Ends.attempt (h : x.Ends s r s') : x.attempt.Ends s (.ok r) s' := by
  intro log
  obtain ⟨log', hlog⟩ := ends_iff_run.mp h log
  rw [attempt_of_run hlog]

end Ends

/-- How the action ends from `s` does not hang on the log. -/
def Determined (x : Action σ α) (s : σ) : Prop := ∃ r s', x.Ends s r s'

theorem Determined.bind {f : α → Action σ β} (hx : x.Determined s) (hf : ∀ a s', (f a).Determined s') :
    (x >>= f).Determined s := by
  obtain ⟨r, s', hr⟩ := hx
  cases r with
  | error e => exact ⟨_, _, hr.bind_error⟩
  | ok a =>
      obtain ⟨r', s'', hr'⟩ := hf a s'
      exact ⟨r', s'', hr.bind_ok hr'⟩

/-! ### Invariants -/

/-- What holds of the state before the action holds afterwards too, however it ends, and `ok` of the value that it
gives. -/
def Preserves (p : σ → Prop) (x : Action σ α) (ok : α → Prop) : Prop :=
  ∀ s, p s → x.Ensures s (fun a s' => p s' ∧ ok a) fun _ s' => p s'

section Preserves

variable {p : σ → Prop} {ok : α → Prop}

theorem preserves_pure {a : α} (h : ok a) : Preserves p (pure a : Action σ α) ok :=
  fun _ hs => ensures_pure.mpr ⟨hs, h⟩

theorem preserves_fail (e : Failure) : Preserves p (fail e : Action σ α) ok := fun _ hs => ensures_fail.mpr hs

theorem preserves_ofExcept {r : Except Failure α} (h : ∀ a, r = .ok a → ok a) :
    Preserves p (ofExcept r : Action σ α) ok :=
  fun _ hs => ensures_ofExcept.mpr ⟨fun a ha => ⟨hs, h a ha⟩, fun _ _ => hs⟩

theorem Preserves.bind {f : α → Action σ β} {ok' : β → Prop} (hx : Preserves p x ok)
    (hf : ∀ a, ok a → Preserves p (f a) ok') : Preserves p (x >>= f) ok' :=
  fun s hs => (hx s hs).bind (fun a s' ⟨hs', ha⟩ => hf a ha s' hs') fun _ _ h => h

/-- An invariant of a part is one of the whole that keeps it. -/
theorem Preserves.within {get : τ → σ} {set : σ → τ → τ} {q : τ → Prop} (hx : Preserves p x ok)
    (hget : ∀ t, q t → p (get t)) (hset : ∀ t s, q t → p s → q (set s t)) :
    Preserves q (within get set x) ok := by
  intro t ht
  refine Ensures.within ((hx _ (hget t ht)).mono ?_ fun _ s hs => hset t s ht hs)
  exact fun a s ⟨hs, ha⟩ => ⟨hset t s ht hs, ha⟩

theorem Preserves.attempt (hx : Preserves p x ok) : Preserves p x.attempt fun _ => True :=
  fun s hs => (Ensures.attempt ((hx s hs).mono (fun _ _ h => ⟨h.1, trivial⟩) fun _ _ h => ⟨h, trivial⟩)).mono
    (fun _ _ h => h) fun _ _ h => h.elim

/-- Attempts in turn never fail and keep the invariant. -/
theorem Preserves.times_attempt (hx : Preserves p x ok) (n : Nat) (s : σ) (hs : p s) :
    (times n x.attempt).Returns s fun _ s' => p s' := by
  induction n generalizing s with
  | zero => exact ensures_pure.mpr hs
  | succ n ih =>
      have hattempt : x.attempt.Returns s fun _ s' => p s' :=
        Ensures.attempt ((hx s hs).mono (fun _ _ h => h.1) fun _ _ h => h)
      refine Ensures.bind hattempt (fun r s' hs' => ?_) fun _ _ h => h
      exact Ensures.bind (ih s' hs') (fun _ _ h => ensures_pure.mpr h) fun _ _ h => h

end Preserves

-- what an action ensures is to follow from the rules above, not from running it
attribute [irreducible] Ensures

end Action

end GeoWorkload
