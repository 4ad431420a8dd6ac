import GeoWorkload.Geometry
import GeoWorkload.Proofs.Outcomes
import GeoWorkload.Settings

/-!
# Fair draws

A source is fair up to a bound if it draws below every population up to that bound, whatever was drawn from
it before (`RandomSource.Fair`).  A twister is fair without a bound (`RandomSource.fair_twister`).  Picking an
index takes draws from the source and no more: the source stays fair and the exponent what it is, and a
uniform pick from a population within the bound lies below it (`Sampler.uniform_ensures`,
`Sampler.sample_ensures`).  How a pick ends does not hang on the log (`Sampler.sample_determined`).
-/

namespace GeoWorkload

/-! ### Twisters -/

/-- However many tries there are, the natural lies below the bound. -/
theorem Twister.firstBelow_lt {n : Nat} (hn : 0 < n) (k tries : Nat) (t : Twister) :
    (firstBelow n k tries t).1 < n := by
  induction tries generalizing t with
  | zero => exact Nat.mod_lt _ hn
  | succ tries ih =>
      unfold firstBelow
      dsimp only
      split
      · assumption
      · exact ih _

theorem Twister.below_lt {n : Nat} (hn : 0 < n) (t : Twister) : (t.below n).1 < n := by
  unfold below
  exact firstBelow_lt hn _ _ t

namespace RandomSource

/-! ### Fair sources -/

/-- The second source is what draws leave of the first one. -/
inductive Leads (s : RandomSource) : RandomSource → Prop where
  | refl : Leads s s
  | number {s' : RandomSource} (h : Leads s s') : Leads s s'.unit.2
  | index {s' : RandomSource} (n : Int) (h : Leads s s') : Leads s (s'.below n).2

theorem Leads.trans {s s' s'' : RandomSource} (h : s.Leads s') (h' : s'.Leads s'') : s.Leads s'' := by
  induction h' with
  | refl => exact h
  | number _ ih => exact ih.number
  | index n _ ih => exact ih.index n

/-- Whatever was drawn before, a draw below a population of at most `bound` lies in it. -/
def Fair (bound : Int) (s : RandomSource) : Prop :=
  ∀ s', s.Leads s' → ∀ n, 0 < n → n ≤ bound → ∃ r, (s'.below n).1 = .ok r ∧ 0 ≤ r ∧ r < n

namespace Fair

variable {bound : Int} {s : RandomSource}

theorem of_leads (h : s.Fair bound) {s' : RandomSource} (hs : s.Leads s') : s'.Fair bound :=
  fun _ hs' => h _ (hs.trans hs')

theorem unit (h : s.Fair bound) : s.unit.2.Fair bound := h.of_leads (.number .refl)

theorem below (h : s.Fair bound) (n : Int) : (s.below n).2.Fair bound := h.of_leads (.index n .refl)

end Fair

/-- Being fair up to no population says nothing. -/
theorem fair_zero (s : RandomSource) : s.Fair 0 := fun _ _ _ hn hle => absurd hn (Int.not_lt.mpr hle)

-- the two draws of a twister as equations, since unfolding one where it is used would go through its tries
theorem unit_twister (t : Twister) : (twister t).unit = (t.unit.1, .twister t.unit.2) := rfl

theorem below_twister (t : Twister) (n : Int) :
    (twister t).below n = (.ok ((t.below n.toNat).1 : Int), .twister (t.below n.toNat).2) := rfl

theorem exists_twister_of_leads {t : Twister} {s : RandomSource} (h : Leads (.twister t) s) :
    ∃ t', s = .twister t' := by
  induction h with
  | refl => exact ⟨t, rfl⟩
  | number _ ih =>
      obtain ⟨t', rfl⟩ := ih
      rw [unit_twister]
      exact ⟨t'.unit.2, rfl⟩
  | index n _ ih =>
      obtain ⟨t', rfl⟩ := ih
      rw [below_twister]
      exact ⟨(t'.below n.toNat).2, rfl⟩

/-- A twister is fair, whatever the bound. -/
theorem fair_twister (bound : Int) (t : Twister) : (twister t).Fair bound := by
  intro s' hs n hn _
  obtain ⟨t', rfl⟩ := exists_twister_of_leads hs
  have hlt := Twister.below_lt (show 0 < n.toNat by omega) t'
  rw [below_twister]
  exact ⟨(t'.below n.toNat).1, rfl, Int.natCast_nonneg _, Int.lt_toNat.mp hlt⟩

theorem fair_ofSeed (bound seed : Int) : (ofSeed seed).Fair bound := fair_twister bound _

end RandomSource

/-! ### Shapes -/

theorem Coordinate.fair_jitter {bound : Int} {s : RandomSource} (h : s.Fair bound) :
    (jitter s).2.Fair bound :=
  h.unit.unit

namespace Shape

/-- Drawing the shape leaves a fair source fair. -/
def DrawsFairly (synth : RandomSource → Shape × RandomSource) : Prop :=
  ∀ bound (s : RandomSource), s.Fair bound → (synth s).2.Fair bound

theorem drawsFairly_synthPoint : DrawsFairly synthPoint := fun _ _ h => Coordinate.fair_jitter h

theorem drawsFairly_synthLines : DrawsFairly synthLines := fun _ _ h =>
  Coordinate.fair_jitter (Coordinate.fair_jitter (Coordinate.fair_jitter (Coordinate.fair_jitter h)))

theorem drawsFairly_synthPolygon : DrawsFairly synthPolygon := fun _ _ h =>
  Coordinate.fair_jitter (Coordinate.fair_jitter h).unit

end Shape

/-! ### Samplers -/

theorem defaultTheta_inRange : (defaultTheta.isPositive && defaultTheta.lt 1) = true := by
  decide +kernel

/-- A range from one to a positive integer can be made unless arithmetic on numbers fails. -/
theorem Zipfian.number_of_ofRange [Powers] {theta : Binary64} (htheta : (theta.isPositive && theta.lt 1) = true)
    {greatest : Int} (h : 1 ≤ greatest) {e : Failure} (he : ofRange 1 greatest theta = .error e) :
    ∃ n, e = .number n := by
  unfold ofRange at he
  rw [if_neg (by omega), htheta] at he
  obtain ⟨n, _, hn⟩ := exists_of_mapError he
  exact ⟨n, hn⟩

section ofRange

variable [Powers] {least greatest : Int} {theta : Binary64} {z : Zipfian}
  (h : Zipfian.ofRange least greatest theta = .ok z)
include h

theorem Zipfian.exists_of_ofRange : ∃ zetaN zetaTwo alpha eta,
    z = ⟨least, (greatest - least + 1).toNat, theta, zetaN, zetaTwo, alpha, eta⟩ := by
  unfold ofRange at h
  split at h
  · cases h
  · split at h
    · cases h
    · obtain ⟨zetaN, _, h⟩ := exists_of_bind_eq_ok (of_mapError_eq_ok h)
      obtain ⟨zetaTwo, _, h⟩ := exists_of_bind_eq_ok h
      obtain ⟨alpha, _, h⟩ := exists_of_bind_eq_ok h
      obtain ⟨eta, _, h⟩ := exists_of_bind_eq_ok h
      cases h
      exact ⟨zetaN, zetaTwo, alpha, eta, rfl⟩

/-- The integers that are drawn from are those of the range. -/
theorem Zipfian.range_of_ofRange : z.base = least ∧ z.items = (greatest - least + 1).toNat := by
  obtain ⟨zetaN, zetaTwo, alpha, eta, rfl⟩ := exists_of_ofRange h
  exact ⟨rfl, rfl⟩

theorem Zipfian.theta_of_ofRange : z.theta = theta := by
  obtain ⟨zetaN, zetaTwo, alpha, eta, rfl⟩ := exists_of_ofRange h
  rfl

end ofRange

theorem RandomSource.leads_next [Powers] {origin s : RandomSource} (h : origin.Leads s) (z : Zipfian) :
    origin.Leads (z.next s).2 := by
  unfold Zipfian.next
  split
  · exact h
  · exact h.number

theorem Zipfian.next_fair [Powers] {bound : Int} {s : RandomSource} (h : s.Fair bound) (z : Zipfian) :
    (z.next s).2.Fair bound :=
  h.of_leads (RandomSource.leads_next .refl z)

namespace Sampler

/-- The sampler picks indices as the settings want it, from a source that is fair up to a bound. -/
structure Sound (settings : Settings) (bound : Int) (s : Sampler) : Prop where
  distribution : s.distribution = settings.distribution
  window : s.window = settings.window
  theta : s.theta = defaultTheta
  fair : s.source.Fair bound

variable {settings : Settings} {bound : Int} {s : Sampler}

theorem sound_make {source : RandomSource} (h : source.Fair bound) :
    (make settings.distribution settings.window defaultTheta source).Sound settings bound :=
  ⟨rfl, rfl, rfl, h⟩

theorem Sound.withSource (h : s.Sound settings bound) {source : RandomSource} (hs : source.Fair bound) :
    Sound settings bound { s with source } :=
  ⟨h.distribution, h.window, h.theta, hs⟩

theorem ends_draw {α : Type} (f : RandomSource → Except NumberError α × RandomSource) (s : Sampler) :
    (draw f).Ends s ((f s.source).1.mapError .number) { s with source := (f s.source).2 } := fun _ => rfl

theorem draw_determined {α : Type} (f : RandomSource → Except NumberError α × RandomSource) (s : Sampler) :
    (draw f).Determined s := ⟨_, _, ends_draw f s⟩

/-- A draw gives what the source gives, and only numbers can make it fail. -/
theorem draw_ensures {α : Type} {f : RandomSource → Except NumberError α × RandomSource}
    (h : s.Sound settings bound) (hf : (f s.source).2.Fair bound) : (draw f).Ensures s
      (fun a s' => s'.Sound settings bound ∧ (f s.source).1 = .ok a)
      fun e s' => s'.Sound settings bound ∧ ∃ n, (f s.source).1 = .error n ∧ e = .number n := by
  unfold draw
  refine Action.ensures_step.mpr ?_
  dsimp only
  generalize f s.source = r at hf ⊢
  obtain ⟨_ | a, source⟩ := r
  · exact ⟨h.withSource hf, _, rfl, rfl⟩
  · exact ⟨h.withSource hf, rfl⟩

/-- A uniform pick from a population within the bound lies below it.  Picking fails where the population is
empty, and beyond the bound numbers may make it fail. -/
theorem uniform_ensures (h : s.Sound settings bound) (population : Int) : (uniform population).Ensures s
    (fun r s' => s'.Sound settings bound ∧ (population ≤ bound → 0 ≤ r ∧ r < population))
    fun e s' => s'.Sound settings bound ∧ (population ≤ 0 ∧ e = .populationNotPositive population ∨
      bound < population ∧ ∃ n, e = .number n) := by
  unfold uniform
  split
  · rename_i hempty
    exact Action.ensures_fail.mpr ⟨h, Or.inl ⟨hempty, rfl⟩⟩
  · rename_i hpositive
    have hrange : population ≤ bound →
        ∃ r, (s.source.below population).1 = .ok r ∧ 0 ≤ r ∧ r < population :=
      h.fair _ .refl population (by omega)
    refine (draw_ensures h (h.fair.below population)).mono ?_ ?_
    · rintro r s' ⟨hs', hr⟩
      refine ⟨hs', fun hle => ?_⟩
      obtain ⟨r', hr', hin⟩ := hrange hle
      rw [hr] at hr'
      cases hr'
      exact hin
    · rintro e s' ⟨hs', n, hn, rfl⟩
      refine ⟨hs', Or.inr ⟨Int.not_le.mp fun hle => ?_, n, rfl⟩⟩
      obtain ⟨r, hr, _⟩ := hrange hle
      rw [hn] at hr
      cases hr

variable [Powers]

theorem zipfianFor_ensures (h : s.Sound settings bound) (stored : Int) : (zipfianFor stored).Ensures s
    (fun _ s' => s'.Sound settings bound) fun e s' => s'.Sound settings bound ∧ ∃ n, e = .number n := by
  unfold zipfianFor
  refine Action.ensures_look_bind ?_
  split
  · exact Action.ensures_pure.mpr h
  · refine Action.ensures_look_bind ?_
    have hrange : (Action.ofExcept (Zipfian.ofRange 1 (rangeFor stored) s.theta)
        : Action Sampler Zipfian).Ensures s (fun _ s' => s' = s)
        fun e s' => s' = s ∧ ∃ n, e = .number n := by
      refine Action.ensures_ofExcept.mpr ⟨fun _ _ => rfl, fun e he => ⟨rfl, ?_⟩⟩
      rw [h.theta] at he
      exact Zipfian.number_of_ofRange defaultTheta_inRange (by unfold rangeFor; omega) he
    refine hrange.bind ?_ ?_
    · rintro z s rfl
      refine Action.ensures_change_bind (Action.ensures_log_bind (Action.ensures_pure.mpr ?_))
      exact ⟨h.distribution, h.window, h.theta, h.fair⟩
    · rintro e _ ⟨rfl, hn⟩
      exact ⟨h, hn⟩

theorem skewed_ensures (h : s.Sound settings bound) (stored : Int) : (skewed stored).Ensures s
    (fun _ s' => s'.Sound settings bound) fun e s' => s'.Sound settings bound ∧ ∃ n, e = .number n := by
  unfold skewed
  refine (zipfianFor_ensures h stored).bind ?_ fun _ _ h => h
  intro z s' hs'
  refine (draw_ensures hs' (Zipfian.next_fair hs'.fair z)).mono (fun _ _ h => h.1) ?_
  rintro e s'' ⟨hs'', n, _, hn⟩
  exact ⟨hs'', n, hn⟩

/-- A uniform pick from a population within the bound gives an index below it.  Picking fails where the pick
is uniform and the population empty, or where numbers make it fail, which within the bound they do only if the
pick is skewed. -/
theorem sample_ensures (h : s.Sound settings bound) (population stored : Int) :
    (sample population stored).Ensures s
      (fun r s' => s'.Sound settings bound ∧
        (settings.distribution = .uniform → population ≤ bound → 0 ≤ r ∧ r < population))
      fun e s' => s'.Sound settings bound ∧ (population ≤ 0 ∧ e = .populationNotPositive population ∨
        (settings.distribution = .uniform → bound < population) ∧ ∃ n, e = .number n) := by
  have hskewed : ∀ {f : Int → Int}, settings.distribution ≠ .uniform →
      (do return f (← skewed stored) : Action Sampler Int).Ensures s
        (fun r s' => s'.Sound settings bound ∧
          (settings.distribution = .uniform → population ≤ bound → 0 ≤ r ∧ r < population))
        fun e s' => s'.Sound settings bound ∧ (population ≤ 0 ∧ e = .populationNotPositive population ∨
          (settings.distribution = .uniform → bound < population) ∧ ∃ n, e = .number n) := by
    intro f hne
    refine (skewed_ensures h stored).bind ?_ ?_
    · exact fun _ s' hs' => Action.ensures_pure.mpr ⟨hs', fun e => absurd e hne⟩
    · exact fun _ s' ⟨hs', hn⟩ => ⟨hs', Or.inr ⟨fun e => absurd e hne, hn⟩⟩
  unfold sample
  refine Action.ensures_look_bind ?_
  dsimp only [id]
  rw [h.distribution]
  split
  · refine (uniform_ensures h population).mono (fun r s' ⟨hs', hr⟩ => ⟨hs', fun _ => hr⟩) ?_
    exact fun e s' ⟨hs', he⟩ => ⟨hs', he.imp_right fun ⟨hbound, hn⟩ => ⟨fun _ => hbound, hn⟩⟩
  · rename_i heq
    exact hskewed (by rw [heq]; decide)
  · rename_i heq
    exact hskewed (by rw [heq]; decide)

theorem zipfianFor_determined (stored : Int) (s : Sampler) : (zipfianFor stored).Determined s := by
  unfold zipfianFor
  refine Action.Determined.bind ⟨_, _, Action.ends_look _⟩ fun found s₁ => ?_
  split
  · exact ⟨_, _, Action.ends_pure _⟩
  · refine Action.Determined.bind ⟨_, _, Action.ends_look _⟩ fun theta s₂ => ?_
    refine Action.Determined.bind ⟨_, _, Action.ends_ofExcept _⟩ fun z s₃ => ?_
    refine Action.Determined.bind ⟨_, _, Action.ends_change _⟩ fun _ s₄ => ?_
    exact Action.Determined.bind ⟨_, _, Action.ends_log _ _⟩ fun _ _ => ⟨_, _, Action.ends_pure _⟩

/-- How picking an index ends does not hang on the log. -/
theorem sample_determined (population stored : Int) (s : Sampler) :
    (sample population stored).Determined s := by
  have hskewed : ∀ s, (skewed stored).Determined s := fun s =>
    (zipfianFor_determined stored s).bind fun z s' => draw_determined z.next s'
  unfold sample
  refine Action.Determined.bind ⟨_, _, Action.ends_look _⟩ fun s₁ s₂ => ?_
  split
  · unfold uniform
    split
    · exact ⟨_, _, Action.ends_fail _⟩
    · exact draw_determined _ _
  · exact (hskewed s₂).bind fun _ _ => ⟨_, _, Action.ends_pure _⟩
  · exact (hskewed s₂).bind fun _ _ => ⟨_, _, Action.ends_pure _⟩

/-- A fresh sampler of the latest documents has a single integer to draw, and so a single index to pick, as long
as there are no more than two documents. -/
theorem latest_of_fresh (window : Window) (source : RandomSource) (population : Int) {stored : Int}
    (h : stored ≤ 2) : (sample population stored).Ensures (make .latest window defaultTheta source)
      (fun index _ => index = population - 1 - (window.limitMax + window.offsetMax))
      fun e _ => ∃ n, e = .number n := by
  have hupper : rangeFor stored = 1 := by
    unfold rangeFor
    omega
  have hrange : (Action.ofExcept (Zipfian.ofRange 1 1 defaultTheta) : Action Sampler Zipfian).Ensures
      (make .latest window defaultTheta source) (fun z _ => z.base = 1 ∧ z.items = 1)
      fun e _ => ∃ n, e = .number n :=
    Action.ensures_ofExcept.mpr ⟨fun z hz => Zipfian.range_of_ofRange hz,
      fun e he => Zipfian.number_of_ofRange defaultTheta_inRange (Int.le_refl 1) he⟩
  have hzipfian : (zipfianFor stored).Ensures (make .latest window defaultTheta source)
      (fun z _ => z.base = 1 ∧ z.items = 1) fun e _ => ∃ n, e = .number n := by
    unfold zipfianFor
    rw [hupper]
    refine Action.ensures_look_bind (Action.ensures_look_bind ?_)
    refine hrange.bind ?_ fun _ _ h => h
    exact fun z _ hz => Action.ensures_change_bind (Action.ensures_log_bind (Action.ensures_pure.mpr hz))
  have hskewed : (skewed stored).Ensures (make .latest window defaultTheta source)
      (fun r _ => r = 1) fun e _ => ∃ n, e = .number n := by
    unfold skewed
    refine hzipfian.bind ?_ fun _ _ h => h
    rintro z s ⟨hbase, hitems⟩
    unfold draw Zipfian.next
    refine Action.ensures_step.mpr ?_
    rw [if_pos hitems, hbase]
    rfl
  unfold sample
  refine Action.ensures_look_bind (hskewed.bind ?_ fun _ _ h => h)
  rintro _ s rfl
  exact Action.ensures_pure.mpr rfl

end Sampler

end GeoWorkload
