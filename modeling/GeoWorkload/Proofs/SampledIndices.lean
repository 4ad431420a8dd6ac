import GeoWorkload.Proofs.ZipfianRanges

/-!
# Indices over a run of picks

A sampler is asked for indices again and again (`Sampler.picks`), each time for a population and a stored count.  A
uniform pick lies below its population and is refused exactly where that is not positive (`PickedBelow`).  The first
skewed pick makes the range from one to `rangeFor stored`, and the picks after it keep this range whatever has been
stored since: each of them lies from that number below its population to one below it, or as far below a whole window
further back (`PickedFrom`).

Both follow from what a single pick does to the sampler, of which nothing but the source changes once its range is made
(`Sampler.Now`).
-/

namespace GeoWorkload

/-! ### Draws from a range -/

/-- A finite number has a whole part. -/
theorem Binary64.exists_toInteger {x : Binary64} (h : x.isFinite = true) : ∃ r, x.toInteger = .ok r := by
  cases x with
  | finite negative m e canonical => exact ⟨_, rfl⟩
  | infinite negative => cases h
  | nan => cases h

namespace Zipfian

variable [Powers]

/-- The number draws an integer beyond the first two, so that the closed formula is used. -/
def IsFar (z : Zipfian) (u : Binary64) : Prop :=
  z.items ≠ 1 ∧ (u * z.zetaN).lt 1 = false ∧
    ∃ half, Binary64.half.power z.theta = .ok half ∧ (u * z.zetaN).lt (1 + half) = false

/-- If the closed formula is used, then what it converts to an integer is finite and not negative. -/
def IsTame (z : Zipfian) (u : Binary64) : Prop :=
  z.IsFar u → ∃ power, (z.eta * u - z.eta + 1).power z.alpha = .ok power ∧
    (Binary64.ofInt z.items * power).isFinite = true ∧ (Binary64.ofInt z.items * power).isNegative = false

variable {z : Zipfian} {s : RandomSource} {theta : Binary64} {upper : Int}

/-- One of several items is drawn. -/
theorem offsetOf_range (hmany : 1 < z.items) {half u : Binary64} (hhalf : Binary64.half.power z.theta = .ok half)
    (hu : z.IsTame u) : ∃ r, z.offsetOf u = .ok r ∧ 0 ≤ r ∧ r < z.items := by
  unfold offsetOf
  dsimp only
  by_cases hfirst : (u * z.zetaN).lt 1 = true
  · rw [if_pos hfirst]
    exact ⟨0, rfl, by omega, by omega⟩
  · rw [if_neg hfirst, hhalf, ok_bind]
    by_cases hsecond : (u * z.zetaN).lt (1 + half) = true
    · rw [if_pos hsecond]
      exact ⟨1, rfl, by omega, by omega⟩
    · rw [if_neg hsecond]
      rw [Bool.not_eq_true] at hfirst hsecond
      obtain ⟨power, hpower, hfinite, hsign⟩ := hu ⟨by omega, hfirst, half, hhalf, hsecond⟩
      obtain ⟨offset, hoffset⟩ := Binary64.exists_toInteger hfinite
      have h0 := Binary64.nonneg_of_toInteger hsign hoffset
      rw [hpower, ok_bind, hoffset, ok_bind]
      exact ⟨min offset (z.items - 1), rfl, by omega, by omega⟩

/-- What is drawn from a range lies in it. -/
theorem next_range (hpowers : Powers.Moderate) (htheta : (theta.isPositive && theta.lt 1) = true)
    (hupper : 1 ≤ upper) (hz : ofRange 1 upper theta = .ok z) (hu : z.IsTame s.unit.1) :
    ∃ r, (z.next s).1 = .ok r ∧ 1 ≤ r ∧ r ≤ upper := by
  obtain ⟨hbase, hitems⟩ := range_of_ofRange hz
  unfold next
  by_cases hsingle : z.items = 1
  · rw [if_pos hsingle, hbase]
    exact ⟨1, rfl, by omega, by omega⟩
  · obtain ⟨half, hhalf⟩ := exists_half_power hpowers htheta
    rw [← theta_of_ofRange hz] at hhalf
    obtain ⟨r, hr, h0, hlt⟩ := offsetOf_range (show 1 < z.items by omega) hhalf hu
    rw [if_neg hsingle, hbase]
    dsimp only
    rw [hr]
    exact ⟨1 + r, rfl, by omega, by omega⟩

end Zipfian

/-! ### Runs of picks -/

/-- How far back the indices of a distribution are: a whole window if the newest documents are picked. -/
def Distribution.back (w : Window) : Distribution → Int
  | uniform | zipfian => 0
  | latest => w.limitMax + w.offsetMax

namespace Sampler

/-- What a sampler picks in turn, each time for a population and a stored count. -/
def picks [Powers] : List (Int × Int) → Action Sampler (List (Except Failure Int))
  | [] => return []
  | (population, stored) :: calls => do
    let result ← (sample population stored).attempt
    return result :: (← picks calls)

/-- The sampler is the first one but for what has been drawn from its source. -/
structure Now (first s : Sampler) : Prop where
  distribution : s.distribution = first.distribution
  window : s.window = first.window
  theta : s.theta = first.theta
  zipfian : s.zipfian = first.zipfian
  leads : first.source.Leads s.source

theorem Now.withSource {first s : Sampler} (h : first.Now s) {source : RandomSource}
    (hs : s.source.Leads source) : first.Now { s with source } :=
  ⟨h.distribution, h.window, h.theta, h.zipfian, h.leads.trans hs⟩

theorem Now.refl (s : Sampler) : s.Now s := ⟨rfl, rfl, rfl, rfl, .refl⟩

theorem ends_picks_cons [Powers] {call : Int × Int} {calls : List (Int × Int)} {s s' s'' : Sampler}
    {result : Except Failure Int} {results : List (Except Failure Int)}
    (hresult : (sample call.1 call.2).Ends s result s') (hresults : (picks calls).Ends s' (.ok results) s'') :
    (picks (call :: calls)).Ends s (.ok (result :: results)) s'' :=
  hresult.attempt.bind_ok (hresults.bind_ok (Action.ends_pure _))

/-- What holds of each pick from any state of a run holds of all the picks of the run. -/
theorem ends_picks [Powers] {p : Sampler → Prop} {picked : Int × Int → Except Failure Int → Prop}
    (hstep : ∀ s, p s → ∀ call, ∃ result s', (sample call.1 call.2).Ends s result s' ∧ p s' ∧ picked call result)
    (calls : List (Int × Int)) {s : Sampler} (hs : p s) :
    ∃ results s', (picks calls).Ends s (.ok results) s' ∧ List.Forall₂ picked calls results := by
  induction calls generalizing s with
  | nil => exact ⟨[], s, Action.ends_pure [], .nil⟩
  | cons call calls ih =>
      obtain ⟨result, s', hresult, hs', hpicked⟩ := hstep s hs call
      obtain ⟨results, s'', hresults, hall⟩ := ih hs'
      exact ⟨result :: results, s'', ends_picks_cons hresult hresults, .cons hpicked hall⟩

section sample

variable {s s' : Sampler} {population stored : Int}

theorem ends_sample_of_uniform [Powers] (h : s.distribution = .uniform) {r : Except Failure Int}
    (hr : (uniform population).Ends s r s') : (sample population stored).Ends s r s' := by
  obtain ⟨distribution, window, theta, zipfian, source⟩ := s
  cases h
  exact (Action.ends_look id).bind_ok hr

/-- A skewed index is counted down from the population, and from a window further back for the newest documents. -/
theorem ends_sample_of_skewed [Powers] (h : s.distribution ≠ .uniform) {r : Except Failure Int}
    (hr : (skewed stored).Ends s r s') :
    (sample population stored).Ends s (r.map fun i => population - i - s.distribution.back s.window) s' := by
  refine (Action.ends_look id).bind_ok ?_
  obtain ⟨distribution, window, theta, zipfian, source⟩ := s
  cases distribution with
  | uniform => exact absurd rfl h
  | zipfian =>
      cases r with
      | error e => exact hr.bind_error
      | ok i =>
          refine hr.bind_ok ?_
          rw [Except.map, Distribution.back, Int.sub_zero]
          exact Action.ends_pure _
  | latest =>
      cases r with
      | error e => exact hr.bind_error
      | ok i => exact hr.bind_ok (Action.ends_pure _)

end sample

/-! ### Uniform picks -/

/-- A uniform pick lies below its population.  It is refused exactly where the population is not positive, and fails in
no other way, except that a script cannot draw below a bound that is too large. -/
structure PickedBelow (source : RandomSource) (population : Int) (result : Except Failure Int) : Prop where
  refused : result = .error (.populationNotPositive population) ↔ population ≤ 0
  range : ∀ index, result = .ok index → 0 ≤ index ∧ index < population
  fails : ∀ e, result = .error e → population ≤ 0 ∨
    ∃ n, e = .number n ∧ Binary64.ofInteger population = .error n ∧ ∀ t, source ≠ .twister t

theorem pickedBelow_refused (source : RandomSource) {population : Int} (h : population ≤ 0) :
    PickedBelow source population (.error (.populationNotPositive population)) :=
  ⟨iff_of_true rfl h, fun _ hindex => (by cases hindex), fun _ _ => Or.inl h⟩

theorem pickedBelow_below {origin source : RandomSource} (hproper : origin.Proper) (hsource : origin.Leads source)
    {population : Int} (h : 0 < population) :
    PickedBelow origin population ((source.below population).1.mapError .number) := by
  have hpositive : ¬ population ≤ 0 := Int.not_le.mpr h
  rcases (hproper.of_leads hsource).exists_below h with ⟨index, hindex, hrange⟩ | ⟨⟨n, hn, hlarge⟩, hscript⟩
  · rw [hindex]
    refine ⟨iff_of_false (fun h => (by cases h)) hpositive, fun r hr => ?_, fun _ h => (by cases h)⟩
    cases hr
    exact hrange
  · rw [hn]
    refine ⟨iff_of_false (fun h => (by cases h)) hpositive, fun _ h => (by cases h), fun e he => Or.inr ?_⟩
    cases he
    refine ⟨n, rfl, hlarge, ?_⟩
    rintro t rfl
    obtain ⟨t', ht'⟩ := RandomSource.exists_twister_of_leads hsource
    exact hscript t' ht'

theorem ends_sample_below [Powers] {first s : Sampler} (huniform : first.distribution = .uniform)
    (hproper : first.source.Proper) (hs : first.Now s) (population stored : Int) :
    ∃ result s', (sample population stored).Ends s result s' ∧ first.Now s' ∧
      PickedBelow first.source population result := by
  have hdistribution : s.distribution = .uniform := hs.distribution.trans huniform
  by_cases h : population ≤ 0
  · refine ⟨_, _, ends_sample_of_uniform hdistribution ?_, hs, pickedBelow_refused _ h⟩
    rw [uniform, if_pos h]
    exact Action.ends_fail _
  · refine ⟨_, _, ends_sample_of_uniform hdistribution ?_, hs.withSource (.index population .refl),
      pickedBelow_below hproper hs.leads (Int.not_le.mp h)⟩
    rw [uniform, if_neg h]
    exact ends_draw _ _

theorem ends_picks_below [Powers] (first : Sampler) (huniform : first.distribution = .uniform)
    (hproper : first.source.Proper) (calls : List (Int × Int)) :
    ∃ results s', (picks calls).Ends first (.ok results) s' ∧
      List.Forall₂ (fun call => PickedBelow first.source call.1) calls results :=
  ends_picks (fun _ hs call => ends_sample_below huniform hproper hs call.1 call.2) calls (Now.refl first)

/-! ### Skewed picks -/

section zipfianFor

variable {s : Sampler} {stored : Int}

variable [Powers]

theorem ends_zipfianFor_of_made {z : Zipfian} (hz : s.zipfian = some z) : (zipfianFor stored).Ends s (.ok z) s := by
  refine (Action.ends_look _).bind_ok ?_
  rw [hz]
  exact Action.ends_pure z

theorem ends_zipfianFor_of_fresh (hfresh : s.zipfian = none) {z : Zipfian}
    (hz : Zipfian.ofRange 1 (rangeFor stored) s.theta = .ok z) :
    (zipfianFor stored).Ends s (.ok z) { s with zipfian := some z } := by
  refine (Action.ends_look _).bind_ok ?_
  rw [hfresh]
  refine (Action.ends_look _).bind_ok ?_
  rw [hz]
  refine (Action.ends_ofExcept _).bind_ok ((Action.ends_change _).bind_ok ((Action.ends_log _ _).bind_ok ?_))
  exact Action.ends_pure z

theorem ends_zipfianFor_of_error (hfresh : s.zipfian = none) {e : Failure}
    (he : Zipfian.ofRange 1 (rangeFor stored) s.theta = .error e) : (zipfianFor stored).Ends s (.error e) s := by
  refine (Action.ends_look _).bind_ok ?_
  rw [hfresh]
  refine (Action.ends_look _).bind_ok ?_
  rw [he]
  exact (Action.ends_ofExcept _).bind_error

end zipfianFor

/-- What a skewed sampler picks for a call from the range from one to `upper`: an index that is as far below the
population as the integers of the range are, and a whole window further back for the newest documents. -/
def PickedFrom (s : Sampler) (upper : Int) (call : Int × Int) (result : Except Failure Int) : Prop :=
  ∃ index, result = .ok index ∧ call.1 - upper - s.distribution.back s.window ≤ index ∧
    index ≤ call.1 - 1 - s.distribution.back s.window

section skewed

variable [Powers] (hpowers : Powers.Moderate)
include hpowers

/-- A skewed pick is made from the range that the sampler then has. -/
theorem ends_sample_from {s s' : Sampler} (hskewed : s.distribution ≠ .uniform)
    (htheta : (s.theta.isPositive && s.theta.lt 1) = true) {upper : Int} (hupper : 1 ≤ upper) {z : Zipfian}
    (hz : Zipfian.ofRange 1 upper s.theta = .ok z) (htame : z.IsTame s.source.unit.1) (call : Int × Int)
    (hrange : (zipfianFor call.2).Ends s (.ok z) s') (hsource : s'.source = s.source) :
    ∃ result, (sample call.1 call.2).Ends s result { s' with source := (z.next s.source).2 } ∧
      s.PickedFrom upper call result := by
  have hpick : (skewed call.2).Ends s ((z.next s.source).1.mapError .number)
      { s' with source := (z.next s.source).2 } := by
    rw [← hsource]
    exact hrange.bind_ok (ends_draw _ _)
  refine ⟨_, ends_sample_of_skewed hskewed hpick, ?_⟩
  obtain ⟨r, hr, hlow, hhigh⟩ := Zipfian.next_range hpowers htheta hupper hz htame
  rw [hr]
  exact ⟨call.1 - r - s.distribution.back s.window, rfl, by omega, by omega⟩

/-- The picks of a skewed sampler whose range is made are all from that range. -/
theorem ends_picks_from (first : Sampler) (hskewed : first.distribution ≠ .uniform)
    (htheta : (first.theta.isPositive && first.theta.lt 1) = true) {upper : Int} (hupper : 1 ≤ upper) {z : Zipfian}
    (hz : Zipfian.ofRange 1 upper first.theta = .ok z) (hmade : first.zipfian = some z)
    (htame : ∀ source, first.source.Leads source → z.IsTame source.unit.1) (calls : List (Int × Int)) :
    ∃ results s', (picks calls).Ends first (.ok results) s' ∧
      List.Forall₂ (first.PickedFrom upper) calls results := by
  refine ends_picks (fun s hs call => ?_) calls (Now.refl first)
  have hdistribution := hs.distribution
  obtain ⟨result, hresult, hpicked⟩ := ends_sample_from hpowers (hdistribution ▸ hskewed) (hs.theta ▸ htheta) hupper
    (hs.theta ▸ hz) (htame _ hs.leads) call (ends_zipfianFor_of_made (hs.zipfian.trans hmade)) rfl
  unfold PickedFrom at hpicked ⊢
  rw [hdistribution, hs.window] at hpicked
  exact ⟨result, _, hresult, hs.withSource (RandomSource.leads_next .refl z), hpicked⟩

/-- The first pick of a fresh sampler makes the range, and the picks after it are from this range whatever their stored
counts are. -/
theorem ends_picks_of_fresh (fresh : Sampler) (hskewed : fresh.distribution ≠ .uniform)
    (htheta : (fresh.theta.isPositive && fresh.theta.lt 1) = true) (hfresh : fresh.zipfian = none)
    {first : Int × Int} {z : Zipfian} (hz : Zipfian.ofRange 1 (rangeFor first.2) fresh.theta = .ok z)
    (htame : ∀ source, fresh.source.Leads source → z.IsTame source.unit.1) (calls : List (Int × Int)) :
    ∃ results s', (picks (first :: calls)).Ends fresh (.ok results) s' ∧
      List.Forall₂ (fresh.PickedFrom (rangeFor first.2)) (first :: calls) results := by
  have hupper : 1 ≤ rangeFor first.2 := Int.le_max_left 1 _
  obtain ⟨result, hresult, hpicked⟩ := ends_sample_from hpowers hskewed htheta hupper hz (htame _ .refl) first
    (ends_zipfianFor_of_fresh hfresh hz) rfl
  have hleads : fresh.source.Leads (z.next fresh.source).2 := RandomSource.leads_next .refl z
  obtain ⟨results, s', hresults, hall⟩ :=
    ends_picks_from hpowers { fresh with zipfian := some z, source := (z.next fresh.source).2 } hskewed htheta hupper hz
      rfl (fun source hsource => htame source (hleads.trans hsource)) calls
  exact ⟨result :: results, s', ends_picks_cons hresult hresults, .cons hpicked hall⟩

end skewed

/-- Picks that go no window further back are not negative for populations that come to the size of the range. -/
theorem nonneg_of_pickedFrom {s : Sampler} (hback : s.distribution.back s.window = 0) {upper : Int}
    {calls : List (Int × Int)} {results : List (Except Failure Int)}
    (h : List.Forall₂ (s.PickedFrom upper) calls results) (hpopulation : ∀ call ∈ calls, upper ≤ call.1) :
    ∀ index, .ok index ∈ results → 0 ≤ index := by
  induction h with
  | nil => exact fun _ hmem => absurd hmem List.not_mem_nil
  | @cons call result calls results hpicked _ ih =>
      obtain ⟨hcall, hcalls⟩ := List.forall_mem_cons.mp hpopulation
      intro index hmem
      rcases List.mem_cons.mp hmem with rfl | hmem
      · obtain ⟨_, heq, hlow, _⟩ := hpicked
        cases heq
        omega
      · exact ih hcalls index hmem

/-! ### All picks -/

/-- Every pick of a run comes to a result. -/
theorem exists_ends_picks [Powers] (calls : List (Int × Int)) (s : Sampler) :
    ∃ results s', (picks calls).Ends s (.ok results) s' := by
  have hstep : ∀ s, True → ∀ call : Int × Int, ∃ result s', (sample call.1 call.2).Ends s result s' ∧ True ∧ True := by
    intro s _ call
    obtain ⟨result, s', hresult⟩ := sample_determined call.1 call.2 s
    exact ⟨result, s', hresult, trivial, trivial⟩
  obtain ⟨results, s', hresults, _⟩ := ends_picks hstep calls (s := s) trivial
  exact ⟨results, s', hresults⟩

/-- In every run of picks from a fresh sampler, a uniform pick lies below its population and is refused exactly where
that is not positive.  The first skewed pick fixes the range for the whole run: where `m` is one less than the stored
count of that pick, but at least one, each pick lies from `m` below its population to one below it, a whole window
further back for the newest documents.  So no pick of the zipfian distribution is negative as long as all populations
come to `m`.  A first pick whose `m` lies beyond the greatest binary64 number is refused, and the picks after it are those
of a fresh sampler. -/
theorem picks_range [Powers] (distribution : Distribution) {theta : Binary64}
    (htheta : (theta.isPositive && theta.lt 1) = true) {source : RandomSource} (hsource : source.Proper)
    (limit limit' offset offset' : Int) (first : Int × Int) (calls : List (Int × Int)) :
    ∃ results, (picks (first :: calls)).outcome
        (make distribution (.ofBounds limit limit' offset offset') theta source) = .ok results ∧
      (distribution = .uniform →
        List.Forall₂ (fun call => PickedBelow source call.1) (first :: calls) results) ∧
      (distribution ≠ .uniform → Powers.Moderate →
        (∀ x, Binary64.ofInteger (rangeFor first.2) = .ok x →
          (∀ z, Zipfian.ofRange 1 (rangeFor first.2) theta = .ok z → ∀ s, source.Leads s → z.IsTame s.unit.1) →
          List.Forall₂ ((make distribution (.ofBounds limit limit' offset offset') theta source).PickedFrom
            (rangeFor first.2)) (first :: calls) results ∧
          (distribution = .zipfian → (∀ call ∈ first :: calls, rangeFor first.2 ≤ call.1) →
            ∀ index, .ok index ∈ results → 0 ≤ index)) ∧
        ∀ e, Binary64.ofInteger (rangeFor first.2) = .error e →
          ∃ later, results = .error (.number e) :: later ∧ (picks calls).outcome
            (make distribution (.ofBounds limit limit' offset offset') theta source) = .ok later) := by
  obtain ⟨results, s', hresults⟩ := exists_ends_picks (first :: calls)
    (make distribution (.ofBounds limit limit' offset offset') theta source)
  have hupper : 1 ≤ rangeFor first.2 := Int.le_max_left 1 _
  refine ⟨results, hresults.outcome_eq, fun huniform => ?_,
    fun hskewed hpowers => ⟨fun x hx htame => ?_, fun e he => ?_⟩⟩
  · obtain ⟨results', _, hresults', hall⟩ := ends_picks_below
      (make distribution (.ofBounds limit limit' offset offset') theta source) huniform hsource (first :: calls)
    cases hresults.outcome_eq.symm.trans hresults'.outcome_eq
    exact hall
  · obtain ⟨z, hz⟩ := Zipfian.ofRange_of_ofInteger hpowers htheta hupper hx
    obtain ⟨results', _, hresults', hall⟩ := ends_picks_of_fresh hpowers
      (make distribution (.ofBounds limit limit' offset offset') theta source) hskewed htheta rfl hz (htame z hz) calls
    cases hresults.outcome_eq.symm.trans hresults'.outcome_eq
    refine ⟨hall, ?_⟩
    rintro rfl hpopulation
    exact nonneg_of_pickedFrom rfl hall hpopulation
  · have hrange := Zipfian.ofRange_of_ofInteger_error hpowers htheta hupper he
    have hfirst : (sample first.1 first.2).Ends
        (make distribution (.ofBounds limit limit' offset offset') theta source) (.error (.number e))
        (make distribution (.ofBounds limit limit' offset offset') theta source) :=
      ends_sample_of_skewed hskewed (ends_zipfianFor_of_error rfl hrange).bind_error
    obtain ⟨later, _, hlater⟩ := exists_ends_picks calls
      (make distribution (.ofBounds limit limit' offset offset') theta source)
    cases hresults.outcome_eq.symm.trans (ends_picks_cons hfirst hlater).outcome_eq
    exact ⟨later, rfl, hlater.outcome_eq⟩

/-! ### Four items -/

/-- Powers for a range of four items and the default exponent: those of its items and constants and of the draws of
`fourBranches`, each the number nearest to the exact power. -/
def fourItemPowers : List ((Binary64 × Binary64) × Binary64) :=
  let alpha := Binary64.ofDyadic false 3518437208883197 (-45)
  [((2, defaultTheta), .ofDyadic false 4472490992394671 (-51)),
    ((3, defaultTheta), .ofDyadic false 6681589974947449 (-51)),
    ((4, defaultTheta), .ofDyadic false 4441597240456889 (-50)),
    ((.half, defaultTheta), .ofDyadic false 1133731160003523 (-51)),
    ((.half, 1 - defaultTheta), .ofDyadic false 4472490992394671 (-52)),
    ((.ofDyadic false 4407074962047353 (-52), alpha), .ofDyadic false 8255551177843355 (-56)),
    ((.ofDyadic false 8924463827321155 (-53), alpha), .ofDyadic false 1789765430151613 (-52)),
    ((.ofDyadic false 8952042303127767 (-53), alpha), .ofDyadic false 1218331124940111 (-51)),
    ((.ofDyadic false 4496705008418843 (-52), alpha), .ofDyadic false 7727733228437527 (-53))]

theorem moderate_fourItemPowers : (Powers.listed fourItemPowers).Moderate :=
  Powers.moderate_listed (by decide +kernel)

/-- The draws 1/8 and 5/8, which pick the first and the second of four items, and 3/4 and 15/16, which pick the others by
the closed formula. -/
def fourBranches : List Binary64 :=
  [.ofDyadic false 1 (-3), .ofDyadic false 5 (-3), .ofDyadic false 3 (-2), .ofDyadic false 15 (-4)]

theorem proper_fourBranches : (RandomSource.ofDraws fourBranches).Proper := by
  refine RandomSource.proper_ofDraws (by decide) ?_
  unfold fourBranches
  simp only [List.forall_mem_cons, List.not_mem_nil, false_implies, implies_true, and_true]
  refine ⟨⟨?_, ?_⟩, ⟨?_, ?_⟩, ⟨?_, ?_⟩, ⟨?_, ?_⟩⟩ <;> decide +kernel

/-- The range of four items for the default exponent. -/
theorem ofRange_fourItems : letI := Powers.listed fourItemPowers
    Zipfian.ofRange 1 4 defaultTheta = .ok {
      base := 1, items := 4, theta := defaultTheta
      zetaN := .ofDyadic false 4715230999785247 (-51), zetaTwo := .ofDyadic false 3385530973688771 (-51)
      alpha := .ofDyadic false 3518437208883197 (-45), eta := .ofDyadic false 7060089806492747 (-58) } := by
  decide +kernel

/-- What the closed formula converts to an integer for each of the draws is finite and not negative. -/
theorem exists_power_fourItems : letI := Powers.listed fourItemPowers
    ∀ z, Zipfian.ofRange 1 4 defaultTheta = .ok z → ∀ s, (RandomSource.ofDraws fourBranches).Leads s →
      ∃ power, (z.eta * s.unit.1 - z.eta + 1).power z.alpha = .ok power ∧
        (Binary64.ofInt z.items * power).isFinite = true ∧ (Binary64.ofInt z.items * power).isNegative = false := by
  intro z hz s hs
  cases ofRange_fourItems.symm.trans hz
  have hmem := RandomSource.unit_mem_of_leads (by decide) hs
  generalize s.unit.1 = u at hmem
  unfold fourBranches at hmem
  simp only [List.mem_cons, List.not_mem_nil, or_false] at hmem
  rcases hmem with rfl | rfl | rfl | rfl
  · exact ⟨.ofDyadic false 8255551177843355 (-56), by decide +kernel, by decide +kernel, by decide +kernel⟩
  · exact ⟨.ofDyadic false 1789765430151613 (-52), by decide +kernel, by decide +kernel, by decide +kernel⟩
  · exact ⟨.ofDyadic false 1218331124940111 (-51), by decide +kernel, by decide +kernel, by decide +kernel⟩
  · exact ⟨.ofDyadic false 7727733228437527 (-53), by decide +kernel, by decide +kernel, by decide +kernel⟩

/-- Four picks of the newest documents, one for each item, the later ones with other stored counts; and two uniform
picks, the second one refused. -/
theorem picks_range_fourItems :
    letI := Powers.listed fourItemPowers
    let calls : List (Int × Int) := [(10, 5), (20, 0), (30, 100), (3, 7)]
    let others : List (Int × Int) := [(8, 0), (0, 3)]
    let newest := make .latest (.ofBounds 10 1 5 2) defaultTheta (.ofDraws fourBranches)
    let uniform := make .uniform (.ofBounds 10 1 5 2) defaultTheta (.ofDraws fourBranches)
    ((defaultTheta.isPositive && defaultTheta.lt 1) = true ∧ (RandomSource.ofDraws fourBranches).Proper ∧
      Powers.Moderate ∧ (∃ x, Binary64.ofInteger (rangeFor 5) = .ok x) ∧
      ∀ z, Zipfian.ofRange 1 (rangeFor 5) defaultTheta = .ok z → ∀ s, (RandomSource.ofDraws fourBranches).Leads s →
        z.IsTame s.unit.1) ∧
      ((picks calls).outcome newest = .ok [.ok (-6), .ok 3, .ok 12, .ok (-16)] ∧
        List.Forall₂ (newest.PickedFrom 4) calls [.ok (-6), .ok 3, .ok 12, .ok (-16)]) ∧
      (picks others).outcome uniform = .ok [.ok 1, .error (.populationNotPositive 0)] ∧
        List.Forall₂ (fun call => PickedBelow (.ofDraws fourBranches) call.1) others
          [.ok 1, .error (.populationNotPositive 0)] := by
  intro calls others newest uniform
  have hfits : Binary64.ofInteger (rangeFor 5) = .ok (Binary64.ofInt 4) := by decide +kernel
  have htame : ∀ z, @Zipfian.ofRange (Powers.listed fourItemPowers) 1 (rangeFor 5) defaultTheta = .ok z →
      ∀ s, (RandomSource.ofDraws fourBranches).Leads s → @Zipfian.IsTame (Powers.listed fourItemPowers) z s.unit.1 :=
    fun z hz s hs _ => exists_power_fourItems z hz s hs
  refine ⟨⟨defaultTheta_inRange, proper_fourBranches, moderate_fourItemPowers, ⟨_, hfits⟩, htame⟩, ?_, ?_⟩
  · have hrun : (@picks (Powers.listed fourItemPowers) calls).outcome newest =
        .ok [.ok (-6), .ok 3, .ok 12, .ok (-16)] := by decide +kernel
    refine ⟨hrun, ?_⟩
    obtain ⟨results, hresults, _, hskewed⟩ := @picks_range (Powers.listed fourItemPowers) .latest _
      defaultTheta_inRange _ proper_fourBranches 10 1 5 2 (10, 5) [(20, 0), (30, 100), (3, 7)]
    cases hrun.symm.trans hresults
    exact ((hskewed (by decide) moderate_fourItemPowers).1 _ hfits htame).1
  · have hrun : (@picks (Powers.listed fourItemPowers) others).outcome uniform =
        .ok [.ok 1, .error (.populationNotPositive 0)] := by decide +kernel
    refine ⟨hrun, ?_⟩
    obtain ⟨results, hresults, hbelow, _⟩ := @picks_range (Powers.listed fourItemPowers) .uniform _
      defaultTheta_inRange _ proper_fourBranches 10 1 5 2 (8, 0) [(0, 3)]
    cases hrun.symm.trans hresults
    exact hbelow rfl

end Sampler

end GeoWorkload
