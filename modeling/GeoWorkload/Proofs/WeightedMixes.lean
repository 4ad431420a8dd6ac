import GeoWorkload.Proofs.Draws
import GeoWorkload.Proofs.Rounding
import GeoWorkload.Proofs.SingleMix
import GeoWorkload.Proofs.WorkerAccounts
import GeoWorkload.Settings.Properties

/-!
# Mixes of settings

The settings that properties give hold the operations of a positive proportion, each with its proportion
(`Property.mem_proportions`), so that a mix can be made of them as soon as there is one.  The mix adds the proportions
up whenever it draws.  A sum of positive numbers is positive (`Mix.isPositive_total`), and where it is finite every
draw gives an item of the mix (`Mix.draw_ends`).  It need not be finite, though: a single proportion may be an
infinity, and finite ones may add up to one.  Then the mix draws nothing (`Mix.draw_ends_of_infinite`).
-/

namespace GeoWorkload

/-- What holds of every value that an action gives, whatever the state, holds of all that it gives in turn. -/
theorem Action.times_ends {σ α : Type} {x : Action σ α} {p : α → Prop}
    (hx : ∀ s, ∃ a s', x.Ends s (.ok a) s' ∧ p a) (n : Nat) (s : σ) :
    ∃ values s', (times n x).Ends s (.ok values) s' ∧ values.length = n ∧ ∀ a ∈ values, p a := by
  induction n generalizing s with
  | zero => exact ⟨[], s, ends_pure [], rfl, by simp⟩
  | succ n ih =>
      obtain ⟨a, s', ha, hpa⟩ := hx s
      obtain ⟨values, s'', hvalues, hlength, hp⟩ := ih s'
      refine ⟨a :: values, s'', ha.bind_ok (hvalues.bind_ok (ends_pure _)), ?_, ?_⟩
      · rw [List.length_cons, hlength]
      · simpa using ⟨hpa, hp⟩

namespace Mix

variable {α : Type} {weights : List (α × Binary64)} {mix : Mix α}

/-! ### Totals -/

theorem isPositive_foldl {items : List (α × Binary64)} (h : ∀ item ∈ items, item.2.isPositive = true)
    {sum : Binary64} (hsum : sum.isPositive = true) :
    (items.foldl (fun sum item => sum + item.2) sum).isPositive = true := by
  induction items generalizing sum with
  | nil => exact hsum
  | cons item items ih =>
      simp only [List.mem_cons, forall_eq_or_imp] at h
      exact ih h.2 (Binary64.isPositive_add hsum h.1)

/-- Positive weights add up to a positive number or to an infinity. -/
theorem isPositive_total (h : ∀ item ∈ mix.toList, item.2.isPositive = true) : mix.total.isPositive = true := by
  simp only [toList, List.mem_cons, forall_eq_or_imp] at h
  have hsum := isPositive_foldl h.2 h.1
  unfold total
  rwa [Binary64.add_zero_of_isPositive hsum]

/-! ### Picks -/

theorem pickFrom_mem (share sum : Binary64) (item : α × Binary64) (rest : List (α × Binary64)) :
    pickFrom share sum item rest ∈ (item :: rest).map (·.1) := by
  induction rest generalizing sum item with
  | nil => simp [pickFrom]
  | cons next rest ih =>
      rw [pickFrom]
      split
      · simp
      · exact List.mem_cons_of_mem _ (ih _ next)

/-- What is picked is an item, whatever the share. -/
theorem pick_mem (mix : Mix α) (share : Binary64) : mix.pick share ∈ mix.items := by
  unfold pick items toList
  split
  · rename_i hnil
    simp [hnil]
  · rename_i next rest hcons
    rw [hcons]
    split
    · simp
    · exact List.mem_cons_of_mem _ (pickFrom_mem share _ next rest)

/-! ### Draws -/

theorem draw_ends (hpositive : mix.total.isPositive = true) (hfinite : mix.total.isFinite = true)
    (s : RandomSource) : mix.draw.Ends s (.ok (mix.pick (s.unit.1 * mix.total))) s.unit.2 := by
  unfold draw
  simp only [Binary64.le_zero_of_isPositive hpositive, hfinite]
  exact Action.ends_step _

/-- A mix whose weights add up to an infinity draws nothing, and takes no random number. -/
theorem draw_ends_of_infinite (hpositive : mix.total.isPositive = true) (hinfinite : mix.total.isFinite = false)
    (s : RandomSource) : mix.draw.Ends s (.error .weightsNotFinite) s := by
  unfold draw
  simp only [Binary64.le_zero_of_isPositive hpositive, hinfinite]
  exact Action.ends_fail _

/-- A mix keeps the weights that are positive. -/
theorem toList_of_ofWeights (h : ofWeights weights = .ok mix) :
    mix.toList = weights.filter fun item => item.2.isPositive := by
  unfold ofWeights at h
  split at h
  · cases h
  · rename_i head tail hfilter
    cases h
    exact hfilter.symm

end Mix

/-! ### Proportions -/

namespace Property

variable {props : Json.Members}

/-- The properties give an operation a positive proportion. -/
def Weighs (props : Json.Members) (op : Operation) : Prop :=
  ∃ w, number props op.property 0 = .ok w ∧ w.isPositive = true

theorem number_of_proportion {op : Operation} {w : Binary64} (h : proportion props op = .ok w) :
    number props op.property 0 = .ok w := by
  unfold proportion at h
  obtain ⟨weight, hnumber, hrest⟩ := exists_of_bind_eq_ok h
  split at hrest
  · cases hrest
  · cases hrest
    exact hnumber

/-- The proportions are those of the given operations that are positive. -/
theorem mem_proportions {ops : List Operation} {weights : List (Operation × Binary64)}
    (h : proportions props ops = .ok weights) {item : Operation × Binary64} : item ∈ weights ↔
      item.1 ∈ ops ∧ number props item.1.property 0 = .ok item.2 ∧ item.2.isPositive = true := by
  induction ops generalizing weights with
  | nil =>
      cases h
      simp
  | cons op ops ih =>
      obtain ⟨weight, hweight, hrest⟩ := exists_of_bind_eq_ok h
      obtain ⟨others, hothers, hrest⟩ := exists_of_bind_eq_ok hrest
      have hnumber := number_of_proportion hweight
      have hweights : item ∈ weights ↔ item = (op, weight) ∧ weight.isPositive = true ∨ item ∈ others := by
        split at hrest
        · rename_i hpositive
          cases hrest
          simp [hpositive]
        · rename_i hnot
          cases hrest
          simp [hnot]
      rw [hweights, ih hothers, List.mem_cons]
      constructor
      · rintro (⟨rfl, hpositive⟩ | ⟨hmem, hrest⟩)
        · exact ⟨Or.inl rfl, hnumber, hpositive⟩
        · exact ⟨Or.inr hmem, hrest⟩
      · rintro ⟨hop | hmem, hitem, hpositive⟩
        · left
          rw [hop, hnumber] at hitem
          obtain ⟨op', w⟩ := item
          cases hop
          cases hitem
          exact ⟨rfl, hpositive⟩
        · exact Or.inr ⟨hmem, hitem, hpositive⟩

end Property

namespace Settings

variable {props : Json.Members} {settings : Settings} {warnings : List LogRecord}

/-- What properties that are accepted say of the window, the proportions and the distribution. -/
theorem of_ofProperties (h : ofProperties props = (.ok settings, warnings)) :
    Property.window props = .ok settings.window ∧
      Property.proportions props Operation.all = .ok settings.proportions ∧
      settings.distribution = (Distribution.read (Property.display? props "geo_request_distribution")).1 := by
  unfold ofProperties at h
  split at h
  · cases h
  · rename_i counted hcounts
    unfold Property.counts at hcounts
    obtain ⟨window, hwindow, hcounts⟩ := exists_of_bind_eq_ok hcounts
    obtain ⟨proportions, hproportions, hcounts⟩ := exists_of_bind_eq_ok hcounts
    obtain ⟨_, _, hcounts⟩ := exists_of_bind_eq_ok hcounts
    obtain ⟨_, _, hcounts⟩ := exists_of_bind_eq_ok hcounts
    obtain ⟨_, _, hcounts⟩ := exists_of_bind_eq_ok hcounts
    cases hcounts
    obtain ⟨_, _, hsettings⟩ := exists_of_bind_eq_ok (congrArg Prod.fst h)
    obtain ⟨_, _, hsettings⟩ := exists_of_bind_eq_ok hsettings
    cases hsettings
    exact ⟨hwindow, hproportions, rfl⟩

/-- The operations under whose names a proportion is kept are those of a positive one. -/
theorem mem_namedProportions (h : ofProperties props = (.ok settings, warnings)) {item : String × Binary64} :
    item ∈ settings.namedProportions ↔ ∃ op : Operation, op.name = item.1 ∧
      Property.number props op.property 0 = .ok item.2 ∧ item.2.isPositive = true := by
  obtain ⟨_, hproportions, _⟩ := of_ofProperties h
  unfold namedProportions
  rw [List.mem_map]
  constructor
  · rintro ⟨⟨op, w⟩, hmem, rfl⟩
    obtain ⟨_, hnumber, hpositive⟩ := (Property.mem_proportions hproportions).mp hmem
    exact ⟨op, rfl, hnumber, hpositive⟩
  · rintro ⟨op, hname, hnumber, hpositive⟩
    obtain ⟨name, w⟩ := item
    cases hname
    exact ⟨(op, w), (Property.mem_proportions hproportions).mpr ⟨op.mem_all, hnumber, hpositive⟩, rfl⟩

/-- Properties that are accepted and that give an operation a positive proportion make a mix of just the operations
that have one.  If the proportions add up to a finite number, any number of draws from any source give as many of
these operations; otherwise no draw gives any. -/
theorem draws_of_ofProperties (h : ofProperties props = (.ok settings, warnings))
    (hweighs : ∃ op, Property.Weighs props op) :
    ∃ mix, Mix.ofWeights settings.namedProportions = .ok mix ∧ mix.toList = settings.namedProportions ∧
      (mix.total.isFinite = true → ∀ n source, ∃ names source',
        (Action.times n mix.draw).Ends source (.ok names) source' ∧ names.length = n ∧
          ∀ name ∈ names, ∃ op : Operation, op.name = name ∧ Property.Weighs props op) ∧
      (mix.total.isFinite = false → ∀ source, mix.draw.Ends source (.error .weightsNotFinite) source) := by
  obtain ⟨op, w, hnumber, hweight⟩ := hweighs
  have hmem : (op.name, w) ∈ settings.namedProportions := (mem_namedProportions h).mpr ⟨op, rfl, hnumber, hweight⟩
  have hall : ∀ item ∈ settings.namedProportions, item.2.isPositive = true := by
    intro item hitem
    obtain ⟨_, _, _, hpositive⟩ := (mem_namedProportions h).mp hitem
    exact hpositive
  obtain ⟨mix, hmix⟩ := Mix.exists_ofWeights hmem hweight
  have hlist : mix.toList = settings.namedProportions := by
    rw [Mix.toList_of_ofWeights hmix, List.filter_eq_self]
    exact hall
  have htotal : mix.total.isPositive = true := by
    apply Mix.isPositive_total
    rwa [hlist]
  refine ⟨mix, hmix, hlist, ?_, Mix.draw_ends_of_infinite htotal⟩
  intro hfinite n source
  apply Action.times_ends
  intro s
  refine ⟨_, _, Mix.draw_ends htotal hfinite s, ?_⟩
  have hpick := mix.pick_mem (s.unit.1 * mix.total)
  unfold Mix.items at hpick
  rw [hlist, List.mem_map] at hpick
  obtain ⟨item, hitem, hname⟩ := hpick
  obtain ⟨op', hop', hrest⟩ := (mem_namedProportions h).mp hitem
  exact ⟨op', hop'.trans hname, item.2, hrest⟩

/-- Three inserts for each scan, and no update. -/
def insertsAndScans : Json.Members :=
  [("geo_insert", .string " 3 "), ("geo_update", .string "0"), ("geo_scan", .int 1)]

theorem draws_of_insertsAndScans :
    ofProperties insertsAndScans = (.ok { proportions := [(.insert, 3), (.scan, 1)] }, []) ∧
      (∃ op, Property.Weighs insertsAndScans op) ∧
      ∃ mix : Mix String, mix.total.isFinite = true ∧ mix.items = ["GEO_INSERT", "GEO_SCAN"] ∧
        ∀ n source, ∃ names source', (Action.times n mix.draw).Ends source (.ok names) source' ∧
          names.length = n ∧
          ∀ name ∈ names, ∃ op : Operation, op.name = name ∧ Property.Weighs insertsAndScans op := by
  have hsettings : ofProperties insertsAndScans =
      (.ok { proportions := [(.insert, 3), (.scan, 1)] }, []) := by decide +kernel
  have hweighs : Property.Weighs insertsAndScans .scan := ⟨1, by decide +kernel⟩
  obtain ⟨mix, _, hlist, hdraws, _⟩ := draws_of_ofProperties hsettings ⟨.scan, hweighs⟩
  have hmix : mix = ⟨("GEO_INSERT", 3), [("GEO_SCAN", 1)]⟩ := by
    obtain ⟨head, tail⟩ := mix
    cases hlist
    rfl
  have hfinite : mix.total.isFinite = true := by
    rw [hmix]
    decide +kernel
  refine ⟨hsettings, ⟨.scan, hweighs⟩, mix, hfinite, ?_, hdraws hfinite⟩
  rw [hmix]
  rfl

/-- Scans without end. -/
def endlessScans : Json.Members := [("geo_scan", .string "inf")]

/-- A proportion that is an infinity is accepted and makes a mix that draws nothing. -/
theorem draw_ends_of_endlessScans :
    ofProperties endlessScans = (.ok { proportions := [(.scan, .infinite false)] }, []) ∧
      Property.Weighs endlessScans .scan ∧
      ∃ mix, Mix.ofWeights (namedProportions { proportions := [(.scan, .infinite false)] }) = .ok mix ∧
        ∀ source, mix.draw.Ends source (.error .weightsNotFinite) source := by
  have hweighs : Property.Weighs endlessScans .scan := ⟨.infinite false, by decide +kernel⟩
  refine ⟨by decide +kernel, hweighs, ⟨("GEO_SCAN", .infinite false), []⟩, by decide +kernel, ?_⟩
  exact Mix.draw_ends_of_infinite rfl rfl

end Settings

end GeoWorkload
