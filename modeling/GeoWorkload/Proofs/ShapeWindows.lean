import GeoWorkload.Geometry
import GeoWorkload.Proofs.NearestNumbers

/-!
# Windows of shapes

Places are jittered from a corner by draws below one.  The sums are rounded, and near the corner the numbers stand
further apart than the draws do: a draw within half of such a step below one is rounded up to one, and the place comes
to lie on the far side of the window (`Binary64.Rounds.window`).  So the vertices of all shapes, in any sequence of
calls, lie in the closed window, and on its far sides exactly for these draws (`Synth.drawAll_window`).
-/

namespace GeoWorkload

namespace Binary64

/-- One unit below an integer of 53 bits in units of `2^-p` there is an odd number of units. -/
theorem exists_odd_units {q p : Nat} (hlow : 2 ^ 52 ≤ q * 2 ^ p) (hhigh : (q + 1) * 2 ^ p < 2 ^ 53) (hp : 1 ≤ p) :
    ∃ k : Nat, 2 ^ 52 ≤ k ∧ k + 1 < 2 ^ 53 ∧ k % 2 = 1 ∧ (k : ℚ) * 2 ^ (-(p : Int)) = q + 1 - 2 ^ (-(p : Int)) := by
  have hpow : 0 < 2 ^ p := Nat.pow_pos (by decide)
  have hsplit : (q + 1) * 2 ^ p = q * 2 ^ p + 2 ^ p := Nat.succ_mul _ _
  have hvalue : (((q + 1) * 2 ^ p : Nat) : ℚ) * 2 ^ (-(p : Int)) = q + 1 := by
    push_cast
    rw [zpow_neg, zpow_natCast, mul_assoc, mul_inv_cancel₀ (by positivity), mul_one]
  obtain ⟨k, hk⟩ : ∃ k, (q + 1) * 2 ^ p = k + 1 := ⟨(q + 1) * 2 ^ p - 1, by omega⟩
  refine ⟨k, by omega, by omega, ?_, ?_⟩
  · obtain ⟨p, rfl⟩ := Nat.exists_eq_succ_of_ne_zero (by omega : p ≠ 0)
    rw [Nat.pow_succ, ← Nat.mul_assoc] at hk
    omega
  · rw [hk] at hvalue
    push_cast at hvalue
    linarith

/-- An integer of 53 bits in units of `2^-p` and a number below one: their sum is rounded to the next integer exactly
from half a unit below it. -/
theorem Rounds.window {q p : Nat} {u : ℚ} {x : Binary64} (h : Rounds (q + u) x) (h0 : 0 ≤ u) (h1 : u < 1)
    (hlow : 2 ^ 52 ≤ q * 2 ^ p) (hhigh : (q + 1) * 2 ^ p < 2 ^ 53) (hp : 1 ≤ p) (hp' : p ≤ 1074) :
    (q : ℚ) ≤ x.toRat ∧ x.toRat ≤ q + 1 ∧ (x.toRat < q + 1 ↔ u < 1 - 1 / 2 * 2 ^ (-(p : Int))) := by
  have hunit := two_zpow_pos (-(p : Int))
  have hq : q + 1 < 2 ^ 53 := lt_of_le_of_lt (Nat.le_mul_of_pos_right _ (Nat.pow_pos (by decide))) hhigh
  have hgreatest : (q : ℚ) + u ≤ 2 ^ (971 : Int) := by
    have hq' : (q : ℚ) + 1 ≤ 2 ^ 53 := by exact_mod_cast hq.le
    exact le_greatest_of_le (by linarith)
  obtain ⟨k, hk52, hk53, hodd, hunits⟩ := exists_odd_units hlow hhigh hp
  have hinteger : ((k + 1 : Nat) : ℚ) * 2 ^ (-(p : Int)) = q + 1 := by
    push_cast
    linarith
  refine ⟨?_, ?_, ?_, ?_⟩
  · have hbelow := h.le_toRat hgreatest (k := q) (e := 0) (by omega) (by norm_num)
    simp only [zpow_zero, mul_one] at hbelow
    exact hbelow (by linarith)
  · rw [← hinteger]
    apply h.toRat_le hgreatest (by omega) hk53 (by omega)
    rw [add_mul, hinteger]
    linarith
  · intro hlt
    by_contra hge
    have habove := h.succ_le_toRat hgreatest hk52 (by omega) hodd (by omega)
      (e := -(p : Int)) (by rw [add_mul, hunits]; linarith)
    rw [add_mul, hunits] at habove
    linarith
  · intro hlt
    have hbelow := h.toRat_le hgreatest hk52 (by omega) (by omega) (e := -(p : Int))
      (by rw [add_mul, hunits]; linarith)
    rw [hunits] at hbelow
    linarith

/-- Draws from zero to below one are of such values. -/
theorem toRat_range {u : Binary64} (hu : u.InUnitInterval) : 0 ≤ u.toRat ∧ u.toRat < 1 := by
  obtain ⟨negative, m, e, h, rfl⟩ := RandomSource.exists_finite_of_inUnitInterval hu
  obtain ⟨hzero, hlt⟩ := inUnitInterval_finite_iff.mp hu
  refine ⟨?_, hlt⟩
  rw [toRat_finite]
  have := two_zpow_pos e
  cases negative with
  | false =>
      simp only [Bool.false_eq_true, if_false]
      positivity
  | true => simp [hzero rfl]

end Binary64

namespace Coordinate

open Binary64 (Rounds)

/-! ### Places -/

theorem lonOrigin_eq : lonOrigin = .finite true (111 * Nat.pow 2 46) (-46) (by decide) := by decide +kernel

theorem toRat_lonOrigin : lonOrigin.toRat = -111 := by
  rw [lonOrigin_eq, Binary64.toRat_finite]
  norm_num

theorem latOrigin_eq : latOrigin = .finite false (33 * Nat.pow 2 47) (-47) (by decide) := by decide +kernel

theorem toRat_latOrigin : latOrigin.toRat = 33 := by
  rw [latOrigin_eq, Binary64.toRat_finite]
  norm_num

section draws

variable {u : Binary64} (hu : u.InUnitInterval)
include hu

/-- A longitude is the nearest number to the exact difference. -/
theorem rounds_lon : Rounds ((111 : Nat) + u.toRat) (lonOrigin - u).neg := by
  obtain ⟨h0, _⟩ := Binary64.toRat_range hu
  obtain ⟨negative, m, e, h, rfl⟩ := RandomSource.exists_finite_of_inUnitInterval hu
  have hneg : (Binary64.finite (!negative) m e h).toRat = -(Binary64.finite negative m e h).toRat :=
    Binary64.toRat_neg (.finite negative m e h)
  have hvalue : -(lonOrigin.toRat + (Binary64.finite (!negative) m e h).toRat) =
      (111 : Nat) + (Binary64.finite negative m e h).toRat := by
    rw [hneg, toRat_lonOrigin]
    push_cast
    ring
  rw [← hvalue, lonOrigin_eq]
  apply Binary64.rounds_neg_add
  rw [← lonOrigin_eq, hneg, toRat_lonOrigin]
  linarith

/-- A latitude is the nearest number to the exact sum. -/
theorem rounds_lat : Rounds ((33 : Nat) + u.toRat) (latOrigin + u) := by
  obtain ⟨h0, _⟩ := Binary64.toRat_range hu
  obtain ⟨negative, m, e, h, rfl⟩ := RandomSource.exists_finite_of_inUnitInterval hu
  have hvalue : latOrigin.toRat + (Binary64.finite negative m e h).toRat =
      (33 : Nat) + (Binary64.finite negative m e h).toRat := by
    rw [toRat_latOrigin]
    push_cast
    ring
  rw [← hvalue, latOrigin_eq]
  apply Binary64.rounds_add
  rw [← latOrigin_eq, toRat_latOrigin]
  linarith

end draws

/-- The place is jittered by the draws `u` and `v`.  It lies in the window, and on its western and on its northern side
exactly if the draws come within half a step of one. -/
structure JitteredBy (c : Coordinate) (u v : Binary64) : Prop where
  lon_isFinite : c.lon.isFinite = true
  le_lon : -112 ≤ c.lon.toRat
  lon_le : c.lon.toRat ≤ -111
  lt_lon_iff : -112 < c.lon.toRat ↔ u.toRat < 1 - 2 ^ (-47 : Int)
  lat_isFinite : c.lat.isFinite = true
  le_lat : 33 ≤ c.lat.toRat
  lat_le : c.lat.toRat ≤ 34
  lat_lt_iff : c.lat.toRat < 34 ↔ v.toRat < 1 - 2 ^ (-48 : Int)

theorem jitteredBy {u v : Binary64} (hu : u.InUnitInterval) (hv : v.InUnitInterval) :
    JitteredBy ⟨lonOrigin - u, latOrigin + v⟩ u v := by
  obtain ⟨hu0, hu1⟩ := Binary64.toRat_range hu
  obtain ⟨hv0, hv1⟩ := Binary64.toRat_range hv
  have hlon := rounds_lon hu
  have hlat := rounds_lat hv
  have hlonValue : (lonOrigin - u).toRat = -(lonOrigin - u).neg.toRat := by rw [Binary64.toRat_neg, neg_neg]
  have hlonFinite : (lonOrigin - u).isFinite = true := by
    obtain ⟨m, e, h, heq⟩ := hlon.exists_finite (Binary64.le_greatest_of_le (by push_cast; linarith))
    rw [← Binary64.isFinite_neg, heq]
    rfl
  have hlatFinite : (latOrigin + v).isFinite = true := by
    obtain ⟨m, e, h, heq⟩ := hlat.exists_finite (Binary64.le_greatest_of_le (by push_cast; linarith))
    rw [heq]
    rfl
  obtain ⟨hlonLow, hlonHigh, hlonIff⟩ := hlon.window (p := 46) hu0 hu1 (by decide) (by decide) (by decide) (by decide)
  obtain ⟨hlatLow, hlatHigh, hlatIff⟩ := hlat.window (p := 47) hv0 hv1 (by decide) (by decide) (by decide) (by decide)
  norm_num at hlonLow hlonHigh hlonIff hlatLow hlatHigh hlatIff
  refine ⟨hlonFinite, ?_, ?_, ?_, hlatFinite, ?_, ?_, ?_⟩
  · dsimp only
    linarith
  · dsimp only
    linarith
  · dsimp only
    rw [hlonValue, lt_neg, neg_neg, hlonIff]
    norm_num
  · dsimp only
    linarith
  · dsimp only
    linarith
  · dsimp only
    rw [hlatIff]
    norm_num

end Coordinate

/-! ### Sequences of calls -/

namespace RandomSource

/-- The source gives the number, at once or after other draws. -/
def Gives (s : RandomSource) (u : Binary64) : Prop := ∃ s', s.Leads s' ∧ s'.unit.1 = u

end RandomSource

/-- What places are drawn for. -/
inductive Synth where
  | coordinate
  | point
  | lines
  | polygon
deriving DecidableEq, Repr

namespace Synth

/-- The places that are drawn. -/
def draw : Synth → RandomSource → List Coordinate × RandomSource
  | coordinate, s =>
    let (c, s) := Coordinate.jitter s
    ([c], s)
  | point, s =>
    let (shape, s) := Shape.synthPoint s
    (shape.vertices, s)
  | lines, s =>
    let (shape, s) := Shape.synthLines s
    (shape.vertices, s)
  | polygon, s =>
    let (shape, s) := Shape.synthPolygon s
    (shape.vertices, s)

/-- The places that are drawn in a sequence of calls. -/
def drawAll : List Synth → RandomSource → List Coordinate × RandomSource
  | [], s => ([], s)
  | call :: calls, s =>
    let (places, s) := call.draw s
    let (others, s) := drawAll calls s
    (places ++ others, s)

section window

variable {origin s : RandomSource}

/-- The place is jittered by draws of the source. -/
def Placed (origin : RandomSource) (c : Coordinate) : Prop :=
  ∃ u v, origin.Gives u ∧ origin.Gives v ∧ c.JitteredBy u v

/-- Any two draws make a place, be they the next ones or, as for some corners of a quadrilateral, earlier ones. -/
theorem placed (horigin : origin.Proper) {s s' : RandomSource} (hs : origin.Leads s) (hs' : origin.Leads s') :
    Placed origin ⟨Coordinate.lonOrigin - s.unit.1, Coordinate.latOrigin + s'.unit.1⟩ :=
  ⟨_, _, ⟨s, hs, rfl⟩, ⟨s', hs', rfl⟩, Coordinate.jitteredBy (horigin s hs) (horigin s' hs')⟩

/-- A call draws places of the window and leaves a source that the next call can draw from. -/
theorem draw_placed (horigin : origin.Proper) (hs : origin.Leads s) (call : Synth) :
    (∀ c ∈ (call.draw s).1, Placed origin c) ∧ origin.Leads (call.draw s).2 := by
  have h1 := hs.number
  have h2 := h1.number
  have h3 := h2.number
  have h4 := h3.number
  cases call with
  | coordinate =>
      refine ⟨fun c hc => ?_, h2⟩
      obtain rfl : c = _ := List.mem_singleton.mp hc
      exact placed horigin hs h1
  | point =>
      refine ⟨fun c hc => ?_, h2⟩
      obtain rfl : c = _ := List.mem_singleton.mp hc
      exact placed horigin hs h1
  | lines =>
      have h5 := h4.number
      have h6 := h5.number
      have h7 := h6.number
      refine ⟨?_, h7.number⟩
      show ∀ c ∈ [_, _, _, _], Placed origin c
      simp only [List.forall_mem_cons]
      exact ⟨placed horigin hs h1, placed horigin h2 h3, placed horigin h4 h5, placed horigin h6 h7,
        List.forall_mem_nil _⟩
  | polygon =>
      refine ⟨?_, h4.number⟩
      show ∀ c ∈ [_, _, _, _, _], Placed origin c
      simp only [List.forall_mem_cons]
      exact ⟨placed horigin hs h1, placed horigin h2 h1, placed horigin h3 h4, placed horigin hs h4,
        placed horigin hs h1, List.forall_mem_nil _⟩

theorem drawAll_placed (horigin : origin.Proper) (hs : origin.Leads s) (calls : List Synth) :
    ∀ c ∈ (drawAll calls s).1, Placed origin c := by
  induction calls generalizing s with
  | nil => exact List.forall_mem_nil _
  | cons call calls ih =>
      obtain ⟨hplaces, hleads⟩ := draw_placed horigin hs call
      show ∀ c ∈ (call.draw s).1 ++ (drawAll calls (call.draw s).2).1, Placed origin c
      exact List.forall_mem_append.mpr ⟨hplaces, ih hleads⟩

end window

/-- All places that a sequence of calls draws from a proper source are jittered by two of its draws each.  They lie
from 112 to 111 degrees west and from 33 to 34 degrees north, 112 west only for a draw of at least `1 - 2^-47` and 34
north only for one of at least `1 - 2^-48`. -/
theorem drawAll_window {s : RandomSource} (hs : s.Proper) (calls : List Synth) :
    ∀ c ∈ (drawAll calls s).1, ∃ u v, s.Gives u ∧ s.Gives v ∧ c.JitteredBy u v :=
  drawAll_placed hs .refl calls

theorem drawAll_window_everyShape : (RandomSource.ofSeed 21).Proper ∧
    ∀ c ∈ (drawAll [.polygon, .lines, .point, .coordinate] (.ofSeed 21)).1,
      ∃ u v, (RandomSource.ofSeed 21).Gives u ∧ (RandomSource.ofSeed 21).Gives v ∧ c.JitteredBy u v :=
  ⟨RandomSource.proper_twister _, drawAll_window (RandomSource.proper_twister _) _⟩

/-- The greatest draw of all. -/
def greatestDraw : Binary64 := .ofRatio false (2 ^ 53 - 1) (2 ^ 53)

/-- The far sides are not left out: a source whose draws are all the greatest multiple of `2^-53` below one jitters a
place to the far corner of the window. -/
theorem drawAll_reaches_corner : ¬ ∀ s : RandomSource,
    (∀ s', s.Leads s' → ∃ k < 2 ^ 53, s'.unit.1 = .ofRatio false k (2 ^ 53)) →
      ∀ calls, ∀ c ∈ (drawAll calls s).1,
        (-112 < c.lon.toRat ∧ c.lon.toRat ≤ -111) ∧ 33 ≤ c.lat.toRat ∧ c.lat.toRat < 34 := by
  intro hwindow
  have hdraws : ∀ s', (RandomSource.ofDraws [greatestDraw]).Leads s' → s' = .ofDraws [greatestDraw] := by
    intro s' hs'
    induction hs' with
    | refl => rfl
    | number _ ih => rw [ih]; rfl
    | index n _ ih => rw [ih]; rfl
  have hlon : (Coordinate.lonOrigin - greatestDraw).toRat = -112 := by
    rw [show Coordinate.lonOrigin - greatestDraw = .ofInt (-112) by decide +kernel]
    decide +kernel
  have hplace := hwindow (.ofDraws [greatestDraw])
    (fun s' hs' => ⟨2 ^ 53 - 1, by decide, by rw [hdraws s' hs']; rfl⟩) [.coordinate] _ (List.mem_singleton.mpr rfl)
  have hless : -112 < (Coordinate.lonOrigin - greatestDraw).toRat := hplace.1.1
  rw [hlon] at hless
  exact lt_irrefl _ hless

end Synth

end GeoWorkload
