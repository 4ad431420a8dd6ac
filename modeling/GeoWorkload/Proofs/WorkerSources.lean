import GeoWorkload.Proofs.TwisterSeeds
import GeoWorkload.Workload.Worker

/-!
# The sources of workers

Workers of one run add their number to a common seed, and a seed counts by its magnitude only.  So two workers draw from
one source exactly where their seeds are opposite, which a negative common seed makes possible: workers 1 and 3 of the
seed -2 draw the same (`Worker.source_opposite`).  All other workers have keys of their own, and as long as their numbers
differ by less than `2^32`, none of them starts with the words of another (`Worker.sources_apart`).
-/

namespace GeoWorkload

namespace Worker

/-- The words that a worker's draws are made of, so many of them from the start. -/
def words (common worker : Int) (n : Nat) : List UInt32 := Twister.given n (.ofSeed (seed common worker))

variable {common i j : Int}

/-- Seeds of different workers have the same magnitude where they are opposite. -/
theorem natAbs_seed_eq_iff (hij : i ≠ j) :
    (seed common i).natAbs = (seed common j).natAbs ↔ 2 * common + i + j = 0 := by
  unfold seed
  omega

/-- A source depends on the key of its seed only. -/
theorem source_eq_of_seedKey (h : Twister.seedKey (seed common i) = Twister.seedKey (seed common j)) :
    source common i = source common j := by
  unfold source RandomSource.ofSeed Twister.ofSeed
  rw [h]

/-- Different workers have the same key exactly where their seeds are opposite, and then one source.  Otherwise they draw
from sources that do not start with the same words, if their numbers differ by less than `2^32` and their seeds have at
most 621 words. -/
theorem sources_apart (hij : i ≠ j) :
    (Twister.seedKey (seed common i) = Twister.seedKey (seed common j) ↔ 2 * common + i + j = 0) ∧
    (2 * common + i + j = 0 → source common i = source common j) ∧
    (2 * common + i + j ≠ 0 → (i - j).natAbs < 2 ^ 32 →
      (Twister.seedKey (seed common i)).length ≤ 621 → (Twister.seedKey (seed common j)).length ≤ 621 →
      words common i Twister.size ≠ words common j Twister.size) := by
  have hkey : Twister.seedKey (seed common i) = Twister.seedKey (seed common j) ↔ 2 * common + i + j = 0 :=
    Twister.seedKey_eq_iff.trans (natAbs_seed_eq_iff hij)
  refine ⟨hkey, fun hopposite => source_eq_of_seedKey (hkey.mpr hopposite), fun hopposite hnear hsize hsize' h => ?_⟩
  have hapart : (seed common i).natAbs < (seed common j).natAbs + 2 ^ 32 ∧
      (seed common j).natAbs < (seed common i).natAbs + 2 ^ 32 := by
    unfold seed
    omega
  have hmagnitude := Twister.natAbs_eq_of_given hsize hsize' hapart.1 hapart.2 h
  exact hopposite ((natAbs_seed_eq_iff hij).mp hmagnitude)

/-- Workers 1 and 2 of the seed -2 draw from sources that do not start with the same words. -/
theorem sources_apart_neighbours : (1 : Int) ≠ 2 ∧ words (-2) 1 Twister.size ≠ words (-2) 2 Twister.size :=
  ⟨by decide, (sources_apart (by decide)).2.2 (by decide) (by decide) (by decide) (by decide)⟩

/-- Workers 1 and 3 of the seed -2, whose seeds are -1 and 1, draw from one source. -/
theorem source_opposite : (1 : Int) ≠ 3 ∧ source (-2) 1 = source (-2) 3 :=
  ⟨by decide, source_eq_of_seedKey (Twister.seedKey_eq_iff.mpr rfl)⟩

end Worker

end GeoWorkload
