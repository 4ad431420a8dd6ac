import GeoWorkload.Sampling.Window
import GeoWorkload.Sampling.Zipfian
import GeoWorkload.Text.Blank

/-!
# Samplers

How the index of the next document is picked (`Distribution`): uniformly, with the newest documents the
most popular, or like that but a whole window further back.  The two skewed ways share one zipfian
range, made at the first skewed pick from the number of documents stored then and kept afterwards
(`Sampler.sample`).
-/

namespace GeoWorkload

/-- The ways to pick an index. -/
inductive Distribution where
  | uniform
  | zipfian
  | latest
deriving DecidableEq, Repr

namespace Distribution

/-- The name of a distribution. -/
def name : Distribution → String
  | uniform => "uniform"
  | zipfian => "zipfian"
  | latest => "latest"

/-- The distribution of a name. -/
def ofName? (s : String) : Option Distribution :=
  [uniform, zipfian, latest].find? fun d => d.name = s

/-- The distribution that a text names, in any case and with blanks around it, and a warning where it
names none; no text or an empty one means the uniform distribution. -/
def read (text : Option String) : Distribution × List LogRecord :=
  match text with
  | none => (uniform, [])
  | some text =>
    if text = "" then (uniform, [])
    else
      match ofName? (Text.lower (Text.strip text)) with
      | some d => (d, [])
      | none =>
        (uniform, [⟨.warning, "Unknown request distribution " ++ Text.quoted text ++
          "; falling back to uniform"⟩])

end Distribution

/-- A sampler with the random source that it and its owner draw from. -/
structure Sampler where
  distribution : Distribution
  window : Window
  theta : Binary64
  zipfian : Option Zipfian
  source : RandomSource
deriving DecidableEq, Repr

namespace Sampler

/-- A fresh sampler. -/
def make (distribution : Distribution) (window : Window) (theta : Binary64)
    (source : RandomSource) : Sampler :=
  ⟨distribution, window, theta, none, source⟩

/-- A draw from the source of the sampler. -/
def draw {α : Type} (f : RandomSource → Except NumberError α × RandomSource) : Action Sampler α :=
  Action.step fun s =>
    let (r, source) := f s.source
    (r.mapError .number, { s with source })

/-- The number of items of the zipfian range for a stored count: one less than it, but at least
one. -/
def rangeFor (stored : Int) : Int := max 1 (stored - 1)

variable [Powers]

/-- The zipfian range of the sampler, made from the stored count if there is none yet. -/
def zipfianFor (stored : Int) : Action Sampler Zipfian := do
  match ← Action.look (·.zipfian) with
  | some z => return z
  | none =>
    let upper := rangeFor stored
    let z ← Action.ofExcept (Zipfian.ofRange 1 upper (← Action.look (·.theta)))
    Action.change fun s => { s with zipfian := some z }
    Action.log .debug ("Built zipfian sampler over [1, " ++ Numeral.decimal upper ++ "]")
    return z

/-- A skewed draw. -/
def skewed (stored : Int) : Action Sampler Int := do
  let z ← zipfianFor stored
  draw z.next

/-- An index below the population, every one as likely as any other. -/
def uniform (population : Int) : Action Sampler Int :=
  if population ≤ 0 then Action.fail (.populationNotPositive population)
  else draw (RandomSource.below population)

/-- An index below the population in the distribution of the sampler. -/
def sample (population stored : Int) : Action Sampler Int := do
  let s ← Action.look id
  match s.distribution with
  | .uniform => uniform population
  | .zipfian => return population - (← skewed stored)
  | .latest =>
    return population - (← skewed stored) - (s.window.limitMax + s.window.offsetMax)

end Sampler

end GeoWorkload
