import GeoWorkload.Binary64

/-!
# The Mersenne twister

The generator of 32-bit words with 624 words of state (`Twister`), seeded from the magnitude of an
integer (`Twister.ofSeed`), and the numbers made of its words: uniform multiples of `2^-53` below
one (`unit`), naturals of a given number of bits (`bits`) and naturals below a bound (`below`).
-/

namespace GeoWorkload

/-- The state: its words and the number of them that have been given out since the last renewal. -/
structure Twister where
  words : Array UInt32
  used : Nat
deriving DecidableEq, Repr

namespace Twister

/-- The number of words of the state. -/
def size : Nat := 624

/-- A word and the one before it, mixed as seeding does. -/
def fold30 (w : UInt32) : UInt32 := w ^^^ (w >>> 30)

/-- The words `1, 2, …` of a state whose first word is `seed`. -/
def linearWords (seed : UInt32) : Array UInt32 :=
  (List.range (size - 1)).foldl
    (fun ws k => ws.push (1812433253 * fold30 (ws.getD k 0) + UInt32.ofNat (k + 1))) #[seed]

/-- Steps to the next word to be mixed; past the last one the first takes the value of the last. -/
def advance (ws : Array UInt32) (i : Nat) : Array UInt32 × Nat :=
  if i + 1 < size then (ws, i + 1) else (ws.setIfInBounds 0 (ws.getD (size - 1) 0), 1)

/-- Mixes the key words into the state; `steps` words are mixed from the `i`-th on, with the key word
`j` first. -/
def mixKey (key : Array UInt32) : (steps i j : Nat) → Array UInt32 → Array UInt32 × Nat
  | 0, i, _, ws => (ws, i)
  | steps + 1, i, j, ws =>
    let w := (ws.getD i 0 ^^^ (fold30 (ws.getD (i - 1) 0) * 1664525)) + key.getD j 0 +
      UInt32.ofNat j
    let (ws, i) := advance (ws.setIfInBounds i w) i
    mixKey key steps i (if j + 1 < key.size then j + 1 else 0) ws

/-- Mixes the positions into the state, for `steps` words from the `i`-th on. -/
def mixPlaces : (steps i : Nat) → Array UInt32 → Array UInt32
  | 0, _, ws => ws
  | steps + 1, i, ws =>
    let w := (ws.getD i 0 ^^^ (fold30 (ws.getD (i - 1) 0) * 1566083941)) - UInt32.ofNat i
    let (ws, i) := advance (ws.setIfInBounds i w) i
    mixPlaces steps i ws

/-- The state that a key of words leads to. -/
def ofKey (key : Array UInt32) : Twister :=
  let (ws, i) := mixKey key (max size key.size) 1 0 (linearWords 19650218)
  let ws := mixPlaces (size - 1) i ws
  ⟨ws.setIfInBounds 0 0x80000000, size⟩

/-- The 32-bit words of a natural, the least significant first, at most `count` of them. -/
def wordsOf : (count : Nat) → Nat → List UInt32
  | 0, _ => []
  | count + 1, n => if n = 0 then [] else UInt32.ofNat n :: wordsOf count (n / Nat.pow 2 32)

/-- The key of a seed: the words of its magnitude, or one zero word. -/
def seedKey (seed : Int) : List UInt32 :=
  if seed = 0 then [0] else wordsOf (seed.natAbs.log2 / 32 + 1) seed.natAbs

/-- The state that a seed leads to. -/
def ofSeed (seed : Int) : Twister := ofKey (seedKey seed).toArray

/-- The word `i` of the renewed state, given the words renewed before it. -/
def renewed (ws : Array UInt32) (i : Nat) : UInt32 :=
  let y := (ws.getD i 0 &&& 0x80000000) ||| (ws.getD ((i + 1) % size) 0 &&& 0x7fffffff)
  ws.getD ((i + 397) % size) 0 ^^^ (y >>> 1) ^^^ (if y &&& 1 = 0 then 0 else 0x9908b0df)

/-- Renews `count` words from the `i`-th on. -/
def renew : (count i : Nat) → Array UInt32 → Array UInt32
  | 0, _, ws => ws
  | count + 1, i, ws => renew count (i + 1) (ws.setIfInBounds i (renewed ws i))

/-- A word as it is given out. -/
def temper (w : UInt32) : UInt32 :=
  let w := w ^^^ (w >>> 11)
  let w := w ^^^ ((w <<< 7) &&& 0x9d2c5680)
  let w := w ^^^ ((w <<< 15) &&& 0xefc60000)
  w ^^^ (w >>> 18)

/-- The next word. -/
def next (t : Twister) : UInt32 × Twister :=
  let t := if t.used < size then t else ⟨renew size 0 t.words, 0⟩
  (temper (t.words.getD t.used 0), { t with used := t.used + 1 })

/-- A uniform multiple of `2^-53` below one, from 27 bits of one word and 26 of the next. -/
def unit (t : Twister) : Binary64 × Twister :=
  let (a, t) := t.next
  let (b, t) := t.next
  (.ofDyadic false (a.toNat / Nat.pow 2 5 * Nat.pow 2 26 + b.toNat / Nat.pow 2 6) (-53), t)

/-- The natural whose words are the next ones, `count` whole ones and then the high `rest` bits of
another, the least significant first. -/
def wordsBelow : (count rest : Nat) → Twister → Nat × Twister
  | 0, 0, t => (0, t)
  | 0, rest + 1, t =>
    let (w, t) := t.next
    (w.toNat / Nat.pow 2 (31 - rest), t)
  | count + 1, rest, t =>
    let (w, t) := t.next
    let (high, t) := wordsBelow count rest t
    (w.toNat + Nat.pow 2 32 * high, t)

/-- A uniform natural of `k` bits. -/
def bits (k : Nat) (t : Twister) : Nat × Twister := wordsBelow (k / 32) (k % 32) t

/-- The first of at most `tries` naturals of `k` bits that lies below `n`; the last one is taken modulo
`n`. -/
def firstBelow (n k : Nat) : (tries : Nat) → Twister → Nat × Twister
  | 0, t =>
    let (r, t) := t.bits k
    (r % n, t)
  | tries + 1, t =>
    let (r, t) := t.bits k
    if r < n then (r, t) else firstBelow n k tries t

/-- A natural below the positive `n`.  A try fails less than half of the time. -/
def below (n : Nat) (t : Twister) : Nat × Twister := firstBelow n (n.log2 + 1) 1024 t

end Twister

end GeoWorkload
