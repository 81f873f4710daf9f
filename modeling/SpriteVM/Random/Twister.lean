/-!
The Mersenne twister with 624 words of 32 bits, started from an integer of any size: the words of
its absolute value, the least significant first, are the key.
-/

namespace SpriteVM

/-- The generator's words and the number of them already used. -/
structure Twister where
  words : Array UInt32
  used : Nat
  deriving DecidableEq, Repr, Inhabited

namespace Twister

def length : Nat := 624

/-- A word mixed with the one before it, the step that both start-up passes share. -/
def mix (previous : UInt32) : UInt32 := previous ^^^ (previous >>> 30)

/-- The words grown from one seed word, the last first, before `n` further ones are added. -/
def growFrom : Nat → Nat → UInt32 → Array UInt32 → Array UInt32
  | 0, _, _, words => words
  | n + 1, k, previous, words =>
    let word := 1812433253 * mix previous + UInt32.ofNat k
    growFrom n (k + 1) word (words.push word)

def grown (seed : UInt32) : Array UInt32 := growFrom (length - 1) 1 seed #[seed]

/-- The position after `i`; passing the end carries the last word over to the first place. -/
def following (words : Array UInt32) (i : Nat) : Array UInt32 × Nat :=
  if i + 1 < length then (words, i + 1)
  else (words.setIfInBounds 0 (words.getD (length - 1) 0), 1)

/-- The first start-up pass: each step folds a word of the key, taken in turn, into the words. -/
def stirKey (key : Array UInt32) : Nat → Nat → Nat → Array UInt32 → Array UInt32 × Nat
  | 0, i, _, words => (words, i)
  | n + 1, i, j, words =>
    let word := (words.getD i 0 ^^^ (mix (words.getD (i - 1) 0) * 1664525))
      + key.getD j 0 + UInt32.ofNat j
    let (words, i) := following (words.setIfInBounds i word) i
    stirKey key n i (if j + 1 < key.size then j + 1 else 0) words

def stir : Nat → Nat → Array UInt32 → Array UInt32
  | 0, _, words => words
  | n + 1, i, words =>
    let word := (words.getD i 0 ^^^ (mix (words.getD (i - 1) 0) * 1566083941)) - UInt32.ofNat i
    let (words, i) := following (words.setIfInBounds i word) i
    stir n i words

def ofKey (key : Array UInt32) : Twister :=
  let (words, i) := stirKey key (max length key.size) 1 0 (grown 19650218)
  ⟨(stir (length - 1) i words).setIfInBounds 0 0x80000000, length⟩

/-- The 32-bit words of a number, the least significant first; zero has none. -/
def wordsOf (n : Nat) : List UInt32 :=
  if n = 0 then [] else UInt32.ofNat (n % 0x100000000) :: wordsOf (n / 0x100000000)
  termination_by n
  decreasing_by omega

/-- The key of a seed; its sign does not count and zero is one zero word. -/
def keyOf (seed : Int) : Array UInt32 :=
  if seed = 0 then #[0] else (wordsOf seed.natAbs).toArray

def ofSeed (seed : Int) : Twister := ofKey (keyOf seed)

/-- One word of the next batch, from the old word, its successor and the word 397 places on. -/
def twistWord (word next far : UInt32) : UInt32 :=
  let y := (word &&& 0x80000000) ||| (next &&& 0x7fffffff)
  far ^^^ (y >>> 1) ^^^ (if y &&& 1 = 0 then 0 else 0x9908b0df)

/-- The next batch of words; places already renewed feed the later ones. -/
def twist (words : Array UInt32) : Array UInt32 :=
  (List.range length).foldl
    (fun ws k => ws.setIfInBounds k
      (twistWord (ws.getD k 0) (ws.getD ((k + 1) % length) 0) (ws.getD ((k + 397) % length) 0)))
    words

def temper (y : UInt32) : UInt32 :=
  let y := y ^^^ (y >>> 11)
  let y := y ^^^ ((y <<< 7) &&& 0x9d2c5680)
  let y := y ^^^ ((y <<< 15) &&& 0xefc60000)
  y ^^^ (y >>> 18)

def next (t : Twister) : UInt32 × Twister :=
  if t.used < length then (temper (t.words.getD t.used 0), { t with used := t.used + 1 })
  else
    let words := twist t.words
    (temper (words.getD 0 0), ⟨words, 1⟩)

/-- A random byte: the top eight bits of the next word. -/
def nextByte (t : Twister) : Nat × Twister :=
  let (word, t) := t.next
  ((word >>> 24).toNat, t)

end Twister

end SpriteVM
