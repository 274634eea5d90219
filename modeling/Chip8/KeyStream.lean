import Chip8.Nibble
import Chip8.Table

/-!
The random bytes of a machine: a ChaCha key stream of twelve rounds whose key is given or spread from
a 64-bit seed. The stream is a function of the key and the position, and a generator is a key with
the number of bytes drawn so far.
-/

namespace Chip8

namespace KeyStream

/-- Eight words that select a stream. -/
abbrev Key := Vector UInt32 8

/-- Sixteen words, the unit in which a stream is computed. -/
abbrev Block := Vector UInt32 16

/-- Rotates a word to the left; the amount counts modulo 32. -/
def rotateLeft (word amount : UInt32) : UInt32 :=
  (word <<< amount) ||| (word >>> (32 - amount))

/-- Rotates a word to the right; the amount counts modulo 32. -/
def rotateRight (word amount : UInt32) : UInt32 :=
  (word >>> amount) ||| (word <<< (32 - amount))

/-- The seed after `steps` steps of a linear congruential sequence. -/
def spread (seed : UInt64) : Nat → UInt64
  | 0 => seed
  | steps + 1 => spread seed steps * 6364136223846793005 + 11634580027462260723

/-- Condenses a member of the sequence into a word: shifted together, then rotated by its top bits. -/
def condense (state : UInt64) : UInt32 :=
  rotateRight (((state >>> 18) ^^^ state) >>> 27).toUInt32 (state >>> 59).toUInt32

/-- The key of a seed: the condensed first eight members behind it. -/
def keyOfSeed (seed : UInt64) : Key :=
  tabulate fun position => condense (spread seed (position.val + 1))

/-- The key that bytes spell, four for each word and the lowest first; what is missing is zero. -/
def keyOfBytes (bytes : List UInt8) : Key :=
  tabulate fun position =>
    ((bytes.drop (4 * position.val)).take 4).foldr
      (fun byte higher => 256 * higher + byte.toUInt32) 0

/-- Mixes four words of a block. -/
def quarterRound (block : Block) (a b c d : Nibble) : Block :=
  let block := replaceAt block a (block.get a + block.get b)
  let block := replaceAt block d (rotateLeft (block.get d ^^^ block.get a) 16)
  let block := replaceAt block c (block.get c + block.get d)
  let block := replaceAt block b (rotateLeft (block.get b ^^^ block.get c) 12)
  let block := replaceAt block a (block.get a + block.get b)
  let block := replaceAt block d (rotateLeft (block.get d ^^^ block.get a) 8)
  let block := replaceAt block c (block.get c + block.get d)
  replaceAt block b (rotateLeft (block.get b ^^^ block.get c) 7)

/-- Mixes the four columns, then the four diagonals. -/
def doubleRound (block : Block) : Block :=
  let block := quarterRound block 0 4 8 12
  let block := quarterRound block 1 5 9 13
  let block := quarterRound block 2 6 10 14
  let block := quarterRound block 3 7 11 15
  let block := quarterRound block 0 5 10 15
  let block := quarterRound block 1 6 11 12
  let block := quarterRound block 2 7 8 13
  quarterRound block 3 4 9 14

/-- Twelve rounds, two at a time. -/
def twelveRounds (block : Block) : Block :=
  (List.range 6).foldl (fun block _ => doubleRound block) block

/-- The block before mixing: four fixed words, the key, the counter in two words, two zeros. -/
def start (key : Key) (counter : UInt64) : Block :=
  let fixed : Vector UInt32 4 := #v[0x61707865, 0x3320646e, 0x79622d32, 0x6b206574]
  let rest : Vector UInt32 4 := #v[counter.toUInt32, (counter >>> 32).toUInt32, 0, 0]
  fixed ++ key ++ rest

def block (key : Key) (counter : UInt64) : Block :=
  let unmixed := start key counter
  Vector.zipWith (· + ·) unmixed (twelveRounds unmixed)

def word (key : Key) (position : Nat) : UInt32 :=
  (block key (UInt64.ofNat (position / 16)))[position % 16]

end KeyStream

/-- A source of random bytes: a key stream and the number of words taken from it. -/
structure Generator where
  key : KeyStream.Key
  drawn : Nat
  deriving DecidableEq

namespace Generator

/-- The generator of a key, with nothing drawn. -/
def ofKey (key : KeyStream.Key) : Generator where
  key := key
  drawn := 0

/-- The generator of a seed, with nothing drawn. -/
def ofSeed (seed : UInt64) : Generator :=
  ofKey (KeyStream.keyOfSeed seed)

/-- The next byte: the low eight bits of the next word. -/
def peek (generator : Generator) : UInt8 :=
  (KeyStream.word generator.key generator.drawn).toUInt8

def advance (generator : Generator) : Generator :=
  { generator with drawn := generator.drawn + 1 }

end Generator

end Chip8
