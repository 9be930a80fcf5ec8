/-
  RuleEngine/Dice.lean
  ====================
  **Random rolls.**

  A roll is a number from zero up to one, drawn from a stream that a seed of 64 bits
  determines.  The stream is the ChaCha cipher with twelve rounds, under a key that
  the seed is expanded to; a roll takes two of its words and keeps 53 bits of them.
-/
import RuleEngine.Decimal.Value

namespace RuleEngine

/-! ### The key -/

def expandStep (state : UInt64) : UInt64 :=
  state * 6364136223846793005 + 11634580027462260723

def rotateRight (x : UInt32) (bits : UInt32) : UInt32 :=
  if bits % 32 = 0 then x else (x >>> (bits % 32)) ||| (x <<< (32 - bits % 32))

def rotateLeft (x : UInt32) (bits : UInt32) : UInt32 := rotateRight x (32 - bits % 32)

def expandWord (state : UInt64) : UInt32 :=
  rotateRight (((state >>> 18) ^^^ state) >>> 27).toUInt32 (state >>> 59).toUInt32

def expandSeed (state : UInt64) : Nat → List UInt32
  | 0 => []
  | count + 1 => expandWord (expandStep state) :: expandSeed (expandStep state) count

/-! ### The cipher -/

abbrev CipherBlock := Vector UInt32 16

def quarterRound (b : CipherBlock) (i j k l : Fin 16) : CipherBlock :=
  let b := b.set i (b[i] + b[j])
  let b := b.set l (rotateLeft (b[l] ^^^ b[i]) 16)
  let b := b.set k (b[k] + b[l])
  let b := b.set j (rotateLeft (b[j] ^^^ b[k]) 12)
  let b := b.set i (b[i] + b[j])
  let b := b.set l (rotateLeft (b[l] ^^^ b[i]) 8)
  let b := b.set k (b[k] + b[l])
  b.set j (rotateLeft (b[j] ^^^ b[k]) 7)

/-- Two rounds: the columns of the block, then its diagonals. -/
def doubleRound (b : CipherBlock) : CipherBlock :=
  let b := quarterRound b 0 4 8 12
  let b := quarterRound b 1 5 9 13
  let b := quarterRound b 2 6 10 14
  let b := quarterRound b 3 7 11 15
  let b := quarterRound b 0 5 10 15
  let b := quarterRound b 1 6 11 12
  let b := quarterRound b 2 7 8 13
  quarterRound b 3 4 9 14

def startBlock (key : List UInt32) (counter : Nat) : CipherBlock :=
  let word (i : Nat) : UInt32 := (key[i]?).getD 0
  #v[0x61707865, 0x3320646e, 0x79622d32, 0x6b206574,
    word 0, word 1, word 2, word 3, word 4, word 5, word 6, word 7,
    UInt32.ofNat counter, UInt32.ofNat (counter / UInt32.size), 0, 0]

def cipherBlock (key : List UInt32) (counter : Nat) : CipherBlock :=
  let start := startBlock key counter
  let mixed := (List.range 6).foldl (fun b _ => doubleRound b) start
  Vector.zipWith (· + ·) start mixed

def streamWord (key : List UInt32) (position : Nat) : UInt32 :=
  (cipherBlock key (position / 16)).get ⟨position % 16, Nat.mod_lt _ (by decide)⟩

/-! ### Rolls -/

/-- A stream of rolls: its key and how many rolls were drawn from it. -/
structure Dice where
  key : List UInt32
  drawn : Nat := 0
deriving DecidableEq, Repr

def Dice.ofSeed (seed : UInt64) : Dice := { key := expandSeed seed 8 }

def rollBits (low high : UInt32) : Nat := (low.toNat + high.toNat * UInt32.size) >>> 11

def Dice.roll (d : Dice) : Float × Dice :=
  let bits := rollBits (streamWord d.key (2 * d.drawn)) (streamWord d.key (2 * d.drawn + 1))
  ((Decimal.Value.finite false bits (-53)).toFloat, { d with drawn := d.drawn + 1 })

end RuleEngine
