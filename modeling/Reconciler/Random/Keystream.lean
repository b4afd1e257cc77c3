set_option autoImplicit false

namespace Reconciler.Random

abbrev Block := Vector UInt32 16

def rotateLeft (x n : UInt32) : UInt32 :=
  (x <<< n) ||| (x >>> (32 - n))

def quarterRound (block : Block) (a b c d : Fin 16) : Block :=
  let block := block.set a (block[a] + block[b])
  let block := block.set d (rotateLeft (block[d] ^^^ block[a]) 16)
  let block := block.set c (block[c] + block[d])
  let block := block.set b (rotateLeft (block[b] ^^^ block[c]) 12)
  let block := block.set a (block[a] + block[b])
  let block := block.set d (rotateLeft (block[d] ^^^ block[a]) 8)
  let block := block.set c (block[c] + block[d])
  block.set b (rotateLeft (block[b] ^^^ block[c]) 7)

def doubleRound (block : Block) : Block :=
  let block := quarterRound block 0 4 8 12
  let block := quarterRound block 1 5 9 13
  let block := quarterRound block 2 6 10 14
  let block := quarterRound block 3 7 11 15
  let block := quarterRound block 0 5 10 15
  let block := quarterRound block 1 6 11 12
  let block := quarterRound block 2 7 8 13
  quarterRound block 3 4 9 14

def rounds : Nat → Block → Block
  | 0, block => block
  | n + 1, block => rounds n (doubleRound block)

-- Four constants, the key, the number of the block in two words, and two zeros.
def initialBlock (key : Vector UInt32 8) (number : Nat) : Block :=
  #v[0x61707865, 0x3320646e, 0x79622d32, 0x6b206574, key[0], key[1], key[2], key[3], key[4], key[5], key[6], key[7],
    UInt32.ofNat number, UInt32.ofNat (number / UInt32.size), 0, 0]

def keyBlock (key : Vector UInt32 8) (number : Nat) : Block :=
  let block := initialBlock key number
  Vector.zipWith (· + ·) (rounds 6 block) block

def congruential (state : UInt64) : UInt64 :=
  state * 6364136223846793005 + 11634580027462260723

def permuted (state : UInt64) : UInt32 :=
  let word := (((state >>> 18) ^^^ state) >>> 27).toUInt32
  let turn := (state >>> 59).toUInt32
  (word >>> turn) ||| (word <<< ((32 - turn) % 32))

def keyWords : Nat → UInt64 → List UInt32
  | 0, _ => []
  | n + 1, state => permuted (congruential state) :: keyWords n (congruential state)

theorem length_keyWords (n : Nat) (state : UInt64) : (keyWords n state).length = n := by
  induction n generalizing state with
  | zero => rfl
  | succ n ih => simp [keyWords, ih]

structure Keystream where
  key : Vector UInt32 8
  taken : Nat

namespace Keystream

def seeded (seed : UInt64) : Keystream :=
  ⟨⟨(keyWords 8 seed).toArray, by simp [length_keyWords]⟩, 0⟩

def word (key : Vector UInt32 8) (place : Nat) : UInt32 :=
  (keyBlock key (place / 16)).get ⟨place % 16, Nat.mod_lt _ (by decide)⟩

def next (k : Keystream) : Nat × Keystream :=
  ((word k.key k.taken).toNat + (word k.key (k.taken + 1)).toNat * UInt32.size, { k with taken := k.taken + 2 })

-- The share of the numbers below 2^64 that can be divided evenly among `n` results, counted by the
-- low half of their product with `n`.
def evenShare (n : Nat) : Nat :=
  n <<< (63 - n.log2)

-- A number below `n`, each equally likely: draws that would favour some results are refused, `tries` at most.
def below (n : Nat) (positive : 0 < n) : (tries : Nat) → Keystream → Fin n × Keystream
  | 0, k => (⟨k.next.1 % n, Nat.mod_lt _ positive⟩, k.next.2)
  | tries + 1, k =>
      -- A refused draw is spent: the next one takes the words after it.
      let (value, k) := k.next
      if value * n % UInt64.size < evenShare n then
        (⟨value * n / UInt64.size % n, Nat.mod_lt _ positive⟩, k)
      else below n positive tries k

end Keystream

end Reconciler.Random
