import Mathlib.Data.Nat.Find
import Mathlib.Tactic.Linarith

namespace sow.fips180

abbrev Word := BitVec 32

def Ch (x y z : Word) : Word := (x &&& y) ^^^ (~~~ x &&& z)

def Maj (x y z : Word) : Word := (x &&& y) ^^^ (x &&& z) ^^^ (y &&& z)

def bigSigma0 (x : Word) : Word := x.rotateRight 2 ^^^ x.rotateRight 13 ^^^ x.rotateRight 22

def bigSigma1 (x : Word) : Word := x.rotateRight 6 ^^^ x.rotateRight 11 ^^^ x.rotateRight 25

def smallSigma0 (x : Word) : Word := x.rotateRight 7 ^^^ x.rotateRight 18 ^^^ x >>> 3

def smallSigma1 (x : Word) : Word := x.rotateRight 17 ^^^ x.rotateRight 19 ^^^ x >>> 10

/-- Eight values: the words of a hash, or the working variables. -/
structure Eight (α : Type) where
  a : α
  b : α
  c : α
  d : α
  e : α
  f : α
  g : α
  h : α
  deriving DecidableEq

namespace Eight

variable {α β γ : Type}

def map (f : α → β) (v : Eight α) : Eight β := ⟨f v.a, f v.b, f v.c, f v.d, f v.e, f v.f, f v.g, f v.h⟩

def zipWith (f : α → β → γ) (v : Eight α) (w : Eight β) : Eight γ :=
  ⟨f v.a w.a, f v.b w.b, f v.c w.c, f v.d w.d, f v.e w.e, f v.f w.f, f v.g w.g, f v.h w.h⟩

def toList (v : Eight α) : List α := [v.a, v.b, v.c, v.d, v.e, v.f, v.g, v.h]

@[simp] theorem toList_map (f : α → β) (v : Eight α) : (v.map f).toList = v.toList.map f := rfl

end Eight

/-- The constants of the sixty-four rounds. -/
def K : List Word :=
  [0x428a2f98, 0x71374491, 0xb5c0fbcf, 0xe9b5dba5, 0x3956c25b, 0x59f111f1, 0x923f82a4, 0xab1c5ed5,
    0xd807aa98, 0x12835b01, 0x243185be, 0x550c7dc3, 0x72be5d74, 0x80deb1fe, 0x9bdc06a7, 0xc19bf174,
    0xe49b69c1, 0xefbe4786, 0x0fc19dc6, 0x240ca1cc, 0x2de92c6f, 0x4a7484aa, 0x5cb0a9dc, 0x76f988da,
    0x983e5152, 0xa831c66d, 0xb00327c8, 0xbf597fc7, 0xc6e00bf3, 0xd5a79147, 0x06ca6351, 0x14292967,
    0x27b70a85, 0x2e1b2138, 0x4d2c6dfc, 0x53380d13, 0x650a7354, 0x766a0abb, 0x81c2c92e, 0x92722c85,
    0xa2bfe8a1, 0xa81a664b, 0xc24b8b70, 0xc76c51a3, 0xd192e819, 0xd6990624, 0xf40e3585, 0x106aa070,
    0x19a4c116, 0x1e376c08, 0x2748774c, 0x34b0bcb5, 0x391c0cb3, 0x4ed8aa4a, 0x5b9cca4f, 0x682e6ff3,
    0x748f82ee, 0x78a5636f, 0x84c87814, 0x8cc70208, 0x90befffa, 0xa4506ceb, 0xbef9a3f7, 0xc67178f2]

/-- The initial hash value. -/
def H0 : Eight Word :=
  ⟨0x6a09e667, 0xbb67ae85, 0x3c6ef372, 0xa54ff53a, 0x510e527f, 0x9b05688c, 0x1f83d9ab, 0x5be0cd19⟩

/-- The primes below 312, of which there are sixty-four. -/
def primes : List Nat := (List.range 312).filter fun n => 2 ≤ n && (List.range n).all fun d => d < 2 || n % d ≠ 0

/-- The round constants are the first bits of the fractions of the cube roots of the
    first primes. -/
theorem K_cubeRoots : primes.length = 64 ∧ ∀ x ∈ primes.zip K,
    ∃ q < 7, (q * 2 ^ 32 + x.2.toNat) ^ 3 ≤ x.1 * 2 ^ 96 ∧ x.1 * 2 ^ 96 < (q * 2 ^ 32 + x.2.toNat + 1) ^ 3 := by
  decide +kernel

/-- The initial hash value holds those of the square roots of the first eight. -/
theorem H0_squareRoots : ∀ x ∈ primes.zip H0.toList,
    ∃ q < 5, (q * 2 ^ 32 + x.2.toNat) ^ 2 ≤ x.1 * 2 ^ 64 ∧ x.1 * 2 ^ 64 < (q * 2 ^ 32 + x.2.toNat + 1) ^ 2 := by
  decide +kernel

/-- Some number of zero bytes leaves room for the length alone. -/
theorem exists_zeros (length : Nat) : ∃ k, (length + 1 + k) % 64 = 56 := ⟨(119 - length % 64) % 64, by omega⟩

/-- The fewest. -/
def zeros (length : Nat) : Nat := Nat.find (exists_zeros length)

theorem zeros_eq (length : Nat) : zeros length = (119 - length % 64) % 64 := by
  refine (Nat.find_eq_iff _).mpr ⟨by omega, fun k hk => ?_⟩
  omega

/-- The length in bits, as a 64-bit number with its first byte first. -/
def lengthBytes (length : Nat) : List UInt8 := (List.range 8).map fun i => UInt8.ofNat (length * 8 / 2 ^ (8 * (7 - i)))

/-- The message, one bit and the fewest zero bits, and the length. -/
def pad (message : List UInt8) : List UInt8 :=
  message ++ 0x80 :: (List.replicate (zeros message.length) 0 ++ lengthBytes message.length)

theorem length_pad (message : List UInt8) : (pad message).length = message.length + 1 + zeros message.length + 8 := by
  simp only [pad, lengthBytes, List.length_append, List.length_cons, List.length_replicate, List.length_map, List.length_range]
  omega

/-- Padding fills whole blocks. -/
theorem length_pad_mod (message : List UInt8) : (pad message).length % 64 = 0 := by
  rw [length_pad, zeros_eq]
  omega

/-- The word that begins at a byte. -/
def wordAt (bytes : List UInt8) (i : Nat) : Word :=
  BitVec.ofNat 32 ((bytes.getD i 0).toNat * 2 ^ 24 + (bytes.getD (i + 1) 0).toNat * 2 ^ 16 + (bytes.getD (i + 2) 0).toNat * 2 ^ 8 +
    (bytes.getD (i + 3) 0).toNat)

/-- The message schedule of a block. -/
def schedule (block : Nat → Word) (t : Nat) : Word :=
  if t < 16 then block t
  else smallSigma1 (schedule block (t - 2)) + schedule block (t - 7) + smallSigma0 (schedule block (t - 15)) + schedule block (t - 16)
termination_by t
decreasing_by all_goals omega

theorem schedule_lt (block : Nat → Word) {t : Nat} (h : t < 16) : schedule block t = block t := by rw [schedule, if_pos h]

theorem schedule_ge (block : Nat → Word) {t : Nat} (h : 16 ≤ t) : schedule block t =
    smallSigma1 (schedule block (t - 2)) + schedule block (t - 7) + smallSigma0 (schedule block (t - 15)) + schedule block (t - 16) := by
  conv_lhs => rw [schedule, if_neg (by omega)]

/-- One round. -/
def round (block : Nat → Word) (v : Eight Word) (t : Nat) : Eight Word :=
  let T1 := v.h + bigSigma1 v.e + Ch v.e v.f v.g + K.getD t 0 + schedule block t
  let T2 := bigSigma0 v.a + Maj v.a v.b v.c
  ⟨T1 + T2, v.a, v.b, v.c, v.d + T1, v.e, v.f, v.g⟩

def compress (block : Nat → Word) (v : Eight Word) : Eight Word :=
  v.zipWith (· + ·) ((List.range 64).foldl (round block) v)

/-- The hash value after the first `n` blocks. -/
def hashValue (padded : List UInt8) : Nat → Eight Word
  | 0 => H0
  | n + 1 => compress (fun t => wordAt padded (64 * n + 4 * t)) (hashValue padded n)

/-- The bytes of a word, the first one first. -/
def wordBytes (x : Word) : List UInt8 :=
  [UInt8.ofNat (x.toNat / 2 ^ 24), UInt8.ofNat (x.toNat / 2 ^ 16), UInt8.ofNat (x.toNat / 2 ^ 8), UInt8.ofNat x.toNat]

/-- The hash of a message of whole bytes, as FIPS 180-4 states it. -/
def SHA256 (message : List UInt8) : List UInt8 :=
  (hashValue (pad message) ((pad message).length / 64)).toList.flatMap wordBytes

end sow.fips180
