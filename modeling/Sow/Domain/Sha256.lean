import Sow.Js.Fips180
import Sow.Js.Int32
import Sow.Js.Json
import Sow.Js.Utf8

open sow.js
open sow.fips180 (Eight Word)

namespace sow.domain

def SHA256_K : List Int :=
  [0x428a2f98, 0x71374491, 0xb5c0fbcf, 0xe9b5dba5, 0x3956c25b, 0x59f111f1, 0x923f82a4, 0xab1c5ed5,
    0xd807aa98, 0x12835b01, 0x243185be, 0x550c7dc3, 0x72be5d74, 0x80deb1fe, 0x9bdc06a7, 0xc19bf174,
    0xe49b69c1, 0xefbe4786, 0x0fc19dc6, 0x240ca1cc, 0x2de92c6f, 0x4a7484aa, 0x5cb0a9dc, 0x76f988da,
    0x983e5152, 0xa831c66d, 0xb00327c8, 0xbf597fc7, 0xc6e00bf3, 0xd5a79147, 0x06ca6351, 0x14292967,
    0x27b70a85, 0x2e1b2138, 0x4d2c6dfc, 0x53380d13, 0x650a7354, 0x766a0abb, 0x81c2c92e, 0x92722c85,
    0xa2bfe8a1, 0xa81a664b, 0xc24b8b70, 0xc76c51a3, 0xd192e819, 0xd6990624, 0xf40e3585, 0x106aa070,
    0x19a4c116, 0x1e376c08, 0x2748774c, 0x34b0bcb5, 0x391c0cb3, 0x4ed8aa4a, 0x5b9cca4f, 0x682e6ff3,
    0x748f82ee, 0x78a5636f, 0x84c87814, 0x8cc70208, 0x90befffa, 0xa4506ceb, 0xbef9a3f7, 0xc67178f2]

def SHA256_H0 : Eight Int :=
  ⟨0x6a09e667, 0xbb67ae85, 0x3c6ef372, 0xa54ff53a, 0x510e527f, 0x9b05688c, 0x1f83d9ab, 0x5be0cd19⟩

def rotr (x : Int) (n : Nat) : Int := ushr (bor (ushr x n) (shl x (32 - n))) 0

/-- `new Uint8Array(n)`, which throws where `n` is no index. -/
def newUint8Array (n : Int) : Option (List UInt8) := if 0 ≤ n ∧ n < 2 ^ 53 then some (List.replicate n.toNat 0) else none

/-- `array.set(source, offset)`, which throws where the source does not fit. -/
def setBytes (array : List UInt8) (offset : Int) (source : List UInt8) : Option (List UInt8) :=
  if 0 ≤ offset ∧ offset + source.length ≤ array.length then
    some (array.take offset.toNat ++ source ++ array.drop (offset.toNat + source.length))
  else none

/-- `view.setUint32(offset, value, false)` -/
def setUint32 (view : List UInt8) (offset value : Int) : Option (List UInt8) :=
  setBytes view offset (fips180.wordBytes (bits value))

/-- `view.getUint32(offset, false)` -/
def getUint32 (view : List UInt8) (offset : Int) : Option Int :=
  if 0 ≤ offset ∧ offset + 4 ≤ view.length then
    some (((view.getD offset.toNat 0).toNat * 2 ^ 24 + (view.getD (offset.toNat + 1) 0).toNat * 2 ^ 16 +
      (view.getD (offset.toNat + 2) 0).toNat * 2 ^ 8 + (view.getD (offset.toNat + 3) 0).toNat : Nat))
  else none

section

variable (plus : Int → Int → Int)

/-- The padded message, with the addition of numbers as `plus`. -/
def padMessage (msg : List UInt8) : Option (List UInt8) := do
  let length : Int := msg.length
  let withOne := plus length 1
  let zeroPad := (plus (plus 56 (-(withOne.tmod 64))) 64).tmod 64
  let totalLen := plus (plus withOne zeroPad) 8
  let padded ← newUint8Array totalLen
  let padded ← setBytes padded 0 msg
  let padded := padded.set msg.length 0x80
  let bitLenLow := ushr (length * 8) 0
  let bitLenHigh := length / 0x20000000
  let padded ← setUint32 padded (plus totalLen (-8)) bitLenHigh
  setUint32 padded (plus totalLen (-4)) bitLenLow

/-- The loop that reads the sixteen words of a block. -/
def readWords (view : List UInt8) (chunkStart : Int) (w : List Int) : Option (List Int) :=
  (List.range 16).foldlM (fun w i => (getUint32 view (plus chunkStart (i * 4 : Nat))).map fun value => w.set i value) w

/-- One step of the loop that extends them. -/
def extendWord (w : List Int) (i : Nat) : List Int :=
  let w15 := w.getD (i - 15) 0
  let w2 := w.getD (i - 2) 0
  let s0 := bxor (bxor (rotr w15 7) (rotr w15 18)) (ushr w15 3)
  let s1 := bxor (bxor (rotr w2 17) (rotr w2 19)) (ushr w2 10)
  w.set i (ushr (plus (plus (plus (w.getD (i - 16) 0) s0) (w.getD (i - 7) 0)) s1) 0)

def extendWords (w : List Int) : List Int := (List.range' 16 48).foldl (extendWord plus) w

/-- One step of the main loop; `hh` is the last of the eight. -/
def step (w : List Int) (v : Eight Int) (i : Nat) : Eight Int :=
  let bigS1 := bxor (bxor (rotr v.e 6) (rotr v.e 11)) (rotr v.e 25)
  let ch := bxor (band v.e v.f) (band (bnot v.e) v.g)
  let temp1 := ushr (plus (plus (plus (plus v.h bigS1) ch) (SHA256_K.getD i 0)) (w.getD i 0)) 0
  let bigS0 := bxor (bxor (rotr v.a 2) (rotr v.a 13)) (rotr v.a 22)
  let maj := bxor (bxor (band v.a v.b) (band v.a v.c)) (band v.b v.c)
  let temp2 := ushr (plus bigS0 maj) 0
  ⟨ushr (plus temp1 temp2) 0, v.a, v.b, v.c, ushr (plus v.d temp1) 0, v.e, v.f, v.g⟩

def addChunk (w : List Int) (h : Eight Int) : Eight Int :=
  h.zipWith (fun x y => ushr (plus x y) 0) ((List.range 64).foldl (step plus w) h)

/-- The loop over the blocks. -/
def chunkLoop (view : List UInt8) (totalLen : Int) : Nat → Int → List Int → Eight Int → Option (Eight Int)
  | 0, _, _, _ => none
  | fuel + 1, chunkStart, w, h =>
    if chunkStart < totalLen then do
      let w ← readWords plus view chunkStart w
      let w := extendWords plus w
      chunkLoop view totalLen fuel (plus chunkStart 64) w (addChunk plus w h)
    else some h

/-- `byte.toString(16).padStart(2, "0")` -/
def byteHex (byte : UInt8) : JsString :=
  let n := byte.toNat
  let digits := if n < 16 then [Json.hexDigit n] else [Json.hexDigit (n / 16), Json.hexDigit (n % 16)]
  List.replicate (2 - digits.length) (unit '0') ++ digits

/-- The digest of a string, or nothing where the source throws. -/
def sha256Hex (input : JsString) : Option JsString := do
  let padded ← padMessage plus (utf8 input)
  let h ← chunkLoop plus padded padded.length (padded.length / 64 + 1) 0 (List.replicate 64 0) SHA256_H0
  some ((h.toList.flatMap fun x => fips180.wordBytes (bits x)).flatMap byteHex)

end

section words

/-- A number of at most `n` summands of 32 bits. -/
def Bounded (n : Nat) (x : Int) : Prop := x.natAbs ≤ n * 2 ^ 32

theorem Bounded.of_fits32 {x : Int} (h : Fits32 x) : Bounded 1 x := by
  simp only [Fits32] at h
  simp only [Bounded]
  omega

variable {plus : Int → Int → Int}

/-- Sums of a few such numbers are exact. -/
theorem plus_bounded (hplus : ExactBelow plus) {m n : Nat} {a b : Int} (ha : Bounded m a) (hb : Bounded n b) (hmn : m + n ≤ 8) :
    plus a b = a + b ∧ Bounded (m + n) (a + b) := by
  simp only [Bounded] at ha hb ⊢
  have hsum : (a + b).natAbs ≤ (m + n) * 2 ^ 32 := by
    rw [Nat.add_mul]
    omega
  refine ⟨hplus a b ?_, hsum⟩
  have hle : (m + n) * 2 ^ 32 ≤ 8 * 2 ^ 32 := Nat.mul_le_mul_right _ hmn
  omega

theorem rotr_eq (x : Int) {n : Nat} (hpos : 0 < n) (hlt : n < 32) : rotr x n = num ((bits x).rotateRight n) := by
  rw [rotr, ushr_zero, bits_bor, bits_ushr, bits_shl, BitVec.rotateRight_def, Nat.mod_eq_of_lt hlt, Nat.mod_eq_of_lt (by omega)]

theorem ushr_plus (hplus : ExactBelow plus) {a b : Int} (ha : Fits32 a) (hb : Fits32 b) : ushr (plus a b) 0 = num (bits a + bits b) := by
  rw [ushr_zero, (plus_bounded hplus (.of_fits32 ha) (.of_fits32 hb) (by omega)).1, bits_add]

theorem SHA256_K_eq (i : Nat) : SHA256_K.getD i 0 = num (fips180.K.getD i 0) := by
  have hmap : SHA256_K = fips180.K.map num := by decide +kernel
  have hzero : (0 : Int) = num 0 := rfl
  rw [hmap, hzero, List.getD_eq_getElem?_getD, List.getElem?_map, Option.getD_map, List.getD_eq_getElem?_getD]

variable {block : Nat → Word} {w : List Int}

/-- One step of the main loop is one round. -/
theorem step_map (hplus : ExactBelow plus) (v : Eight Word) {i : Nat} (hw : w.getD i 0 = num (fips180.schedule block i)) :
    step plus w (v.map num) i = (fips180.round block v i).map num := by
  have hS1 : bxor (bxor (rotr (num v.e) 6) (rotr (num v.e) 11)) (rotr (num v.e) 25) = (fips180.bigSigma1 v.e).toInt := by
    rw [rotr_eq _ (by omega) (by omega), rotr_eq _ (by omega) (by omega), rotr_eq _ (by omega) (by omega)]
    simp only [bxor, bits_num, bits_toInt, fips180.bigSigma1]
  have hch : bxor (band (num v.e) (num v.f)) (band (bnot (num v.e)) (num v.g)) = (fips180.Ch v.e v.f v.g).toInt := by
    simp only [bxor, band, bnot, bits_num, bits_toInt, fips180.Ch]
  have hS0 : bxor (bxor (rotr (num v.a) 2) (rotr (num v.a) 13)) (rotr (num v.a) 22) = (fips180.bigSigma0 v.a).toInt := by
    rw [rotr_eq _ (by omega) (by omega), rotr_eq _ (by omega) (by omega), rotr_eq _ (by omega) (by omega)]
    simp only [bxor, bits_num, bits_toInt, fips180.bigSigma0]
  have hmaj : bxor (bxor (band (num v.a) (num v.b)) (band (num v.a) (num v.c))) (band (num v.b) (num v.c)) =
      (fips180.Maj v.a v.b v.c).toInt := by
    simp only [bxor, band, bits_num, bits_toInt, fips180.Maj]
  have htemp1 : ushr (plus (plus (plus (plus (num v.h) (fips180.bigSigma1 v.e).toInt) (fips180.Ch v.e v.f v.g).toInt)
      (num (fips180.K.getD i 0))) (num (fips180.schedule block i))) 0 =
      num (v.h + fips180.bigSigma1 v.e + fips180.Ch v.e v.f v.g + fips180.K.getD i 0 + fips180.schedule block i) := by
    obtain ⟨h1, b1⟩ := plus_bounded hplus (.of_fits32 (fits32_num v.h)) (.of_fits32 (fits32_toInt (fips180.bigSigma1 v.e))) (by omega)
    obtain ⟨h2, b2⟩ := plus_bounded hplus b1 (.of_fits32 (fits32_toInt (fips180.Ch v.e v.f v.g))) (by omega)
    obtain ⟨h3, b3⟩ := plus_bounded hplus b2 (.of_fits32 (fits32_num (fips180.K.getD i 0))) (by omega)
    obtain ⟨h4, -⟩ := plus_bounded hplus b3 (.of_fits32 (fits32_num (fips180.schedule block i))) (by omega)
    rw [h1, h2, h3, h4, ushr_zero]
    simp only [bits_add, bits_num, bits_toInt]
  have htemp2 : ushr (plus (fips180.bigSigma0 v.a).toInt (fips180.Maj v.a v.b v.c).toInt) 0 =
      num (fips180.bigSigma0 v.a + fips180.Maj v.a v.b v.c) := by
    rw [ushr_plus hplus (fits32_toInt _) (fits32_toInt _), bits_toInt, bits_toInt]
  simp only [step, Eight.map, fips180.round, SHA256_K_eq, hw, hS1, hch, hS0, hmaj, htemp1, htemp2]
  rw [ushr_plus hplus (fits32_num _) (fits32_num _), ushr_plus hplus (fits32_num _) (fits32_num _)]
  simp only [bits_num]

/-- An array of the first words of a schedule. -/
structure Scheduled (block : Nat → Word) (n : Nat) (w : List Int) : Prop where
  length : w.length = 64
  words : ∀ i < n, w.getD i 0 = num (fips180.schedule block i)

theorem Scheduled.set {n : Nat} (h : Scheduled block n w) (hn : n < 64) : Scheduled block (n + 1) (w.set n (num (fips180.schedule block n))) where
  length := by rw [List.length_set, h.length]
  words := by
    intro i hi
    have hlen := h.length
    rw [List.getD_eq_getElem?_getD, List.getElem?_set]
    split_ifs with heq hbound
    · rw [Option.getD_some, heq]
    · omega
    · rw [← List.getD_eq_getElem?_getD]
      exact h.words i (by omega)

theorem extendWord_scheduled (hplus : ExactBelow plus) {n : Nat} (h : Scheduled block n w) (hfrom : 16 ≤ n) (hn : n < 64) :
    Scheduled block (n + 1) (extendWord plus w n) := by
  have hvalue : extendWord plus w n = w.set n (num (fips180.schedule block n)) := by
    have hs0 : ∀ x : Word, bxor (bxor (rotr (num x) 7) (rotr (num x) 18)) (ushr (num x) 3) = (fips180.smallSigma0 x).toInt := by
      intro x
      rw [rotr_eq _ (by omega) (by omega), rotr_eq _ (by omega) (by omega)]
      simp only [bxor, ushr, bits_num, bits_toInt, fips180.smallSigma0, Nat.reduceMod]
    have hs1 : ∀ x : Word, bxor (bxor (rotr (num x) 17) (rotr (num x) 19)) (ushr (num x) 10) = (fips180.smallSigma1 x).toInt := by
      intro x
      rw [rotr_eq _ (by omega) (by omega), rotr_eq _ (by omega) (by omega)]
      simp only [bxor, ushr, bits_num, bits_toInt, fips180.smallSigma1, Nat.reduceMod]
    have h16 := h.words (n - 16) (by omega)
    have h15 := h.words (n - 15) (by omega)
    have h7 := h.words (n - 7) (by omega)
    have h2 := h.words (n - 2) (by omega)
    obtain ⟨e1, b1⟩ := plus_bounded hplus (.of_fits32 (fits32_num (fips180.schedule block (n - 16))))
      (.of_fits32 (fits32_toInt (fips180.smallSigma0 (fips180.schedule block (n - 15))))) (by omega)
    obtain ⟨e2, b2⟩ := plus_bounded hplus b1 (.of_fits32 (fits32_num (fips180.schedule block (n - 7)))) (by omega)
    obtain ⟨e3, -⟩ := plus_bounded hplus b2 (.of_fits32 (fits32_toInt (fips180.smallSigma1 (fips180.schedule block (n - 2))))) (by omega)
    simp only [extendWord, h16, h15, h7, h2, hs0, hs1, e1, e2, e3, ushr_zero, bits_add, bits_num, bits_toInt]
    rw [fips180.schedule_ge block hfrom]
    congr 2
    ac_rfl
  rw [hvalue]
  exact h.set hn

theorem extendWords_scheduled (hplus : ExactBelow plus) (h : Scheduled block 16 w) : Scheduled block 64 (extendWords plus w) := by
  have hrun : ∀ n, n ≤ 48 → Scheduled block (16 + n) ((List.range' 16 n).foldl (extendWord plus) w) := by
    intro n hn
    induction n with
    | zero => exact h
    | succ n ih =>
      rw [List.range'_concat, List.foldl_append, Nat.one_mul]
      have hlt : 16 + n < 64 := by omega
      exact extendWord_scheduled hplus (ih (by omega)) (Nat.le_add_right 16 n) hlt
  exact hrun 48 (Nat.le_refl _)

/-- A block is compressed as the standard compresses it. -/
theorem addChunk_map (hplus : ExactBelow plus) (h : Scheduled block 64 w) (v : Eight Word) :
    addChunk plus w (v.map num) = (fips180.compress block v).map num := by
  have hrun : ∀ n, n ≤ 64 → (List.range n).foldl (step plus w) (v.map num) = ((List.range n).foldl (fips180.round block) v).map num := by
    intro n hn
    induction n with
    | zero => rfl
    | succ n ih =>
      rw [List.range_succ, List.foldl_append, List.foldl_append, ih (by omega)]
      exact step_map hplus _ (h.words n (by omega))
  rw [addChunk, hrun 64 (Nat.le_refl _), fips180.compress]
  simp only [Eight.zipWith, Eight.map, ushr_plus hplus (fits32_num _) (fits32_num _), bits_num]

end words

section padding

variable {plus : Int → Int → Int}

theorem setBytes_append (a old b source : List UInt8) (hlen : old.length = source.length) :
    setBytes (a ++ old ++ b) a.length source = some (a ++ source ++ b) := by
  have hfit : (0 : Int) ≤ a.length ∧ (a.length : Int) + source.length ≤ (a ++ old ++ b).length := by
    simp only [List.length_append]
    omega
  rw [setBytes, if_pos hfit, Int.toNat_natCast, List.append_assoc a old b, List.take_left, ← List.drop_drop, List.drop_left, ← hlen,
    List.drop_left, List.append_assoc]

theorem wordBytes_length (length : Nat) (hlt : length < 2 ^ 53) :
    fips180.wordBytes (bits (length / 0x20000000 : Int)) ++ fips180.wordBytes (bits (ushr (length * 8 : Int) 0)) = fips180.lengthBytes length := by
  have hhigh : (bits (length / 0x20000000 : Int)).toNat = length / 2 ^ 29 := by
    rw [show (length / 0x20000000 : Int) = ((length / 2 ^ 29 : Nat) : Int) by omega, bits, BitVec.ofInt_natCast, BitVec.toNat_ofNat]
    omega
  have hlow : (bits (ushr (length * 8 : Int) 0)).toNat = length * 8 % 2 ^ 32 := by
    rw [ushr_zero, bits_num, show (length * 8 : Int) = ((length * 8 : Nat) : Int) by omega, bits, BitVec.ofInt_natCast, BitVec.toNat_ofNat]
  have hbyte : ∀ {m n : Nat}, m % 256 = n % 256 → UInt8.ofNat m = UInt8.ofNat n := by
    intro m n h
    apply UInt8.toNat_inj.mp
    rw [UInt8.toNat_ofNat', UInt8.toNat_ofNat']
    exact h
  simp only [fips180.wordBytes, hhigh, hlow, fips180.lengthBytes, List.cons_append, List.nil_append]
  simp only [show List.range 8 = [0, 1, 2, 3, 4, 5, 6, 7] from rfl, List.map_cons, List.map_nil, List.cons.injEq, and_true]
  refine ⟨hbyte ?_, hbyte ?_, hbyte ?_, hbyte ?_, hbyte ?_, hbyte ?_, hbyte ?_, hbyte ?_⟩ <;> omega

/-- The writes into the new array lay out the message, the one bit, the zero bytes and
    the two halves of the length. -/
theorem writes_eq (msg : List UInt8) (z : Nat) (high low : Int) :
    (do
      let padded ← setBytes (List.replicate (msg.length + 1 + z + 8) 0) 0 msg
      let padded ← setUint32 (padded.set msg.length 0x80) (msg.length + 1 + z : Nat) high
      setUint32 padded (msg.length + 1 + z + 4 : Nat) low) =
    some (msg ++ 0x80 :: (List.replicate z 0 ++ (fips180.wordBytes (bits high) ++ fips180.wordBytes (bits low)))) := by
  have hroom : List.replicate (msg.length + 1 + z + 8) (0 : UInt8) =
      [] ++ List.replicate msg.length 0 ++ (0 :: (List.replicate z 0 ++ List.replicate 8 0)) := by
    rw [List.nil_append, ← List.replicate_add, ← List.replicate_succ, ← List.replicate_add]
    congr 1
    omega
  have hset : setBytes (List.replicate (msg.length + 1 + z + 8) 0) 0 msg =
      some (msg ++ 0 :: (List.replicate z 0 ++ List.replicate 8 0)) := by
    rw [hroom]
    exact setBytes_append [] _ _ msg (List.length_replicate ..)
  have hmark : (msg ++ 0 :: (List.replicate z 0 ++ List.replicate 8 0)).set msg.length 0x80 =
      msg ++ (0x80 : UInt8) :: List.replicate z 0 ++ List.replicate 4 0 ++ List.replicate 4 0 := by
    rw [List.set_append_right _ _ (Nat.le_refl _), Nat.sub_self, List.set_cons_zero]
    simp only [List.append_assoc, List.cons_append, ← List.replicate_add]
  have hfront : (msg ++ (0x80 : UInt8) :: List.replicate z 0).length = msg.length + 1 + z := by
    rw [List.length_append, List.length_cons, List.length_replicate]
    omega
  have hhigh := setBytes_append (msg ++ 0x80 :: List.replicate z 0) (List.replicate 4 0) (List.replicate 4 0)
    (fips180.wordBytes (bits high)) rfl
  have hlow := setBytes_append (msg ++ 0x80 :: List.replicate z 0 ++ fips180.wordBytes (bits high)) (List.replicate 4 0) []
    (fips180.wordBytes (bits low)) rfl
  have hback : (msg ++ (0x80 : UInt8) :: List.replicate z 0 ++ fips180.wordBytes (bits high)).length = msg.length + 1 + z + 4 := by
    rw [List.length_append, hfront]
    rfl
  rw [hfront] at hhigh
  rw [hback, List.append_nil, List.append_nil] at hlow
  simp only [setUint32, hset, hmark, hhigh, hlow, Option.bind_eq_bind, Option.bind_some]
  simp only [List.append_assoc, List.cons_append]

/-- The padded message is that of the standard, for every length that leaves room below `2 ^ 53`. -/
theorem padMessage_eq (hplus : ExactBelow plus) (msg : List UInt8) (hlen : msg.length ≤ 2 ^ 53 - 73) :
    padMessage plus msg = some (fips180.pad msg) := by
  have hzeros := fips180.zeros_eq msg.length
  have hone : plus (msg.length : Int) 1 = (msg.length + 1 : Nat) := by
    rw [hplus _ _ (by omega)]
    omega
  have hmod : (((msg.length + 1 : Nat) : Int).tmod 64) = ((msg.length + 1) % 64 : Nat) := by
    rw [Int.tmod_eq_emod_of_nonneg (by omega)]
    omega
  have hfirst : plus 56 (-(((msg.length + 1) % 64 : Nat) : Int)) = 56 - ((msg.length + 1) % 64 : Nat) := by
    rw [hplus _ _ (by omega)]
    omega
  have hzero : (plus (56 - ((msg.length + 1) % 64 : Nat)) 64).tmod 64 = (fips180.zeros msg.length : Nat) := by
    rw [hplus _ _ (by omega), Int.tmod_eq_emod_of_nonneg (by omega)]
    omega
  have htotal : plus (plus ((msg.length + 1 : Nat) : Int) (fips180.zeros msg.length : Nat)) 8 =
      (msg.length + 1 + fips180.zeros msg.length + 8 : Nat) := by
    rw [hplus ((msg.length + 1 : Nat) : Int) (fips180.zeros msg.length : Nat) (by omega), hplus _ 8 (by omega)]
    omega
  have hnew : newUint8Array (msg.length + 1 + fips180.zeros msg.length + 8 : Nat) =
      some (List.replicate (msg.length + 1 + fips180.zeros msg.length + 8) 0) := by
    rw [newUint8Array, if_pos (by omega), Int.toNat_natCast]
  have hhigh : plus ((msg.length + 1 + fips180.zeros msg.length + 8 : Nat) : Int) (-8) =
      (msg.length + 1 + fips180.zeros msg.length : Nat) := by
    rw [hplus _ _ (by omega)]
    omega
  have hlow : plus ((msg.length + 1 + fips180.zeros msg.length + 8 : Nat) : Int) (-4) =
      (msg.length + 1 + fips180.zeros msg.length + 4 : Nat) := by
    rw [hplus _ _ (by omega)]
    omega
  simp only [padMessage, hone, hmod, hfirst, hzero, htotal, hnew, hhigh, hlow, Option.bind_eq_bind, Option.bind_some]
  have hwrites := writes_eq msg (fips180.zeros msg.length) (msg.length / 0x20000000) (ushr (msg.length * 8) 0)
  rw [wordBytes_length msg.length (by omega)] at hwrites
  exact hwrites

end padding

section chunks

variable {plus : Int → Int → Int} {view : List UInt8}

theorem getUint32_eq {i : Nat} (h : i + 4 ≤ view.length) : getUint32 view i = some (num (fips180.wordAt view i)) := by
  have h0 := (view.getD i 0).toNat_lt
  have h1 := (view.getD (i + 1) 0).toNat_lt
  have h2 := (view.getD (i + 2) 0).toNat_lt
  have h3 := (view.getD (i + 3) 0).toNat_lt
  rw [getUint32, if_pos (by omega), Int.toNat_natCast, num, fips180.wordAt, BitVec.toNat_ofNat, Nat.mod_eq_of_lt (by omega)]

variable {n : Nat} {w : List Int}

/-- The first loop of a block reads the words the schedule begins with. -/
theorem readWords_scheduled (hplus : ExactBelow plus) (hbound : view.length < 2 ^ 53) (hn : 64 * n + 64 ≤ view.length) (hw : w.length = 64) :
    ∃ w', readWords plus view (64 * n : Nat) w = some w' ∧ Scheduled (fun t => fips180.wordAt view (64 * n + 4 * t)) 16 w' := by
  have hrun : ∀ k, k ≤ 16 → ∃ w', (List.range k).foldlM (fun w i => (getUint32 view (plus (64 * n : Nat) (i * 4 : Nat))).map
      fun value => w.set i value) w = some w' ∧ Scheduled (fun t => fips180.wordAt view (64 * n + 4 * t)) k w' := by
    intro k hk
    induction k with
    | zero => exact ⟨w, rfl, hw, fun i hi => absurd hi (Nat.not_lt_zero i)⟩
    | succ k ih =>
      obtain ⟨w', hw', hs⟩ := ih (by omega)
      have hoffset : plus (64 * n : Nat) (k * 4 : Nat) = (64 * n + 4 * k : Nat) := by
        rw [hplus _ _ (by omega)]
        omega
      have hstep := hs.set (show k < 64 by omega)
      rw [fips180.schedule_lt _ (show k < 16 by omega)] at hstep
      refine ⟨_, ?_, hstep⟩
      rw [List.range_succ, List.foldlM_append, hw', Option.bind_eq_bind, Option.bind_some, List.foldlM_cons, hoffset,
        getUint32_eq (by omega)]
      rfl
  exact hrun 16 (Nat.le_refl _)

/-- The loop over the blocks computes the hash value after the last of them. -/
theorem chunkLoop_eq (hplus : ExactBelow plus) {N fuel : Nat} (hN : view.length = 64 * N) (hbound : view.length < 2 ^ 53)
    (hfuel : N < n + fuel) (hn : n ≤ N) (hw : w.length = 64) :
    chunkLoop plus view view.length fuel (64 * n : Nat) w ((fips180.hashValue view n).map num) = some ((fips180.hashValue view N).map num) := by
  induction fuel generalizing n w with
  | zero => omega
  | succ fuel ih =>
    rw [chunkLoop]
    split_ifs with hlt
    · obtain ⟨w', hread, hs⟩ := readWords_scheduled hplus hbound (show 64 * n + 64 ≤ view.length by omega) hw
      have hext := extendWords_scheduled hplus hs
      have hnext : plus (64 * n : Nat) 64 = (64 * (n + 1) : Nat) := by
        rw [hplus _ _ (by omega)]
        omega
      simp only [hread, Option.bind_eq_bind, Option.bind_some, addChunk_map hplus hext, hnext]
      exact ih (by omega) (by omega) hext.length
    · have heq : n = N := by omega
      rw [heq]

end chunks

/-- The digits of a digest. -/
def hexOf (digest : List UInt8) : JsString := digest.flatMap fun byte => [Json.hexDigit (byte.toNat / 16), Json.hexDigit (byte.toNat % 16)]

theorem byteHex_eq (byte : UInt8) : byteHex byte = [Json.hexDigit (byte.toNat / 16), Json.hexDigit (byte.toNat % 16)] := by
  simp only [byteHex]
  split_ifs with h
  · rw [Nat.div_eq_of_lt h, Nat.mod_eq_of_lt h]
    rfl
  · rfl

/-- Over any addition that is exact below `2 ^ 53`, the function is SHA-256 of the UTF-8
    bytes, and its padding that of the standard, in whole blocks. -/
theorem sha256Hex_eq_SHA256 {plus : Int → Int → Int} (hplus : ExactBelow plus) (input : JsString)
    (hlen : (utf8 input).length ≤ 2 ^ 53 - 73) :
    sha256Hex plus input = some (hexOf (fips180.SHA256 (utf8 input))) ∧ padMessage plus (utf8 input) = some (fips180.pad (utf8 input)) ∧
      (fips180.pad (utf8 input)).length % 64 = 0 := by
  have hpad := padMessage_eq hplus (utf8 input) hlen
  have hmod := fips180.length_pad_mod (utf8 input)
  refine ⟨?_, hpad, hmod⟩
  have hbound : (fips180.pad (utf8 input)).length < 2 ^ 53 := by
    rw [fips180.length_pad, fips180.zeros_eq]
    omega
  have hloop : chunkLoop plus (fips180.pad (utf8 input)) (fips180.pad (utf8 input)).length ((fips180.pad (utf8 input)).length / 64 + 1)
      (64 * 0 : Nat) (List.replicate 64 0) (fips180.H0.map num) =
      some ((fips180.hashValue (fips180.pad (utf8 input)) ((fips180.pad (utf8 input)).length / 64)).map num) :=
    chunkLoop_eq hplus (by omega) hbound (by omega) (Nat.zero_le _) (List.length_replicate ..)
  have hH0 : SHA256_H0 = fips180.H0.map num := by decide +kernel
  have hdigest : ∀ v : Eight Word, (v.map num).toList.flatMap (fun x => fips180.wordBytes (bits x)) = v.toList.flatMap fips180.wordBytes := by
    intro v
    rw [Eight.toList_map, List.flatMap_map]
    simp only [bits_num]
  have hhex : byteHex = fun byte => [Json.hexDigit (byte.toNat / 16), Json.hexDigit (byte.toNat % 16)] := funext byteHex_eq
  rw [Nat.mul_zero, Int.natCast_zero] at hloop
  simp only [sha256Hex, hpad, hH0, hloop, Option.bind_eq_bind, Option.bind_some, hdigest, hhex]
  rfl

theorem abc_digest : sha256Hex numberPlus (str "abc") = some (hexOf (fips180.SHA256 (utf8 (str "abc")))) ∧
    padMessage numberPlus (utf8 (str "abc")) = some (fips180.pad (utf8 (str "abc"))) ∧ (fips180.pad (utf8 (str "abc"))).length % 64 = 0 :=
  sha256Hex_eq_SHA256 exactBelow_numberPlus (str "abc") (by decide)

theorem length_utf8_replicate (n : Nat) : (utf8 (List.replicate n (unit 'a'))).length = n := by
  induction n with
  | zero => rfl
  | succ n ih =>
    rw [List.replicate_succ, utf8_cons (by decide), List.length_append, ih, Nat.add_comm]
    rfl

/-- The padded form of the largest messages is longer than an array can be. -/
theorem padMessage_eq_none {msg : List UInt8} (h : msg.length = 2 ^ 53 - 1) : padMessage numberPlus msg = none := by
  have htotal : numberPlus (numberPlus (numberPlus ((2 ^ 53 - 1 : Nat) : Int) 1)
      ((numberPlus (numberPlus 56 (-((numberPlus ((2 ^ 53 - 1 : Nat) : Int) 1).tmod 64))) 64).tmod 64)) 8 = 2 ^ 53 + 64 := by
    decide +kernel
  simp only [padMessage, h, htotal, newUint8Array]
  rw [if_neg (by omega)]
  rfl

theorem largestInput_throws : (utf8 (List.replicate (2 ^ 53 - 1) (unit 'a'))).length < 2 ^ 53 ∧
    sha256Hex numberPlus (List.replicate (2 ^ 53 - 1) (unit 'a')) = none := by
  have hlength := length_utf8_replicate (2 ^ 53 - 1)
  refine ⟨by omega, ?_⟩
  rw [sha256Hex, padMessage_eq_none hlength]
  rfl

end sow.domain
