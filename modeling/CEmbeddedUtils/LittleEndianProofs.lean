import Mathlib.Data.Nat.Digits.Defs

/-! # Little-endian words — bytes by shift and mask

    A word is written as its bytes, the lowest first, each cut out by a shift
    and a mask; it is read back as a sum of shifted bytes.  C computes both on
    PROMOTED operands: a word narrower than `int` is widened first, with its
    sign when its type has one, and the sum is cut down again at the end.  The
    widening does not show in the bytes nor in the sum. -/

namespace LittleEndian

/-- `uint8_t`. -/
abbrev Byte := BitVec 8

/-- The lowest `count` bytes of a number, the lowest first. -/
def bytesOf : Nat → Nat → List Byte
  | 0, _ => []
  | count + 1, v => BitVec.ofNat 8 v :: bytesOf count (v / 256)

/-- The number with the given bytes, the lowest first. -/
def value (bytes : List Byte) : Nat := Nat.ofDigits 256 (bytes.map BitVec.toNat)

@[simp] theorem value_nil : value [] = 0 := rfl

@[simp] theorem value_cons (byte : Byte) (bytes : List Byte) :
    value (byte :: bytes) = byte.toNat + 256 * value bytes := Nat.ofDigits_cons

@[simp] theorem length_bytesOf (count v : Nat) : (bytesOf count v).length = count := by
  induction count generalizing v with
  | zero => rfl
  | succ count ih => rw [bytesOf, List.length_cons, ih]

/-- **BYTES AND BACK**: the bytes of a number determine it up to their range. -/
theorem value_bytesOf (count v : Nat) : value (bytesOf count v) = v % 256 ^ count := by
  induction count generalizing v with
  | zero => rw [bytesOf, value_nil, pow_zero, Nat.mod_one]
  | succ count ih =>
      rw [bytesOf, value_cons, BitVec.toNat_ofNat, ih, pow_succ' 256]
      exact Nat.mod_mul.symm

/-- The value stays below one more digit position. -/
theorem value_lt (bytes : List Byte) : value bytes < 256 ^ bytes.length := by
  induction bytes with
  | nil => exact Nat.one_pos
  | cons byte bytes ih =>
      have hbyte : byte.toNat < 256 := byte.isLt
      rw [value_cons, List.length_cons, pow_succ']
      omega

/-- **BYTES FROM THE VALUE**: cutting the value up again gives the bytes. -/
theorem bytesOf_value (bytes : List Byte) : bytesOf bytes.length (value bytes) = bytes := by
  induction bytes with
  | nil => rfl
  | cons byte bytes ih =>
      have hfirst : BitVec.ofNat 8 (byte.toNat + 256 * value bytes) = byte := by
        apply BitVec.eq_of_toNat_eq
        rw [BitVec.toNat_ofNat, Nat.add_mul_mod_self_left, Nat.mod_eq_of_lt byte.isLt]
      have hrest : (byte.toNat + 256 * value bytes) / 256 = value bytes := by
        rw [Nat.add_mul_div_left _ _ (by decide), Nat.div_eq_of_lt byte.isLt, Nat.zero_add]
      rw [List.length_cons, bytesOf, value_cons, hfirst, hrest, ih]

/-- The last byte counts most. -/
theorem value_append_singleton (bytes : List Byte) (byte : Byte) :
    value (bytes ++ [byte]) = value bytes + byte.toNat * 256 ^ bytes.length := by
  rw [value, List.map_append, Nat.ofDigits_append, List.length_map]
  simp [value, Nat.mul_comm]

/-! ## Integer promotion -/

/-- Whether an integer type has a sign. -/
inductive Signedness where
  | unsigned
  | signed

/-- The width of the type an operand of `n` bits is promoted to: `int` has 32. -/
def promotedBits (n : Nat) : Nat := max n 32

variable {n : Nat}

theorem le_promotedBits (n : Nat) : n ≤ promotedBits n := Nat.le_max_left n 32

/-- An operand after integer promotion. -/
def promote : Signedness → BitVec n → BitVec (promotedBits n)
  | .unsigned, x => x.setWidth _
  | .signed, x => x.signExtend _

/-- `x >> shift` of a promoted operand: a negative one keeps its sign. -/
def shiftRight : Signedness → BitVec n → Nat → BitVec n
  | .unsigned, x, shift => x >>> shift
  | .signed, x, shift => x.sshiftRight shift

/-- Cutting a promoted word down again gives the word. -/
theorem setWidth_promote (sign : Signedness) (x : BitVec n) : (promote sign x).setWidth n = x := by
  have hn := le_promotedBits n
  ext i hi
  cases sign with
  | unsigned => simp [promote, hi, Nat.lt_of_lt_of_le hi hn]
  | signed => simp [promote, BitVec.getElem_signExtend, hi, Nat.lt_of_lt_of_le hi hn]

/-! ## Writing a word -/

/-- `(uint8_t)((element >> shift) & 0xFF)`. -/
def byteAt (sign : Signedness) (element : BitVec n) (shift : Nat) : Byte :=
  (shiftRight sign (promote sign element) shift &&& 0xFF#(promotedBits n)).setWidth 8

/-- The bits of the word that the shift brings down. -/
theorem byteAt_eq (sign : Signedness) (element : BitVec n) {shift : Nat} (h : shift + 8 ≤ n) :
    byteAt sign element shift = BitVec.ofNat 8 (element.toNat / 2 ^ shift) := by
  have hn := le_promotedBits n
  -- the mask keeps the low eight bits, all of which come from the word itself
  have hmask : ∀ i, i < 8 → (255 : Nat).testBit i = true := by decide
  apply BitVec.eq_of_getLsbD_eq
  intro i hi
  have hin : shift + i < n := by omega
  have hin' : shift + i < promotedBits n := Nat.lt_of_lt_of_le hin hn
  rw [byteAt, BitVec.getLsbD_setWidth, BitVec.getLsbD_and, BitVec.getLsbD_ofNat,
    BitVec.getLsbD_ofNat, hmask i hi, Nat.testBit_div_two_pow]
  cases sign with
  | unsigned =>
      rw [shiftRight, promote, BitVec.getLsbD_ushiftRight, BitVec.getLsbD_setWidth]
      simp [hi, hin', show i < promotedBits n by omega, BitVec.getLsbD, Nat.add_comm]
  | signed =>
      rw [shiftRight, promote, BitVec.getLsbD_sshiftRight, BitVec.getLsbD_signExtend]
      simp [hi, hin, hin', show i < promotedBits n by omega, BitVec.getLsbD, Nat.add_comm]

/-- The shifts of `count` bytes from `shift` on. -/
def byteShifts : Nat → Nat → List Nat
  | 0, _ => []
  | count + 1, shift => shift :: byteShifts count (shift + 8)

@[simp] theorem length_byteShifts (count shift : Nat) :
    (byteShifts count shift).length = count := by
  induction count generalizing shift with
  | zero => rfl
  | succ count ih => rw [byteShifts, List.length_cons, ih]

/-- The bytes at all shifts are the bytes of the word from the first shift on. -/
theorem map_byteAt (sign : Signedness) (element : BitVec n) (count shift : Nat)
    (h : shift + 8 * count ≤ n) :
    (byteShifts count shift).map (byteAt sign element)
      = bytesOf count (element.toNat / 2 ^ shift) := by
  induction count generalizing shift with
  | zero => rfl
  | succ count ih =>
      rw [byteShifts, List.map_cons, byteAt_eq sign element (by omega), ih _ (by omega), bytesOf,
        Nat.div_div_eq_div_mul, pow_add]
      rfl

/-! ## Reading a word -/

/-- `((T)byte << shift)` for the type `T` of `n` bits. -/
def shiftedByte (sign : Signedness) (n : Nat) (byte : Byte) (shift : Nat) :
    BitVec (promotedBits n) :=
  promote sign (byte.setWidth n) <<< shift

/-- The sum of the shifted bytes, cut down to the type. -/
def gather (sign : Signedness) (n : Nat) (shifts : List Nat) (bytes : List Byte) : BitVec n :=
  ((List.zipWith (shiftedByte sign n) bytes shifts).foldl (· + ·) 0).setWidth n

/-- One more shifted byte counts for its position. -/
theorem setWidth_shiftedByte (sign : Signedness) (n : Nat) (byte : Byte) (shift : Nat) :
    (shiftedByte sign n byte shift).setWidth n = BitVec.ofNat n (byte.toNat * 2 ^ shift) := by
  rw [shiftedByte, BitVec.setWidth_shiftLeft_of_le (le_promotedBits n), setWidth_promote]
  apply BitVec.eq_of_toNat_eq
  rw [BitVec.toNat_shiftLeft, BitVec.toNat_setWidth, BitVec.toNat_ofNat, Nat.shiftLeft_eq,
    Nat.mod_mul_mod]

/-- The sum from a partial sum and a shift on. -/
theorem setWidth_foldl_shiftedByte (sign : Signedness) (n : Nat) (bytes : List Byte)
    (shift : Nat) (sum : BitVec (promotedBits n)) :
    ((List.zipWith (shiftedByte sign n) bytes (byteShifts bytes.length shift)).foldl (· + ·)
        sum).setWidth n
      = sum.setWidth n + BitVec.ofNat n (value bytes * 2 ^ shift) := by
  induction bytes generalizing shift sum with
  | nil => simp [byteShifts]
  | cons byte bytes ih =>
      rw [List.length_cons, byteShifts, List.zipWith_cons_cons, List.foldl_cons, ih,
        BitVec.setWidth_add _ _ (le_promotedBits n), setWidth_shiftedByte, BitVec.add_assoc,
        ← BitVec.ofNat_add, value_cons]
      congr 2
      ring

/-- **THE SUM IS THE VALUE**: shifted bytes in order sum up to the number they
    stand for, modulo the range of the type. -/
theorem gather_eq (sign : Signedness) (n : Nat) (bytes : List Byte) :
    gather sign n (byteShifts bytes.length 0) bytes = BitVec.ofNat n (value bytes) := by
  rw [gather, setWidth_foldl_shiftedByte, pow_zero, Nat.mul_one]
  simp

/-- **ROUND TRIP**: a word of `count` bytes is the word of their value. -/
theorem ofNat_value_bytesOf (count : Nat) (hn : n = 8 * count) (x : BitVec n) :
    BitVec.ofNat n (value (bytesOf count x.toNat)) = x := by
  have hrange : 256 ^ count = 2 ^ n := by
    rw [hn, pow_mul]
    rfl
  apply BitVec.eq_of_toNat_eq
  rw [value_bytesOf, hrange, BitVec.toNat_ofNat, Nat.mod_mod, Nat.mod_eq_of_lt x.isLt]

end LittleEndian
