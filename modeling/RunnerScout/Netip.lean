import Mathlib.Data.Nat.Bitwise
import RunnerScout.Golang

/-! # `net/netip`

Addresses and prefixes as the sources use them.  An address is a number below the size
of its family.  The textual forms are left to a `Netip`: nothing depends on them except
that different addresses are written differently.
-/

namespace RunnerScout

/-! ## Bytes -/

namespace Bytes

/-- The lowest `width` bytes of a number, the lowest one first. -/
def digits : Nat → Nat → List UInt8
  | 0, _ => []
  | width + 1, n => UInt8.ofNat (n % 256) :: digits width (n / 256)

def ofDigits : List UInt8 → Nat
  | [] => 0
  | byte :: rest => 2 ^ 8 * ofDigits rest + byte.toNat

@[simp] theorem length_digits (width n : Nat) : (digits width n).length = width := by
  induction width generalizing n with
  | zero => rfl
  | succ width ih => rw [digits, List.length_cons, ih]

theorem ofDigits_digits {width n : Nat} (fits : n < 256 ^ width) : ofDigits (digits width n) = n := by
  induction width generalizing n with
  | zero =>
    rw [pow_zero] at fits
    rw [digits, ofDigits]
    omega
  | succ width ih =>
    have smaller : n / 256 < 256 ^ width := by
      apply Nat.div_lt_of_lt_mul
      rwa [pow_succ, Nat.mul_comm] at fits
    have byte : (UInt8.ofNat (n % 256)).toNat = n % 256 := by
      simp
    rw [digits, ofDigits, ih smaller, byte]
    omega

theorem ofDigits_lt (bytes : List UInt8) : ofDigits bytes < 256 ^ bytes.length := by
  induction bytes with
  | nil => exact Nat.one_pos
  | cons byte rest ih =>
    have small := byte.toNat_lt
    rw [ofDigits, List.length_cons, pow_succ]
    omega

theorem testBit_ofDigits (byte : UInt8) (rest : List UInt8) (i : Nat) :
    (ofDigits (byte :: rest)).testBit i = if i < 8 then byte.toNat.testBit i else (ofDigits rest).testBit (i - 8) :=
  Nat.testBit_two_pow_mul_add _ byte.toNat_lt i

end Bytes

/-! ## Addresses -/

inductive Family where
  | v4
  | v6
deriving DecidableEq, Repr

/-- `Addr.BitLen` of a valid address. -/
def Family.bitLen : Family → Nat
  | .v4 => 32
  | .v6 => 128

/-- A valid address without a zone. -/
structure Addr where
  family : Family
  value : Nat
  bound : value < 2 ^ family.bitLen
deriving DecidableEq

namespace Addr

theorem ext_value {a b : Addr} (family : a.family = b.family) (value : a.value = b.value) : a = b := by
  cases a
  cases b
  cases family
  cases value
  rfl

/-- The following address, invalid past the last one of the family. -/
def next (a : Addr) : Option Addr :=
  if fits : a.value + 1 < 2 ^ a.family.bitLen then some ⟨a.family, a.value + 1, fits⟩ else none

/-- An IPv6 address of the form `::ffff:a.b.c.d`. -/
def is4In6 (a : Addr) : Bool := a.family = .v6 && a.value >>> 32 = 0xffff

/-- The IPv4 address of such an address. -/
def unmap (a : Addr) : Addr :=
  if a.is4In6 then ⟨.v4, a.value % 2 ^ 32, Nat.mod_lt _ (Nat.two_pow_pos 32)⟩ else a

def asSlice (a : Addr) : List UInt8 := (Bytes.digits (a.family.bitLen / 8) a.value).reverse

theorem fits_of_length {bytes : List UInt8} {family : Family} (length : bytes.length = family.bitLen / 8) :
    Bytes.ofDigits bytes.reverse < 2 ^ family.bitLen := by
  have small := Bytes.ofDigits_lt bytes.reverse
  rw [List.length_reverse, length] at small
  cases family
  · exact small
  · exact small

/-- `AddrFromSlice`: four bytes or sixteen. -/
def fromSlice (bytes : List UInt8) : Option Addr :=
  if four : bytes.length = 4 then some ⟨.v4, Bytes.ofDigits bytes.reverse, fits_of_length four⟩
  else if sixteen : bytes.length = 16 then some ⟨.v6, Bytes.ofDigits bytes.reverse, fits_of_length sixteen⟩
  else none

theorem fromSlice_of_length {bytes : List UInt8} {family : Family} (length : bytes.length = family.bitLen / 8) :
    fromSlice bytes = some ⟨family, Bytes.ofDigits bytes.reverse, fits_of_length length⟩ := by
  unfold fromSlice
  cases family with
  | v4 =>
    have four : bytes.length = 4 := length
    exact dif_pos four
  | v6 =>
    have sixteen : bytes.length = 16 := length
    exact (dif_neg (by omega)).trans (dif_pos sixteen)

end Addr

/-! ## Prefixes -/

structure Prefix where
  addr : Addr
  bits : Nat
  bound : bits ≤ addr.family.bitLen
deriving DecidableEq

namespace Prefix

def hostBits (p : Prefix) : Nat := p.addr.family.bitLen - p.bits

/-- The same prefix with the host bits of its address cleared. -/
def masked (p : Prefix) : Prefix where
  addr :=
    { family := p.addr.family
      value := p.addr.value >>> p.hostBits <<< p.hostBits
      bound := by
        rw [Nat.shiftRight_eq_div_pow, Nat.shiftLeft_eq]
        exact Nat.lt_of_le_of_lt (Nat.div_mul_le_self _ _) p.addr.bound }
  bits := p.bits
  bound := p.bound

def contains (p : Prefix) (a : Addr) : Bool :=
  a.family = p.addr.family && (a.value ^^^ p.addr.value) >>> p.hostBits = 0

/-- Whether two prefixes share an address: they agree as far as the shorter one goes. -/
def overlaps (p q : Prefix) : Bool :=
  p.addr.family = q.addr.family &&
    p.addr.value >>> (p.addr.family.bitLen - min p.bits q.bits) =
      q.addr.value >>> (q.addr.family.bitLen - min p.bits q.bits)

/-- The number of addresses. -/
def size (p : Prefix) : Nat := 2 ^ p.hostBits

theorem size_pos (p : Prefix) : 0 < p.size := Nat.two_pow_pos _

section Masked

variable {p : Prefix}

@[simp] theorem masked_hostBits (p : Prefix) : p.masked.hostBits = p.hostBits := rfl

theorem dvd_of_masked (canonical : p.masked = p) : p.size ∣ p.addr.value := by
  have value : p.masked.addr.value = p.addr.value := by rw [canonical]
  rw [← value]
  show p.size ∣ p.addr.value >>> p.hostBits <<< p.hostBits
  rw [Nat.shiftLeft_eq]
  exact Nat.dvd_mul_left _ _

/-- Clearing host bits changes no membership. -/
theorem contains_masked (p : Prefix) (a : Addr) : p.masked.contains a = p.contains a := by
  have shifted : (a.value ^^^ p.masked.addr.value) >>> p.hostBits = (a.value ^^^ p.addr.value) >>> p.hostBits := by
    rw [Nat.shiftRight_xor_distrib, Nat.shiftRight_xor_distrib]
    show _ ^^^ (p.addr.value >>> p.hostBits <<< p.hostBits) >>> p.hostBits = _
    rw [Nat.shiftLeft_shiftRight]
  unfold contains
  rw [masked_hostBits, shifted]
  rfl

theorem masked_masked (p : Prefix) : p.masked.masked = p.masked := by
  obtain ⟨⟨family, value, small⟩, bits, bound⟩ := p
  simp only [masked, hostBits, Nat.shiftLeft_shiftRight]

/-- The addresses of a canonical prefix are the `size` ones from its own. -/
theorem contains_iff (canonical : p.masked = p) {a : Addr} :
    p.contains a = true ↔ a.family = p.addr.family ∧ p.addr.value ≤ a.value ∧ a.value < p.addr.value + p.size := by
  obtain ⟨k, base⟩ := dvd_of_masked canonical
  have positive := p.size_pos
  have same : (a.value ^^^ p.addr.value) >>> p.hostBits = 0 ↔ a.value / p.size = k := by
    rw [Nat.shiftRight_xor_distrib, Nat.xor_eq_zero_iff, Nat.shiftRight_eq_div_pow, Nat.shiftRight_eq_div_pow]
    show a.value / p.size = p.addr.value / p.size ↔ _
    rw [base, Nat.mul_div_cancel_left k positive]
  unfold contains
  rw [Bool.and_eq_true, decide_eq_true_eq, decide_eq_true_eq, same, base, Nat.div_eq_iff positive]
  constructor
  · rintro ⟨family, lower, upper⟩
    refine ⟨family, by rwa [Nat.mul_comm], ?_⟩
    rw [Nat.mul_comm p.size k]
    omega
  · rintro ⟨family, lower, upper⟩
    refine ⟨family, by rwa [Nat.mul_comm] at lower, ?_⟩
    rw [Nat.mul_comm p.size k] at upper
    omega

/-- The last address of a canonical prefix is one of its family. -/
theorem end_le (canonical : p.masked = p) : p.addr.value + p.size ≤ 2 ^ p.addr.family.bitLen := by
  obtain ⟨k, base⟩ := dvd_of_masked canonical
  have whole : 2 ^ p.addr.family.bitLen = p.size * 2 ^ p.bits := by
    rw [size, ← pow_add, hostBits, Nat.sub_add_cancel p.bound]
  have inside := p.addr.bound
  rw [whole] at inside ⊢
  rw [base] at inside ⊢
  have step : k < 2 ^ p.bits := Nat.lt_of_mul_lt_mul_left inside
  calc p.size * k + p.size = p.size * (k + 1) := by rw [Nat.mul_succ]
    _ ≤ p.size * 2 ^ p.bits := Nat.mul_le_mul_left _ step

end Masked

end Prefix

/-- The textual forms of addresses and prefixes. -/
structure Netip where
  parsePrefix : String → Except GoError Prefix
  string : Addr → String
  string_injective : Function.Injective string
  string_ne_empty : ∀ a, string a ≠ ""

end RunnerScout
