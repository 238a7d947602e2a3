import Mathlib.Data.List.Basic
import Mathlib.Tactic.Common

/-! # The standard base64 encoding

Padded base64 over bytes.  The decoder reads four symbols at a time, skips line breaks
wherever they stand, does not ask that the bits beyond the last byte are zero, and
refuses everything after the padding.
-/

namespace RunnerScout.Base64

/-- The symbol of a six-bit value. -/
def symbol (n : Nat) : UInt8 :=
  if n < 26 then UInt8.ofNat (65 + n)
  else if n < 52 then UInt8.ofNat (97 + (n - 26))
  else if n < 62 then UInt8.ofNat (48 + (n - 52))
  else if n = 62 then 43
  else 47

/-- The value of a symbol. -/
def sextet (c : UInt8) : Option Nat :=
  if 65 ≤ c.toNat ∧ c.toNat ≤ 90 then some (c.toNat - 65)
  else if 97 ≤ c.toNat ∧ c.toNat ≤ 122 then some (c.toNat - 97 + 26)
  else if 48 ≤ c.toNat ∧ c.toNat ≤ 57 then some (c.toNat - 48 + 52)
  else if c = 43 then some 62
  else if c = 47 then some 63
  else none

def padding : UInt8 := 61

def lineBreak (c : UInt8) : Bool := c = 10 || c = 13

/-! ## Encoding -/

def encode : List UInt8 → List UInt8
  | [] => []
  | [a] => [symbol (a.toNat / 4), symbol (a.toNat % 4 * 16), padding, padding]
  | [a, b] =>
    [symbol (a.toNat / 4), symbol (a.toNat % 4 * 16 + b.toNat / 16), symbol (b.toNat % 16 * 4), padding]
  | a :: b :: c :: rest =>
    symbol (a.toNat / 4) :: symbol (a.toNat % 4 * 16 + b.toNat / 16) :: symbol (b.toNat % 16 * 4 + c.toNat / 64) ::
      symbol (c.toNat % 64) :: encode rest

/-! ## Decoding -/

/-- The first byte of a quantum, from its first two values. -/
def firstByte (v w : Nat) : UInt8 := UInt8.ofNat (v * 4 + w / 16)

def secondByte (w x : Nat) : UInt8 := UInt8.ofNat (w % 16 * 16 + x / 4)

def thirdByte (x y : Nat) : UInt8 := UInt8.ofNat (x % 4 * 64 + y)

/-- What may follow a padding symbol after so many values, and the bytes it leaves. -/
def padded (quantum : List Nat) (rest : List UInt8) : Option (List UInt8) :=
  match quantum with
  | [v, w] =>
    match rest.dropWhile lineBreak with
    | c :: rest => if c = padding ∧ rest.all lineBreak then some [firstByte v w] else none
    | [] => none
  | [v, w, x] => if rest.all lineBreak then some [firstByte v w, secondByte w x] else none
  | _ => none

/-- Decode the rest of a text, with the values of the quantum begun. -/
def decodeFrom (quantum : List Nat) : List UInt8 → Option (List UInt8)
  | [] => if quantum.isEmpty then some [] else none
  | c :: rest =>
    match sextet c with
    | some y =>
      match quantum with
      | [v, w, x] => (decodeFrom [] rest).map fun bytes => firstByte v w :: secondByte w x :: thirdByte x y :: bytes
      | _ => decodeFrom (quantum ++ [y]) rest
    | none =>
      if lineBreak c then decodeFrom quantum rest
      else if c = padding then padded quantum rest
      else none

def decode (text : List UInt8) : Option (List UInt8) := decodeFrom [] text

/-! ## Decoding an encoding -/

theorem sextet_symbol {n : Nat} (small : n < 64) : sextet (symbol n) = some n := by
  have all : ∀ n < 64, sextet (symbol n) = some n := by decide
  exact all n small

theorem decodeFrom_symbol {n : Nat} (small : n < 64) {quantum : List Nat} (begun : quantum.length < 3)
    (rest : List UInt8) : decodeFrom quantum (symbol n :: rest) = decodeFrom (quantum ++ [n]) rest := by
  rw [decodeFrom, sextet_symbol small]
  match quantum, begun with
  | [], _ => rfl
  | [_], _ => rfl
  | [_, _], _ => rfl

theorem firstByte_toNat (a : UInt8) {high : Nat} (small : high < 16) :
    firstByte (a.toNat / 4) (a.toNat % 4 * 16 + high) = a := by
  have value : a.toNat / 4 * 4 + (a.toNat % 4 * 16 + high) / 16 = a.toNat := by omega
  rw [firstByte, value, UInt8.ofNat_toNat]

theorem secondByte_toNat (b : UInt8) (low : Nat) {high : Nat} (small : high < 4) :
    secondByte (low * 16 + b.toNat / 16) (b.toNat % 16 * 4 + high) = b := by
  have bound := b.toNat_lt
  have value : (low * 16 + b.toNat / 16) % 16 * 16 + (b.toNat % 16 * 4 + high) / 4 = b.toNat := by omega
  rw [secondByte, value, UInt8.ofNat_toNat]

theorem thirdByte_toNat (c : UInt8) (low : Nat) : thirdByte (low * 4 + c.toNat / 64) (c.toNat % 64) = c := by
  have bound := c.toNat_lt
  have value : (low * 4 + c.toNat / 64) % 4 * 64 + c.toNat % 64 = c.toNat := by omega
  rw [thirdByte, value, UInt8.ofNat_toNat]

theorem decode_encode : ∀ bytes : List UInt8, decode (encode bytes) = some bytes
  | [] => rfl
  | [a] => by
    have bound := a.toNat_lt
    rw [encode, decode, decodeFrom_symbol (by omega) (by simp), decodeFrom_symbol (by omega) (by simp)]
    have first := firstByte_toNat a (show 0 < 16 by decide)
    rw [Nat.add_zero] at first
    simp [decodeFrom, padded, padding, sextet, lineBreak, first]
  | [a, b] => by
    have boundA := a.toNat_lt
    have boundB := b.toNat_lt
    rw [encode, decode, decodeFrom_symbol (by omega) (by simp), decodeFrom_symbol (by omega) (by simp),
      decodeFrom_symbol (by omega) (by simp)]
    have first := firstByte_toNat a (show b.toNat / 16 < 16 by omega)
    have second := secondByte_toNat b (a.toNat % 4) (show 0 < 4 by decide)
    rw [Nat.add_zero] at second
    simp [decodeFrom, padded, padding, sextet, lineBreak, first, second]
  | a :: b :: c :: rest => by
    have boundA := a.toNat_lt
    have boundB := b.toNat_lt
    have boundC := c.toNat_lt
    have later : decodeFrom [] (encode rest) = some rest := decode_encode rest
    rw [encode, decode, decodeFrom_symbol (by omega) (by simp), decodeFrom_symbol (by omega) (by simp),
      decodeFrom_symbol (by omega) (by simp)]
    have last : c.toNat % 64 < 64 := by omega
    simp only [List.nil_append, List.cons_append]
    rw [decodeFrom, sextet_symbol last]
    dsimp only
    rw [later, firstByte_toNat a (by omega), secondByte_toNat b _ (by omega), thirdByte_toNat]
    rfl

/-! ## Texts that are no encoding -/

theorem decode_lineBreak {c : UInt8} (skipped : lineBreak c = true) (rest : List UInt8) :
    decode (c :: rest) = decode rest := by
  have outside : sextet c = none := by
    simp only [lineBreak, Bool.or_eq_true, decide_eq_true_eq] at skipped
    obtain rfl | rfl := skipped <;> decide
  rw [decode, decodeFrom, outside]
  dsimp only
  rw [if_pos skipped, decode]

/-- No text starts with a byte outside the alphabet, padding included. -/
theorem decode_foreign {c : UInt8} (outside : sextet c = none) (other : lineBreak c = false) (rest : List UInt8) :
    decode (c :: rest) = none := by
  rw [decode, decodeFrom, outside]
  simp [other, padded]

end RunnerScout.Base64
