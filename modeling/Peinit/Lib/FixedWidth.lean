import Mathlib

/-!
# Numbers of a fixed width

Deadlines are 64-bit numbers of nanoseconds; sums and products stop at the largest of them.
`beBytes width value` are the `width` lowest bytes of a number, the most significant one first;
`ofBeBytes` reads bytes back as a number.
-/

namespace Peinit

def u64Max : ℕ := 2 ^ 64 - 1

def saturatingAdd (a b : ℕ) : ℕ := min (a + b) u64Max

def saturatingMul (a b : ℕ) : ℕ := min (a * b) u64Max

/-- The plain product of two numbers, which wraps around. -/
def wrappingMul (a b : ℕ) : ℕ := a * b % 2 ^ 64

def nanosPerSec : ℕ := 1000000000

/-- The time `secs` seconds after `fromNs`. -/
def deadlineNs (fromNs secs : ℕ) : ℕ := saturatingAdd fromNs (saturatingMul secs nanosPerSec)

/-! ## Big-endian bytes -/

open List

def beBytes : ℕ → ℕ → List UInt8
  | 0, _ => []
  | width + 1, value => beBytes width (value / 256) ++ [UInt8.ofNat value]

def ofBeBytes (bytes : List UInt8) : ℕ := bytes.foldl (fun value byte => value * 256 + byte.toNat) 0

@[simp] theorem length_beBytes (width value : ℕ) : (beBytes width value).length = width := by
  induction width generalizing value with
  | zero => rfl
  | succ width ih => simp [beBytes, ih]

theorem ofBeBytes_append_singleton (bytes : List UInt8) (byte : UInt8) :
    ofBeBytes (bytes ++ [byte]) = ofBeBytes bytes * 256 + byte.toNat := by
  simp [ofBeBytes]

theorem ofBeBytes_beBytes {width value : ℕ} (small : value < 256 ^ width) :
    ofBeBytes (beBytes width value) = value := by
  induction width generalizing value with
  | zero =>
    rw [pow_zero, Nat.lt_one_iff] at small
    subst small
    rfl
  | succ width ih =>
    have shorter : value / 256 < 256 ^ width := by
      rw [Nat.div_lt_iff_lt_mul (by decide), ← pow_succ]
      exact small
    rw [beBytes, ofBeBytes_append_singleton, ih shorter, UInt8.toNat_ofNat']
    exact Nat.div_add_mod' value 256

theorem ofBeBytes_lt (bytes : List UInt8) : ofBeBytes bytes < 256 ^ bytes.length := by
  induction bytes using reverseRecOn with
  | nil => decide
  | append_singleton bytes byte ih =>
    have last : byte.toNat < 256 := byte.toNat_lt
    rw [ofBeBytes_append_singleton, length_append, length_singleton, pow_succ]
    nlinarith

theorem beBytes_ofBeBytes (bytes : List UInt8) : beBytes bytes.length (ofBeBytes bytes) = bytes := by
  induction bytes using reverseRecOn with
  | nil => rfl
  | append_singleton bytes byte ih =>
    have last : byte.toNat < 256 := byte.toNat_lt
    have front : (ofBeBytes bytes * 256 + byte.toNat) / 256 = ofBeBytes bytes := by omega
    have back : UInt8.ofNat (ofBeBytes bytes * 256 + byte.toNat) = byte := by
      apply UInt8.toNat_inj.mp
      rw [UInt8.toNat_ofNat']
      omega
    rw [length_append, length_singleton, ofBeBytes_append_singleton, beBytes, front, back, ih]

theorem beBytes_eq_map (width value : ℕ) : beBytes width value =
    (range width).map fun i => UInt8.ofNat (value >>> (8 * (width - 1 - i))) := by
  induction width generalizing value with
  | zero => rfl
  | succ width ih =>
    rw [beBytes, ih, range_succ, map_append]
    congr 1
    · refine map_congr_left fun i mem => ?_
      have below := mem_range.mp mem
      rw [show width + 1 - 1 - i = (width - 1 - i) + 1 by omega, Nat.mul_add_one,
        Nat.shiftRight_eq_div_pow, Nat.shiftRight_eq_div_pow, Nat.div_div_eq_div_mul, pow_add,
        mul_comm]
      rfl
    · simp

end Peinit
