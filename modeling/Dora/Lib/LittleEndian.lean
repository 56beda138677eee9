import Mathlib

/-!
# LittleEndian — fixed-width little-endian numbers in byte strings

`leBytes w n` are the `w` low bytes of `n`, least significant first; `ofLeBytes` reads a byte string
back as a number. Reading undoes writing for every number that fits the width.
-/

namespace Dora.Lib

abbrev Bytes := List UInt8

def leBytes : Nat → Nat → Bytes
  | 0, _ => []
  | w + 1, n => UInt8.ofNat n :: leBytes w (n / 256)

def ofLeBytes : Bytes → Nat
  | [] => 0
  | b :: bs => b.toNat + 256 * ofLeBytes bs

@[simp] theorem length_leBytes (w n : Nat) : (leBytes w n).length = w := by
  induction w generalizing n with
  | zero => rfl
  | succ w ih => simp only [leBytes, List.length_cons, ih]

theorem ofLeBytes_leBytes (w n : Nat) (hn : n < 256 ^ w) : ofLeBytes (leBytes w n) = n := by
  induction w generalizing n with
  | zero =>
    have hzero : n = 0 := by simpa using hn
    rw [hzero]
    rfl
  | succ w ih =>
    have hrest : n / 256 < 256 ^ w := by
      rw [pow_succ] at hn
      omega
    simp only [leBytes, ofLeBytes, ih _ hrest, UInt8.toNat_ofNat']
    omega

theorem leBytes_ofLeBytes {w : Nat} {bytes : Bytes} (hlen : bytes.length = w) :
    leBytes w (ofLeBytes bytes) = bytes := by
  induction bytes generalizing w with
  | nil =>
    subst hlen
    rfl
  | cons b bs ih =>
    subst hlen
    have hb := b.toNat_lt
    have hfirst : UInt8.ofNat (b.toNat + 256 * ofLeBytes bs) = b := by
      apply UInt8.toNat_inj.mp
      rw [UInt8.toNat_ofNat']
      omega
    have hrest : (b.toNat + 256 * ofLeBytes bs) / 256 = ofLeBytes bs := by omega
    simp only [List.length_cons, leBytes, ofLeBytes, hfirst, hrest, ih rfl]

theorem ofLeBytes_lt (bytes : Bytes) : ofLeBytes bytes < 256 ^ bytes.length := by
  induction bytes with
  | nil => decide
  | cons b =>
    have hb := b.toNat_lt
    simp only [ofLeBytes, List.length_cons, pow_succ]
    omega

end Dora.Lib
