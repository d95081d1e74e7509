import EntityGraph.Proofs.Number
import Mathlib

namespace EntityGraph

namespace Floating

open Float.Model Float.Model.UnpackedFloat

def Within (bound : Int) : UnpackedFloat → Prop
  | .zero _ => True
  | .finite _ _ e _ => e ≤ bound
  | _ => False

theorem Within.isFinite {bound : Int} {u : UnpackedFloat} (h : Within bound u) :
    u.isFinite = true := by
  cases u with
  | infinity s => exact h.elim
  | notANumber => exact h.elim
  | zero s => rfl
  | finite s m e hm => rfl

theorem Within.neg {bound : Int} {u : UnpackedFloat} (h : Within bound u) :
    Within bound u.neg := by
  cases u with
  | infinity s => exact h.elim
  | notANumber => exact h.elim
  | zero s => trivial
  | finite s m e hm => exact h

theorem mantissa_shiftRight_le (em : ExtendedMantissa) (n : Nat) :
    (em >>> n).mantissa ≤ em.mantissa := by
  induction n with
  | zero => exact Nat.le_refl _
  | succ n ih =>
    change (em >>> n).mantissa / 2 ≤ em.mantissa
    exact Nat.le_trans (Nat.div_le_self ..) ih

theorem roundedMantissa_le (em : ExtendedMantissa) : em.roundedMantissa ≤ em.mantissa + 1 := by
  rcases em with ⟨m, r, s⟩
  cases r <;> cases s <;>
    simp [ExtendedMantissa.roundedMantissa, ExtendedMantissa.accuracy,
      Accuracy.roundToNearestEven]
  omega

theorem log2_le_of_le {m k : Nat} (h : m ≤ 2 ^ k) : m.log2 ≤ k := by
  by_cases hm : m = 0
  · simp [hm]
  · have hlt : m < 2 ^ (k + 1) := by
      rw [Nat.pow_succ]
      omega
    exact Nat.le_of_lt_succ ((Nat.log2_lt hm).mpr hlt)

/-- A shift raises the exponent to the one of the format at most. -/
theorem exponent_shift_le {m k : Nat} {e bound : Int} {accuracy : Accuracy} (hm : m.log2 ≤ k)
    (he : e + k ≤ bound) (hmin : -1074 ≤ bound) :
    (shiftToTargetExponent Format.binary64 m e accuracy).2 ≤ bound := by
  simp only [shiftToTargetExponent, shiftToExponent, Format.targetExponent, totalExponent,
    Format.mantissaBits, Format.minExponent]
  omega

theorem mantissa_shift_le (m : Nat) (e : Int) (accuracy : Accuracy) :
    (shiftToTargetExponent Format.binary64 m e accuracy).1.mantissa ≤ m := by
  have hstart : (ExtendedMantissa.ofMantissaAndAccuracy m accuracy).mantissa = m := by
    cases accuracy with
    | exact => rfl
    | inexact o => cases o <;> rfl
  exact Nat.le_trans (mantissa_shiftRight_le ..) (Nat.le_of_eq hstart)

/-- Rounding shifts twice, the second time by a carry. -/
theorem within_round {s : Sign} {m k : Nat} {e bound : Int} {accuracy : Accuracy}
    (hm : m < 2 ^ k) (he : e + 2 * k ≤ bound) (hmin : k - 1074 ≤ bound) :
    Within bound (roundWithAccuracy Format.binary64 s m e accuracy) := by
  let first := shiftToTargetExponent Format.binary64 m e accuracy
  have hfirst : first.2 ≤ bound - k :=
    exponent_shift_le (log2_le_of_le (Nat.le_of_lt hm)) (by omega) (by omega)
  have hrounded : first.1.roundedMantissa ≤ 2 ^ k :=
    Nat.le_trans (roundedMantissa_le _) (Nat.succ_le_of_lt
      (Nat.lt_of_le_of_lt (mantissa_shift_le m e accuracy) hm))
  have hfinal : (shiftToTargetExponent Format.binary64 first.1.roundedMantissa first.2
      .exact).2 ≤ bound := exponent_shift_le (log2_le_of_le hrounded) (by omega) (by omega)
  unfold roundWithAccuracy
  dsimp only
  split
  · trivial
  · exact hfinal

/-- What is packed with an exponent below the bound is within it. -/
theorem within_unpack_packComponents {s : Sign} {e : BitVec 11} {m : BitVec 52} {bound : Int}
    (he : e.toNat ≤ bound + 1075) (htop : bound ≤ 971) (hmin : -1074 ≤ bound) :
    Within bound (UnpackedFloat.unpack Format.binary64
      (packComponents Format.binary64 s e m)) := by
  have hne : e ≠ -1#_ := by
    rw [ne_eq, BitVec.neg_one_eq_allOnes, ← BitVec.toNat_inj, BitVec.toNat_allOnes]
    omega
  have hbias : (Format.binary64.exponentBias : Int) + Format.binary64.mantissaBitsWithoutImplicit =
      1075 := rfl
  unfold UnpackedFloat.unpack
  simp only [unpackExponent_packComponents, unpackMantissa_packComponents]
  rw [if_neg hne]
  split
  · next hzero =>
    split
    · trivial
    · rw [Within, hzero, hbias]
      simpa using hmin
  · rw [Within, hbias]
    omega

/-- A number that is packed keeps the bound on its exponent, when the format has that exponent. -/
theorem Within.unpack_pack {bound : Int} {u : UnpackedFloat} (h : Within bound u)
    (htop : bound ≤ 971) (hmin : -1074 ≤ bound) :
    Within bound (UnpackedFloat.unpack Format.binary64 (u.pack Format.binary64)) := by
  cases u with
  | infinity s => exact h.elim
  | notANumber => exact h.elim
  | zero s => exact within_unpack_packComponents (by simp; omega) htop hmin
  | finite s m e hm =>
    have he : e ≤ bound := h
    -- Packing adds the bias, which is 1023, and the 52 bits of the mantissa.
    have hbias : e + Format.binary64.exponentBias + Format.binary64.mantissaBitsWithoutImplicit =
        e + 1075 := by
      rw [Int.add_assoc]
      rfl
    unfold UnpackedFloat.pack
    simp only [hbias]
    rw [if_neg (by change ¬ 2048 ≤ _; omega)]
    split
    · refine within_unpack_packComponents ?_ htop hmin
      have hle : (BitVec.ofNat 11 (e + 1075).toNat).toNat ≤ (e + 1075).toNat := by
        rw [BitVec.toNat_ofNat]
        exact Nat.mod_le ..
      omega
    · exact within_unpack_packComponents (by simp; omega) htop hmin

theorem mantissa_unpack_lt {w : BitVec 64} {s : Sign} {m : Nat} {e : Int} {hm : 0 < m}
    (h : UnpackedFloat.unpack Format.binary64 w = .finite s m e hm) : m < 2 ^ 53 := by
  unfold UnpackedFloat.unpack at h
  dsimp only at h
  split at h
  · split at h <;> cases h
  · split at h
    · split at h
      · cases h
      · cases h
        exact Nat.lt_trans (BitVec.isLt _) (by decide)
    · cases h
      exact BitVec.isLt _

/-- A product with a number below two to a power has its exponent bounded. -/
theorem within_mul {k : Nat} {w : BitVec 64} {s : Sign} {m : Nat} {e : Int} {hm : 0 < m}
    {b b' : Int} (hw : Within b (UnpackedFloat.unpack Format.binary64 w)) (hmk : m ≤ 2 ^ k)
    (hb : b + e + 2 * (53 + k) ≤ b') (hmin : 53 + k - 1074 ≤ b') :
    Within b' (UnpackedFloat.mul Format.binary64 (UnpackedFloat.unpack Format.binary64 w)
      (.finite s m e hm)) := by
  cases hu : UnpackedFloat.unpack Format.binary64 w with
  | infinity s =>
    rw [hu] at hw
    exact hw.elim
  | notANumber =>
    rw [hu] at hw
    exact hw.elim
  | zero s => trivial
  | finite s' m' e' hm' =>
    rw [hu] at hw
    have hw : e' ≤ b := hw
    have hlt : m' * m < 2 ^ (53 + k) := by
      rw [Nat.pow_add]
      exact Nat.mul_lt_mul_of_lt_of_le (mantissa_unpack_lt hu) hmk (Nat.two_pow_pos k)
    exact within_round hlt (by push_cast; omega) (by push_cast; omega)

theorem shiftLeft_lt {n k j : Nat} (h : n < 2 ^ k) : n <<< j < 2 ^ (k + j) := by
  rw [Nat.shiftLeft_eq, Nat.pow_add]
  exact Nat.mul_lt_mul_of_pos_right h (Nat.two_pow_pos j)

/-- Normalizing a whole number lowers its exponent by the width of a mantissa at most. -/
theorem within_normalize {n k : Nat} {bound : Int} {s : Sign} (hn : n < 2 ^ k)
    (hb : 2 * (k + 52) ≤ bound) : Within bound (UnpackedFloat.normalize Format.binary64 n 0 s) := by
  unfold UnpackedFloat.normalize
  split
  · next h =>
    rw [Int.compare_eq_lt] at h
    omega
  · trivial
  · rw [Int.toNat_natCast, UnpackedFloat.round]
    let j := (0 - Format.binary64.targetExponent (totalExponent n 0)).toNat
    have hj : j ≤ 52 := by
      simp only [j, Format.targetExponent, totalExponent, Format.mantissaBits, Format.minExponent]
      omega
    have hlt : n <<< j < 2 ^ (k + 52) :=
      Nat.lt_of_lt_of_le (shiftLeft_lt hn) (Nat.pow_le_pow_right (by decide) (by omega))
    exact within_round hlt (by push_cast; omega) (by push_cast; omega)

theorem within_ofScientific {n : Nat} (hn : n < 2 ^ 65) :
    Within 971 (UnpackedFloat.ofScientific Format.binary64 n 0) := by
  unfold UnpackedFloat.ofScientific
  split
  · trivial
  · have hbits : (2 : Int) ^ Format.binary64.exponentBits = 2048 := rfl
    have hwidth : Format.binary64.mantissaBits = 53 := rfl
    have hlt : n <<< 53 * 10 ^ (0 : Int).toNat < 2 ^ 118 := by
      rw [Int.toNat_zero, Nat.pow_zero, Nat.mul_one]
      exact shiftLeft_lt hn
    rw [hbits, if_neg (by decide), if_neg (by omega), if_pos (Int.le_refl 0), UnpackedFloat.mul,
      hwidth]
    -- The product stays a variable, so that nothing computes with it.
    generalize n <<< 53 * 10 ^ (0 : Int).toNat = m at hlt ⊢
    exact within_round hlt (by decide) (by decide)

/-- Natural numbers of 65 bits are finite floats. -/
theorem within_ofNat {n : Nat} (hn : n < 2 ^ 65) : Within 971 (Float.ofNat n).toModel.unpack := by
  show Within 971 (Float.ofScientific n false 0).toModel.unpack
  unfold Float.ofScientific
  split
  · next hsmall =>
    simp only [Bool.false_eq_true, ↓reduceIte]
    -- Small numbers are multiplied by the zeroth power of ten, which is one.
    have hone : (getElem Float.exactlyRepresentablePowersOfTen 0 powersOfTen_size).toModel.unpack =
        .finite .positive (2 ^ 52) (-52) (by decide) := rfl
    have hwhole : Within 212 (UnpackedFloat.unpack Format.binary64
        (UnpackedFloat.pack Format.binary64
          (UnpackedFloat.normalize Format.binary64 n.toUInt64.toNat 0 .positive))) := by
      have hle : n.toUInt64.toNat ≤ n := Nat.mod_le ..
      have hlt : n.toUInt64.toNat < 2 ^ 53 := Nat.lt_of_le_of_lt hle hsmall.1
      exact (within_normalize hlt (by decide)).unpack_pack (by omega) (by omega)
    show Within 971 (UnpackedFloat.unpack _ (UnpackedFloat.pack _ (UnpackedFloat.mul _ _ _)))
    apply Within.unpack_pack _ (by omega) (by omega)
    rw [hone]
    exact within_mul hwhole (Nat.le_refl _) (by decide) (by decide)
  · show Within 971
      (UnpackedFloat.unpack _ (UnpackedFloat.pack _ (UnpackedFloat.ofScientific _ _ _)))
    apply Within.unpack_pack _ (by omega) (by omega)
    exact within_ofScientific hn

/-- An integer of 64 bits, with a sign or without, becomes a finite number. -/
theorem isFinite_ofInt {n : Int} (hn : n.natAbs < 2 ^ 65) : (Float.ofInt n).isFinite = true := by
  cases n with
  | ofNat n => exact (within_ofNat hn).isFinite
  | negSucc n =>
    have hpos : Within 971 (Float.ofNat (n + 1)).toModel.unpack := within_ofNat hn
    show (UnpackedFloat.unpack Format.binary64 (UnpackedFloat.pack Format.binary64
      (Float.ofNat (n + 1)).toModel.unpack.neg)).isFinite = true
    exact (hpos.neg.unpack_pack (by omega) (by omega)).isFinite

end Floating

/-- A number as data holds it: an integer of 64 bits, with a sign or without, or a finite
floating-point number. -/
inductive Number.IsData : Number → Prop
  | integer {n : Int} (low : -0x8000000000000000 ≤ n) (high : n < 0x10000000000000000) :
      IsData (.integer n)
  | float {x : Float} (finite : x.isFinite = true) : IsData (.float x)

/-- The numbers that data hold are finite as floats. -/
theorem Number.IsData.isFinite_toFloat {n : Number} (h : n.IsData) :
    n.toFloat.isFinite = true := by
  cases h with
  | integer low high => exact Floating.isFinite_ofInt (by omega)
  | float finite => exact finite

theorem Number.fitsInt64_of_int64? {n : Number} {i : Int} (h : n.int64? = some i) :
    Decimal.fitsInt64 i = true := by
  cases n with
  | integer n =>
    rw [Number.int64?] at h
    split at h
    · next hfits => exact Option.some.inj h ▸ hfits
    · cases h
  | float x => cases h

inductive Value.IsData : Value → Prop
  | null : IsData .null
  | boolean (b : Bool) : IsData (.boolean b)
  | number {n : Number} : n.IsData → IsData (.number n)
  | string (s : String) : IsData (.string s)
  | enum (name : String) : IsData (.enum name)
  | list {items : List Value} : (∀ item ∈ items, IsData item) → IsData (.list items)
  | object {fields : Arguments} : (∀ field ∈ fields, IsData field.2) → IsData (.object fields)

namespace Value.IsData

theorem of_number {n : Number} (h : IsData (.number n)) : n.IsData := by
  cases h
  assumption

theorem item {items : List Value} (h : IsData (.list items)) {item : Value} (hi : item ∈ items) :
    item.IsData := by
  cases h with
  | list h => exact h item hi

theorem field {fields : Arguments} (h : IsData (.object fields)) {field : String × Value}
    (hf : field ∈ fields) : field.2.IsData := by
  cases h with
  | object h => exact h field hf

end Value.IsData

end EntityGraph
