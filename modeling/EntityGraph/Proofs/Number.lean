import EntityGraph.Value

namespace EntityGraph

namespace Floating

open Float.Model

/-- What a floating-point number compares by; the two zeros are one. -/
def key? : UnpackedFloat → Option UnpackedFloat
  | .notANumber => none
  | .zero _ => some (.zero .positive)
  | x => some x

theorem compare_finite {s t : UnpackedFloat.Sign} {m n : Nat} {d e : Int} {hm : 0 < m}
    {hn : 0 < n} :
    UnpackedFloat.compare (.finite s m d hm) (.finite t n e hn) = some .eq ↔
      s = t ∧ d = e ∧ m = n := by
  have hsize : (compare d e).then (compare m n) = .eq ↔ d = e ∧ m = n := by
    rw [Ordering.then_eq_eq, Std.compare_eq_iff_eq, Std.compare_eq_iff_eq]
  cases s <;> cases t
  · show some ((compare d e).then (compare m n)).swap = some .eq ↔ _
    rw [Option.some.injEq, Ordering.swap_eq_eq, hsize, eq_self, true_and]
  · exact iff_of_false nofun nofun
  · exact iff_of_false nofun nofun
  · show some ((compare d e).then (compare m n)) = some .eq ↔ _
    rw [Option.some.injEq, hsize, eq_self, true_and]

/-- Floats compare as equal by a key that NaN does not have. -/
theorem compare_eq_iff {x y : UnpackedFloat} :
    x.compare y = some .eq ↔ ∃ k, key? x = some k ∧ key? y = some k := by
  -- Numbers of different kinds have different keys.
  have hkinds : x.compare y ≠ some .eq → key? x ≠ key? y →
      (x.compare y = some .eq ↔ ∃ k, key? x = some k ∧ key? y = some k) := by
    intro hcompare hkey
    refine iff_of_false hcompare ?_
    rintro ⟨k, hx, hy⟩
    exact hkey (hx.trans hy.symm)
  cases x with
  | notANumber =>
    refine iff_of_false nofun ?_
    rintro ⟨k, hx, _⟩
    cases hx
  | infinity s =>
    cases y with
    | infinity t =>
      cases s <;> cases t
      · exact iff_of_true rfl ⟨_, rfl, rfl⟩
      · exact hkinds nofun nofun
      · exact hkinds nofun nofun
      · exact iff_of_true rfl ⟨_, rfl, rfl⟩
    | _ => cases s <;> exact hkinds nofun nofun
  | zero s =>
    cases y with
    | zero t => exact iff_of_true rfl ⟨_, rfl, rfl⟩
    | notANumber => exact hkinds nofun nofun
    | infinity t | finite t => cases t <;> exact hkinds nofun nofun
  | finite s m d hm =>
    cases y with
    | finite t n e hn =>
      rw [compare_finite]
      constructor
      · rintro ⟨rfl, rfl, rfl⟩
        exact ⟨_, rfl, rfl⟩
      · rintro ⟨k, hx, hy⟩
        cases Option.some.inj (hx.trans hy.symm)
        exact ⟨rfl, rfl, rfl⟩
    | infinity t => cases s <;> cases t <;> exact hkinds nofun nofun
    | _ => cases s <;> exact hkinds nofun nofun

theorem beq_iff {x y : Float} : (x == y) = true ↔
    ∃ k, key? x.toModel.unpack = some k ∧ key? y.toModel.unpack = some k := by
  rw [← compare_eq_iff]
  show (x.toModel.unpack.compare y.toModel.unpack == some .eq) = true ↔ _
  exact beq_iff_eq

instance floatPartialEquivBEq : PartialEquivBEq Float where
  symm h := by
    obtain ⟨k, hx, hy⟩ := beq_iff.mp h
    exact beq_iff.mpr ⟨k, hy, hx⟩
  trans hxy hyz := by
    obtain ⟨k, hx, hy⟩ := beq_iff.mp hxy
    obtain ⟨l, hy', hz⟩ := beq_iff.mp hyz
    obtain rfl := Option.some.inj (hy.symm.trans hy')
    exact beq_iff.mpr ⟨k, hx, hz⟩

/-- A float that is no NaN is equal to itself. -/
theorem beq_self {x : Float} (h : x.isNaN = false) : (x == x) = true := by
  rw [beq_iff]
  have h' : x.toModel.unpack.isNaN = false := h
  revert h'
  cases x.toModel.unpack with
  | notANumber => exact fun h => nomatch h
  | _ => exact fun _ => ⟨_, rfl, rfl⟩

theorem isNaN_ite {p : Prop} [Decidable p] {u v : UnpackedFloat} (hu : p → u.isNaN = false)
    (hv : ¬p → v.isNaN = false) : (if p then u else v).isNaN = false := by
  by_cases h : p
  · rw [if_pos h]
    exact hu h
  · rw [if_neg h]
    exact hv h

theorem isNaN_dite {p : Prop} [Decidable p] {u : p → UnpackedFloat} {v : ¬p → UnpackedFloat}
    (hu : ∀ h, (u h).isNaN = false) (hv : ∀ h, (v h).isNaN = false) :
    (if h : p then u h else v h).isNaN = false := by
  by_cases h : p
  · rw [dif_pos h]
    exact hu h
  · rw [dif_neg h]
    exact hv h

theorem unpack_packed {spec : Format} {s : UnpackedFloat.Sign} {e : BitVec spec.exponentBits}
    {m : BitVec spec.mantissaBitsWithoutImplicit} (h : e = -1#_ → m = 0#_) :
    (UnpackedFloat.unpack spec (UnpackedFloat.packComponents spec s e m)).isNaN = false := by
  unfold UnpackedFloat.unpack
  refine isNaN_ite (fun he => ?_) fun _ => isNaN_ite (fun _ => ?_) fun _ => rfl
  · rw [UnpackedFloat.unpackExponent_packComponents] at he
    rw [UnpackedFloat.unpackMantissa_packComponents, if_pos (h he)]
    rfl
  · exact isNaN_dite (fun _ => rfl) fun _ => rfl

/-- Packing makes no NaN. -/
theorem isNaN_unpack_pack {spec : Format} {u : UnpackedFloat} (h : u.isNaN = false) :
    (UnpackedFloat.unpack spec (u.pack spec)).isNaN = false := by
  -- The exponent of all ones is kept for infinity and NaN, and neither zero nor a number below the
  -- bias has it.
  have hzero : (0 : BitVec spec.exponentBits) ≠ -1#_ := by
    have hbits : 1 < 2 ^ spec.exponentBits := Nat.one_lt_two_pow (Nat.ne_of_gt spec.he)
    rw [BitVec.neg_one_eq_allOnes, ne_eq, ← BitVec.toNat_inj, BitVec.toNat_allOnes]
    simp only [BitVec.ofNat_eq_ofNat, BitVec.toNat_ofNat, Nat.zero_mod]
    omega
  unfold UnpackedFloat.pack
  split
  · cases h
  · exact unpack_packed fun _ => rfl
  · exact unpack_packed fun he => absurd he hzero
  · dsimp only
    split
    · exact unpack_packed fun _ => rfl
    · next hlt =>
      split
      · apply unpack_packed
        intro he
        rw [BitVec.neg_one_eq_allOnes, ← BitVec.toNat_inj, BitVec.toNat_ofNat,
          BitVec.toNat_allOnes] at he
        rw [Nat.mod_eq_of_lt (by omega)] at he
        omega
      · exact unpack_packed fun he => absurd he hzero

theorem isNaN_round {spec : Format} {s : UnpackedFloat.Sign} {m : Nat} {e : Int}
    {accuracy : UnpackedFloat.Accuracy} :
    (UnpackedFloat.roundWithAccuracy spec s m e accuracy).isNaN = false := by
  unfold UnpackedFloat.roundWithAccuracy
  exact isNaN_dite (fun _ => rfl) fun _ => rfl

theorem isNaN_normalize {spec : Format} {m e : Int} {s : UnpackedFloat.Sign} :
    (UnpackedFloat.normalize spec m e s).isNaN = false := by
  unfold UnpackedFloat.normalize
  split
  · exact isNaN_round
  · rfl
  · exact isNaN_round

theorem isNaN_mul_finite {spec : Format} {u : UnpackedFloat} (h : u.isNaN = false)
    {s : UnpackedFloat.Sign} {m : Nat} {e : Int} {hm : 0 < m} :
    (u.mul spec (.finite s m e hm)).isNaN = false := by
  cases u with
  | notANumber => cases h
  | infinity => rfl
  | zero => rfl
  | finite => exact isNaN_round

theorem isNaN_scaled {spec : Format} {m : Nat} :
    (UnpackedFloat.ofScientific spec m 0).isNaN = false := by
  unfold UnpackedFloat.ofScientific
  refine isNaN_dite (fun _ => rfl) fun _ => isNaN_ite (fun _ => rfl) fun _ =>
    isNaN_ite (fun _ => rfl) fun _ => ?_
  rw [if_pos (Int.le_refl 0)]
  exact isNaN_mul_finite rfl

theorem powersOfTen_size : 0 < Float.exactlyRepresentablePowersOfTen.size := by decide

/-- No natural number is NaN, also beyond the range of exact powers. -/
theorem isNaN_ofNat (n : Nat) : (Float.ofNat n).isNaN = false := by
  show (Float.ofScientific n false 0).isNaN = false
  unfold Float.ofScientific
  split
  · simp only [Bool.false_eq_true, ↓reduceIte]
    have hone : (getElem Float.exactlyRepresentablePowersOfTen 0 powersOfTen_size).toModel.unpack =
        .finite .positive (2 ^ 52) (-52) (by decide) := rfl
    show (UnpackedFloat.unpack _ (UnpackedFloat.pack _ (UnpackedFloat.mul _ _ _))).isNaN = false
    apply isNaN_unpack_pack
    rw [hone]
    apply isNaN_mul_finite
    exact isNaN_unpack_pack isNaN_normalize
  · exact isNaN_unpack_pack isNaN_scaled

theorem isNaN_neg {x : Float} (h : x.isNaN = false) : (-x).isNaN = false := by
  show (UnpackedFloat.unpack _ (UnpackedFloat.pack _ x.toModel.unpack.neg)).isNaN = false
  apply isNaN_unpack_pack
  have h' : x.toModel.unpack.isNaN = false := h
  revert h'
  cases x.toModel.unpack with
  | notANumber => exact id
  | _ => exact fun _ => rfl

theorem isNaN_ofInt (n : Int) : (Float.ofInt n).isNaN = false := by
  cases n with
  | ofNat n => exact isNaN_ofNat n
  | negSucc n => exact isNaN_neg (isNaN_ofNat (n + 1))

end Floating

namespace Number

def isNaN : Number → Bool
  | .integer _ => false
  | .float x => x.isNaN

/-- A number that is read as a float is no NaN unless it was one. -/
theorem isNaN_toFloat {n : Number} (h : n.isNaN = false) : n.toFloat.isNaN = false := by
  cases n with
  | integer n => exact Floating.isNaN_ofInt n
  | float x => exact h

end Number

inductive Value.NaNFree : Value → Prop
  | null : NaNFree .null
  | boolean (b : Bool) : NaNFree (.boolean b)
  | number {n : Number} : n.isNaN = false → NaNFree (.number n)
  | string (s : String) : NaNFree (.string s)
  | enum (name : String) : NaNFree (.enum name)
  | list {items : List Value} : (∀ item ∈ items, NaNFree item) → NaNFree (.list items)
  | object {fields : Arguments} : (∀ field ∈ fields, NaNFree field.2) → NaNFree (.object fields)

namespace Value.NaNFree

theorem isNaN {n : Number} (h : NaNFree (.number n)) : n.isNaN = false := by
  cases h; assumption

theorem item {items : List Value} (h : NaNFree (.list items)) {item : Value} (hi : item ∈ items) :
    item.NaNFree := by
  cases h with
  | list h => exact h item hi

theorem field {fields : Arguments} (h : NaNFree (.object fields)) {field : String × Value}
    (hf : field ∈ fields) : field.2.NaNFree := by
  cases h with
  | object h => exact h field hf

end Value.NaNFree

end EntityGraph
