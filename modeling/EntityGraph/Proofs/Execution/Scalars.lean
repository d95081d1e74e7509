import EntityGraph.Execution.Rendering
import EntityGraph.Proofs.Outcome
import EntityGraph.Proofs.Text

namespace EntityGraph

theorem Decimal.fitsInt64_iff {n : Int} :
    fitsInt64 n = true ↔ -0x8000000000000000 ≤ n ∧ n < 0x8000000000000000 := by
  simp [fitsInt64]

theorem Decimal.fitsInt64_toInt (n : Int64) : fitsInt64 n.toInt = true :=
  fitsInt64_iff.mpr ⟨n.le_toInt, n.toInt_lt⟩

theorem Decimal.toInt_ofInt {n : Int} (h : fitsInt64 n = true) : (Int64.ofInt n).toInt = n := by
  obtain ⟨hlow, hhigh⟩ := fitsInt64_iff.mp h
  exact Int64.toInt_ofInt_of_le (by omega) (by omega)

/-- A number that is read fits. -/
theorem Text.fitsInt64_readInt64 {s : String} {n : Int} (h : readInt64 s = .ok n) :
    Decimal.fitsInt64 n = true := by
  rw [Decimal.fitsInt64_iff]
  rw [readInt64] at h
  split at h
  · cases h
  · obtain ⟨_, hread, rfl⟩ := Outcome.map_eq_ok.mp h
    obtain ⟨m, hm, hcast⟩ := Outcome.bind_eq_ok.mp hread
    obtain rfl := Except.ok.inj hcast
    have hle := (readUnsignedDigits_spec hm).2
    omega
  · obtain ⟨m, hm, rfl⟩ := Outcome.map_eq_ok.mp h
    have hle := (readUnsignedDigits_spec hm).2
    rw [Int.ofNat_eq_natCast]
    omega
  · obtain ⟨m, hm, rfl⟩ := Outcome.map_eq_ok.mp h
    have hle := (readDigits_spec (Nat.zero_le _) hm).2
    rw [Int.ofNat_eq_natCast]
    omega

theorem Decimal.fitsInt64_exactInt64? {x : Float} {n : Int} (h : exactInt64? x = some n) :
    fitsInt64 n = true := (Option.filter_eq_some_iff.mp h).2

namespace Rendering

/-- Data in the form of a scalar type: texts, integers that fit 64 bits with a sign, finite
floating-point numbers and truth values. -/
inductive IsScalar : ScalarKind → Json → Prop
  | string (s : String) : IsScalar .string (.string s)
  | id (s : String) : IsScalar .id (.string s)
  | int {n : Int} : Decimal.fitsInt64 n = true → IsScalar .int (.int n)
  | float {x : Float} : x.isFinite = true → IsScalar .float (.number (.float x))
  | boolean (b : Bool) : IsScalar .boolean (.bool b)

/-- A finite number is a float scalar. -/
theorem isScalar_finite? {x : Float} {j : Json} (h : finite? x = some j) : IsScalar .float j := by
  rw [finite?] at h
  split at h
  · next hx => exact Option.some.inj h ▸ .float hx
  · cases h

/-- A stored value that becomes data of a scalar type has the form of the type. -/
theorem isScalar_scalar? {kind : ScalarKind} {v : AttributeValue} {j : Json}
    (h : scalar? kind v = some j) : IsScalar kind j := by
  -- One goal for each row of the table, and the last for all others.
  unfold scalar? at h
  split at h
  · exact Option.some.inj h ▸ .string _
  · exact Option.some.inj h ▸ .id _
  · exact Option.some.inj h ▸ .string _
  · exact Option.some.inj h ▸ .id _
  · exact Option.some.inj h ▸ .string _
  · exact Option.some.inj h ▸ .string _
  · exact Option.some.inj h ▸ .int (Decimal.fitsInt64_toInt _)
  · obtain ⟨n, hn, rfl⟩ := Option.map_eq_some_iff.mp h
    exact .int (Decimal.fitsInt64_exactInt64? hn)
  · obtain ⟨n, hn, rfl⟩ := Option.map_eq_some_iff.mp h
    exact .int (Text.fitsInt64_readInt64 (Outcome.toOption_eq_some.mp hn))
  · exact isScalar_finite? h
  · exact isScalar_finite? h
  · obtain ⟨x, _, hx⟩ := Option.bind_eq_some_iff.mp h
    exact isScalar_finite? hx
  · exact Option.some.inj h ▸ .boolean _
  · exact Option.some.inj h ▸ .boolean _
  · cases h

theorem IsScalar.ne_null {kind : ScalarKind} {j : Json} (h : IsScalar kind j) : j ≠ .null := by
  cases h <;> simp [Json.int]

end Rendering

end EntityGraph
