import AutoTargeting.Library.Binary

namespace Binary

def f64AsF32 (x : UInt64) : UInt32 := UInt32.ofNat (binary64.convert binary32 x.toNat)

def f32AsF64 (x : UInt32) : UInt64 := UInt64.ofNat (binary32.convert binary64 x.toNat)

def u32AsF32 (n : UInt32) : UInt32 := UInt32.ofNat (binary32.ofRat n.toNat)

def F32Representable (x : UInt64) : Prop :=
  ∃ y : UInt32, binary32.isNaN y.toNat = false ∧ f32AsF64 y = x

theorem toNat_f32AsF64 {y : UInt32} (h : binary32.isNaN y.toNat = false) :
    (f32AsF64 y).toNat = binary32.convert binary64 y.toNat := by
  have hlt := Format.convert_lt (g := binary64)
    (show y.toNat < 2 * binary32.signBit from y.toNat_lt) h
  exact UInt64.toNat_ofNat_of_lt' hlt

theorem f64AsF32_f32AsF64 {y : UInt32} (h : binary32.isNaN y.toNat = false) :
    f64AsF32 (f32AsF64 y) = y := by
  have hback := Format.convert_convert (g := binary64) (by decide) (by decide) h
  rw [f64AsF32, toNat_f32AsF64 h, hback]
  exact UInt32.ofNat_toNat

theorem f64AsF32_inj {x x' : UInt64} (hx : F32Representable x) (hx' : F32Representable x')
    (h : f64AsF32 x = f64AsF32 x') : x = x' := by
  obtain ⟨y, hy, rfl⟩ := hx
  obtain ⟨y', hy', rfl⟩ := hx'
  rw [f64AsF32_f32AsF64 hy, f64AsF32_f32AsF64 hy'] at h
  rw [h]

theorem not_nan_f64AsF32 {x : UInt64} (hx : F32Representable x) :
    binary32.isNaN (f64AsF32 x).toNat = false := by
  obtain ⟨y, hy, rfl⟩ := hx
  rw [f64AsF32_f32AsF64 hy]
  exact hy

theorem decode_f64AsF32 {x : UInt64} {v : ℚ} (h : binary64.decode x.toNat = some v) :
    binary32.decode (f64AsF32 x).toNat =
      if |binary32.nearest v| < 2 ^ binary32.top then some (binary32.nearest v) else none := by
  have hlt := Format.convert_lt (g := binary32)
    (show x.toNat < 2 * binary64.signBit from x.toNat_lt) (Format.not_nan_of_decode h)
  have hbits : (f64AsF32 x).toNat = binary64.convert binary32 x.toNat :=
    UInt32.toNat_ofNat_of_lt' hlt
  rw [hbits, Format.decode_convert binary32 h]

theorem u32AsF32_inj {n n' : UInt32} (hn : n.toNat < 2 ^ 24) (hn' : n'.toNat < 2 ^ 24)
    (h : u32AsF32 n = u32AsF32 n') : n = n' := by
  have hdecode : ∀ {k : UInt32}, k.toNat < 2 ^ 24 →
      binary32.decode (u32AsF32 k).toNat = some (k.toNat : ℚ) := by
    intro k hk
    have hbits : (u32AsF32 k).toNat = binary32.ofRat k.toNat :=
      UInt32.toNat_ofNat_of_lt' (Format.ofRat_lt binary32 _)
    have hkeep : binary32.nearest (k.toNat : ℚ) = k.toNat := Format.nearest_natCast hk
    have htop : |(k.toNat : ℚ)| < 2 ^ binary32.top := by
      rw [abs_of_nonneg (Nat.cast_nonneg _)]
      have hlt : (k.toNat : ℚ) < 2 ^ (24 : ℤ) := by exact_mod_cast hk
      refine hlt.trans_le ?_
      exact zpow_le_zpow_right₀ (by norm_num : (1 : ℚ) ≤ 2) (by decide : (24 : ℤ) ≤ binary32.top)
    rw [hbits, Format.decode_ofRat, hkeep, if_pos htop]
  have hval := hdecode hn
  rw [h, hdecode hn'] at hval
  have hval : n'.toNat = n.toNat := by exact_mod_cast Option.some.inj hval
  exact UInt32.toNat_inj.mp hval.symm

/-- An `f64` that is no NaN and no infinity. -/
structure FiniteF64 where
  bits : UInt64
  finite : (binary64.decode bits.toNat).isSome = true

namespace FiniteF64

def value (x : FiniteF64) : ℚ := (binary64.decode x.bits.toNat).get x.finite

theorem decode_bits (x : FiniteF64) : binary64.decode x.bits.toNat = some x.value :=
  (Option.some_get x.finite).symm

theorem nearest_value (x : FiniteF64) : binary64.nearest x.value = x.value :=
  Format.nearest_decode x.decode_bits

theorem decode_ofRat {q : ℚ} (h : |binary64.nearest q| < 2 ^ binary64.top) :
    binary64.decode (UInt64.ofNat (binary64.ofRat q)).toNat = some (binary64.nearest q) := by
  have hbits : (UInt64.ofNat (binary64.ofRat q)).toNat = binary64.ofRat q :=
    UInt64.toNat_ofNat_of_lt' (Format.ofRat_lt binary64 q)
  rw [hbits, Format.decode_ofRat, if_pos h]

/-- The nearest one, of two the even one. -/
def ofRat (q : ℚ) (h : |binary64.nearest q| < 2 ^ binary64.top) : FiniteF64 :=
  ⟨UInt64.ofNat (binary64.ofRat q), by rw [decode_ofRat h]; rfl⟩

theorem value_ofRat {q : ℚ} (h : |binary64.nearest q| < 2 ^ binary64.top) :
    (ofRat q h).value = binary64.nearest q :=
  Option.some.inj ((decode_bits _).symm.trans (decode_ofRat h))

end FiniteF64

theorem abs_nearest_intCast_lt {k : ℤ} (h : -2 ^ 63 ≤ k ∧ k < 2 ^ 64) :
    |binary64.nearest k| < 2 ^ binary64.top := by
  rw [Format.nearest_lt_top_iff]
  have hk : |(k : ℚ)| ≤ 2 ^ 64 := by
    rw [abs_le]
    constructor
    · exact_mod_cast (show -2 ^ 64 ≤ k by omega)
    · exact_mod_cast h.2.le
  have hplace : (2 : ℚ) ^ (64 : ℤ) ≤ 2 ^ binary64.maxPlace :=
    zpow_le_zpow_right₀ (by norm_num) (by decide)
  have hone : (1 : ℚ) < 2 ^ (binary64.mantissa + 1) - 1 / 2 := by norm_num [binary64]
  calc |(k : ℚ)| ≤ 2 ^ (64 : ℤ) := by exact_mod_cast hk
    _ ≤ 2 ^ binary64.maxPlace := hplace
    _ < (2 ^ (binary64.mantissa + 1) - 1 / 2) * 2 ^ binary64.maxPlace :=
      lt_mul_of_one_lt_left (by positivity) hone

theorem abs_nearest_binary32_lt_iff (q : ℚ) :
    |binary32.nearest q| < 2 ^ binary32.top ↔ |q| < 2 ^ 128 - 2 ^ 103 := by
  rw [Format.nearest_lt_top_iff]
  have hlimit : ((2 : ℚ) ^ (binary32.mantissa + 1) - 1 / 2) * 2 ^ binary32.maxPlace =
      2 ^ 128 - 2 ^ 103 := by
    have hplace : binary32.maxPlace = 104 := by decide
    rw [hplace]
    norm_num [binary32]
  rw [hlimit]

end Binary
