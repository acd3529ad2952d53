import AutoTargeting.EventBus.Messages
import AutoTargeting.Library.Binary
import AutoTargeting.Library.Overlap
import AutoTargeting.Tracker.MultiTracker
import Mathlib.Order.Interval.Finset.Nat

namespace AutoTargeting.EventBus.BoundingBox

def toNat (b : BoundingBox) : Control.BoundingBox :=
  ⟨b.x.toNat, b.y.toNat, b.width.toNat, b.height.toNat⟩

def pixels (b : BoundingBox) : Finset (ℕ × ℕ) :=
  Finset.Ico b.x.toNat (b.x.toNat + b.width.toNat) ×ˢ
    Finset.Ico b.y.toNat (b.y.toNat + b.height.toNat)

end AutoTargeting.EventBus.BoundingBox

namespace AutoTargeting.RknnBridge

open EventBus (BoundingBox)

/-- `iou` of nms.cpp; `fl` is what `float` makes of a result, `quot` what it makes of the quotient. -/
def iou (fl quot : ℚ → ℚ) (a b : BoundingBox) : ℚ :=
  let x1 := max a.x b.x
  let y1 := max a.y b.y
  let x2 := min (a.x + a.width) (b.x + b.width)
  let y2 := min (a.y + a.height) (b.y + b.height)
  if x2 ≤ x1 ∨ y2 ≤ y1 then 0
  else
    let intersection := fl (fl (x2 - x1).toNat * fl (y2 - y1).toNat)
    let unionArea := fl (fl (a.width * a.height + b.width * b.height).toNat - intersection)
    if unionArea ≤ 0 then 0 else quot (intersection / unionArea)

end AutoTargeting.RknnBridge

namespace AutoTargeting.CvInference

open EventBus (BoundingBox)
open Tracker (wrapU32)

/-- A `u32` result where overflow is checked, and `none` for the panic. -/
def checkedU32 (n : ℕ) : Option ℕ := if n < 2 ^ 32 then some n else none

/-- `BoundingBox::iou` of a build that checks for overflow. -/
def checkedIou (fl quot : ℚ → ℚ) (a b : Control.BoundingBox) : Option ℚ := do
  let x1 := max a.x b.x
  let y1 := max a.y b.y
  let x2 := min (← checkedU32 (a.x + a.width)) (← checkedU32 (b.x + b.width))
  let y2 := min (← checkedU32 (a.y + a.height)) (← checkedU32 (b.y + b.height))
  if x2 ≤ x1 ∨ y2 ≤ y1 then some 0
  else
    let intersection := fl (fl (x2 - x1 : ℕ) * fl (y2 - y1 : ℕ))
    let areaA ← checkedU32 (a.width * a.height)
    let areaB ← checkedU32 (b.width * b.height)
    let areas ← checkedU32 (areaA + areaB)
    let union := fl (fl areas - intersection)
    if union ≤ 0 then some 0 else some (quot (intersection / union))

/-- `BoundingBox::iou` of a release build, with a rounding of its own for the quotient. -/
def releaseIou (fl quot : ℚ → ℚ) (a b : Control.BoundingBox) : ℚ :=
  let x1 := max a.x b.x
  let y1 := max a.y b.y
  let x2 := min (wrapU32 (a.x + a.width)) (wrapU32 (b.x + b.width))
  let y2 := min (wrapU32 (a.y + a.height)) (wrapU32 (b.y + b.height))
  if x2 ≤ x1 ∨ y2 ≤ y1 then 0
  else
    let intersection := fl (fl (x2 - x1 : ℕ) * fl (y2 - y1 : ℕ))
    let areas := wrapU32 (wrapU32 (a.width * a.height) + wrapU32 (b.width * b.height))
    let union := fl (fl areas - intersection)
    if union ≤ 0 then 0 else quot (intersection / union)

theorem releaseIou_self (fl : ℚ → ℚ) : releaseIou fl fl = Tracker.iou fl := rfl

/-- What `f32` makes of a result. None is too large here. -/
def f32 : ℚ → ℚ := Binary.binary32.nearest

/-- Both sides of the boxes have a piece in common. -/
def Overlapping (a b : Control.BoundingBox) : Prop :=
  max a.x b.x < min (a.x + a.width) (b.x + b.width) ∧
    max a.y b.y < min (a.y + a.height) (b.y + b.height)

def commonWidth (a b : Control.BoundingBox) : ℕ :=
  min (a.x + a.width) (b.x + b.width) - max a.x b.x

def commonHeight (a b : Control.BoundingBox) : ℕ :=
  min (a.y + a.height) (b.y + b.height) - max a.y b.y

def commonArea (a b : Control.BoundingBox) : ℕ := commonWidth a b * commonHeight a b

def areaSum (a b : Control.BoundingBox) : ℕ := a.width * a.height + b.width * b.height

/-- The edges of both boxes are below `2 ^ 32`, and so is the sum of their areas where they
overlap. -/
structure Fits (a b : Control.BoundingBox) : Prop where
  right : a.x + a.width < 2 ^ 32 ∧ b.x + b.width < 2 ^ 32
  bottom : a.y + a.height < 2 ^ 32 ∧ b.y + b.height < 2 ^ 32
  areas : Overlapping a b → areaSum a b < 2 ^ 32

/-- How far the common area is rounded: both sides, and then their product. -/
def commonError (a b : Control.BoundingBox) : ℚ :=
  f32 (f32 (commonWidth a b) * f32 (commonHeight a b)) - commonArea a b

/-- How far the area of the union is rounded: the sum of the areas, and then what is left of it
beside the common area. -/
def unionError (a b : Control.BoundingBox) : ℚ :=
  f32 (f32 (areaSum a b) - (commonArea a b + commonError a b)) - (areaSum a b - commonArea a b)

/-- Both areas are rounded in proportion, as they are where nothing is rounded. -/
def Proportionate (a b : Control.BoundingBox) : Prop :=
  commonError a b * (areaSum a b - commonArea a b) = unionError a b * commonArea a b

/-- What `iou` is for: nothing overflows, and the result is the area of the intersection by that
of the union, in Rust and in C++. Only the quotient is exact; the rest is rounded to `f32`. -/
structure IouRight (a b : BoundingBox) : Prop where
  checked : checkedIou f32 id a.toNat b.toNat = some (Overlap.ratio ℚ a.pixels b.pixels)
  wrapped : releaseIou f32 id a.toNat b.toNat = Overlap.ratio ℚ a.pixels b.pixels
  nonneg : 0 ≤ releaseIou f32 id a.toNat b.toNat
  le_one : releaseIou f32 id a.toNat b.toNat ≤ 1
  symm : releaseIou f32 id b.toNat a.toNat = releaseIou f32 id a.toNat b.toNat
  self : a = b → a.width ≠ 0 → a.height ≠ 0 → releaseIou f32 id a.toNat b.toNat = 1
  cpp : RknnBridge.iou f32 id a b = releaseIou f32 id a.toNat b.toNat

section
variable {fl quot : ℚ → ℚ} {a b : Control.BoundingBox}

theorem overlapping_iff : Overlapping a b ↔
    ¬ (min (a.x + a.width) (b.x + b.width) ≤ max a.x b.x ∨
      min (a.y + a.height) (b.y + b.height) ≤ max a.y b.y) := by
  rw [not_or, not_le, not_le, Overlapping]

/-- Where nothing overflows, both builds return the same. -/
theorem checkedIou_of_fits (h : Fits a b) :
    checkedIou fl quot a b = some (releaseIou fl quot a b) := by
  obtain ⟨⟨hax, hbx⟩, ⟨hay, hby⟩, hareas⟩ := h
  simp only [checkedIou, releaseIou, checkedU32, wrapU32, if_pos hax, if_pos hbx, if_pos hay,
    if_pos hby, Nat.mod_eq_of_lt hax, Nat.mod_eq_of_lt hbx, Nat.mod_eq_of_lt hay,
    Nat.mod_eq_of_lt hby, Option.bind_eq_bind, Option.bind_some]
  split
  case isTrue => rfl
  case isFalse hover =>
    have hsum := hareas (overlapping_iff.mpr hover)
    unfold areaSum at hsum
    have ha : a.width * a.height < 2 ^ 32 := by omega
    have hb : b.width * b.height < 2 ^ 32 := by omega
    simp only [if_pos ha, if_pos hb, if_pos hsum, Nat.mod_eq_of_lt ha, Nat.mod_eq_of_lt hb,
      Nat.mod_eq_of_lt hsum, Option.bind_some]
    split <;> rfl

theorem releaseIou_of_fits (h : Fits a b) (hover : Overlapping a b) :
    releaseIou fl quot a b =
      let intersection := fl (fl (commonWidth a b) * fl (commonHeight a b))
      let union := fl (fl (areaSum a b) - intersection)
      if union ≤ 0 then 0 else quot (intersection / union) := by
  obtain ⟨⟨hax, hbx⟩, ⟨hay, hby⟩, hareas⟩ := h
  have hsum := hareas hover
  unfold areaSum at hsum
  have ha : a.width * a.height < 2 ^ 32 := by omega
  have hb : b.width * b.height < 2 ^ 32 := by omega
  simp only [releaseIou, wrapU32, Nat.mod_eq_of_lt hax, Nat.mod_eq_of_lt hbx, Nat.mod_eq_of_lt hay,
    Nat.mod_eq_of_lt hby, Nat.mod_eq_of_lt ha, Nat.mod_eq_of_lt hb, Nat.mod_eq_of_lt hsum]
  rw [if_neg (overlapping_iff.mp hover)]
  rfl

theorem releaseIou_of_apart (h : Fits a b) (hapart : ¬ Overlapping a b) :
    releaseIou fl quot a b = 0 := by
  obtain ⟨⟨hax, hbx⟩, ⟨hay, hby⟩, -⟩ := h
  rw [overlapping_iff, not_not] at hapart
  simp only [releaseIou, wrapU32, Nat.mod_eq_of_lt hax, Nat.mod_eq_of_lt hbx, Nat.mod_eq_of_lt hay,
    Nat.mod_eq_of_lt hby]
  exact if_pos hapart

theorem releaseIou_comm (fl quot : ℚ → ℚ) (a b : Control.BoundingBox) :
    releaseIou fl quot a b = releaseIou fl quot b a := by
  unfold releaseIou
  rw [max_comm a.x, max_comm a.y, min_comm (wrapU32 (a.x + _)), min_comm (wrapU32 (a.y + _)),
    Nat.add_comm (wrapU32 (a.width * _))]

end

theorem iou_comm (fl : ℚ → ℚ) (a b : Control.BoundingBox) :
    Tracker.iou fl a b = Tracker.iou fl b a := by
  rw [← releaseIou_self]
  exact releaseIou_comm fl fl a b

section
variable {a b : Control.BoundingBox}

theorem commonArea_pos (hover : Overlapping a b) : 0 < commonArea a b :=
  Nat.mul_pos (Nat.sub_pos_of_lt hover.1) (Nat.sub_pos_of_lt hover.2)

theorem one_le_f32 {n : ℕ} (h : 0 < n) : 1 ≤ f32 n := by
  apply Binary.Format.one_le_nearest
  exact_mod_cast h

theorem common_rounded_pos (hover : Overlapping a b) :
    0 < commonArea a b + commonError a b := by
  have hw : 1 ≤ f32 (commonWidth a b) := one_le_f32 (Nat.sub_pos_of_lt hover.1)
  have hh : 1 ≤ f32 (commonHeight a b) := one_le_f32 (Nat.sub_pos_of_lt hover.2)
  rw [commonError, add_sub_cancel]
  apply zero_lt_one.trans_le
  exact Binary.Format.one_le_nearest (one_le_mul_of_one_le_of_one_le hw hh)

theorem errors_eq_zero (hcommon : Binary.binary32.Short (commonArea a b))
    (hsum : Binary.binary32.Short (areaSum a b))
    (hunion : Binary.binary32.Short (areaSum a b - commonArea a b))
    (hle : commonArea a b ≤ areaSum a b) (hover : Overlapping a b) :
    commonError a b = 0 ∧ unionError a b = 0 := by
  have hne := (commonArea_pos hover).ne'
  have hw := hcommon.of_mul hne
  have hh : Binary.binary32.Short (commonHeight a b) := by
    rw [commonArea, Nat.mul_comm] at hcommon hne
    exact hcommon.of_mul hne
  have hzero : commonError a b = 0 := by
    unfold commonError f32
    rw [Binary.Format.nearest_of_short hw, Binary.Format.nearest_of_short hh, ← Nat.cast_mul,
      ← commonArea, Binary.Format.nearest_of_short hcommon, sub_self]
  refine ⟨hzero, ?_⟩
  unfold unionError f32
  rw [hzero, add_zero, Binary.Format.nearest_of_short hsum, ← Nat.cast_sub hle,
    Binary.Format.nearest_of_short hunion, sub_self]

/-- A quotient of two rounded numbers is right where they are rounded in proportion. -/
theorem quotient_eq_iff {c u e d : ℚ} (hc : 0 < c) (hu : 0 < u) (hpos : 0 < c + e) :
    (if u + d ≤ 0 then 0 else (c + e) / (u + d)) = c / u ↔ e * u = d * c := by
  have hcross : (c + e) * u = c * (u + d) ↔ e * u = d * c := by
    rw [add_mul, mul_add, mul_comm c d, add_right_inj]
  split
  case isTrue hle =>
    apply iff_of_false
    · exact (div_pos hc hu).ne
    · rw [← hcross]
      have hleft : 0 < (c + e) * u := mul_pos hpos hu
      have hright : c * (u + d) ≤ 0 := mul_nonpos_of_nonneg_of_nonpos hc.le hle
      exact (hright.trans_lt hleft).ne'
  case isFalse hlt =>
    rw [div_eq_div_iff (fun h => hlt h.le) hu.ne', hcross]

end

section
variable {a b : BoundingBox}

theorem card_pixels (a : BoundingBox) :
    a.toNat.width * a.toNat.height = a.pixels.card := by
  simp [BoundingBox.pixels, BoundingBox.toNat]

theorem card_inter_pixels (a b : BoundingBox) :
    commonArea a.toNat b.toNat = (a.pixels ∩ b.pixels).card := by
  rw [BoundingBox.pixels, BoundingBox.pixels, Finset.product_inter_product, Finset.Ico_inter_Ico,
    Finset.Ico_inter_Ico, Finset.card_product, Nat.card_Ico, Nat.card_Ico]
  rfl

theorem areaSum_eq (a b : BoundingBox) :
    areaSum a.toNat b.toNat = a.pixels.card + b.pixels.card := by
  rw [areaSum, card_pixels, card_pixels]

theorem ratio_pixels (a b : BoundingBox) : Overlap.ratio ℚ a.pixels b.pixels =
    commonArea a.toNat b.toNat /
      ((areaSum a.toNat b.toNat : ℚ) - commonArea a.toNat b.toNat) := by
  rw [Overlap.ratio_eq, card_inter_pixels, areaSum_eq]

theorem two_commonArea_le (a b : BoundingBox) :
    2 * commonArea a.toNat b.toNat ≤ areaSum a.toNat b.toNat := by
  rw [card_inter_pixels, areaSum_eq, Nat.two_mul]
  exact Nat.add_le_add (Finset.card_le_card Finset.inter_subset_left)
    (Finset.card_le_card Finset.inter_subset_right)

theorem ratio_of_apart (hapart : ¬ Overlapping a.toNat b.toNat) :
    Overlap.ratio ℚ a.pixels b.pixels = 0 := by
  rw [overlapping_iff, not_not] at hapart
  have hnone : commonArea a.toNat b.toNat = 0 := by
    rw [commonArea, Nat.mul_eq_zero, commonWidth, commonHeight, Nat.sub_eq_zero_iff_le,
      Nat.sub_eq_zero_iff_le]
    exact hapart
  rw [ratio_pixels, hnone, Nat.cast_zero, zero_div]

/-- Where nothing overflows, the result is the share of the common pixels exactly where both areas
are rounded in proportion. -/
theorem releaseIou_eq_ratio_iff (h : Fits a.toNat b.toNat) :
    releaseIou f32 id a.toNat b.toNat = Overlap.ratio ℚ a.pixels b.pixels ↔
      (Overlapping a.toNat b.toNat → Proportionate a.toNat b.toNat) := by
  by_cases hover : Overlapping a.toNat b.toNat
  · have hpos : (0 : ℚ) < commonArea a.toNat b.toNat := by exact_mod_cast commonArea_pos hover
    have hunion : (0 : ℚ) < areaSum a.toNat b.toNat - commonArea a.toNat b.toNat := by
      have htwo : 2 * (commonArea a.toNat b.toNat : ℚ) ≤ areaSum a.toNat b.toNat := by
        exact_mod_cast two_commonArea_le a b
      linarith
    have hquotient := quotient_eq_iff (d := unionError a.toNat b.toNat) hpos hunion
      (common_rounded_pos hover)
    have hcommon : f32 (f32 (commonWidth a.toNat b.toNat) * f32 (commonHeight a.toNat b.toNat)) =
        commonArea a.toNat b.toNat + commonError a.toNat b.toNat := by
      rw [commonError, add_sub_cancel]
    have hrest : f32 (f32 (areaSum a.toNat b.toNat) -
          (commonArea a.toNat b.toNat + commonError a.toNat b.toNat)) =
        areaSum a.toNat b.toNat - commonArea a.toNat b.toNat + unionError a.toNat b.toNat := by
      rw [unionError, add_sub_cancel]
    rw [releaseIou_of_fits h hover, ratio_pixels, forall_prop_of_true hover]
    dsimp only
    rw [hcommon, hrest]
    exact hquotient
  · rw [releaseIou_of_apart h hover, ratio_of_apart hover]
    exact iff_of_true rfl (fun h => absurd h hover)

theorem toNat_max (m n : UInt32) : (max m n).toNat = max m.toNat n.toNat := by
  change (if m ≤ n then n else m).toNat = _
  simp only [Nat.max_def, UInt32.le_iff_toNat_le, apply_ite UInt32.toNat]

theorem toNat_min (m n : UInt32) : (min m n).toNat = min m.toNat n.toNat := by
  change (if m ≤ n then m else n).toNat = _
  simp only [Nat.min_def, UInt32.le_iff_toNat_le, apply_ite UInt32.toNat]

/-- The C++ wraps around like the release build of the Rust. -/
theorem iou_cpp (fl quot : ℚ → ℚ) (a b : BoundingBox) :
    RknnBridge.iou fl quot a b = releaseIou fl quot a.toNat b.toNat := by
  have hx2 : (min (a.x + a.width) (b.x + b.width)).toNat =
      min (wrapU32 (a.toNat.x + a.toNat.width)) (wrapU32 (b.toNat.x + b.toNat.width)) := by
    rw [toNat_min, UInt32.toNat_add, UInt32.toNat_add]
    rfl
  have hy2 : (min (a.y + a.height) (b.y + b.height)).toNat =
      min (wrapU32 (a.toNat.y + a.toNat.height)) (wrapU32 (b.toNat.y + b.toNat.height)) := by
    rw [toNat_min, UInt32.toNat_add, UInt32.toNat_add]
    rfl
  have hareas : (a.width * a.height + b.width * b.height).toNat =
      wrapU32 (wrapU32 (a.toNat.width * a.toNat.height) +
        wrapU32 (b.toNat.width * b.toNat.height)) := by
    rw [UInt32.toNat_add, UInt32.toNat_mul, UInt32.toNat_mul]
    rfl
  have hx1 : (max a.x b.x).toNat = max a.toNat.x b.toNat.x := toNat_max _ _
  have hy1 : (max a.y b.y).toNat = max a.toNat.y b.toNat.y := toNat_max _ _
  unfold RknnBridge.iou releaseIou
  dsimp only
  simp only [UInt32.le_iff_toNat_le, hx1, hx2, hy1, hy2, hareas]
  by_cases hapart : min (wrapU32 (a.toNat.x + a.toNat.width))
        (wrapU32 (b.toNat.x + b.toNat.width)) ≤ max a.toNat.x b.toNat.x ∨
      min (wrapU32 (a.toNat.y + a.toNat.height))
        (wrapU32 (b.toNat.y + b.toNat.height)) ≤ max a.toNat.y b.toNat.y
  · rw [if_pos hapart, if_pos hapart]
  · -- where the boxes overlap, neither difference wraps around
    obtain ⟨hx, hy⟩ := not_or.mp hapart
    rw [← hx1, ← hx2, ← UInt32.le_iff_toNat_le, UInt32.not_le] at hx
    rw [← hy1, ← hy2, ← UInt32.le_iff_toNat_le, UInt32.not_le] at hy
    rw [if_neg hapart, if_neg hapart, UInt32.toNat_sub_of_le _ _ (UInt32.le_of_lt hx),
      UInt32.toNat_sub_of_le _ _ (UInt32.le_of_lt hy), hx1, hx2, hy1, hy2]

theorem iouRight_of (h : Fits a.toNat b.toNat)
    (hvalue : releaseIou f32 id a.toNat b.toNat = Overlap.ratio ℚ a.pixels b.pixels) :
    IouRight a b := by
  refine ⟨?_, hvalue, ?_, ?_, ?_, ?_, iou_cpp f32 id a b⟩
  · rw [checkedIou_of_fits h, hvalue]
  · rw [hvalue]
    exact Overlap.ratio_nonneg
  · rw [hvalue]
    exact Overlap.ratio_le_one
  · exact releaseIou_comm f32 id b.toNat a.toNat
  · rintro rfl hw hh
    rw [hvalue]
    apply Overlap.ratio_self
    rw [← Finset.card_pos, ← card_pixels]
    apply Nat.mul_pos <;> rw [Nat.pos_iff_ne_zero]
    · exact fun h0 => hw (UInt32.toNat_inj.mp h0)
    · exact fun h0 => hh (UInt32.toNat_inj.mp h0)

/-- Where no area has more significant bits than an `f32`. -/
theorem iouRight_of_short (h : Fits a.toNat b.toNat)
    (hcommon : Binary.binary32.Short (commonArea a.toNat b.toNat))
    (hsum : Binary.binary32.Short (areaSum a.toNat b.toNat))
    (hunion : Binary.binary32.Short (areaSum a.toNat b.toNat - commonArea a.toNat b.toNat)) :
    IouRight a b := by
  apply iouRight_of h
  rw [releaseIou_eq_ratio_iff h]
  intro hover
  have htwo := two_commonArea_le a b
  obtain ⟨hzero, hzero'⟩ := errors_eq_zero hcommon hsum hunion (by omega) hover
  rw [Proportionate, hzero, hzero', zero_mul, zero_mul]

theorem iouRight_of_small (h : Fits a.toNat b.toNat) (hsmall : areaSum a.toNat b.toNat < 2 ^ 24) :
    IouRight a b := by
  have htwo := two_commonArea_le a b
  apply iouRight_of_short h <;> apply Binary.Format.short_of_lt
  · exact lt_of_le_of_lt (by omega) hsmall
  · exact hsmall
  · exact lt_of_le_of_lt (Nat.sub_le _ _) hsmall

end

end AutoTargeting.CvInference
