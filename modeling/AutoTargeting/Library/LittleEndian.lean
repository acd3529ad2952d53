import Mathlib.Data.Nat.Digits.Lemmas

namespace Bytes

/-- The bytes of a word that is `width` bytes wide, the low one first. -/
def ofWord (width value : ℕ) : List UInt8 := (Nat.digitsAppend 256 width value).map UInt8.ofNat

def toWord (bytes : List UInt8) : ℕ := Nat.ofDigits 256 (bytes.map UInt8.toNat)

theorem length_ofWord {width value : ℕ} (h : value < 256 ^ width) :
    (ofWord width value).length = width := by
  simpa [ofWord] using Nat.length_digitsAppend (by omega : 1 < 256) width h

theorem toWord_ofWord (width value : ℕ) : toWord (ofWord width value) = value := by
  have hdigits : ((Nat.digitsAppend 256 width value).map UInt8.ofNat).map UInt8.toNat =
      Nat.digitsAppend 256 width value := by
    rw [List.map_map]
    conv_rhs => rw [← List.map_id (Nat.digitsAppend 256 width value)]
    apply List.map_congr_left
    intro d hd
    have hlt : d < 256 := Nat.lt_of_mem_digitsAppend (by omega) width d hd
    exact UInt8.toNat_ofNat_of_lt hlt
  unfold toWord ofWord
  rw [hdigits, Nat.digitsAppend, Nat.ofDigits_append_replicate_zero]
  exact Nat.ofDigits_digits 256 value

theorem toWord_lt (bytes : List UInt8) : toWord bytes < 256 ^ bytes.length := by
  unfold toWord
  rw [← List.length_map (f := UInt8.toNat)]
  apply Nat.ofDigits_lt_base_pow_length (by omega)
  intro d hd
  obtain ⟨b, -, rfl⟩ := List.mem_map.mp hd
  exact b.toNat_lt

/-- The word that stands `offset` bytes into a memory. -/
def word (memory : List UInt8) (offset width : ℕ) : ℕ := toWord ((memory.drop offset).take width)

theorem word_lt (memory : List UInt8) (offset width : ℕ) :
    word memory offset width < 256 ^ width := by
  apply (toWord_lt _).trans_le
  apply Nat.pow_le_pow_right (by omega)
  exact List.length_take_le width _

theorem word_here {width value : ℕ} (h : value < 256 ^ width) (after : List UInt8) :
    word (ofWord width value ++ after) 0 width = value := by
  unfold word
  rw [List.drop_zero, List.take_left' (length_ofWord h), toWord_ofWord]

theorem word_behind {before : List UInt8} {size offset : ℕ} (hsize : before.length = size)
    (hle : size ≤ offset) (after : List UInt8) (width : ℕ) :
    word (before ++ after) offset width = word after (offset - size) width := by
  unfold word
  rw [List.drop_append, List.drop_eq_nil_of_le (hsize.le.trans hle), List.nil_append, hsize]

end Bytes
