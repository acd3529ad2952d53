import Mathlib.Algebra.Group.Nat.Defs
import Mathlib.Data.List.Basic

namespace AutoTargeting.Ipc

/-- The bytes of a text of ASCII characters. -/
def ascii (text : String) : List UInt8 := text.toList.map fun c => UInt8.ofNat c.toNat

def toBeBytes (n : ℕ) : List UInt8 :=
  [UInt8.ofNat (n >>> 24), UInt8.ofNat (n >>> 16), UInt8.ofNat (n >>> 8), UInt8.ofNat n]

/-- `u32::from_be_bytes`, and `ntohl` of the four bytes. -/
def fromBeBytes (bytes : List UInt8) : ℕ := bytes.foldl (fun acc b => acc * 256 + b.toNat) 0

/-- A message on the stream: its length as a `u32`, big-endian, and its text. -/
def message (text : List UInt8) : List UInt8 := toBeBytes (text.length % 2 ^ 32) ++ text

theorem fromBeBytes_toBeBytes {n : ℕ} (h : n < 2 ^ 32) : fromBeBytes (toBeBytes n) = n := by
  have hbyte : ∀ k : ℕ, (UInt8.ofNat k).toNat = k % 256 := fun k => UInt8.toNat_ofNat'
  unfold fromBeBytes toBeBytes
  simp only [List.foldl_cons, List.foldl_nil, hbyte, Nat.shiftRight_eq_div_pow]
  omega

theorem toBeBytes_length (n : ℕ) : (toBeBytes n).length = 4 := rfl

/-- The first four bytes of a message are its length. -/
theorem message_head {text got rest : List UInt8} (h : message text = got ++ rest)
    (hgot : got.length = 4) (htext : text.length < 2 ^ 32) :
    fromBeBytes got = text.length ∧ rest = text := by
  have hparts : toBeBytes (text.length % 2 ^ 32) = got ∧ text = rest :=
    List.append_inj h (by rw [hgot, toBeBytes_length])
  refine ⟨?_, hparts.2.symm⟩
  rw [← hparts.1, Nat.mod_eq_of_lt htext]
  exact fromBeBytes_toBeBytes htext

end AutoTargeting.Ipc
