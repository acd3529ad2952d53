import Mathlib.Data.Nat.Notation
import Mathlib.Data.Int.Notation
import Mathlib.Data.List.Basic
import Mathlib.Tactic.NormNum
import Mathlib.Tactic.Positivity
import Mathlib.Tactic.Ring

namespace AutoTargeting.Ipc

def base64Chars : List Char := "ABCDEFGHIJKLMNOPQRSTUVWXYZabcdefghijklmnopqrstuvwxyz0123456789+/".toList

def charAt (i : ℕ) : Char := base64Chars.getD i '='

def triple (b0 b1 b2 : UInt8) : ℕ := b0.toNat <<< 16 ||| b1.toNat <<< 8 ||| b2.toNat

/-- The six bits of a triple from bit `shift` on. -/
def sextet (t shift : ℕ) : ℕ := t >>> shift &&& 0x3F

def base64Encode : List UInt8 → List Char
  | b0 :: b1 :: b2 :: rest =>
    let t := triple b0 b1 b2
    charAt (sextet t 18) :: charAt (sextet t 12) :: charAt (sextet t 6) :: charAt (sextet t 0) ::
      base64Encode rest
  | [b0, b1] =>
    let t := triple b0 b1 0
    [charAt (sextet t 18), charAt (sextet t 12), charAt (sextet t 6), '=']
  | [b0] =>
    let t := triple b0 0 0
    [charAt (sextet t 18), charAt (sextet t 12), '=', '=']
  | [] => []

/-- `b64_char_value` of the bridge, with `none` for -1. -/
def b64CharValue (c : Char) : Option ℕ :=
  if 'A' ≤ c ∧ c ≤ 'Z' then some (c.toNat - 'A'.toNat)
  else if 'a' ≤ c ∧ c ≤ 'z' then some (c.toNat - 'a'.toNat + 26)
  else if '0' ≤ c ∧ c ≤ '9' then some (c.toNat - '0'.toNat + 52)
  else if c = '+' then some 62
  else if c = '/' then some 63
  else none

/-- The variables of `base64_decode`: `val` is the 32-bit accumulator, from which old bits are
shifted out at the top. -/
structure Decoder where
  out : List UInt8
  val : ℕ
  valb : ℤ
  deriving DecidableEq, Repr

def Decoder.start : Decoder := ⟨[], 0, -8⟩

def Decoder.digit (s : Decoder) (d : ℕ) : Decoder :=
  let val := (s.val <<< 6 ||| d) % 2 ^ 32
  let valb := s.valb + 6
  if 0 ≤ valb then
    ⟨s.out ++ [UInt8.ofNat (val >>> valb.toNat &&& 0xFF)], val, valb - 8⟩
  else ⟨s.out, val, valb⟩

def Decoder.next (s : Decoder) (c : Char) : Decoder :=
  if c = '=' ∨ c = '\n' ∨ c = '\r' ∨ c = ' ' then s
  else match b64CharValue c with
    | none => s
    | some d => s.digit d

def base64Decode (s : List Char) : List UInt8 := (s.foldl Decoder.next .start).out

theorem b64CharValue_charAt (i : Fin 64) : b64CharValue (charAt i) = some i.val := by
  revert i
  decide +kernel

theorem charAt_kept (i : Fin 64) :
    ¬ (charAt i = '=' ∨ charAt i = '\n' ∨ charAt i = '\r' ∨ charAt i = ' ') := by
  revert i
  decide +kernel

theorem next_charAt (s : Decoder) {i : ℕ} (h : i < 64) : s.next (charAt i) = s.digit i := by
  unfold Decoder.next
  rw [if_neg (charAt_kept ⟨i, h⟩), b64CharValue_charAt ⟨i, h⟩]

theorem next_padding (s : Decoder) : s.next '=' = s := if_pos (.inl rfl)

/-- The accumulator in arithmetic: six bits to the left, and the digit. -/
def push (val d : ℕ) : ℕ := (val * 64 + d) % 4294967296

theorem digit_eq (s : Decoder) {d : ℕ} (h : d < 64) :
    s.digit d = if 0 ≤ s.valb + 6 then
      ⟨s.out ++ [UInt8.ofNat (push s.val d / 2 ^ (s.valb + 6).toNat % 256)], push s.val d,
        s.valb - 2⟩
    else ⟨s.out, push s.val d, s.valb + 6⟩ := by
  have hpush : (s.val <<< 6 ||| d) % 2 ^ 32 = push s.val d := by
    unfold push
    have hpow : 2 ^ 6 = 64 ∧ 2 ^ 32 = 4294967296 := ⟨rfl, rfl⟩
    rw [← Nat.shiftLeft_add_eq_or_of_lt (show d < 2 ^ 6 from h), Nat.shiftLeft_eq, hpow.1, hpow.2]
  have hbyte : ∀ n : ℕ, n &&& 0xFF = n % 256 := fun n => Nat.and_two_pow_sub_one_eq_mod n 8
  have hvalb : s.valb + 6 - 8 = s.valb - 2 := by omega
  unfold Decoder.digit
  dsimp only
  rw [hpush, hbyte, Nat.shiftRight_eq_div_pow, hvalb]

theorem digits_two (out : List UInt8) (v : ℕ) {d0 d1 : ℕ} (h0 : d0 < 64) (h1 : d1 < 64) :
    ((⟨out, v, -8⟩ : Decoder).digit d0).digit d1 =
      ⟨out ++ [UInt8.ofNat (d0 * 4 + d1 / 16)], push (push v d0) d1, -4⟩ := by
  rw [digit_eq _ h0, if_neg (show ¬ (0 : ℤ) ≤ -8 + 6 by decide), digit_eq _ h1,
    if_pos (show (0 : ℤ) ≤ -8 + 6 + 6 by decide)]
  have hbyte : push (push v d0) d1 / 2 ^ 4 % 256 = d0 * 4 + d1 / 16 := by
    unfold push
    omega
  exact congrArg (fun n => (⟨out ++ [UInt8.ofNat n], push (push v d0) d1, -4⟩ : Decoder)) hbyte

theorem digits_three (out : List UInt8) (v : ℕ) {d1 d2 : ℕ} (h2 : d2 < 64) (h1 : v % 64 = d1) :
    (⟨out, v, -4⟩ : Decoder).digit d2 =
      ⟨out ++ [UInt8.ofNat (d1 % 16 * 16 + d2 / 4)], push v d2, -6⟩ := by
  rw [digit_eq _ h2, if_pos (show (0 : ℤ) ≤ -4 + 6 by decide)]
  have hbyte : push v d2 / 2 ^ 2 % 256 = d1 % 16 * 16 + d2 / 4 := by
    unfold push
    omega
  exact congrArg (fun n => (⟨out ++ [UInt8.ofNat n], push v d2, -6⟩ : Decoder)) hbyte

theorem digits_four (out : List UInt8) (v : ℕ) {d2 d3 : ℕ} (h3 : d3 < 64) (h2 : v % 64 = d2) :
    (⟨out, v, -6⟩ : Decoder).digit d3 =
      ⟨out ++ [UInt8.ofNat (d2 % 4 * 64 + d3)], push v d3, -8⟩ := by
  rw [digit_eq _ h3, if_pos (show (0 : ℤ) ≤ -6 + 6 by decide)]
  have hbyte : push v d3 / 2 ^ 0 % 256 = d2 % 4 * 64 + d3 := by
    unfold push
    omega
  exact congrArg (fun n => (⟨out ++ [UInt8.ofNat n], push v d3, -8⟩ : Decoder)) hbyte

theorem triple_eq (b0 b1 b2 : UInt8) :
    triple b0 b1 b2 = b0.toNat * 65536 + b1.toNat * 256 + b2.toNat := by
  have h1 := b1.toNat_lt
  have h2 := b2.toNat_lt
  have hlow : b1.toNat <<< 8 ||| b2.toNat = b1.toNat * 256 + b2.toNat := by
    rw [← Nat.shiftLeft_add_eq_or_of_lt (show b2.toNat < 2 ^ 8 from h2), Nat.shiftLeft_eq]
  unfold triple
  rw [Nat.or_assoc, hlow, ← Nat.shiftLeft_add_eq_or_of_lt (by omega), Nat.shiftLeft_eq]
  omega

theorem sextet_eq (t shift : ℕ) : sextet t shift = t / 2 ^ shift % 64 := by
  unfold sextet
  rw [Nat.shiftRight_eq_div_pow]
  exact Nat.and_two_pow_sub_one_eq_mod _ 6

theorem sextet_lt (t shift : ℕ) : sextet t shift < 64 := by
  rw [sextet_eq]
  exact Nat.mod_lt _ (by omega)

theorem byte_of_nat {b : UInt8} {n : ℕ} (h : n = b.toNat) : UInt8.ofNat n = b := by
  rw [h]
  exact UInt8.ofNat_toNat

section
variable (b0 b1 b2 : UInt8)

theorem first_byte : UInt8.ofNat (sextet (triple b0 b1 b2) 18 * 4 +
    sextet (triple b0 b1 b2) 12 / 16) = b0 := by
  have h0 := b0.toNat_lt
  have h1 := b1.toNat_lt
  have h2 := b2.toNat_lt
  apply byte_of_nat
  rw [sextet_eq, sextet_eq, triple_eq]
  omega

theorem second_byte : UInt8.ofNat (sextet (triple b0 b1 b2) 12 % 16 * 16 +
    sextet (triple b0 b1 b2) 6 / 4) = b1 := by
  have h1 := b1.toNat_lt
  have h2 := b2.toNat_lt
  apply byte_of_nat
  rw [sextet_eq, sextet_eq, triple_eq]
  omega

theorem third_byte : UInt8.ofNat (sextet (triple b0 b1 b2) 6 % 4 * 64 +
    sextet (triple b0 b1 b2) 0) = b2 := by
  have h2 := b2.toNat_lt
  apply byte_of_nat
  rw [sextet_eq, sextet_eq, triple_eq]
  omega

end

theorem push_mod (v : ℕ) {d : ℕ} (h : d < 64) : push v d % 64 = d := by
  unfold push
  omega

/-- Decoding goes through the text triple by triple, whatever the accumulator holds. -/
theorem foldl_encode (data out : List UInt8) (v : ℕ) :
    ((base64Encode data).foldl Decoder.next ⟨out, v, -8⟩).out = out ++ data := by
  induction data using base64Encode.induct generalizing out v with
  | case1 b0 b1 b2 rest ih =>
    unfold base64Encode
    simp only [List.foldl_cons]
    rw [next_charAt _ (sextet_lt _ _), next_charAt _ (sextet_lt _ _), next_charAt _ (sextet_lt _ _),
      next_charAt _ (sextet_lt _ _), digits_two _ _ (sextet_lt _ _) (sextet_lt _ _), first_byte,
      digits_three _ _ (sextet_lt _ _) (push_mod _ (sextet_lt _ _)), second_byte,
      digits_four _ _ (sextet_lt _ _) (push_mod _ (sextet_lt _ _)), third_byte, ih]
    simp only [List.append_assoc, List.cons_append, List.nil_append]
  | case2 b0 b1 =>
    unfold base64Encode
    simp only [List.foldl_cons, List.foldl_nil]
    rw [next_charAt _ (sextet_lt _ _), next_charAt _ (sextet_lt _ _), next_charAt _ (sextet_lt _ _),
      digits_two _ _ (sextet_lt _ _) (sextet_lt _ _), first_byte,
      digits_three _ _ (sextet_lt _ _) (push_mod _ (sextet_lt _ _)), second_byte, next_padding]
    exact List.append_assoc out [b0] [b1]
  | case3 b0 =>
    unfold base64Encode
    simp only [List.foldl_cons, List.foldl_nil]
    rw [next_charAt _ (sextet_lt _ _), next_charAt _ (sextet_lt _ _),
      digits_two _ _ (sextet_lt _ _) (sextet_lt _ _), first_byte, next_padding, next_padding]
  | case4 => exact (List.append_nil out).symm

/-- What the client encodes, the bridge decodes. -/
theorem base64_round_trip (data : List UInt8) : base64Decode (base64Encode data) = data :=
  foldl_encode data [] 0

theorem charAt_mem (i : Fin 64) : charAt i ∈ base64Chars := by
  revert i
  decide +kernel

theorem charAt_sextet_mem (t shift : ℕ) : charAt (sextet t shift) ∈ base64Chars :=
  charAt_mem ⟨_, sextet_lt t shift⟩

/-- Four characters for every three bytes, and for what is left at the end. -/
theorem length_base64Encode (data : List UInt8) :
    (base64Encode data).length = 4 * ((data.length + 2) / 3) := by
  induction data using base64Encode.induct with
  | case1 b0 b1 b2 rest ih =>
    unfold base64Encode
    simp only [List.length_cons, ih]
    omega
  | case2 | case3 | case4 => simp [base64Encode]

/-- Characters of the alphabet, and padding behind them. -/
theorem base64Encode_chars (data : List UInt8) : ∃ body pad,
    base64Encode data = body ++ List.replicate pad '=' ∧ pad ≤ 2 ∧ ∀ c ∈ body, c ∈ base64Chars := by
  induction data using base64Encode.induct with
  | case1 b0 b1 b2 rest ih =>
    obtain ⟨body, pad, heq, hpad, hbody⟩ := ih
    unfold base64Encode
    dsimp only
    rw [heq]
    refine ⟨_ :: _ :: _ :: _ :: body, pad, rfl, hpad, ?_⟩
    simp only [List.forall_mem_cons]
    exact ⟨charAt_sextet_mem _ _, charAt_sextet_mem _ _, charAt_sextet_mem _ _,
      charAt_sextet_mem _ _, hbody⟩
  | case2 b0 b1 =>
    refine ⟨[_, _, _], 1, rfl, by omega, ?_⟩
    simp only [List.forall_mem_cons]
    exact ⟨charAt_sextet_mem _ _, charAt_sextet_mem _ _, charAt_sextet_mem _ _, nofun⟩
  | case3 b0 =>
    refine ⟨[_, _], 2, rfl, le_rfl, ?_⟩
    simp only [List.forall_mem_cons]
    exact ⟨charAt_sextet_mem _ _, charAt_sextet_mem _ _, nofun⟩
  | case4 => exact ⟨[], 0, rfl, by omega, nofun⟩

/-- The text of the client is base64, and the bridge reads the bytes back from it. -/
theorem base64_across_languages (data : List UInt8) :
    base64Decode (base64Encode data) = data ∧
      (base64Encode data).length = 4 * ((data.length + 2) / 3) ∧
      (base64Chars.length = 64 ∧ base64Chars.Nodup) ∧
      ∃ body pad, base64Encode data = body ++ List.replicate pad '=' ∧ pad ≤ 2 ∧
        ∀ c ∈ body, c ∈ base64Chars :=
  ⟨base64_round_trip data, length_base64Encode data, ⟨by decide +kernel, by decide +kernel⟩,
    base64Encode_chars data⟩

end AutoTargeting.Ipc
