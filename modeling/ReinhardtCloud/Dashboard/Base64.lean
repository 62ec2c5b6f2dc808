import Mathlib.Algebra.Group.Nat.Defs
import Mathlib.Data.List.Basic

/-!
# Base64 as the tokens use it

Library `Dashboard`. The encoder and decoder of `apps/auth/services/token.rs:194–284`: three bytes
make four digits, the rest two or three and no padding, and the URL alphabet. The decoder keeps the
bits that do not fill a byte yet in a buffer.
-/

namespace ReinhardtCloud.Dashboard

/-- `CHARS`. -/
def base64Chars : List Char :=
  "ABCDEFGHIJKLMNOPQRSTUVWXYZabcdefghijklmnopqrstuvwxyz0123456789+/".toList

/-- `CHARS[(n & 0x3F) as usize]`. -/
def base64Digit (n : Nat) : Char := base64Chars.getD (n % 64) 'A'

/-- `base64_encode_no_pad`, `token.rs:224–248`. -/
def base64EncodeNoPad : List UInt8 → List Char
  | a :: b :: c :: rest =>
    let n := a.toNat * 2 ^ 16 + b.toNat * 2 ^ 8 + c.toNat
    base64Digit (n / 2 ^ 18) :: base64Digit (n / 2 ^ 12) :: base64Digit (n / 2 ^ 6) ::
      base64Digit n :: base64EncodeNoPad rest
  | [a, b] =>
    let n := a.toNat * 2 ^ 16 + b.toNat * 2 ^ 8
    [base64Digit (n / 2 ^ 18), base64Digit (n / 2 ^ 12), base64Digit (n / 2 ^ 6)]
  | [a] =>
    let n := a.toNat * 2 ^ 16
    [base64Digit (n / 2 ^ 18), base64Digit (n / 2 ^ 12)]
  | [] => []

/-- The loop of `base64_decode`, `token.rs:250–284`. A byte of a character beyond ASCII is no digit,
as the character. -/
def base64Decode (buf bits : Nat) : List Char → Except String (List UInt8)
  | [] => .ok []
  | c :: rest =>
    if c = '=' then .ok []
    else
      match base64Chars.idxOf? c with
      | none => .error "invalid base64 character"
      | some d =>
        let buf := buf * 2 ^ 6 + d
        let bits := bits + 6
        if bits ≥ 8 then
          let bits := bits - 8
          (base64Decode (buf % 2 ^ bits) bits rest).map fun out ↦
            UInt8.ofNat (buf / 2 ^ bits) :: out
        else base64Decode buf bits rest

/-- The digits of the URL alphabet. -/
def toUrlDigit (c : Char) : Char := if c = '+' then '-' else if c = '/' then '_' else c

/-- And back. -/
def ofUrlDigit (c : Char) : Char := if c = '-' then '+' else if c = '_' then '/' else c

/-- `base64url_encode`, `token.rs:194–205`. -/
def base64UrlEncode (data : List UInt8) : String :=
  String.ofList ((base64EncodeNoPad data).map toUrlDigit)

/-- `base64url_decode`, `token.rs:207–220`. -/
def base64UrlDecode (data : String) : Except String (List UInt8) :=
  let standard := data.toList.map ofUrlDigit
  let padding := (4 - (String.ofList standard).utf8ByteSize % 4) % 4
  base64Decode 0 0 (standard ++ List.replicate padding '=')

/-! ## Digits -/

theorem base64Digit_spec (n : Nat) :
    base64Chars.idxOf? (base64Digit n) = some (n % 64) ∧ base64Digit n ≠ '=' ∧
      base64Digit n ≠ '.' ∧ ofUrlDigit (toUrlDigit (base64Digit n)) = base64Digit n ∧
      toUrlDigit (base64Digit n) ≠ '.' := by
  have hall : ∀ d < 64, base64Chars.idxOf? (base64Chars.getD d 'A') = some d ∧
      base64Chars.getD d 'A' ≠ '=' ∧ base64Chars.getD d 'A' ≠ '.' ∧
      ofUrlDigit (toUrlDigit (base64Chars.getD d 'A')) = base64Chars.getD d 'A' ∧
      toUrlDigit (base64Chars.getD d 'A') ≠ '.' := by decide +kernel
  exact hall (n % 64) (Nat.mod_lt n (by decide))

/-- What reading one digit does. -/
theorem base64Decode_digit (buf bits n : Nat) (rest : List Char) :
    base64Decode buf bits (base64Digit n :: rest) =
      if bits + 6 ≥ 8 then
        (base64Decode ((buf * 2 ^ 6 + n % 64) % 2 ^ (bits - 2)) (bits - 2) rest).map fun out ↦
          UInt8.ofNat ((buf * 2 ^ 6 + n % 64) / 2 ^ (bits - 2)) :: out
      else base64Decode (buf * 2 ^ 6 + n % 64) (bits + 6) rest := by
  obtain ⟨hindex, hpad, -⟩ := base64Digit_spec n
  rw [base64Decode, if_neg hpad, hindex]
  rfl

theorem base64Decode_padding (buf bits k : Nat) :
    base64Decode buf bits (List.replicate k '=') = .ok [] := by
  cases k with
  | zero => rfl
  | succ k =>
    rw [List.replicate_succ, base64Decode, if_pos rfl]

/-- The first two digits of three bytes hold the first byte and the upper half of the second. -/
theorem first_digits {a b c : Nat} (hb : b < 2 ^ 8) (hc : c < 2 ^ 8) {n : Nat}
    (hn : n = a * 2 ^ 16 + b * 2 ^ 8 + c) (ha : a < 2 ^ 8) :
    (n / 2 ^ 18 % 64 * 2 ^ 6 + n / 2 ^ 12 % 64) / 2 ^ 4 = a ∧
      (n / 2 ^ 18 % 64 * 2 ^ 6 + n / 2 ^ 12 % 64) % 2 ^ 4 = b / 2 ^ 4 := by
  omega

/-- The third digit completes the second byte. -/
theorem third_digit {a b c : Nat} (hc : c < 2 ^ 8) {n : Nat}
    (hn : n = a * 2 ^ 16 + b * 2 ^ 8 + c) :
    (b / 2 ^ 4 * 2 ^ 6 + n / 2 ^ 6 % 64) / 2 ^ 2 = b ∧
      (b / 2 ^ 4 * 2 ^ 6 + n / 2 ^ 6 % 64) % 2 ^ 2 = c / 2 ^ 6 := by
  omega

/-- The fourth completes the third byte and leaves nothing. -/
theorem fourth_digit {a b c n : Nat} (hn : n = a * 2 ^ 16 + b * 2 ^ 8 + c) :
    (c / 2 ^ 6 * 2 ^ 6 + n % 64) / 2 ^ 0 = c ∧ (c / 2 ^ 6 * 2 ^ 6 + n % 64) % 2 ^ 0 = 0 := by
  omega

/-- Reading what was written gives it back. -/
theorem base64Decode_encode (data : List UInt8) (k : Nat) :
    base64Decode 0 0 (base64EncodeNoPad data ++ List.replicate k '=') = .ok data := by
  induction data using base64EncodeNoPad.induct with
  | case1 a b c rest ih =>
    have ha := a.toNat_lt
    have hb := b.toNat_lt
    have hc := c.toNat_lt
    rw [base64EncodeNoPad]
    simp only [List.cons_append, base64Decode_digit, Nat.reduceLeDiff, ge_iff_le, ↓reduceIte,
      Nat.zero_add, Nat.zero_mul, Nat.reduceAdd, Nat.reduceSub]
    generalize hn : a.toNat * 2 ^ 16 + b.toNat * 2 ^ 8 + c.toNat = n
    obtain ⟨hfirst, hupper⟩ := first_digits hb hc hn.symm ha
    obtain ⟨hsecond, hlower⟩ := third_digit hc hn.symm
    obtain ⟨hthird, hnothing⟩ := fourth_digit hn.symm
    rw [hfirst, hupper, hsecond, hlower, hthird, hnothing, ih, UInt8.ofNat_toNat,
      UInt8.ofNat_toNat, UInt8.ofNat_toNat]
    rfl
  | case2 a b =>
    have ha := a.toNat_lt
    have hb := b.toNat_lt
    rw [base64EncodeNoPad]
    simp only [List.cons_append, List.nil_append, base64Decode_digit, Nat.reduceLeDiff, ge_iff_le,
      ↓reduceIte, Nat.zero_add, Nat.zero_mul, Nat.reduceAdd, Nat.reduceSub, base64Decode_padding]
    generalize hn : a.toNat * 2 ^ 16 + b.toNat * 2 ^ 8 = n
    have hzero : 0 < 2 ^ 8 := by omega
    have hn' : n = a.toNat * 2 ^ 16 + b.toNat * 2 ^ 8 + 0 := by omega
    obtain ⟨hfirst, hupper⟩ := first_digits hb hzero hn' ha
    obtain ⟨hsecond, -⟩ := third_digit hzero hn'
    rw [hfirst, hupper, hsecond, UInt8.ofNat_toNat, UInt8.ofNat_toNat]
    rfl
  | case3 a =>
    have ha := a.toNat_lt
    rw [base64EncodeNoPad]
    simp only [List.cons_append, List.nil_append, base64Decode_digit, Nat.reduceLeDiff, ge_iff_le,
      ↓reduceIte, Nat.zero_add, Nat.zero_mul, Nat.reduceAdd, Nat.reduceSub, base64Decode_padding]
    generalize hn : a.toNat * 2 ^ 16 = n
    have hzero : 0 < 2 ^ 8 := by omega
    have hn' : n = a.toNat * 2 ^ 16 + 0 * 2 ^ 8 + 0 := by omega
    obtain ⟨hfirst, -⟩ := first_digits hzero hzero hn' ha
    rw [hfirst, UInt8.ofNat_toNat]
    rfl
  | case4 => exact base64Decode_padding 0 0 k

/-- What is written are digits. -/
theorem digit_of_mem_encode {data : List UInt8} {c : Char} (h : c ∈ base64EncodeNoPad data) :
    ∃ n, c = base64Digit n := by
  induction data using base64EncodeNoPad.induct with
  | case1 a b c' rest ih =>
    rw [base64EncodeNoPad] at h
    simp only [List.mem_cons] at h
    rcases h with rfl | rfl | rfl | rfl | h
    · exact ⟨_, rfl⟩
    · exact ⟨_, rfl⟩
    · exact ⟨_, rfl⟩
    · exact ⟨_, rfl⟩
    · exact ih h
  | case2 a b =>
    rw [base64EncodeNoPad] at h
    simp only [List.mem_cons, List.not_mem_nil, or_false] at h
    rcases h with rfl | rfl | rfl
    · exact ⟨_, rfl⟩
    · exact ⟨_, rfl⟩
    · exact ⟨_, rfl⟩
  | case3 a =>
    rw [base64EncodeNoPad] at h
    simp only [List.mem_cons, List.not_mem_nil, or_false] at h
    rcases h with rfl | rfl
    · exact ⟨_, rfl⟩
    · exact ⟨_, rfl⟩
  | case4 => cases h

/-- Decoding inverts encoding, for every byte string. -/
theorem base64UrlDecode_encode (data : List UInt8) :
    base64UrlDecode (base64UrlEncode data) = .ok data := by
  have hback : ((base64EncodeNoPad data).map toUrlDigit).map ofUrlDigit =
      base64EncodeNoPad data := by
    rw [List.map_map]
    refine (List.map_congr_left fun c hc ↦ ?_).trans (List.map_id _)
    obtain ⟨n, rfl⟩ := digit_of_mem_encode hc
    exact (base64Digit_spec n).2.2.2.1
  rw [base64UrlDecode, base64UrlEncode, String.toList_ofList, hback]
  exact base64Decode_encode data _

/-- An encoded text has no dot. -/
theorem dot_not_mem_base64UrlEncode (data : List UInt8) :
    '.' ∉ (base64UrlEncode data).toList := by
  rw [base64UrlEncode, String.toList_ofList, List.mem_map]
  rintro ⟨c, hc, hdot⟩
  obtain ⟨n, rfl⟩ := digit_of_mem_encode hc
  exact (base64Digit_spec n).2.2.2.2 hdot

end ReinhardtCloud.Dashboard
