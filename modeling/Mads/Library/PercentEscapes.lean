import Mathlib.Data.List.Basic
import Mathlib.Data.String.Basic

/-!
# Percent escapes in the bytes of a text
-/

namespace PercentEscapes

/-- `u8::is_ascii_hexdigit`. -/
def isHexDigit (byte : UInt8) : Bool :=
  (48 ≤ byte && byte ≤ 57) || (65 ≤ byte && byte ≤ 70) || (97 ≤ byte && byte ≤ 102)

/-- Two hexadecimal digits stand behind each percent sign. -/
def Complete (bytes : List UInt8) : Prop :=
  ∀ i : ℕ, bytes[i]? = some 37 → ∃ high low, bytes[i + 1]? = some high ∧ bytes[i + 2]? = some low ∧
    isHexDigit high ∧ isHexDigit low

variable {byte high low : UInt8} {bytes front rest : List UInt8}

theorem complete_nil : Complete [] := by
  intro i hi
  cases hi

theorem complete_cons (h : byte ≠ 37) : Complete (byte :: rest) ↔ Complete rest := by
  constructor
  · intro hcomplete i hi
    exact hcomplete (i + 1) hi
  · intro hcomplete i hi
    cases i with
    | zero => exact absurd (Option.some.inj hi) h
    | succ i => exact hcomplete i hi

theorem complete_append (h : ∀ byte ∈ front, byte ≠ 37) :
    Complete (front ++ rest) ↔ Complete rest := by
  induction front with
  | nil => rfl
  | cons byte front ih =>
    rw [List.forall_mem_cons] at h
    rw [List.cons_append, complete_cons h.1, ih h.2]

/-- What stands behind a percent sign. -/
theorem Complete.digits (h : Complete (37 :: bytes)) : ∃ high low rest,
    bytes = high :: low :: rest ∧ isHexDigit high ∧ isHexDigit low := by
  obtain ⟨high, low, hhigh, hlow, hdigits⟩ := h 0 rfl
  match bytes, hhigh, hlow with
  | _ :: _ :: rest, rfl, rfl => exact ⟨_, _, rest, rfl, hdigits⟩

theorem isHexDigit_ne (h : isHexDigit byte) : byte ≠ 37 := by
  rintro rfl
  cases h

theorem complete_escape (hhigh : isHexDigit high) (hlow : isHexDigit low) :
    Complete (37 :: high :: low :: rest) ↔ Complete rest := by
  constructor
  · intro h i hi
    exact h (i + 3) hi
  · intro h i hi
    match i, hi with
    | 0, _ => exact ⟨high, low, rfl, rfl, hhigh, hlow⟩
    | 1, hi => exact absurd (Option.some.inj hi) (isHexDigit_ne hhigh)
    | 2, hi => exact absurd (Option.some.inj hi) (isHexDigit_ne hlow)
    | i + 3, hi => exact h i hi

theorem complete_escape_iff : Complete (37 :: high :: low :: rest) ↔
    isHexDigit high ∧ isHexDigit low ∧ Complete rest := by
  constructor
  · intro h
    obtain ⟨first, second, bytes, heq, hfirst, hsecond⟩ := h.digits
    obtain ⟨hhigh, heq⟩ := List.cons.inj heq
    obtain ⟨hlow, -⟩ := List.cons.inj heq
    rw [← hhigh] at hfirst
    rw [← hlow] at hsecond
    exact ⟨hfirst, hsecond, (complete_escape hfirst hsecond).mp h⟩
  · exact fun ⟨hhigh, hlow, hrest⟩ => (complete_escape hhigh hlow).mpr hrest

/-! ### Characters and their bytes -/

def utf8 (chars : List Char) : List UInt8 := chars.flatMap String.utf8EncodeChar

def isHexChar (c : Char) : Bool := c.isDigit || c.toLower ∈ "abcdef".toList

/-- An ASCII character is one byte, and the bytes of any other are not ASCII. -/
theorem utf8EncodeChar_cases (c : Char) :
    (c.toNat < 128 ∧ String.utf8EncodeChar c = [UInt8.ofNat c.toNat]) ∨
      (128 ≤ c.toNat ∧ ∀ byte ∈ String.utf8EncodeChar c, 128 ≤ byte.toNat) := by
  have hvalue : c.val.toNat = c.toNat := rfl
  by_cases hc : c.toNat < 128
  · refine .inl ⟨hc, ?_⟩
    rw [String.utf8EncodeChar, hvalue]
    exact if_pos (Nat.le_of_lt_succ hc)
  · refine .inr ⟨Nat.le_of_not_lt hc, ?_⟩
    intro byte hbyte
    rw [String.utf8EncodeChar, hvalue] at hbyte
    -- the first byte and the bytes that continue it have their highest bit set
    split at hbyte
    · next h => exact absurd (Nat.lt_succ_of_le h) hc
    · split at hbyte
      · simp only [List.mem_cons, List.not_mem_nil, or_false] at hbyte
        obtain rfl | rfl := hbyte <;> rw [UInt8.toNat_ofNat'] <;> omega
      · split at hbyte
        · simp only [List.mem_cons, List.not_mem_nil, or_false] at hbyte
          obtain rfl | rfl | rfl := hbyte <;> rw [UInt8.toNat_ofNat'] <;> omega
        · simp only [List.mem_cons, List.not_mem_nil, or_false] at hbyte
          obtain rfl | rfl | rfl | rfl := hbyte <;> rw [UInt8.toNat_ofNat'] <;> omega

/-- What holds of the ASCII characters one by one. -/
theorem forall_ascii {P : Char → Prop} (h : ∀ n < 128, P (Char.ofNat n)) {c : Char}
    (hc : c.toNat < 128) : P c := by
  rw [← Char.ofNat_toNat c]
  exact h c.toNat hc

theorem isHexDigit_ofNat {c : Char} (hc : c.toNat < 128) :
    isHexDigit (UInt8.ofNat c.toNat) = isHexChar c := by
  have hall : ∀ n < 128, isHexDigit (UInt8.ofNat (Char.ofNat n).toNat) =
      isHexChar (Char.ofNat n) := by
    decide +kernel
  exact forall_ascii (P := fun c => isHexDigit (UInt8.ofNat c.toNat) = isHexChar c) hall hc

theorem toNat_lt_of_isHexDigit (h : isHexDigit byte) : byte.toNat < 128 := by
  simp only [isHexDigit, Bool.or_eq_true, Bool.and_eq_true, decide_eq_true_eq,
    UInt8.le_iff_toNat_le] at h
  have hdigit : (57 : UInt8).toNat = 57 := rfl
  have hupper : (70 : UInt8).toNat = 70 := rfl
  have hlower : (102 : UInt8).toNat = 102 := rfl
  omega

theorem toNat_lt_of_isHexChar {c : Char} (h : isHexChar c) : c.toNat < 128 := by
  by_contra hc
  have hlarge : ¬ c.val ≤ 'Z'.val := fun h => hc (Nat.lt_of_le_of_lt h (by decide))
  have hdigit : c.isDigit = false := by
    have hbound : ¬ c.val ≤ '9'.val := fun h => hc (Nat.lt_of_le_of_lt h (by decide))
    rw [Char.isDigit, decide_eq_false hbound, Bool.and_false]
  have hlower : c.toLower = c := dif_neg fun h => hlarge h.2
  have hall : "abcdef".toList.all (fun x => x.toNat < 128) = true := by decide
  rw [isHexChar, hdigit, hlower, Bool.false_or, decide_eq_true_eq] at h
  exact hc (decide_eq_true_iff.mp (List.all_eq_true.mp hall c h))

theorem ne_of_mem_utf8EncodeChar {c : Char} (h : c ≠ '%') :
    ∀ byte ∈ String.utf8EncodeChar c, byte ≠ 37 := by
  obtain ⟨hc, hbytes⟩ | ⟨-, hbytes⟩ := utf8EncodeChar_cases c
  · have hall : ∀ n < 128, Char.ofNat n ≠ '%' → UInt8.ofNat (Char.ofNat n).toNat ≠ 37 := by
      decide +kernel
    rw [hbytes]
    intro byte hbyte
    rw [List.mem_singleton.mp hbyte]
    exact forall_ascii (P := fun c => c ≠ '%' → UInt8.ofNat c.toNat ≠ 37) hall hc h
  · rintro byte hbyte rfl
    exact absurd (hbytes 37 hbyte) (by decide)

theorem utf8EncodeChar_of_isHexChar {c : Char} (h : isHexChar c) :
    ∃ byte, String.utf8EncodeChar c = [byte] ∧ isHexDigit byte := by
  obtain ⟨hc, hbytes⟩ | ⟨hc, -⟩ := utf8EncodeChar_cases c
  · exact ⟨_, hbytes, (isHexDigit_ofNat hc).trans h⟩
  · exact absurd (toNat_lt_of_isHexChar h) (by omega)

/-- A text that begins with a hexadecimal digit begins with its character. -/
theorem isHexChar_of_utf8EncodeChar {c : Char}
    (h : String.utf8EncodeChar c ++ rest = byte :: bytes) (hdigit : isHexDigit byte) :
    isHexChar c ∧ rest = bytes := by
  obtain ⟨hc, hbytes⟩ | ⟨-, hbytes⟩ := utf8EncodeChar_cases c
  · rw [hbytes, List.singleton_append] at h
    obtain ⟨rfl, rfl⟩ := List.cons.inj h
    exact ⟨(isHexDigit_ofNat hc).symm.trans hdigit, rfl⟩
  · obtain hnil | ⟨front, hfront, -⟩ := List.append_eq_cons_iff.mp h
    · exact absurd hnil.1 String.utf8EncodeChar_ne_nil
    · have hbyte : byte ∈ String.utf8EncodeChar c := by
        rw [hfront]
        exact List.mem_cons_self
      exact absurd (toNat_lt_of_isHexDigit hdigit) (Nat.not_lt_of_le (hbytes byte hbyte))

theorem utf8_cons {c : Char} {chars : List Char} :
    utf8 (c :: chars) = String.utf8EncodeChar c ++ utf8 chars := List.flatMap_cons

theorem complete_hex {high low : Char} {chars : List Char} (hhigh : isHexChar high)
    (hlow : isHexChar low) :
    Complete (37 :: utf8 (high :: low :: chars)) ↔ Complete (utf8 chars) := by
  obtain ⟨first, hfirst, hdigit⟩ := utf8EncodeChar_of_isHexChar hhigh
  obtain ⟨second, hsecond, hdigit'⟩ := utf8EncodeChar_of_isHexChar hlow
  rw [utf8_cons, utf8_cons, hfirst, hsecond]
  exact complete_escape hdigit hdigit'

/-- A complete escape, by its characters. -/
theorem complete_percent {chars : List Char} : Complete (37 :: utf8 chars) ↔
    ∃ high low rest, chars = high :: low :: rest ∧ isHexChar high ∧ isHexChar low ∧
      Complete (utf8 rest) := by
  constructor
  · intro h
    obtain ⟨first, second, bytes, heq, hfirst, hsecond⟩ := h.digits
    cases chars with
    | nil => cases heq
    | cons high chars =>
      rw [utf8_cons] at heq
      obtain ⟨hhigh, heq⟩ := isHexChar_of_utf8EncodeChar heq hfirst
      cases chars with
      | nil => cases heq
      | cons low rest =>
        rw [utf8_cons] at heq
        obtain ⟨hlow, -⟩ := isHexChar_of_utf8EncodeChar heq hsecond
        exact ⟨high, low, rest, rfl, hhigh, hlow, (complete_hex hhigh hlow).mp h⟩
  · rintro ⟨high, low, rest, rfl, hhigh, hlow, hrest⟩
    exact (complete_hex hhigh hlow).mpr hrest

end PercentEscapes
