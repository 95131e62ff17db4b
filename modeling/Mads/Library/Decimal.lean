import Mathlib.Algebra.GroupWithZero.Nat
import Mathlib.Data.Char
import Mathlib.Data.List.Lex
import Mathlib.Data.List.TakeWhile

/-!
# Decimal digits compared as text

Digit strings of one length are ordered as the numbers they spell. A string that starts with
digits is compared with a number of fixed width through its leading digits, which are read as the
first digits of a number of that width.
-/

namespace Decimal

/-- The number that digits spell. -/
def value (digits : List Char) : ℕ := Nat.ofDigitChars 10 digits 0

@[simp] theorem value_nil : value [] = 0 := rfl

theorem value_append (front back : List Char) :
    value (front ++ back) = value front * 10 ^ back.length + value back := by
  unfold value
  rw [Nat.ofDigitChars_append, Nat.ofDigitChars_eq_ofDigitChars_zero, Nat.mul_comm]

theorem value_cons (c : Char) (digits : List Char) :
    value (c :: digits) = (c.toNat - 48) * 10 ^ digits.length + value digits := by
  rw [← List.singleton_append, value_append]
  congr 2
  simp [value, Nat.ofDigitChars_cons]

theorem digit_bounds {c : Char} (h : c.isDigit) : 48 ≤ c.toNat ∧ c.toNat ≤ 57 := by
  simp only [Char.isDigit, Bool.and_eq_true, decide_eq_true_eq, ge_iff_le,
    UInt32.le_iff_toNat_le] at h
  exact h

theorem value_lt {digits : List Char} (h : ∀ c ∈ digits, c.isDigit) :
    value digits < 10 ^ digits.length := by
  induction digits with
  | nil => simp
  | cons c digits ih =>
    have hrest := ih fun d hd => h d (List.mem_cons_of_mem _ hd)
    obtain ⟨-, hc⟩ := digit_bounds (h c List.mem_cons_self)
    rw [value_cons, List.length_cons, Nat.pow_succ]
    have : (c.toNat - 48) * 10 ^ digits.length ≤ 9 * 10 ^ digits.length :=
      Nat.mul_le_mul_right _ (by omega)
    omega

/-! ### Order -/

/-- Digits take one byte each. -/
theorem utf8ByteSize_ofList {digits : List Char} (h : ∀ c ∈ digits, c.isDigit) :
    (String.ofList digits).utf8ByteSize = digits.length := by
  induction digits with
  | nil => rfl
  | cons c digits ih =>
    obtain ⟨hc, hdigits⟩ := List.forall_mem_cons.mp h
    have hsize : c.utf8Size = 1 := by
      have hle : c.toNat ≤ 127 := (digit_bounds hc).2.trans (by omega)
      exact Char.utf8Size_eq_one_iff.mpr (UInt32.le_iff_toNat_le.mpr hle)
    rw [String.ofList_cons, String.utf8ByteSize_append, String.utf8ByteSize_singleton, hsize,
      ih hdigits, List.length_cons, Nat.add_comm]

theorem char_lt_iff {c d : Char} : c < d ↔ c.toNat < d.toNat := by
  rw [Char.lt_def, UInt32.lt_iff_toNat_lt]
  rfl

theorem append_lt_append_iff {front front' back back' : List Char}
    (h : front.length = front'.length) :
    front ++ back < front' ++ back' ↔ front < front' ∨ front = front' ∧ back < back' := by
  induction front generalizing front' with
  | nil =>
    obtain rfl := List.eq_nil_of_length_eq_zero h.symm
    simp
  | cons c front ih =>
    cases front' with
    | nil => cases h
    | cons c' front' =>
      have hlength : front.length = front'.length := by simpa using h
      simp only [List.cons_append, List.cons_lt_cons_iff, ih hlength, List.cons.injEq]
      tauto

/-- Digits of one length are ordered as the numbers they spell. -/
theorem lt_iff_value_lt {a b : List Char} (h : a.length = b.length) (ha : ∀ c ∈ a, c.isDigit)
    (hb : ∀ c ∈ b, c.isDigit) : a < b ↔ value a < value b := by
  induction a generalizing b with
  | nil =>
    obtain rfl := List.eq_nil_of_length_eq_zero h.symm
    simp
  | cons c a ih =>
    cases b with
    | nil => cases h
    | cons d b =>
      have hlength : a.length = b.length := by simpa using h
      have hc := digit_bounds (ha c List.mem_cons_self)
      have hd := digit_bounds (hb d List.mem_cons_self)
      have ha' : ∀ x ∈ a, x.isDigit := fun x hx => ha x (List.mem_cons_of_mem _ hx)
      have hb' : ∀ x ∈ b, x.isDigit := fun x hx => hb x (List.mem_cons_of_mem _ hx)
      have hsmall := value_lt ha'
      have hsmall' := value_lt hb'
      rw [List.cons_lt_cons_iff, ih hlength ha' hb', char_lt_iff, value_cons, value_cons, hlength]
      rw [hlength] at hsmall
      -- the first digits decide unless they agree
      obtain hlt | heq | hgt := Nat.lt_trichotomy c.toNat d.toNat
      · have : (c.toNat - 48 + 1) * 10 ^ b.length ≤ (d.toNat - 48) * 10 ^ b.length :=
          Nat.mul_le_mul_right _ (by omega)
        rw [Nat.add_mul, Nat.one_mul] at this
        exact ⟨fun _ => by omega, fun _ => .inl hlt⟩
      · have hcd : c = d := Char.toNat_inj.mp heq
        simp [hcd]
      · have : (d.toNat - 48 + 1) * 10 ^ b.length ≤ (c.toNat - 48) * 10 ^ b.length :=
          Nat.mul_le_mul_right _ (by omega)
        rw [Nat.add_mul, Nat.one_mul] at this
        have hne : c ≠ d := fun he => by simp [he] at hgt
        constructor
        · rintro (hlt | ⟨he, -⟩)
          · omega
          · exact absurd he hne
        · intro hlt
          omega

theorem value_inj {a b : List Char} (h : a.length = b.length) (ha : ∀ c ∈ a, c.isDigit)
    (hb : ∀ c ∈ b, c.isDigit) : a = b ↔ value a = value b := by
  constructor
  · exact congrArg value
  · intro heq
    by_contra hne
    obtain hlt | hlt := lt_or_gt_of_ne hne
    · have := (lt_iff_value_lt h ha hb).mp hlt
      omega
    · have := (lt_iff_value_lt h.symm hb ha).mp hlt
      omega

/-- The number that the first `count` digits of `number` spell, where `number` is written with
`width` digits and continued with zeros. -/
def firstDigits (width number count : ℕ) : ℕ := number * 10 ^ count / 10 ^ width

theorem firstDigits_append {front back : List Char} (hback : ∀ c ∈ back, c.isDigit) :
    firstDigits (front ++ back).length (value (front ++ back)) front.length = value front := by
  have hsmall := value_lt hback
  rw [firstDigits, List.length_append, Nat.pow_add, Nat.mul_comm (10 ^ front.length),
    Nat.mul_div_mul_right _ _ (Nat.pow_pos (by decide)), value_append, Nat.mul_comm (value front),
    Nat.mul_add_div (Nat.pow_pos (by decide)), Nat.div_eq_of_lt hsmall, Nat.add_zero]

/-- What follows the leading digits is before further digits where it is empty or starts below. -/
theorem lt_back_iff {rest back : List Char} (hrest : ∀ c ∈ rest.head?, ¬ c.isDigit)
    (hback : ∀ c ∈ back, c.isDigit) :
    rest < back ↔ 0 < back.length ∧ ∀ c ∈ rest.head?, c < '0' := by
  cases back with
  | nil => simp
  | cons d back =>
    cases rest with
    | nil => simp
    | cons c rest =>
      have hd := digit_bounds (hback d List.mem_cons_self)
      have hc : ¬ c.isDigit := hrest c rfl
      have hzero : ('0' : Char).toNat = 48 := rfl
      have houtside : c.toNat < 48 ∨ 57 < c.toNat := by
        by_contra hin
        refine hc ?_
        simp only [Char.isDigit, Bool.and_eq_true, decide_eq_true_eq, ge_iff_le,
          UInt32.le_iff_toNat_le]
        exact ⟨by show 48 ≤ c.toNat; omega, by show c.toNat ≤ 57; omega⟩
      have hne : c ≠ d := fun he => by
        rw [he] at houtside
        omega
      simp only [List.cons_lt_cons_iff, char_lt_iff, hne, false_and, or_false, List.length_cons,
        Nat.zero_lt_succ, List.head?_cons, Option.mem_def, Option.some.injEq, forall_eq', true_and]
      omega

/-- Text is before a number of fixed width where its leading digits come before the first digits of
the number, or agree with them and are followed by nothing, or by something below a digit, while
the number goes on. -/
theorem lt_digits_iff {text number : List Char} (hnumber : ∀ c ∈ number, c.isDigit) :
    text < number ↔
      value (text.takeWhile Char.isDigit) <
          firstDigits number.length (value number) (text.takeWhile Char.isDigit).length ∨
        value (text.takeWhile Char.isDigit) =
          firstDigits number.length (value number) (text.takeWhile Char.isDigit).length ∧
        (text.takeWhile Char.isDigit).length < number.length ∧
        ∀ c ∈ (text.dropWhile Char.isDigit).head?, c < '0' := by
  have htext : text = text.takeWhile Char.isDigit ++ text.dropWhile Char.isDigit :=
    List.takeWhile_append_dropWhile.symm
  have hall : ∀ c ∈ text.takeWhile Char.isDigit, c.isDigit := fun c hc =>
    List.mem_takeWhile_imp hc
  have hhead : ∀ c ∈ (text.dropWhile Char.isDigit).head?, ¬ c.isDigit := by
    intro c hc
    have := List.head?_dropWhile_not Char.isDigit text
    rw [hc] at this
    simpa using this
  generalize text.takeWhile Char.isDigit = digits at htext hall ⊢
  generalize text.dropWhile Char.isDigit = rest at htext hhead ⊢
  subst htext
  by_cases hwidth : digits.length ≤ number.length
  · -- the number is split after as many digits
    obtain ⟨front, back, rfl, hlength⟩ : ∃ front back, number = front ++ back ∧
        digits.length = front.length :=
      ⟨_, _, (List.take_append_drop digits.length number).symm, by simp [hwidth]⟩
    have hfront : ∀ c ∈ front, c.isDigit := fun c hc => hnumber c (List.mem_append_left _ hc)
    have hback : ∀ c ∈ back, c.isDigit := fun c hc => hnumber c (List.mem_append_right _ hc)
    have hmore : 0 < back.length ↔ front.length < (front ++ back).length := by
      rw [List.length_append]
      omega
    rw [append_lt_append_iff hlength, lt_iff_value_lt hlength hall hfront,
      value_inj hlength hall hfront, lt_back_iff hhead hback, hlength, firstDigits_append hback,
      hmore]
  · -- the text is split where the number ends
    obtain ⟨front, back, rfl, hlength⟩ : ∃ front back, digits = front ++ back ∧
        front.length = number.length :=
      ⟨_, _, (List.take_append_drop number.length digits).symm, by
        rw [List.length_take]
        omega⟩
    have hfront : ∀ c ∈ front, c.isDigit := fun c hc => hall c (List.mem_append_left _ hc)
    have hback : ∀ c ∈ back, c.isDigit := fun c hc => hall c (List.mem_append_right _ hc)
    have hsmall := value_lt hback
    have hfirst : firstDigits number.length (value number) (front ++ back).length =
        value number * 10 ^ back.length := by
      rw [firstDigits, List.length_append, hlength, Nat.pow_add, Nat.mul_left_comm,
        Nat.mul_div_cancel_left _ (Nat.pow_pos (by decide))]
    have hsplit : front ++ back ++ rest < number ↔ front < number := by
      rw [List.append_assoc]
      nth_rewrite 1 [← List.append_nil number]
      rw [append_lt_append_iff hlength]
      simp
    rw [hsplit, lt_iff_value_lt hlength hfront hnumber, hfirst, value_append]
    constructor
    · intro hlt
      refine .inl ?_
      calc value front * 10 ^ back.length + value back
          < value front * 10 ^ back.length + 10 ^ back.length := by omega
        _ = (value front + 1) * 10 ^ back.length := by rw [Nat.add_mul, Nat.one_mul]
        _ ≤ value number * 10 ^ back.length := Nat.mul_le_mul_right _ hlt
    · rintro (hlt | ⟨-, hlong, -⟩)
      · by_contra hge
        have := Nat.mul_le_mul_right (10 ^ back.length) (Nat.not_lt.mp hge)
        omega
      · omega

/-! ### Numbers written in digits -/

theorem value_toDigits (n : ℕ) : value (Nat.toDigits 10 n) = n := Nat.ofDigitChars_ten_toDigits

/-- Digits are how a number is written if no zero stands before other digits. -/
theorem toDigits_value_iff {digits : List Char} (h : ∀ c ∈ digits, c.isDigit) (hne : digits ≠ []) :
    Nat.toDigits 10 (value digits) = digits ↔ digits = ['0'] ∨ digits.head? ≠ some '0' := by
  obtain ⟨c, rest, rfl⟩ := List.exists_cons_of_ne_nil hne
  obtain ⟨hc, hrest⟩ := List.forall_mem_cons.mp h
  have hwritten : ∀ d ∈ Nat.toDigits 10 (value (c :: rest)), d.isDigit := fun d hd =>
    Nat.isDigit_of_mem_toDigits (by decide) (by decide) hd
  have hlength : Nat.toDigits 10 (value (c :: rest)) = c :: rest ↔
      (Nat.toDigits 10 (value (c :: rest))).length = (c :: rest).length := by
    refine ⟨congrArg List.length, fun hlen => ?_⟩
    exact (value_inj hlen hwritten h).mpr (value_toDigits _)
  rw [hlength]
  have hlong := Nat.length_toDigits_le_iff (n := value (c :: rest)) (b := 10) (by decide)
    (Nat.succ_pos rest.length)
  have hfits : (Nat.toDigits 10 (value (c :: rest))).length ≤ rest.length + 1 :=
    hlong.mpr (value_lt h)
  cases rest with
  | nil =>
    have hpos : 0 < (Nat.toDigits 10 (value [c])).length := Nat.length_toDigits_pos
    refine iff_of_true (by simp only [List.length_cons, List.length_nil] at hfits ⊢; omega) ?_
    by_cases hzero : c = '0'
    · exact .inl (by rw [hzero])
    · exact .inr (by simpa using hzero)
  | cons d rest =>
    have hshort := Nat.length_toDigits_le_iff (n := value (c :: d :: rest)) (b := 10) (by decide)
      (Nat.succ_pos rest.length)
    have hsmall := value_lt hrest
    have hvalue := value_cons c (d :: rest)
    simp only [List.length_cons] at hsmall hvalue hfits hshort ⊢
    by_cases hzero : c = '0'
    · -- the other digits alone write the number
      subst hzero
      have hle := hshort.mpr (by simpa [hvalue] using hsmall)
      exact iff_of_false (by omega) (by simp)
    · have hbounds := digit_bounds hc
      have hne : c.toNat ≠ 48 := fun heq => hzero (Char.toNat_inj.mp heq)
      have hlarge : 1 * 10 ^ (rest.length + 1) ≤ (c.toNat - 48) * 10 ^ (rest.length + 1) :=
        Nat.mul_le_mul_right _ (by omega)
      have hnot := mt hshort.mp (by omega)
      exact iff_of_true (by omega) (.inr (by simpa using hzero))

end Decimal
