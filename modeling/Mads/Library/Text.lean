import Mathlib.Data.List.DropRight
import Mathlib.Data.List.Infix
import Mathlib.Data.String.Basic

/-!
# Cutting strings, and numbers in strings

Each operation comes with the equation that says where it succeeds.
-/

namespace Text

variable {text front back rest : String}

/-- The text without a given prefix. -/
def stripPrefix (text front : String) : Option String :=
  if front.toList <+: text.toList then some (String.ofList (text.toList.drop front.toList.length))
  else none

theorem stripPrefix_eq_some : stripPrefix text front = some rest ↔ text = front ++ rest := by
  unfold stripPrefix
  constructor
  · intro h
    obtain ⟨hstart, hrest⟩ := Option.ite_none_right_eq_some.mp h
    apply String.toList_inj.mp
    rw [String.toList_append, ← Option.some.inj hrest, String.toList_ofList]
    exact (List.prefix_iff_eq_append.mp hstart).symm
  · rintro rfl
    simp [String.toList_append]

@[simp] theorem stripPrefix_append : stripPrefix (front ++ rest) front = some rest :=
  stripPrefix_eq_some.mpr rfl

theorem stripPrefix_eq_none (h : ¬ front.toList <+: text.toList) : stripPrefix text front = none :=
  if_neg h

/-- The text without a given suffix. -/
def stripSuffix (text back : String) : Option String :=
  if back.toList <:+ text.toList then
    some (String.ofList (text.toList.take (text.toList.length - back.toList.length)))
  else none

theorem stripSuffix_eq_some : stripSuffix text back = some rest ↔ text = rest ++ back := by
  unfold stripSuffix
  constructor
  · intro h
    obtain ⟨hsuffix, hrest⟩ := Option.ite_none_right_eq_some.mp h
    apply String.toList_inj.mp
    rw [String.toList_append, ← Option.some.inj hrest, String.toList_ofList]
    exact (List.suffix_iff_eq_append.mp hsuffix).symm
  · rintro rfl
    simp [String.toList_append]

@[simp] theorem stripSuffix_append : stripSuffix (rest ++ back) back = some rest :=
  stripSuffix_eq_some.mpr rfl

theorem length_of_stripSuffix (h : stripSuffix text back = some rest) :
    text.length = rest.length + back.length := by
  rw [stripSuffix_eq_some.mp h, String.length_append]

/-- The parts before and after the first separator. -/
def splitOnce (text : String) (separator : Char) : Option (String × String) :=
  match text.toList.dropWhile (· ≠ separator) with
  | [] => none
  | _ :: back => some (String.ofList (text.toList.takeWhile (· ≠ separator)), String.ofList back)

/-- The parts before and after the last separator. -/
def rsplitOnce (text : String) (separator : Char) : Option (String × String) :=
  match text.toList.reverse.dropWhile (· ≠ separator) with
  | [] => none
  | _ :: front => some (String.ofList front.reverse,
      String.ofList (text.toList.reverse.takeWhile (· ≠ separator)).reverse)

/-- A list is cut at its first separator in one way. -/
theorem cut_iff {separator c : Char} {chars front back : List Char} :
    chars.dropWhile (· ≠ separator) = c :: back ∧ chars.takeWhile (· ≠ separator) = front ↔
      c = separator ∧ chars = front ++ separator :: back ∧ separator ∉ front := by
  constructor
  · rintro ⟨hdrop, rfl⟩
    have hc := List.head?_dropWhile_not (· ≠ separator) chars
    rw [hdrop] at hc
    obtain rfl : c = separator := by simpa using hc
    refine ⟨rfl, ?_, fun hmem => ?_⟩
    · rw [← hdrop, List.takeWhile_append_dropWhile]
    · have hall := List.all_eq_true.mp (List.all_takeWhile (p := (· ≠ c)) (l := chars)) c hmem
      simp at hall
  · rintro ⟨rfl, rfl, hfront⟩
    have hall : ∀ x ∈ front, decide (x ≠ c) = true := fun x hx =>
      decide_eq_true fun heq => hfront (heq ▸ hx)
    constructor
    · rw [List.dropWhile_append_of_pos hall, List.dropWhile_cons_of_neg (by simp)]
    · rw [List.takeWhile_append_of_pos hall, List.takeWhile_cons_of_neg (by simp),
        List.append_nil]

theorem splitOnce_eq_some {separator : Char} : splitOnce text separator = some (front, back) ↔
    text.toList = front.toList ++ separator :: back.toList ∧ separator ∉ front.toList := by
  have hcut (c : Char) : text.toList.dropWhile (· ≠ separator) = c :: back.toList ∧
      text.toList.takeWhile (· ≠ separator) = front.toList ↔
        c = separator ∧ text.toList = front.toList ++ separator :: back.toList ∧
          separator ∉ front.toList := cut_iff
  unfold splitOnce
  split
  · next hnil =>
    refine iff_of_false nofun fun h => ?_
    have hcons := ((hcut separator).mpr ⟨rfl, h⟩).1
    rw [hnil] at hcons
    cases hcons
  · next c rest hdrop =>
    rw [Option.some.injEq, Prod.mk.injEq, ← String.toList_inj, ← String.toList_inj,
      String.toList_ofList, String.toList_ofList]
    constructor
    · rintro ⟨hfront, hback⟩
      exact ((hcut c).mp ⟨by rw [hdrop, hback], hfront⟩).2
    · intro h
      obtain ⟨hcons, hfront⟩ := (hcut separator).mpr ⟨rfl, h⟩
      rw [hdrop] at hcons
      obtain ⟨-, rfl⟩ := List.cons.inj hcons
      exact ⟨hfront, rfl⟩

theorem rsplitOnce_eq_some {separator : Char} : rsplitOnce text separator = some (front, back) ↔
    text.toList = front.toList ++ separator :: back.toList ∧ separator ∉ back.toList := by
  have hcut (c : Char) : text.toList.reverse.dropWhile (· ≠ separator) = c :: front.toList.reverse ∧
      text.toList.reverse.takeWhile (· ≠ separator) = back.toList.reverse ↔
        c = separator ∧ text.toList = front.toList ++ separator :: back.toList ∧
          separator ∉ back.toList := by
    rw [cut_iff, List.mem_reverse, List.reverse_eq_iff]
    simp
  unfold rsplitOnce
  split
  · next hnil =>
    refine iff_of_false nofun fun h => ?_
    have hcons := ((hcut separator).mpr ⟨rfl, h⟩).1
    rw [hnil] at hcons
    cases hcons
  · next c rest hdrop =>
    rw [Option.some.injEq, Prod.mk.injEq, ← String.toList_inj, ← String.toList_inj,
      String.toList_ofList, String.toList_ofList]
    constructor
    · rintro ⟨hfront, hback⟩
      refine ((hcut c).mp ⟨?_, ?_⟩).2
      · rw [hdrop, ← hfront, List.reverse_reverse]
      · rw [← hback, List.reverse_reverse]
    · intro h
      obtain ⟨hcons, hback⟩ := (hcut separator).mpr ⟨rfl, h⟩
      rw [hdrop] at hcons
      obtain ⟨-, rfl⟩ := List.cons.inj hcons
      exact ⟨List.reverse_reverse _, by rw [hback, List.reverse_reverse]⟩

theorem splitOnce_eq_none {separator : Char} (h : separator ∉ text.toList) :
    splitOnce text separator = none := by
  refine Option.eq_none_iff_forall_ne_some.mpr fun parts hparts => h ?_
  rw [(splitOnce_eq_some.mp hparts).1]
  simp

/-- `str::trim` on ASCII texts, the only ones whose blanks `Char.isWhitespace` knows. -/
def trim (text : String) : String :=
  String.ofList (text.toList.dropWhile Char.isWhitespace |>.reverse.dropWhile Char.isWhitespace
    |>.reverse)

theorem trim_trim (text : String) : trim (trim text) = trim text := by
  let drop := List.dropWhile Char.isWhitespace
  let rdrop := List.rdropWhile Char.isWhitespace
  -- what is left after the front is dropped starts with no blank, and so does what is left of that
  have hfront : ∀ chars, drop (rdrop (drop chars)) = rdrop (drop chars) := by
    intro chars
    obtain ⟨back, hback⟩ := List.rdropWhile_prefix Char.isWhitespace (l := drop chars)
    cases hcut : rdrop (drop chars) with
    | nil => rfl
    | cons c rest =>
      apply List.dropWhile_cons_of_neg
      have hdrop : drop (drop chars) = drop chars := List.dropWhile_idempotent _ _
      rw [← hback] at hdrop
      change drop (rdrop (drop chars) ++ back) = rdrop (drop chars) ++ back at hdrop
      rw [hcut, List.cons_append] at hdrop
      exact List.dropWhile_eq_self_iff.mp hdrop (Nat.succ_pos _)
  show String.ofList (rdrop (drop (trim text).toList)) = String.ofList (rdrop (drop text.toList))
  rw [trim, String.toList_ofList]
  change String.ofList (rdrop (drop (rdrop (drop text.toList)))) = _
  rw [hfront]
  exact congrArg String.ofList (List.rdropWhile_idempotent _ _)

/-- `str::split_whitespace` on ASCII texts, as `trim`. -/
def splitWhitespace (text : String) : List String :=
  ((text.toList.splitOnP Char.isWhitespace).filter (· ≠ [])).map String.ofList

/-- The parts between the separators. -/
def split (text : String) (separator : Char) : List String :=
  (text.toList.splitOn separator).map String.ofList

theorem notMem_of_mem_splitOn {separator : Char} {chars part : List Char}
    (h : part ∈ chars.splitOn separator) : separator ∉ part := by
  induction chars generalizing part with
  | nil =>
    obtain rfl : part = [] := by simpa using h
    exact List.not_mem_nil
  | cons c chars ih =>
    rw [List.splitOn_cons_eq_if_modifyHead] at h
    split at h
    · obtain rfl | h := List.mem_cons.mp h
      · exact List.not_mem_nil
      · exact ih h
    · next hne =>
      -- the character goes in front of the first part
      obtain ⟨first, rest, heq⟩ := List.exists_cons_of_ne_nil
        (List.splitOn_ne_nil separator chars)
      rw [heq] at h ih
      rw [List.modifyHead_cons] at h
      obtain rfl | h := List.mem_cons.mp h
      · rw [List.mem_cons, not_or]
        exact ⟨fun hc => hne (beq_iff_eq.mpr hc.symm), ih List.mem_cons_self⟩
      · exact ih (List.mem_cons_of_mem _ h)

/-- A text is cut in one way into parts without the separator. -/
theorem split_eq_iff {separator : Char} {parts : List String} : split text separator = parts ↔
    parts ≠ [] ∧ (∀ part ∈ parts, separator ∉ part.toList) ∧
      text.toList = [separator].intercalate (parts.map String.toList) := by
  unfold split
  constructor
  · rintro rfl
    refine ⟨by simp, ?_, by simp⟩
    intro part hpart
    obtain ⟨chars, hchars, rfl⟩ := List.mem_map.mp hpart
    rw [String.toList_ofList]
    exact notMem_of_mem_splitOn hchars
  · rintro ⟨hne, hparts, htext⟩
    rw [htext, List.splitOn_intercalate separator (by simpa using hparts) (by simpa using hne)]
    simp

/-- A character of a text is the separator or in one of the parts. -/
theorem exists_of_mem_split {separator c : Char} (h : c ∈ text.toList) :
    c = separator ∨ ∃ part ∈ split text separator, c ∈ part.toList := by
  have htext : text.toList = [separator].intercalate ((split text separator).map String.toList) :=
    (split_eq_iff.mp rfl).2.2
  rw [htext] at h
  generalize split text separator = parts at h
  induction parts with
  | nil => cases h
  | cons part parts ih =>
    cases parts with
    | nil => exact .inr ⟨part, List.mem_cons_self, by simpa using h⟩
    | cons next parts =>
      rw [List.map_cons, List.map_cons, List.intercalate_cons_cons, List.mem_append,
        List.mem_append] at h
      obtain (h | h) | h := h
      · exact .inr ⟨part, List.mem_cons_self, h⟩
      · exact .inl (List.mem_singleton.mp h)
      · obtain hseparator | ⟨other, hother, hc⟩ := ih h
        · exact .inl hseparator
        · exact .inr ⟨other, List.mem_cons_of_mem _ hother, hc⟩

theorem split_inj {separator : Char} :
    split text separator = split rest separator ↔ text = rest := by
  constructor
  · intro h
    have hchars := (List.map_injective_iff.mpr fun _ _ => String.ofList_inj.mp) h
    apply String.toList_inj.mp
    calc text.toList = [separator].intercalate (text.toList.splitOn separator) := by simp
      _ = rest.toList := by rw [hchars, List.intercalate_splitOn]
  · rintro rfl
    rfl

/-- The parts of texts that a separator joins are the parts of the texts. -/
theorem split_intercalate {separator : Char} {parts : List String} (h : parts ≠ []) :
    split ((String.singleton separator).intercalate parts) separator =
      parts.flatMap (split · separator) := by
  induction parts with
  | nil => exact absurd rfl h
  | cons part parts ih =>
    cases parts with
    | nil => rw [String.intercalate_singleton, List.flatMap_singleton]
    | cons next parts =>
      rw [String.intercalate_cons_cons, List.flatMap_cons, ← ih (by simp)]
      simp [split, List.splitOn_append_cons_self]

/-- `str::parse` for an unsigned number below a bound: digits, perhaps behind a plus sign. -/
def parseUnsigned (bound : ℕ) (text : String) : Option ℕ :=
  let digits := match text.toList with
    | '+' :: digits => digits
    | digits => digits
  if digits ≠ [] ∧ digits.all Char.isDigit ∧ Nat.ofDigitChars 10 digits 0 < bound then
    some (Nat.ofDigitChars 10 digits 0)
  else none

def parseU32 (text : String) : Option UInt32 := (parseUnsigned UInt32.size text).map UInt32.ofNat

def parseU64 (text : String) : Option UInt64 := (parseUnsigned UInt64.size text).map UInt64.ofNat

theorem parseUnsigned_toString {bound n : ℕ} (h : n < bound) :
    parseUnsigned bound (toString n) = some n := by
  have hdigits : (toString n).toList = Nat.toDigits 10 n := by
    rw [Nat.toString_eq_ofList_toDigits, String.toList_ofList]
  have hall : (Nat.toDigits 10 n).all Char.isDigit = true :=
    List.all_eq_true.mpr fun c hc => Nat.isDigit_of_mem_toDigits (by decide) (by decide) hc
  have hvalue : Nat.ofDigitChars 10 (Nat.toDigits 10 n) 0 = n :=
    Nat.ofDigitChars_toDigits (by decide) (by decide)
  -- a digit is no plus sign
  have hfront : (match Nat.toDigits 10 n with
      | '+' :: digits => digits
      | digits => digits) = Nat.toDigits 10 n := by
    split
    · next digits heq =>
      rw [heq] at hall
      simp [Char.isDigit] at hall
    · rfl
  unfold parseUnsigned
  rw [hdigits, hfront]
  show ite _ _ _ = some n
  rw [if_pos ⟨Nat.toDigits_ne_nil, hall, hvalue.symm ▸ h⟩, hvalue]

theorem parseU32_toString (n : UInt32) : parseU32 (toString n.toNat) = some n := by
  rw [parseU32, parseUnsigned_toString n.toNat_lt, Option.map_some, UInt32.ofNat_toNat]

end Text
