import Mathlib

/-!
# Internet addresses as text

The address parser of the standard library, on characters, and what the texts it accepts are made
of. The case of hexadecimal digits has no part in it.
-/

namespace IpAddress

/-- Reads something off the front of a text. -/
abbrev Reader (α : Type) := List Char → Option (α × List Char)

def hexValue (c : Char) : Option ℕ :=
  if 48 ≤ c.toNat ∧ c.toNat ≤ 57 then some (c.toNat - 48)
  else if 97 ≤ c.toNat ∧ c.toNat ≤ 102 then some (c.toNat - 87)
  else if 65 ≤ c.toNat ∧ c.toNat ≤ 70 then some (c.toNat - 55)
  else none

/-- `char::to_digit` for radix 10 and 16. -/
def digitOf (radix : ℕ) (c : Char) : Option ℕ := (hexValue c).filter (· < radix)

/-- The digits at the front. -/
def readDigits (radix : ℕ) : List Char → List ℕ × List Char
  | [] => ([], [])
  | c :: cs =>
    match digitOf radix c with
    | none => ([], c :: cs)
    | some digit => (digit :: (readDigits radix cs).1, (readDigits radix cs).2)

/-- A number below a bound, of at most some digits. -/
def readNumber (radix bound maxDigits : ℕ) (allowZeroPrefix : Bool) (cs : List Char) :
    Option (ℕ × List Char) :=
  let digits := (readDigits radix cs).1
  let number := digits.foldl (fun number digit => number * radix + digit) 0
  if digits = [] ∨ maxDigits < digits.length ∨ bound ≤ number ∨
      (!allowZeroPrefix && digits.head? = some 0 && decide (1 < digits.length)) then none
  else some (number, (readDigits radix cs).2)

/-- Something behind a separator, unless it is the first. -/
def readSeparator {α : Type} (separator : Char) (index : ℕ) (inner : Reader α) (cs : List Char) :
    Option (α × List Char) :=
  if index = 0 then inner cs
  else match cs with
    | [] => none
    | c :: cs => if c = separator then inner cs else none

def readOctet : Reader ℕ := readNumber 10 256 3 false

def readGroup : Reader ℕ := readNumber 16 65536 4 true

def readOctets : ℕ → ℕ → Reader (List ℕ)
  | 0, _, cs => some ([], cs)
  | left + 1, index, cs => do
    let first ← readSeparator '.' index readOctet cs
    let others ← readOctets left (index + 1) first.2
    some (first.1 :: others.1, others.2)

def readIpv4 : Reader (List ℕ) := readOctets 4 0

/-- An IPv4 address in the place of two groups. -/
def readEmbedded (left index : ℕ) (cs : List Char) : Option (List ℕ × List Char) :=
  if left = 0 then none else readSeparator ':' index readIpv4 cs

/-- Groups of an IPv6 address, as far as they go, and whether the last two are written as an IPv4
address. -/
def readGroups : ℕ → ℕ → List Char → (List ℕ × Bool) × List Char
  | 0, _, cs => (([], false), cs)
  | left + 1, index, cs =>
    match readEmbedded left index cs with
    | some (octets, rest) =>
      (([octets.getD 0 0 * 256 + octets.getD 1 0, octets.getD 2 0 * 256 + octets.getD 3 0], true),
        rest)
    | none =>
      match readSeparator ':' index readGroup cs with
      | none => (([], false), cs)
      | some (group, rest) =>
        let others := readGroups left (index + 1) rest
        ((group :: others.1.1, others.1.2), others.2)

def skipColons (cs : List Char) : Option (List Char) :=
  if cs.take 2 = [':', ':'] then some (cs.drop 2) else none

/-- What follows the groups of an address: nothing, or `::` and the rest of the groups. -/
def readTail (head : List ℕ) (ipv4 : Bool) (rest : List Char) : Option (List ℕ × List Char) :=
  if head.length = 8 then some (head, rest)
  else if ipv4 then none
  else match skipColons rest with
    | none => none
    | some rest =>
      let tail := readGroups (7 - head.length) 0 rest
      some (head ++ List.replicate (8 - head.length - tail.1.1.length) 0 ++ tail.1.1, tail.2)

def readIpv6 : Reader (List ℕ) := fun cs =>
  let head := readGroups 8 0 cs
  readTail head.1.1 head.1.2 head.2

inductive IpAddr where
  | v4 (octets : List ℕ)
  | v6 (groups : List ℕ)
  deriving DecidableEq, Repr

def readIpAddr (cs : List Char) : Option (IpAddr × List Char) :=
  match readIpv4 cs with
  | some (octets, rest) => some (.v4 octets, rest)
  | none => (readIpv6 cs).map fun read => (.v6 read.1, read.2)

/-- `str::parse` for an address. -/
def parse (text : List Char) : Option IpAddr :=
  match readIpAddr text with
  | some (address, []) => some address
  | _ => none

/-- Whether a text is an IPv6 address. -/
def isIpv6 (text : List Char) : Bool :=
  match parse text with
  | some (.v6 _) => true
  | _ => false

example : parse "2001:DB8::10".toList = some (.v6 [8193, 3512, 0, 0, 0, 0, 0, 16]) := by
  decide +kernel
example : parse "127.0.0.01".toList = none := by decide +kernel

/-! ### Characters of addresses -/

def isAddressChar (c : Char) : Bool := c.isAlphanum || c = '.' || c = ':'

/-- The reader takes only characters of addresses. -/
def Takes {α : Type} (reader : Reader α) : Prop :=
  ∀ cs a rest, reader cs = some (a, rest) →
    ∃ used, cs = used ++ rest ∧ ∀ c ∈ used, isAddressChar c = true

theorem isAddressChar_of_digitOf {radix digit : ℕ} {c : Char} (h : digitOf radix c = some digit) :
    isAddressChar c = true := by
  rw [digitOf, Option.filter_eq_some_iff] at h
  have hhex := h.1
  have hbounds : 48 ≤ c.toNat ∧ c.toNat ≤ 57 ∨ 97 ≤ c.toNat ∧ c.toNat ≤ 102 ∨
      65 ≤ c.toNat ∧ c.toNat ≤ 70 := by
    rw [hexValue] at hhex
    split at hhex
    · next hdigit => exact .inl hdigit
    · split at hhex
      · next hlower => exact .inr (.inl hlower)
      · split at hhex
        · next hupper => exact .inr (.inr hupper)
        · cases hhex
  have halphanum : c.isAlphanum = true := by
    simp [Char.isAlphanum, Char.isAlpha, Char.isUpper, Char.isLower, Char.isDigit,
      UInt32.le_iff_toNat_le]
    omega
  rw [isAddressChar, halphanum]
  rfl

theorem takes_readDigits (radix : ℕ) (cs : List Char) :
    ∃ used, cs = used ++ (readDigits radix cs).2 ∧ ∀ c ∈ used, isAddressChar c = true := by
  induction cs with
  | nil => exact ⟨[], rfl, by simp⟩
  | cons c cs ih =>
    rw [readDigits]
    split
    · exact ⟨[], rfl, by simp⟩
    · next hdigit =>
      obtain ⟨used, hcs, hused⟩ := ih
      refine ⟨c :: used, by rw [List.cons_append, ← hcs], ?_⟩
      exact List.forall_mem_cons.mpr ⟨isAddressChar_of_digitOf hdigit, hused⟩

theorem takes_readNumber (radix bound maxDigits : ℕ) (allowZeroPrefix : Bool) :
    Takes (readNumber radix bound maxDigits allowZeroPrefix) := by
  intro cs number rest h
  dsimp only [readNumber] at h
  split at h
  · cases h
  · obtain ⟨-, rfl⟩ := Prod.mk.inj (Option.some.inj h)
    exact takes_readDigits radix cs

theorem takes_readSeparator {α : Type} {separator : Char} {reader : Reader α}
    (hseparator : isAddressChar separator = true) (hreader : Takes reader) (index : ℕ) :
    Takes (readSeparator separator index reader) := by
  intro cs a rest h
  cases cs with
  | nil =>
    rw [readSeparator] at h
    split at h
    · exact hreader [] a rest h
    · cases h
  | cons c cs =>
    rw [readSeparator] at h
    split at h
    · exact hreader (c :: cs) a rest h
    · split at h
      · next hc =>
        obtain ⟨used, rfl, hused⟩ := hreader cs a rest h
        exact ⟨c :: used, rfl, List.forall_mem_cons.mpr ⟨hc ▸ hseparator, hused⟩⟩
      · cases h

theorem takes_readOctets (left index : ℕ) : Takes (readOctets left index) := by
  induction left generalizing index with
  | zero =>
    intro cs octets rest h
    obtain ⟨-, rfl⟩ := Prod.mk.inj (Option.some.inj h)
    exact ⟨[], rfl, by simp⟩
  | succ left ih =>
    intro cs octets rest h
    rw [readOctets] at h
    obtain ⟨⟨octet, middle⟩, hoctet, h⟩ := Option.bind_eq_some_iff.mp h
    obtain ⟨⟨others, last⟩, hothers, h⟩ := Option.bind_eq_some_iff.mp h
    obtain ⟨-, rfl⟩ := Prod.mk.inj (Option.some.inj h)
    obtain ⟨first, rfl, hfirst⟩ :=
      takes_readSeparator (by decide) (takes_readNumber _ _ _ _) index _ _ _ hoctet
    obtain ⟨second, rfl, hsecond⟩ := ih (index + 1) _ _ _ hothers
    refine ⟨first ++ second, (List.append_assoc _ _ _).symm, ?_⟩
    exact List.forall_mem_append.mpr ⟨hfirst, hsecond⟩

theorem takes_readEmbedded (left index : ℕ) : Takes (readEmbedded left index) := by
  intro cs octets rest h
  rw [readEmbedded] at h
  split at h
  · cases h
  · exact takes_readSeparator (by decide) (takes_readOctets 4 0) index _ _ _ h

theorem takes_readGroups (left index : ℕ) (cs : List Char) :
    ∃ used, cs = used ++ (readGroups left index cs).2 ∧ ∀ c ∈ used, isAddressChar c = true := by
  induction left generalizing index cs with
  | zero => exact ⟨[], rfl, by simp⟩
  | succ left ih =>
    rw [readGroups]
    split
    · next octets rest hipv4 => exact takes_readEmbedded left index _ _ _ hipv4
    · split
      · exact ⟨[], rfl, by simp⟩
      · next group rest hgroup =>
        obtain ⟨first, rfl, hfirst⟩ :=
          takes_readSeparator (by decide) (takes_readNumber _ _ _ _) index _ _ _ hgroup
        obtain ⟨second, hsecond, htaken⟩ := ih (index + 1) rest
        refine ⟨first ++ second, ?_, List.forall_mem_append.mpr ⟨hfirst, htaken⟩⟩
        rw [List.append_assoc, ← hsecond]

theorem takes_readTail (head : List ℕ) (ipv4 : Bool) : Takes (readTail head ipv4) := by
  intro cs groups rest h
  rw [readTail] at h
  split at h
  · obtain ⟨-, rfl⟩ := Prod.mk.inj (Option.some.inj h)
    exact ⟨[], rfl, by simp⟩
  · split at h
    · cases h
    · split at h
      · cases h
      · next middle hmiddle =>
        obtain ⟨-, rfl⟩ := Prod.mk.inj (Option.some.inj h)
        obtain ⟨used, hused, htaken⟩ := takes_readGroups (7 - head.length) 0 middle
        rw [skipColons] at hmiddle
        split at hmiddle
        · next hcolons =>
          obtain rfl := Option.some.inj hmiddle
          have hcolon : ∀ c ∈ [':', ':'], isAddressChar c = true := by simp [isAddressChar]
          refine ⟨[':', ':'] ++ used, ?_, List.forall_mem_append.mpr ⟨hcolon, htaken⟩⟩
          rw [List.append_assoc, ← hused, ← hcolons, List.take_append_drop]
        · cases hmiddle

theorem takes_readIpv6 : Takes readIpv6 := by
  intro cs groups rest h
  obtain ⟨first, hcs, hfirst⟩ := takes_readGroups 8 0 cs
  obtain ⟨second, hsecond, htaken⟩ := takes_readTail _ _ _ _ _ h
  refine ⟨first ++ second, ?_, List.forall_mem_append.mpr ⟨hfirst, htaken⟩⟩
  rw [List.append_assoc, ← hsecond, ← hcs]

/-- What parses as an address has only its characters. -/
theorem isAddressChar_of_parse {text : List Char} {address : IpAddr}
    (h : parse text = some address) : ∀ c ∈ text, isAddressChar c = true := by
  rw [parse] at h
  split at h
  · next address hread =>
    rw [readIpAddr] at hread
    split at hread
    · next octets rest hipv4 =>
      obtain ⟨-, rfl⟩ := Prod.mk.inj (Option.some.inj hread)
      obtain ⟨used, rfl, hused⟩ := takes_readOctets 4 0 _ _ _ hipv4
      rwa [List.append_nil]
    · obtain ⟨⟨groups, rest⟩, hipv6, hread⟩ := Option.map_eq_some_iff.mp hread
      obtain ⟨-, rfl⟩ := Prod.mk.inj hread
      obtain ⟨used, rfl, hused⟩ := takes_readIpv6 _ _ _ hipv6
      rwa [List.append_nil]
  · cases h

/-! ### Lower case -/

/-- No letter is lowered to a character that is none. -/
theorem toLower_eq_iff {c separator : Char} (h : separator.isAlpha = false) :
    c.toLower = separator ↔ c = separator := by
  constructor
  · rintro rfl
    rw [Char.isAlpha_toLower_eq_isAlpha, Char.isAlpha, Bool.or_eq_false_iff] at h
    exact (Char.toLower_eq_of_not_isUpper (by simp [h.1])).symm
  · rintro rfl
    rw [Char.isAlpha, Bool.or_eq_false_iff] at h
    exact Char.toLower_eq_of_not_isUpper (by simp [h.1])

theorem hexValue_toLower (c : Char) : hexValue c.toLower = hexValue c := by
  by_cases hupper : c.isUpper
  · have hletters : ∀ i : Fin 26, hexValue (Char.ofNat (65 + i)).toLower =
        hexValue (Char.ofNat (65 + i)) := by decide
    have hbound : 65 ≤ c.toNat ∧ c.toNat ≤ 90 := by
      simpa [Char.isUpper, UInt32.le_iff_toNat_le] using hupper
    have h := hletters ⟨c.toNat - 65, by omega⟩
    have hsum : 65 + (c.toNat - 65) = c.toNat := by omega
    simpa only [hsum, Char.ofNat_toNat] using h
  · rw [Char.toLower_eq_of_not_isUpper hupper]

def lower (cs : List Char) : List Char := cs.map Char.toLower

/-- The reader reads a text in lower case as it reads the text. -/
def Folds {α : Type} (reader : Reader α) : Prop :=
  ∀ cs, reader (lower cs) = (reader cs).map fun read => (read.1, lower read.2)

theorem readDigits_lower (radix : ℕ) (cs : List Char) :
    readDigits radix (lower cs) = ((readDigits radix cs).1, lower (readDigits radix cs).2) := by
  induction cs with
  | nil => rfl
  | cons c cs ih =>
    rw [lower, List.map_cons, readDigits, readDigits, digitOf, hexValue_toLower, ← digitOf]
    cases digitOf radix c with
    | none => rfl
    | some digit =>
      show (digit :: (readDigits radix (lower cs)).1, (readDigits radix (lower cs)).2) = _
      rw [ih]

theorem folds_readNumber (radix bound maxDigits : ℕ) (allowZeroPrefix : Bool) :
    Folds (readNumber radix bound maxDigits allowZeroPrefix) := by
  intro cs
  rw [readNumber, readNumber, readDigits_lower]
  dsimp only
  split
  · rfl
  · rfl

theorem folds_readSeparator {α : Type} {separator : Char} {reader : Reader α}
    (hseparator : separator.isAlpha = false) (hreader : Folds reader) (index : ℕ) :
    Folds (readSeparator separator index reader) := by
  intro cs
  cases cs with
  | nil =>
    show readSeparator separator index reader [] = _
    rw [readSeparator]
    split
    · exact hreader []
    · rfl
  | cons c cs =>
    show readSeparator separator index reader (c.toLower :: lower cs) = _
    rw [readSeparator, readSeparator]
    split
    · exact hreader (c :: cs)
    · simp only [toLower_eq_iff hseparator]
      split
      · exact hreader cs
      · rfl

theorem folds_readOctets (left index : ℕ) : Folds (readOctets left index) := by
  induction left generalizing index with
  | zero => exact fun _ => rfl
  | succ left ih =>
    intro cs
    have hoctet : Folds (readSeparator '.' index readOctet) :=
      folds_readSeparator (by decide) (folds_readNumber 10 256 3 false) index
    rw [readOctets, readOctets, hoctet cs]
    cases readSeparator '.' index readOctet cs with
    | none => rfl
    | some first =>
      show (readOctets left (index + 1) (lower first.2)).bind _ = Option.map _
        ((readOctets left (index + 1) first.2).bind _)
      rw [ih (index + 1) first.2]
      cases readOctets left (index + 1) first.2 with
      | none => rfl
      | some others => rfl

theorem folds_readEmbedded (left index : ℕ) : Folds (readEmbedded left index) := by
  intro cs
  rw [readEmbedded, readEmbedded]
  split
  · rfl
  · exact folds_readSeparator (by decide) (folds_readOctets 4 0) index cs

theorem readGroups_lower (left index : ℕ) (cs : List Char) :
    readGroups left index (lower cs) =
      ((readGroups left index cs).1, lower (readGroups left index cs).2) := by
  induction left generalizing index cs with
  | zero => rfl
  | succ left ih =>
    have hgroup : Folds (readSeparator ':' index readGroup) :=
      folds_readSeparator (by decide) (folds_readNumber 16 65536 4 true) index
    rw [readGroups, readGroups, folds_readEmbedded left index cs, hgroup cs]
    cases readEmbedded left index cs with
    | some octets => rfl
    | none =>
      cases readSeparator ':' index readGroup cs with
      | none => rfl
      | some group =>
        show ((group.1 :: (readGroups left (index + 1) (lower group.2)).1.1,
          (readGroups left (index + 1) (lower group.2)).1.2),
          (readGroups left (index + 1) (lower group.2)).2) = _
        rw [ih (index + 1) group.2]

theorem skipColons_lower (cs : List Char) :
    skipColons (lower cs) = (skipColons cs).map lower := by
  have hcolons : (lower cs).take 2 = [':', ':'] ↔ cs.take 2 = [':', ':'] := by
    rw [lower, ← List.map_take]
    cases cs.take 2 with
    | nil => simp
    | cons first rest =>
      cases rest with
      | nil => simp
      | cons second rest =>
        have hcolon : ∀ c : Char, c.toLower = ':' ↔ c = ':' := fun c => toLower_eq_iff (by decide)
        simp [hcolon]
  simp only [skipColons, hcolons]
  split
  · rw [lower, ← List.map_drop]
    rfl
  · rfl

theorem folds_readTail (head : List ℕ) (ipv4 : Bool) : Folds (readTail head ipv4) := by
  intro cs
  rw [readTail, readTail, skipColons_lower]
  split
  · rfl
  · split
    · rfl
    · cases skipColons cs with
      | none => rfl
      | some rest =>
        dsimp only [Option.map_some]
        rw [readGroups_lower]

theorem folds_readIpv6 : Folds readIpv6 := by
  intro cs
  rw [readIpv6, readGroups_lower]
  exact folds_readTail _ _ _

/-- The case of letters has no part in what an address is. -/
theorem parse_lower (text : List Char) : parse (lower text) = parse text := by
  have hread : readIpAddr (lower text) =
      (readIpAddr text).map fun read => (read.1, lower read.2) := by
    rw [readIpAddr, readIpAddr, readIpv4, folds_readOctets 4 0 text, folds_readIpv6 text]
    cases readOctets 4 0 text with
    | some octets => rfl
    | none => cases readIpv6 text <;> rfl
  rw [parse, parse, hread]
  cases readIpAddr text with
  | none => rfl
  | some read =>
    obtain ⟨address, rest⟩ := read
    cases rest <;> rfl

theorem isIpv6_lower (text : List Char) : isIpv6 (lower text) = isIpv6 text := by
  rw [isIpv6, parse_lower, isIpv6]

end IpAddress
