import Mathlib.Data.List.Dedup
import Mathlib.Data.List.Destutter
import Mathlib.Data.List.Sort
import Mathlib.Data.Prod.Lex
import Mathlib.Data.String.Basic
import Mads.Library.Insertion

/-!
# Diagnostics, errors and calls that may not return
-/

namespace Mads

/-- A runtime type identifier. -/
structure TypeId where
  id : ℕ
  deriving DecidableEq, Repr

/-- A Rust function pointer, known by its address only. -/
abbrev FnPtr := ℕ

/-- A value behind `dyn Any`: its own type, and its address. -/
structure AnyValue where
  typeId : TypeId
  address : ℕ
  deriving DecidableEq, Repr

/-- The source position associated with a diagnostic. -/
structure SourceLocation where
  file : String
  line : ℕ
  column : ℕ
  deriving DecidableEq, Repr

/-- Locations are compared by file, then line, then column. -/
def locationOrder : SourceLocation → SourceLocation → Ordering :=
  compareLex (compareLex (compareOn (·.file)) (compareOn (·.line))) (compareOn (·.column))

/-- Comparing values by one of their parts. -/
theorem transCmp_on {α β : Type} (order : β → β → Ordering) [Std.TransCmp order] (part : α → β) :
    Std.TransCmp (fun left right => order (part left) (part right)) where
  eq_swap := Std.OrientedCmp.eq_swap
  isLE_trans := Std.TransCmp.isLE_trans

instance : Std.TransCmp locationOrder := inferInstanceAs (Std.TransCmp (compareLex _ _))

theorem locationOrder_eq_eq {left right : SourceLocation} :
    locationOrder left right = .eq ↔ left = right := by
  obtain ⟨_, _, _⟩ := left
  obtain ⟨_, _, _⟩ := right
  simp [locationOrder, compareLex_eq_eq, compareOn, and_assoc]

/-- A missing location comes before all others. -/
def optionLocationOrder : Option SourceLocation → Option SourceLocation → Ordering
  | some left, some right => locationOrder left right
  | none, some _ => .lt
  | some _, none => .gt
  | none, none => .eq

structure DiagnosticCode where
  value : String
  deriving DecidableEq, Repr

def MADS001 : DiagnosticCode := ⟨"MADS001"⟩
def MADS002 : DiagnosticCode := ⟨"MADS002"⟩
def MADS003 : DiagnosticCode := ⟨"MADS003"⟩
def MADS004 : DiagnosticCode := ⟨"MADS004"⟩
def MADS005 : DiagnosticCode := ⟨"MADS005"⟩
def MADS006 : DiagnosticCode := ⟨"MADS006"⟩
def MADS007 : DiagnosticCode := ⟨"MADS007"⟩
def MADS008 : DiagnosticCode := ⟨"MADS008"⟩
def MADS009 : DiagnosticCode := ⟨"MADS009"⟩

/-- A structured diagnostic with optional source context and suggestions. -/
structure Diagnostic where
  code : DiagnosticCode
  title : String
  message : String
  subject : Option String := none
  location : Option SourceLocation := none
  suggestions : List String := []
  deriving DecidableEq, Repr

namespace Diagnostic

def withSubject (d : Diagnostic) (subject : String) : Diagnostic :=
  { d with subject := some subject }

def withLocation (d : Diagnostic) (location : SourceLocation) : Diagnostic :=
  { d with location := some location }

def withSuggestion (d : Diagnostic) (suggestion : String) : Diagnostic :=
  { d with suggestions := d.suggestions ++ [suggestion] }

def display (d : Diagnostic) : String :=
  "error[" ++ d.code.value ++ "]: " ++ d.title ++
    (match d.location with
      | some l => "\n  --> " ++ l.file ++ ":" ++ toString l.line ++ ":" ++ toString l.column
      | none => "") ++
    (match d.subject with
      | some subject => "\n  = subject: " ++ subject
      | none => "") ++
    "\n  = " ++ d.message ++
    String.join (d.suggestions.map (fun suggestion => "\n  help: " ++ suggestion))

end Diagnostic

/-- A framework error: a primary diagnostic, further ones in report order, and an optional
underlying cause, of which only the text is kept. -/
structure Error where
  primary : Diagnostic
  related : List Diagnostic := []
  source : Option String := none
  deriving DecidableEq, Repr

namespace Error

def fromDiagnostics (primary : Diagnostic) (related : List Diagnostic) : Error :=
  { primary, related }

def withRelatedDiagnostics (e : Error) (related : List Diagnostic) : Error :=
  { e with related := e.related ++ related }

def diagnostics (e : Error) : List Diagnostic := e.primary :: e.related

def display (e : Error) : String :=
  "\n\n".intercalate (e.diagnostics.map Diagnostic.display)

end Error

theorem exists_of_forall₂ {α β : Type} {R : α → β → Prop} {xs : List α} {ys : List β}
    (h : List.Forall₂ R xs ys) {y : β} (hy : y ∈ ys) : ∃ x ∈ xs, R x y := by
  induction h with
  | nil => simp at hy
  | @cons a b xs ys hab _ ih =>
    obtain rfl | hy := List.mem_cons.mp hy
    · exact ⟨a, List.mem_cons_self, hab⟩
    · obtain ⟨x, hx, hxy⟩ := ih hy
      exact ⟨x, List.mem_cons_of_mem _ hx, hxy⟩

/-- Where the second list is cut at an element, so is the first. -/
theorem forall₂_split {α β : Type} {R : α → β → Prop} {xs : List α} {front back : List β} {y : β}
    (h : List.Forall₂ R xs (front ++ y :: back)) :
    ∃ before x after, xs = before ++ x :: after ∧ List.Forall₂ R before front ∧ R x y := by
  induction front generalizing xs with
  | nil =>
    obtain ⟨x, after, hxy, -, rfl⟩ := List.forall₂_cons_right_iff.mp h
    exact ⟨[], x, after, rfl, .nil, hxy⟩
  | cons first front ih =>
    obtain ⟨z, rest, hz, hrest, rfl⟩ := List.forall₂_cons_right_iff.mp h
    obtain ⟨before, x, after, rfl, hbefore, hxy⟩ := ih hrest
    exact ⟨z :: before, x, after, rfl, .cons hz hbefore, hxy⟩

/-- What stands at a place of the second list comes from what stands there in the first. -/
theorem getElem?_of_forall₂ {α β : Type} {R : α → β → Prop} {xs : List α} {ys : List β}
    (h : List.Forall₂ R xs ys) {i : ℕ} {y : β} (hy : ys[i]? = some y) :
    ∃ x, xs[i]? = some x ∧ R x y := by
  induction h generalizing i with
  | nil => simp at hy
  | @cons x first xs ys hfirst _ ih =>
    cases i with
    | zero =>
      rw [List.getElem?_cons_zero, Option.some.injEq] at hy
      exact ⟨x, rfl, hy ▸ hfirst⟩
    | succ i =>
      rw [List.getElem?_cons_succ] at hy
      exact ih hy

/-- Why a call hands back no value: a Rust `Err`, a panic, or a loop that used up its fuel. -/
inductive Halt (ε : Type) where
  | err (error : ε)
  | panic (message : String)
  | diverge
  deriving DecidableEq, Repr

/-- The outcome of a call: a value or the reason why there is none. -/
abbrev Run (ε α : Type) := Except (Halt ε) α

namespace Run

variable {ε α β : Type}

/-- `Err(error)`. -/
def fail (error : ε) : Run ε α := .error (.err error)

/-- `Option::expect` and `Option::unwrap`. -/
def expect (value : Option α) (message : String) : Run ε α :=
  match value with
  | some a => .ok a
  | none => .error (.panic message)

/-- `Option::ok_or_else`. -/
def okOr (value : Option α) (error : ε) : Run ε α :=
  match value with
  | some a => .ok a
  | none => fail error

/-- `Result::map_err`. -/
def mapErr {ε' : Type} (f : ε → ε') : Run ε α → Run ε' α
  | .ok a => .ok a
  | .error (.err error) => fail (f error)
  | .error (.panic message) => .error (.panic message)
  | .error .diverge => .error .diverge

theorem mapErr_eq_ok {ε' : Type} {f : ε → ε'} {call : Run ε α} {a : α} :
    mapErr f call = .ok a ↔ call = .ok a := by
  cases call with
  | ok b => rw [mapErr, Except.ok.injEq, Except.ok.injEq]
  | error halt => cases halt <;> exact iff_of_false nofun nofun

/-- A check before the rest of a call. -/
def ensure (condition : Prop) [Decidable condition] (error : ε) : Run ε Unit :=
  if condition then .ok () else fail error

theorem ensure_eq_ok {condition : Prop} [Decidable condition] {error : ε} {done : Unit} :
    ensure condition error = .ok done ↔ condition := by
  unfold ensure
  split
  · next h => exact iff_of_true rfl h
  · next h => exact iff_of_false nofun h

theorem expect_eq_ok {value : Option α} {message : String} {a : α} :
    (expect value message : Run ε α) = .ok a ↔ value = some a := by
  cases value with
  | none => exact iff_of_false nofun nofun
  | some b => rw [expect, Except.ok.injEq, Option.some.injEq]

theorem okOr_eq_ok {value : Option α} {error : ε} {a : α} :
    okOr value error = .ok a ↔ value = some a := by
  cases value with
  | none => exact iff_of_false nofun nofun
  | some b => rw [okOr, Except.ok.injEq, Option.some.injEq]

@[simp] theorem expect_some (a : α) (message : String) :
    (expect (some a) message : Run ε α) = .ok a := rfl

theorem bind_eq_ok {x : Run ε α} {f : α → Run ε β} {b : β} :
    (x >>= f) = .ok b ↔ ∃ a, x = .ok a ∧ f a = .ok b := by
  cases x with
  | error e => simp [bind, Except.bind]
  | ok a => simp [bind, Except.bind]

theorem ensure_bind_eq_ok {condition : Prop} [Decidable condition] {error : ε} {f : Unit → Run ε β}
    {b : β} : (ensure condition error >>= f) = .ok b ↔ condition ∧ f () = .ok b := by
  rw [bind_eq_ok]
  constructor
  · rintro ⟨_, hcondition, h⟩
    exact ⟨ensure_eq_ok.mp hcondition, h⟩
  · rintro ⟨hcondition, h⟩
    exact ⟨(), ensure_eq_ok.mpr hcondition, h⟩

theorem okOr_bind_eq_ok {value : Option α} {error : ε} {f : α → Run ε β} {b : β} :
    (okOr value error >>= f) = .ok b ↔ ∃ a, value = some a ∧ f a = .ok b := by
  simp only [bind_eq_ok, okOr_eq_ok]

@[simp] theorem ok_bind (a : α) (f : α → Run ε β) : (Except.ok a >>= f) = f a := rfl

@[simp] theorem error_bind (e : Halt ε) (f : α → Run ε β) :
    ((Except.error e : Run ε α) >>= f) = .error e := rfl

@[simp] theorem pure_eq_ok (a : α) : (pure a : Run ε α) = .ok a := rfl

theorem mapErr_ensure {ε' : Type} (f : ε → ε') (condition : Prop) [Decidable condition]
    (error : ε) : mapErr f (ensure condition error) = ensure condition (f error) := by
  unfold ensure
  split <;> rfl

theorem mapErr_bind {ε' : Type} (f : ε → ε') (call : Run ε α) (next : α → Run ε β) :
    mapErr f (call >>= next) = mapErr f call >>= fun a => mapErr f (next a) := by
  cases call with
  | ok a => rfl
  | error halt => cases halt <;> rfl

theorem mapErr_foldlM {ε' : Type} (f : ε → ε') (step : β → α → Run ε β) (xs : List α) (b : β) :
    mapErr f (xs.foldlM step b) = xs.foldlM (fun b a => mapErr f (step b a)) b := by
  induction xs generalizing b with
  | nil => rfl
  | cons x xs ih =>
    rw [List.foldlM_cons, List.foldlM_cons, mapErr_bind]
    congr 1
    funext b
    exact ih b

/-- What every successful step of a loop preserves, a successful loop preserves. -/
theorem foldlM_invariant {f : β → α → Run ε β} {P : β → Prop} {xs : List α}
    (step : ∀ b, P b → ∀ a ∈ xs, ∀ b', f b a = .ok b' → P b') {b b' : β} (hb : P b)
    (h : xs.foldlM f b = .ok b') : P b' := by
  induction xs generalizing b with
  | nil =>
    obtain rfl : b = b' := by simpa using h
    exact hb
  | cons a xs ih =>
    rw [List.foldlM_cons] at h
    obtain ⟨c, hc, hrest⟩ := bind_eq_ok.mp h
    have hP : P c := step b hb a List.mem_cons_self c hc
    exact ih (fun b hb a ha => step b hb a (List.mem_cons_of_mem _ ha)) hP hrest

/-- What a loop has to do with the elements that it has seen. -/
theorem foldlM_seen {f : β → α → Run ε β} {P : List α → β → Prop}
    (step : ∀ seen b a b', P seen b → f b a = .ok b' → P (seen ++ [a]) b') {xs seen : List α}
    {b b' : β} (hb : P seen b) (h : xs.foldlM f b = .ok b') : P (seen ++ xs) b' := by
  induction xs generalizing seen b with
  | nil =>
    obtain rfl : b = b' := by simpa using h
    simpa using hb
  | cons a xs ih =>
    rw [List.foldlM_cons] at h
    obtain ⟨c, hc, hrest⟩ := bind_eq_ok.mp h
    have hall := ih (step seen b a c hb hc) hrest
    rwa [List.append_assoc] at hall

/-- Mapping a call that always returns gives one result for each element. -/
theorem mapM_ok {f : α → Run ε β} {xs : List α} (h : ∀ x ∈ xs, ∃ y, f x = .ok y) :
    ∃ ys, xs.mapM f = .ok ys ∧ List.Forall₂ (fun x y => f x = .ok y) xs ys := by
  induction xs with
  | nil => exact ⟨[], rfl, .nil⟩
  | cons x xs ih =>
    obtain ⟨y, hy⟩ := h x List.mem_cons_self
    obtain ⟨ys, hys, hall⟩ := ih fun a ha => h a (List.mem_cons_of_mem _ ha)
    exact ⟨y :: ys, by simp [List.mapM_cons, hy, hys], .cons hy hall⟩

/-- `Iterator::filter` with a test that may fail. -/
def filter (test : α → Run ε Bool) : List α → Run ε (List α)
  | [] => pure []
  | x :: xs => do
    let keep ← test x
    let rest ← filter test xs
    pure (if keep then x :: rest else rest)

theorem filter_ok {test : α → Run ε Bool} {keep : α → Bool} {xs : List α}
    (h : ∀ x ∈ xs, test x = .ok (keep x)) : filter test xs = .ok (xs.filter keep) := by
  induction xs with
  | nil => rfl
  | cons x xs ih =>
    rw [filter, h x List.mem_cons_self, ih fun y hy => h y (List.mem_cons_of_mem _ hy)]
    simp only [ok_bind, pure_eq_ok, List.filter_cons]

/-- A loop of checks succeeds exactly where each check does. -/
theorem forM_eq_ok {check : α → Run ε Unit} {xs : List α} :
    xs.forM check = .ok () ↔ ∀ x ∈ xs, check x = .ok () := by
  induction xs with
  | nil => simp [List.forM]
  | cons x xs ih =>
    change (check x >>= fun _ => xs.forM check) = .ok () ↔ _
    simp only [bind_eq_ok, List.mem_cons, forall_eq_or_imp, ← ih]
    exact ⟨fun ⟨_, hx, hxs⟩ => ⟨hx, hxs⟩, fun ⟨hx, hxs⟩ => ⟨(), hx, hxs⟩⟩

/-- A map that succeeds gives one result for each element. -/
theorem forall₂_of_mapM {f : α → Run ε β} {xs : List α} {ys : List β} (h : xs.mapM f = .ok ys) :
    List.Forall₂ (fun x y => f x = .ok y) xs ys := by
  induction xs generalizing ys with
  | nil =>
    obtain rfl : [] = ys := by simpa using h
    exact .nil
  | cons a xs ih =>
    rw [List.mapM_cons] at h
    obtain ⟨b, hb, h⟩ := bind_eq_ok.mp h
    obtain ⟨rest, hrest, h⟩ := bind_eq_ok.mp h
    obtain rfl : b :: rest = ys := Except.ok.inj h
    exact .cons hb (ih hrest)

/-- Each element has its result, and there are no others. -/
theorem ok_of_mapM {f : α → Run ε β} {xs : List α} {ys : List β} (h : xs.mapM f = .ok ys) :
    (∀ x ∈ xs, ∃ y ∈ ys, f x = .ok y) ∧ ∀ y ∈ ys, ∃ x ∈ xs, f x = .ok y :=
  ⟨fun _ hx => exists_of_forall₂ (forall₂_of_mapM h).flip hx,
    fun _ hy => exists_of_forall₂ (forall₂_of_mapM h) hy⟩

/-- Two maps over one list with the same results agree on each element. -/
theorem mapM_congr_iff {f g : α → Run ε β} {xs : List α} {ys : List β} (h : xs.mapM f = .ok ys) :
    xs.mapM g = .ok ys ↔ ∀ x ∈ xs, g x = f x := by
  induction xs generalizing ys with
  | nil => simpa using h
  | cons x xs ih =>
    rw [List.mapM_cons] at h
    obtain ⟨y, hy, h⟩ := bind_eq_ok.mp h
    obtain ⟨rest, hrest, h⟩ := bind_eq_ok.mp h
    obtain rfl : y :: rest = ys := Except.ok.inj h
    simp only [List.mapM_cons, bind_eq_ok, List.mem_cons, forall_eq_or_imp, ← ih hrest, hy]
    constructor
    · rintro ⟨y', hy', rest', hrest', heq⟩
      obtain ⟨rfl, rfl⟩ := List.cons.inj (Except.ok.inj heq)
      exact ⟨hy', hrest'⟩
    · rintro ⟨hy', hrest'⟩
      exact ⟨y, hy', rest, hrest', rfl⟩

/-- The call returns, with a value or with an `Err`. -/
def Returns (call : Run ε α) : Prop :=
  ∀ halt, call = .error halt → ∃ e, halt = .err e

namespace Returns

theorem ok (a : α) : Returns (.ok a : Run ε α) := nofun

theorem fail (e : ε) : Returns (Run.fail e : Run ε α) := by
  intro halt h
  exact ⟨e, (Except.error.inj h).symm⟩

theorem okOr (value : Option α) (e : ε) : Returns (okOr value e) := by
  cases value with
  | none => exact fail e
  | some a => exact ok a

theorem bind {x : Run ε α} {f : α → Run ε β} (hx : Returns x)
    (hf : ∀ a, x = .ok a → Returns (f a)) : Returns (x >>= f) := by
  cases x with
  | ok a => exact hf a rfl
  | error e =>
    intro halt h
    exact hx halt (congrArg Except.error (Except.error.inj h))

theorem foldlM {f : β → α → Run ε β} (hf : ∀ b a, Returns (f b a)) (xs : List α) (b : β) :
    Returns (xs.foldlM f b) := by
  induction xs generalizing b with
  | nil => exact ok b
  | cons a xs ih =>
    rw [List.foldlM_cons]
    exact (hf b a).bind fun c _ => ih c

theorem mapM {f : α → Run ε β} (hf : ∀ a, Returns (f a)) (xs : List α) : Returns (xs.mapM f) := by
  induction xs with
  | nil => exact ok []
  | cons a xs ih =>
    rw [List.mapM_cons]
    exact (hf a).bind fun _ _ => ih.bind fun _ _ => ok _

/-- A call that returns fails exactly if it has no value. -/
theorem fails_iff {call : Run ε α} (h : Returns call) :
    (∃ e, call = .error (.err e)) ↔ ∀ a, call ≠ .ok a := by
  constructor
  · rintro ⟨e, rfl⟩ a ha
    cases ha
  · intro hnone
    cases hcall : call with
    | ok a => exact absurd hcall (hnone a)
    | error halt =>
      obtain ⟨e, rfl⟩ := h halt hcall
      exact ⟨e, rfl⟩

end Returns

/-- The call returns: with a value that satisfies `P`, or with an `Err` where no value does. -/
def Decides (call : Run ε α) (P : α → Prop) : Prop :=
  match call with
  | .ok a => P a
  | .error (.err _) => ∀ a, ¬ P a
  | .error _ => False

theorem Decides.cases {call : Run ε α} {P : α → Prop} (h : Decides call P) :
    (∃ a, call = .ok a ∧ P a) ∨ (∃ e, call = .error (.err e) ∧ ∀ a, ¬ P a) := by
  unfold Decides at h
  split at h
  · next a => exact .inl ⟨a, rfl, h⟩
  · next e => exact .inr ⟨e, rfl, h⟩
  · exact h.elim

theorem Decides.fail {P : α → Prop} {e : ε} (h : ∀ a, ¬ P a) : Decides (Run.fail e) P := h

end Run

/-- What is left out of a list repeats the key of the element before it. -/
theorem exists_mem_destutter' {α κ : Type} [DecidableEq κ] (key : α → κ) (first : α)
    (xs : List α) : ∀ x ∈ first :: xs, ∃ kept ∈ xs.destutter'
      (fun left right => key left ≠ key right) first, key kept = key x := by
  induction xs generalizing first with
  | nil => simp
  | cons second xs ih =>
    intro x hx
    by_cases hne : key first ≠ key second
    · rw [List.destutter'_cons, if_pos hne]
      obtain rfl | hx := List.mem_cons.mp hx
      · exact ⟨x, List.mem_cons_self, rfl⟩
      · obtain ⟨kept, hkept, hkey⟩ := ih second x hx
        exact ⟨kept, List.mem_cons_of_mem _ hkept, hkey⟩
    · rw [List.destutter'_cons, if_neg hne]
      rw [not_not] at hne
      obtain rfl | hx := List.mem_cons.mp hx
      · exact ih x x List.mem_cons_self
      obtain rfl | hx := List.mem_cons.mp hx
      · rw [← hne]
        exact ih first first List.mem_cons_self
      · exact ih first x (List.mem_cons_of_mem _ hx)

theorem exists_mem_destutter {α κ : Type} [DecidableEq κ] (key : α → κ) {xs : List α} {x : α}
    (h : x ∈ xs) :
    ∃ kept ∈ xs.destutter (fun left right => key left ≠ key right), key kept = key x := by
  cases xs with
  | nil => cases h
  | cons first xs => exact exists_mem_destutter' key first xs x h

theorem mem_destutter {α : Type} [DecidableEq α] {xs : List α} {x : α} :
    x ∈ xs.destutter (· ≠ ·) ↔ x ∈ xs := by
  constructor
  · exact fun h => (List.destutter_sublist _ _).subset h
  · intro h
    obtain ⟨kept, hkept, rfl⟩ := exists_mem_destutter (fun y : α => y) h
    exact hkept

/-- `slice::sort_by`, which is stable. -/
def sortBy {α : Type} (order : α → α → Ordering) (xs : List α) : List α :=
  xs.insertionSort (fun left right => (order left right).isLE)

theorem sortBy_perm {α : Type} (order : α → α → Ordering) (xs : List α) :
    (sortBy order xs).Perm xs :=
  List.perm_insertionSort _ xs

section Comparator

variable {α : Type} (order : α → α → Ordering) [Std.TransCmp order]

instance isTrans_isLE : IsTrans α (fun left right => (order left right).isLE = true) :=
  ⟨fun _ _ _ => Std.TransCmp.isLE_trans⟩

instance total_isLE : Std.Total (fun left right => (order left right).isLE = true) :=
  ⟨fun left right => by
    have hswap : order right left = (order left right).swap := Std.OrientedCmp.eq_swap
    rw [hswap]
    cases order left right <;> decide⟩

theorem pairwise_sortBy (xs : List α) :
    (sortBy order xs).Pairwise (fun left right => (order left right).isLE = true) :=
  List.pairwise_insertionSort _ xs

/-- Sorting forgets the order of a list whose elements compare equal only to themselves. -/
theorem sortBy_eq_of_perm {xs ys : List α} (h : xs.Perm ys)
    (hkeys : ∀ x ∈ xs, ∀ y ∈ xs, order x y = .eq → x = y) : sortBy order xs = sortBy order ys := by
  have hperm : (sortBy order xs).Perm (sortBy order ys) :=
    (sortBy_perm order xs).trans (h.trans (sortBy_perm order ys).symm)
  apply hperm.eq_of_pairwise _ (pairwise_sortBy order xs) (pairwise_sortBy order ys)
  intro x y hx hy hle hge
  have hxs : x ∈ xs := (sortBy_perm order xs).mem_iff.mp hx
  have hys : y ∈ xs := h.mem_iff.mpr ((sortBy_perm order ys).mem_iff.mp hy)
  exact hkeys x hxs y hys (Std.OrientedCmp.isLE_antisymm hle hge)

theorem sortBy_inserted {x : α} {xs ys : List α} (h : Inserted x xs ys) :
    Inserted x (sortBy order xs) (sortBy order ys) :=
  h.insertionSort _

theorem sortBy_insertedOption {x : Option α} {xs ys : List α} (h : InsertedOption x xs ys) :
    InsertedOption x (sortBy order xs) (sortBy order ys) := by
  cases x with
  | none => exact congrArg (sortBy order) h
  | some x => exact sortBy_inserted order h

end Comparator

@[simp] theorem mem_sortBy {α : Type} {order : α → α → Ordering} {xs : List α} {x : α} :
    x ∈ sortBy order xs ↔ x ∈ xs :=
  (sortBy_perm order xs).mem_iff

instance lawfulEqOrd_lex {α β : Type} [Ord α] [Ord β] [Std.LawfulEqOrd α] [Std.LawfulEqOrd β] :
    Std.LawfulEqOrd (α ×ₗ β) where
  compare_self {a} := by
    have hboth : (compare (ofLex a).1 (ofLex a).1).then
        (compare (ofLex a).2 (ofLex a).2) = .eq := by
      rw [Std.ReflOrd.compare_self, Std.ReflOrd.compare_self]
      rfl
    exact hboth
  eq_of_compare {a b} h := by
    have hboth : (compare (ofLex a).1 (ofLex b).1).then
      (compare (ofLex a).2 (ofLex b).2) = .eq := h
    obtain ⟨hfirst, hsecond⟩ := Ordering.then_eq_eq.mp hboth
    exact ofLex_inj.mp (Prod.ext (Std.LawfulEqOrd.eq_of_compare hfirst)
      (Std.LawfulEqOrd.eq_of_compare hsecond))

/-- `sort_by_key` and then `dedup_by_key` leave each key once. -/
theorem nodup_destutter_sortBy {α κ : Type} [DecidableEq κ] [Ord κ] [Std.TransOrd κ]
    [Std.LawfulEqOrd κ] (key : α → κ) (xs : List α) :
    (((sortBy (compareOn key) xs).destutter
      (fun left right => key left ≠ key right)).map key).Nodup := by
  set sorted := sortBy (compareOn key) xs
  have hle : sorted.Pairwise (fun left right => (compareOn key left right).isLE) :=
    List.pairwise_insertionSort _ _
  -- neighbours differ, so the order that they stand in is strict
  have hlt : (sorted.destutter (fun left right => key left ≠ key right)).IsChain
      (fun left right => compare (key left) (key right) = .lt) := by
    have hkept := (hle.sublist (List.destutter_sublist (fun left right : α =>
      key left ≠ key right) sorted)).isChain
    have hdiffer := List.isChain_destutter (fun left right : α => key left ≠ key right) sorted
    rw [List.isChain_iff_getElem] at hkept hdiffer ⊢
    intro i hi
    have hisLE := hkept i hi
    have hne := hdiffer i hi
    refine Ordering.isLE_iff_eq_lt_or_eq_eq.mp hisLE |>.resolve_right fun heq => hne ?_
    exact Std.LawfulEqCmp.eq_of_compare heq
  have : IsTrans α (fun left right => compare (key left) (key right) = .lt) :=
    ⟨fun _ _ _ => Std.TransCmp.lt_trans⟩
  rw [List.isChain_iff_pairwise] at hlt
  refine List.pairwise_map.mpr (hlt.imp fun {left right} h heq => ?_)
  rw [heq, Std.ReflOrd.compare_self] at h
  cases h

/-- A map that keeps the order commutes with sorting. -/
theorem sortBy_map {α β : Type} {order : α → α → Ordering} {order' : β → β → Ordering} {f : α → β}
    (h : ∀ x y, order' (f x) (f y) = order x y) (xs : List α) :
    sortBy order' (xs.map f) = (sortBy order xs).map f :=
  (List.map_insertionSort _ _ f xs (fun x _ y _ => by rw [h])).symm

/-- `BTreeSet`, as the ascending list of its elements. -/
def orderedSet {α : Type} [LinearOrder α] (xs : List α) : List α :=
  (xs.insertionSort (· ≤ ·)).dedup

@[simp] theorem mem_orderedSet {α : Type} [LinearOrder α] {xs : List α} {x : α} :
    x ∈ orderedSet xs ↔ x ∈ xs := by
  rw [orderedSet, List.mem_dedup, List.mem_insertionSort]

theorem pairwise_orderedSet {α : Type} [LinearOrder α] (xs : List α) :
    (orderedSet xs).Pairwise (· < ·) := by
  have hle : (orderedSet xs).Pairwise (· ≤ ·) :=
    (List.pairwise_insertionSort (· ≤ ·) xs).sublist (List.dedup_sublist _)
  exact (hle.and (List.nodup_dedup _)).imp fun h => lt_of_le_of_ne h.1 h.2

/-- An ascending list is the set of its elements. -/
theorem orderedSet_eq {α : Type} [LinearOrder α] {xs ys : List α} (hordered : ys.Pairwise (· < ·))
    (hmem : ∀ x, x ∈ ys ↔ x ∈ xs) : orderedSet xs = ys := by
  have hnodup (zs : List α) (h : zs.Pairwise (· < ·)) : zs.Nodup := h.imp fun h => h.ne
  have hperm : (orderedSet xs).Perm ys :=
    (List.perm_ext_iff_of_nodup (hnodup _ (pairwise_orderedSet xs)) (hnodup _ hordered)).mpr
      fun x => mem_orderedSet.trans (hmem x).symm
  exact hperm.eq_of_pairwise (fun x y _ _ hlt hgt => absurd hgt hlt.asymm)
    (pairwise_orderedSet xs) hordered

end Mads
