import Mathlib.Data.Fintype.Card
import Mathlib.Data.List.Chain
import Mads.Library.DepthFirst

/-!
# Cycle detection with three colours

A depth-first search paints a node gray while it is active and black when it is left. Meeting a
gray successor closes a cycle: the part of the active path that starts there is recorded.
-/

namespace ThreeColor

open Relation

inductive Color where
  | white
  | gray
  | black
  deriving DecidableEq, Repr

/-- The colours, the active path, and the open cycles found so far. -/
structure State (α : Type*) where
  colors : α → Color
  stack : List α
  cycles : List (List α)

def State.fresh {α : Type*} : State α := ⟨fun _ => .white, [], []⟩

section Search

variable {α : Type*} [DecidableEq α]

namespace State

def enter (st : State α) (v : α) : State α :=
  { st with colors := Function.update st.colors v .gray, stack := st.stack ++ [v] }

def leave (st : State α) (v : α) : State α :=
  { st with colors := Function.update st.colors v .black, stack := st.stack.dropLast }

def record (st : State α) (cycle : List α) : State α :=
  { st with cycles := st.cycles ++ [cycle] }

end State

/-- The part of the active path from `w` on; `none` where `w` is not active. -/
def openCycle (st : State α) (w : α) : Option (List α) :=
  (st.stack.findIdx? (fun candidate => candidate = w)).map st.stack.drop

/-- What a search does at one successor. -/
def look (visit : α → State α → Option (State α)) (st : State α) (w : α) : Option (State α) :=
  match st.colors w with
  | .white => visit w st
  | .gray => (openCycle st w).map st.record
  | .black => some st

variable (succ : α → List α)

/-- Visits one node; `none` where the fuel, which bounds the depth, runs out. -/
def visit : ℕ → α → State α → Option (State α)
  | 0, _, _ => none
  | fuel + 1, v, st =>
    ((succ v).foldlM (look (visit fuel)) (st.enter v)).map (fun st => st.leave v)

/-- Searches from every node that is still white when its turn comes. -/
def detect (fuel : ℕ) (nodes : List α) : Option (State α) :=
  nodes.foldlM (fun st v => if st.colors v = .white then visit succ fuel v st else some st)
    State.fresh

variable {succ}

theorem looks_prefix {visit : α → State α → Option (State α)} {ws : List α} {st st' : State α}
    (hvisit : ∀ w a b, visit w a = some b → a.cycles <+: b.cycles)
    (h : ws.foldlM (look visit) st = some st') : st.cycles <+: st'.cycles := by
  induction ws generalizing st with
  | nil =>
    obtain rfl : st = st' := by simpa using h
    exact List.prefix_rfl
  | cons w ws ih =>
    rw [List.foldlM_cons, Option.bind_eq_bind, Option.bind_eq_some_iff] at h
    obtain ⟨mid, hlook, hrest⟩ := h
    refine List.IsPrefix.trans ?_ (ih hrest)
    rw [look] at hlook
    split at hlook
    · exact hvisit w st mid hlook
    · obtain ⟨cycle, -, rfl⟩ := Option.map_eq_some_iff.mp hlook
      exact List.prefix_append _ _
    · obtain rfl : st = mid := by simpa using hlook
      exact List.prefix_rfl

/-- A visit only appends to the cycles found before. -/
theorem visit_prefix {fuel : ℕ} {v : α} {st st' : State α}
    (h : visit succ fuel v st = some st') : st.cycles <+: st'.cycles := by
  induction fuel generalizing v st st' with
  | zero => simp [visit] at h
  | succ fuel ih =>
    rw [visit, Option.map_eq_some_iff] at h
    obtain ⟨looped, hloop, rfl⟩ := h
    show (st.enter v).cycles <+: looped.cycles
    refine looks_prefix (fun w a b hab => ?_) hloop
    exact ih hab

theorem detect_prefix {fuel : ℕ} {nodes : List α} {st st' : State α}
    (h : nodes.foldlM (fun st v =>
      if st.colors v = .white then visit succ fuel v st else some st) st = some st') :
    st.cycles <+: st'.cycles := by
  induction nodes generalizing st with
  | nil =>
    obtain rfl : st = st' := by simpa using h
    exact List.prefix_rfl
  | cons v nodes ih =>
    rw [List.foldlM_cons, Option.bind_eq_bind, Option.bind_eq_some_iff] at h
    obtain ⟨mid, hmid, hrest⟩ := h
    refine List.IsPrefix.trans ?_ (ih hrest)
    split at hmid
    · exact visit_prefix hmid
    · obtain rfl : st = mid := by simpa using hmid
      exact List.prefix_rfl

end Search

/-! ### Invariants -/

section Invariant

variable {α : Type*} (succ : α → List α)

/-- The walk `first, rest.., first` follows the successors and repeats nothing in between. -/
def ClosedWalk (cycle : List α) : Prop :=
  ∃ first rest, cycle = first :: rest ∧ cycle.Nodup ∧
    (cycle ++ [first]).IsChain (fun v w => w ∈ succ v)

/-- An edge with no cycle among `cycles` that passes both its ends. -/
def Remaining (cycles : List (List α)) (v w : α) : Prop :=
  w ∈ succ v ∧ ∀ c ∈ cycles, v ∈ c → w ∉ c

/-- Gray nodes are the active path, which follows the successors. Every chain of edges from a black
node ends, unless it takes an edge inside a cycle that was recorded. -/
structure Invariant (st : State α) : Prop where
  gray_iff : ∀ v, st.colors v = .gray ↔ v ∈ st.stack
  nodup : st.stack.Nodup
  path : st.stack.IsChain (fun v w => w ∈ succ v)
  finished : ∀ v, st.colors v = .black → Acc (fun w v => Remaining succ st.cycles v w) v

/-- A search gives back the active path, repaints white nodes only, and records closed walks. -/
structure Advance (before after : State α) : Prop where
  stack : after.stack = before.stack
  settled : ∀ v, before.colors v ≠ .white → after.colors v = before.colors v
  cycles : ∃ found, after.cycles = before.cycles ++ found ∧ ∀ c ∈ found, ClosedWalk succ c
  invariant : Invariant succ after

variable {succ}

theorem Advance.refl {st : State α} (h : Invariant succ st) : Advance succ st st :=
  ⟨rfl, fun _ _ => rfl, ⟨[], by simp⟩, h⟩

theorem Advance.trans {a b c : State α} (h : Advance succ a b) (h' : Advance succ b c) :
    Advance succ a c := by
  obtain ⟨found, hfound, hclosed⟩ := h.cycles
  obtain ⟨found', hfound', hclosed'⟩ := h'.cycles
  refine ⟨h'.stack.trans h.stack, fun v hv => ?_, ⟨found ++ found', ?_, ?_⟩, h'.invariant⟩
  · rw [h'.settled v (by rwa [h.settled v hv]), h.settled v hv]
  · rw [hfound', hfound, List.append_assoc]
  · intro cycle hc
    obtain hc | hc := List.mem_append.mp hc
    · exact hclosed cycle hc
    · exact hclosed' cycle hc

theorem Advance.mem_cycles {a b : State α} (h : Advance succ a b) {c : List α}
    (hc : c ∈ a.cycles) : c ∈ b.cycles := by
  obtain ⟨found, hfound, -⟩ := h.cycles
  rw [hfound]
  exact List.mem_append_left _ hc

/-- Recording more cycles leaves fewer edges. -/
theorem acc_remaining_mono {cycles more : List (List α)} (hsubset : cycles ⊆ more) {v : α}
    (h : Acc (fun w v => Remaining succ cycles v w) v) :
    Acc (fun w v => Remaining succ more v w) v := by
  refine Subrelation.accessible (fun {w u} hedge => ?_) h
  exact ⟨hedge.1, fun c hc => hedge.2 c (hsubset hc)⟩

theorem Invariant.notMem_of_white {st : State α} (h : Invariant succ st) {v : α}
    (hv : st.colors v = .white) : v ∉ st.stack := by
  intro hmem
  have := (h.gray_iff v).mpr hmem
  simp [hv] at this

/-- A closed walk may start at any of its nodes. -/
theorem ClosedWalk.rotate {front back : List α} (h : ClosedWalk succ (front ++ back)) :
    ClosedWalk succ (back ++ front) := by
  obtain ⟨first, rest, hwalk, hnodup, hchain⟩ := h
  have hrotated : (back ++ front).Nodup := (List.perm_append_comm.nodup_iff).mp hnodup
  cases front with
  | nil => exact ⟨first, rest, by simpa using hwalk, hrotated, by simpa using hchain⟩
  | cons f front =>
    obtain ⟨rfl, rfl⟩ : f = first ∧ front ++ back = rest := by simpa using hwalk
    cases back with
    | nil => exact ⟨f, front, by simp, hrotated, by simpa using hchain⟩
    | cons b back =>
      refine ⟨b, back ++ f :: front, rfl, hrotated, ?_⟩
      have hsplit : ((f :: front) ++ b :: (back ++ [f])).IsChain (fun v w => w ∈ succ v) := by
        simpa using hchain
      obtain ⟨hfront, hback⟩ := List.isChain_split.mp hsplit
      show ((b :: back) ++ f :: front ++ [b]).IsChain (fun v w => w ∈ succ v)
      rw [List.append_assoc]
      exact List.isChain_split.mpr ⟨hback, hfront⟩

/-- The nodes of a closed walk reach each other. -/
theorem ClosedWalk.reaches {cycle : List α} (h : ClosedWalk succ cycle) {v w : α} (hv : v ∈ cycle)
    (hw : w ∈ cycle) : TransGen (DepthFirst.Edge succ) v w := by
  obtain ⟨front, back, rfl⟩ := List.append_of_mem hv
  obtain ⟨first, rest, hwalk, -, hchain⟩ := h.rotate
  obtain ⟨rfl, rfl⟩ : v = first ∧ back ++ front = rest := by simpa using hwalk
  have hreach : (v :: (back ++ front) ++ [v]).IsChain (TransGen (DepthFirst.Edge succ)) :=
    hchain.imp fun _ _ => .single
  rw [List.isChain_iff_pairwise, List.cons_append, List.pairwise_cons] at hreach
  refine hreach.1 w ?_
  simp only [List.mem_append, List.mem_cons] at hw
  simp only [List.mem_append, List.mem_cons]
  tauto

theorem ClosedWalk.ne_nil {cycle : List α} (h : ClosedWalk succ cycle) : cycle ≠ [] := by
  obtain ⟨first, rest, rfl, -⟩ := h
  simp

/-- From the first node of a closed walk a chain of successors goes on for ever. -/
theorem ClosedWalk.not_acc {cycle : List α} (h : ClosedWalk succ cycle) :
    ∃ v, ¬ Acc (fun w v => w ∈ succ v) v := by
  obtain ⟨v, hv⟩ := List.exists_mem_of_ne_nil _ h.ne_nil
  exact ⟨v, fun hacc => DepthFirst.not_transGen_self hacc (h.reaches hv hv)⟩

/-- Where every chain of remaining edges ends, a node that reaches itself shares a recorded cycle
with some node that it reaches and is reached by. -/
theorem exists_cycle_of_transGen {cycles : List (List α)} {v : α}
    (hacc : Acc (fun w v => Remaining succ cycles v w) v)
    (hcycle : TransGen (DepthFirst.Edge succ) v v) :
    ∃ c ∈ cycles, ∃ u ∈ c, ReflTransGen (DepthFirst.Edge succ) v u ∧
      ReflTransGen (DepthFirst.Edge succ) u v := by
  by_contra hnone
  push Not at hnone
  -- otherwise no edge of the cycle through `v` lies inside a recorded one
  suffices hlift : ∀ w, TransGen (DepthFirst.Edge succ) v w →
      ReflTransGen (DepthFirst.Edge succ) w v → TransGen (Remaining succ cycles) v w by
    exact DepthFirst.not_transGen_self hacc (hlift v hcycle .refl)
  intro w hvw
  induction hvw with
  | @single w hedge =>
    intro hwv
    exact .single ⟨hedge, fun c hc hv => absurd (hwv.head hedge) (hnone c hc v hv .refl)⟩
  | @tail u w hvu hedge ih =>
    intro hwv
    have huv := hwv.head hedge
    exact (ih huv).tail ⟨hedge, fun c hc hu => absurd huv (hnone c hc u hu hvu.to_reflTransGen)⟩

theorem fresh_invariant : Invariant succ (State.fresh : State α) :=
  ⟨by simp [State.fresh], List.nodup_nil, .nil, by simp [State.fresh]⟩

/-- The number of nodes not yet met. -/
def whites [Fintype α] (st : State α) : ℕ := (Finset.univ.filter (fun v => st.colors v = .white)).card

theorem Advance.whites_le [Fintype α] {before after : State α} (h : Advance succ before after) :
    whites after ≤ whites before := by
  refine Finset.card_le_card fun v hv => ?_
  simp only [Finset.mem_filter, Finset.mem_univ, true_and] at hv ⊢
  by_contra hne
  rw [h.settled v hne] at hv
  exact hne hv

end Invariant

/-! ### Correctness -/

variable {α : Type*} [DecidableEq α] {succ : α → List α}

/-- A white successor of the active end may become active. -/
theorem Invariant.enter {st : State α} (h : Invariant succ st) {v : α}
    (hv : st.colors v = .white) (hlink : ∀ u ∈ st.stack.getLast?, v ∈ succ u) :
    Invariant succ (st.enter v) := by
  have hout := h.notMem_of_white hv
  refine ⟨fun u => ?_, ?_, ?_, fun u hu => ?_⟩
  · by_cases huv : u = v
    · simp [State.enter, huv]
    · simpa [State.enter, huv] using h.gray_iff u
  · refine List.nodup_append.mpr ⟨h.nodup, List.nodup_singleton v, ?_⟩
    rintro a ha b hb rfl
    exact hout (List.mem_singleton.mp hb ▸ ha)
  · refine List.isChain_append.mpr ⟨h.path, List.isChain_singleton v, ?_⟩
    intro u hu w hw
    obtain rfl : v = w := by simpa using hw
    exact hlink u hu
  · by_cases huv : u = v
    · simp [State.enter, huv] at hu
    · exact h.finished u (by simpa [State.enter, huv] using hu)

/-- The active end is left once its successors were looked at. -/
theorem Invariant.leave {st : State α} (h : Invariant succ st) {v : α} {base : List α}
    (hstack : st.stack = base ++ [v])
    (hdone : ∀ w, Remaining succ st.cycles v w → st.colors w = .black) :
    Invariant succ (st.leave v) := by
  have hdrop : (st.leave v).stack = base := by simp [State.leave, hstack]
  have hnodup := h.nodup
  rw [hstack, List.nodup_append] at hnodup
  have hout : v ∉ base := fun hv => hnodup.2.2 v hv v (List.mem_singleton_self v) rfl
  refine ⟨fun u => ?_, ?_, ?_, fun u hu => ?_⟩
  · rw [hdrop]
    by_cases huv : u = v
    · simp [State.leave, huv, hout]
    · have := h.gray_iff u
      rw [hstack] at this
      simpa [State.leave, huv] using this
  · rw [hdrop]
    exact hnodup.1
  · rw [hdrop]
    have hpath := h.path
    rw [hstack] at hpath
    exact (List.isChain_append.mp hpath).1
  · by_cases huv : u = v
    · subst huv
      exact .intro u fun w hw => h.finished w (hdone w hw)
    · exact h.finished u (by simpa [State.leave, huv] using hu)

/-- Meeting an active successor of the active end closes a walk through both. -/
theorem openCycle_closed {st : State α} (h : Invariant succ st) {v w : α} {base : List α}
    (hstack : st.stack = base ++ [v]) (hw : w ∈ succ v) (hgray : st.colors w = .gray) :
    ∃ cycle, openCycle st w = some cycle ∧ ClosedWalk succ cycle ∧ v ∈ cycle ∧ w ∈ cycle := by
  have hmem : w ∈ st.stack := (h.gray_iff w).mp hgray
  obtain ⟨i, hi⟩ : ∃ i, st.stack.findIdx? (fun candidate => candidate = w) = some i := by
    rw [← Option.isSome_iff_exists, List.findIdx?_isSome, List.any_eq_true]
    exact ⟨w, hmem, decide_eq_true rfl⟩
  obtain ⟨hlt, htype, -⟩ := List.findIdx?_eq_some_iff_getElem.mp hi
  have hfirst : st.stack[i] = w := decide_eq_true_eq.mp htype
  have hopen : st.stack.drop i = w :: st.stack.drop (i + 1) := by
    rw [List.drop_eq_getElem_cons hlt, hfirst]
  -- the last node of the cycle is the active end
  have hlast : (st.stack.drop i).getLast? = some v := by
    rw [List.getLast?_drop, if_neg (by omega), hstack, List.getLast?_concat]
  refine ⟨st.stack.drop i, by simp [openCycle, hi], ⟨w, st.stack.drop (i + 1), hopen, ?_, ?_⟩,
    List.mem_of_getLast? hlast, by simp [hopen]⟩
  · exact h.nodup.sublist (List.drop_sublist i _)
  · refine List.isChain_append.mpr ⟨h.path.drop i, List.isChain_singleton w, ?_⟩
    intro u hu x hx
    obtain rfl : w = x := by simpa using hx
    obtain rfl : v = u := by simpa [hlast] using hu
    exact hw

/-- One look at a successor of the active end: it is settled afterwards, and black unless a recorded
cycle passes both. -/
theorem look_ok {enter : α → State α → Option (State α)} {st : State α} {v w : α}
    {base : List α} (h : Invariant succ st) (hstack : st.stack = base ++ [v]) (hw : w ∈ succ v)
    (henter : st.colors w = .white → ∃ after, enter w st = some after ∧
      Advance succ st after ∧ after.colors w = .black) :
    ∃ after, look enter st w = some after ∧ Advance succ st after ∧
      after.colors w ≠ .white ∧ (Remaining succ after.cycles v w → after.colors w = .black) := by
  unfold look
  cases hcolor : st.colors w with
  | white =>
    obtain ⟨after, hok, hadvance, hblack⟩ := henter hcolor
    exact ⟨after, hok, hadvance, by simp [hblack], fun _ => hblack⟩
  | gray =>
    obtain ⟨cycle, hopen, hclosed, hv, hw⟩ := openCycle_closed h hstack hw hcolor
    refine ⟨st.record cycle, by simp [hopen], ⟨rfl, fun _ _ => rfl, ⟨[cycle], rfl, ?_⟩, ?_⟩, ?_, ?_⟩
    · simpa using hclosed
    · refine ⟨h.gray_iff, h.nodup, h.path, fun u hu => ?_⟩
      exact acc_remaining_mono (List.subset_append_left _ _) (h.finished u hu)
    · simp [State.record, hcolor]
    · intro hremaining
      exact absurd hw (hremaining.2 cycle (by simp [State.record]) hv)
  | black => exact ⟨st, rfl, .refl h, by simp [hcolor], fun _ => hcolor⟩

theorem looks_ok (enter : α → State α → Option (State α)) {v : α} {base : List α}
    (ws : List α) (st : State α) (h : Invariant succ st) (hstack : st.stack = base ++ [v])
    (hws : ∀ w ∈ ws, w ∈ succ v)
    (henter : ∀ (next : State α) (w : α), Advance succ st next → w ∈ succ v →
      next.colors w = .white → ∃ after, enter w next = some after ∧
        Advance succ next after ∧ after.colors w = .black) :
    ∃ after, ws.foldlM (look enter) st = some after ∧ Advance succ st after ∧
      ∀ w ∈ ws, Remaining succ after.cycles v w → after.colors w = .black := by
  induction ws generalizing st with
  | nil => exact ⟨st, rfl, .refl h, by simp⟩
  | cons w ws ih =>
    obtain ⟨mid, hlook, hmid, hsettled, hblack⟩ := look_ok h hstack (hws w List.mem_cons_self)
      (henter st w (.refl h) (hws w List.mem_cons_self))
    obtain ⟨after, hrest, hafter, hall⟩ := ih mid hmid.invariant (hmid.stack.trans hstack)
      (fun u hu => hws u (List.mem_cons_of_mem _ hu))
      (fun next u hnext => henter next u (hmid.trans hnext))
    refine ⟨after, by simpa [hlook] using hrest, hmid.trans hafter, fun u hu hremaining => ?_⟩
    obtain rfl | hu := List.mem_cons.mp hu
    · rw [hafter.settled u hsettled]
      exact hblack ⟨hremaining.1, fun c hc => hremaining.2 c (hafter.mem_cycles hc)⟩
    · exact hall u hu hremaining

section Fintype

variable [Fintype α]

theorem whites_enter_lt {st : State α} {v : α} (hv : st.colors v = .white) :
    whites (st.enter v) < whites st := by
  refine Finset.card_lt_card ((Finset.ssubset_iff_of_subset fun u hu => ?_).mpr ⟨v, ?_, ?_⟩)
  · simp only [Finset.mem_filter, Finset.mem_univ, true_and] at hu ⊢
    by_cases huv : u = v
    · rw [huv, hv]
    · simpa [State.enter, huv] using hu
  · simpa using hv
  · simp only [Finset.mem_filter, Finset.mem_univ, true_and]
    simp [State.enter]

/-- With one unit of fuel for each white node a visit ends, and its node is black. -/
theorem visit_ok (fuel : ℕ) (v : α) (st : State α) (h : Invariant succ st)
    (hwhite : st.colors v = .white) (hlink : ∀ u ∈ st.stack.getLast?, v ∈ succ u)
    (hfuel : whites st ≤ fuel) :
    ∃ after, visit succ fuel v st = some after ∧ Advance succ st after ∧
      after.colors v = .black := by
  induction fuel generalizing v st with
  | zero =>
    have := whites_enter_lt hwhite
    omega
  | succ fuel ih =>
    have hless := whites_enter_lt hwhite
    obtain ⟨looped, hloop, hadvance, hblack⟩ := looks_ok (visit succ fuel) (succ v)
      (st.enter v) (h.enter hwhite hlink) rfl (fun w hw => hw) (by
        intro next w hnext hw hcolor
        refine ih w next hnext.invariant hcolor (fun u hu => ?_) ?_
        · rw [hnext.stack] at hu
          obtain rfl : v = u := by simpa [State.enter] using hu
          exact hw
        · have := hnext.whites_le
          omega)
    have hleave : Invariant succ (looped.leave v) := hadvance.invariant.leave hadvance.stack
      fun w hw => hblack w hw.1 hw
    refine ⟨looped.leave v, by simp [visit, hloop], ⟨?_, fun u hu => ?_, hadvance.cycles, hleave⟩,
      by simp [State.leave]⟩
    · simp [State.leave, hadvance.stack, State.enter]
    · have huv : u ≠ v := fun he => hu (he ▸ hwhite)
      have henter : (st.enter v).colors u = st.colors u := by simp [State.enter, huv]
      have hlooped := hadvance.settled u (by rwa [henter])
      simpa [State.leave, huv, henter] using hlooped

/-- The search over all nodes ends with every node black, and what it records are closed walks. -/
theorem detect_ok (succ : α → List α) (nodes : List α) (fuel : ℕ) (hfuel : Fintype.card α ≤ fuel) :
    ∃ after, detect succ fuel nodes = some after ∧ Advance succ State.fresh after ∧
      ∀ v ∈ nodes, after.colors v = .black := by
  have hstart : whites (State.fresh : State α) ≤ fuel := (Finset.card_le_univ _).trans hfuel
  unfold detect
  suffices hfold : ∀ st : State α, Advance succ State.fresh st →
      ∃ after, nodes.foldlM
          (fun st v => if st.colors v = .white then visit succ fuel v st else some st) st =
            some after ∧ Advance succ st after ∧ ∀ v ∈ nodes, after.colors v = .black by
    exact hfold _ (.refl fresh_invariant)
  induction nodes with
  | nil => exact fun st hst => ⟨st, rfl, .refl hst.invariant, by simp⟩
  | cons v nodes ih =>
    intro st hst
    have hstack : st.stack = [] := hst.stack
    obtain ⟨mid, hok, hmid, hblack⟩ : ∃ mid,
        (if st.colors v = .white then visit succ fuel v st else some st) = some mid ∧
          Advance succ st mid ∧ mid.colors v = .black := by
      by_cases hcolor : st.colors v = .white
      · rw [if_pos hcolor]
        exact visit_ok fuel v st hst.invariant hcolor (by simp [hstack])
          (hst.whites_le.trans hstart)
      · refine ⟨st, by rw [if_neg hcolor], .refl hst.invariant, ?_⟩
        have hgray : st.colors v ≠ .gray := fun hg => by
          simpa [hstack] using (hst.invariant.gray_iff v).mp hg
        cases hc : st.colors v <;> simp_all
    obtain ⟨after, hrest, hafter, hall⟩ := ih mid (hst.trans hmid)
    refine ⟨after, by simp only [List.foldlM_cons, hok]; exact hrest, hmid.trans hafter, ?_⟩
    intro u hu
    obtain rfl | hu := List.mem_cons.mp hu
    · rw [hafter.settled u (by simp [hblack]), hblack]
    · exact hall u hu

end Fintype

end ThreeColor
