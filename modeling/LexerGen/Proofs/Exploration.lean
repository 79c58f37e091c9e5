import LexerGen.Exploration
import Mathlib.Data.List.Forall2

/-!
# What an exploration finds

`explore` numbers the nodes of a transition system in the order in which it meets them. Its state
is the array of nodes found, together with the rows of numbers for those that have been expanded.
The invariant (`Expanded`) is that no node is found twice and that each row lists, in order, the
numbers of the successors of its node. One round keeps it (`Expanded.push`), and when no round is
left every node has its row (`expanded_explore`).

A node is met only as a successor of one met before, so a property that passes from nodes to their
successors holds of all that are found (`forall_mem_explore`).

Numbers are given in the order in which nodes are met. Every node but those found at the start has a
place in the lists of successors where it stands first, and what stands before that place has
smaller numbers (`firstMet_explore`). This is all that is left of the order of the search once it
has ended.
-/

namespace LexerGen

variable {α : Type} {found found' : Array α} {x : α} {i : Nat} {o : Option α} {k : Option Nat}

/-- **The number of a node that may be absent.** -/
inductive Numbered (found : Array α) : Option α → Option Nat → Prop
  /-- An absent node has no number. -/
  | absent : Numbered found none none
  /-- The number of a node is the place where it was found. -/
  | present {x : α} {i : Nat} : found[i]? = some x → Numbered found (some x) (some i)

/-- **Nodes keep their numbers** when more are found. -/
def Keeps (found found' : Array α) : Prop :=
  ∀ (i : Nat) (x : α), found[i]? = some x → found'[i]? = some x

theorem Keeps.trans {found'' : Array α} (h : Keeps found found') (k : Keeps found' found'') :
    Keeps found found'' := fun i x hx => k i x (h i x hx)

/-- A number that was given already is still that of the same node. -/
theorem Keeps.getElem?_of_lt (hkeep : Keeps found found') (hi : i < found.size)
    (h : found'[i]? = some x) : found[i]? = some x := by
  rw [Array.getElem?_eq_getElem hi, ← h, hkeep _ _ (Array.getElem?_eq_getElem hi)]

theorem Numbered.mono (hkeep : Keeps found found') (h : Numbered found o k) :
    Numbered found' o k := by
  cases h with
  | absent => exact .absent
  | present hx => exact .present (hkeep _ _ hx)

variable [DecidableEq α]

/-! ### One node -/

theorem keeps_intern : Keeps found (intern found x).1 := by
  intro i y hy
  by_cases hx : x ∈ found
  · rwa [intern_of_mem hx]
  · have hi : i < found.size := (Array.getElem?_eq_some_iff.1 hy).1
    rwa [intern_of_not_mem hx, Array.getElem?_push_lt hi, ← Array.getElem?_eq_getElem hi]

/-- A node is found at its number. -/
theorem getElem?_intern : (intern found x).1[(intern found x).2]? = some x := by
  show (intern found x).1[found.idxOf x]? = some x
  by_cases hx : x ∈ found
  · -- the index of a node found before is a place where that node stands
    have hlt : found.idxOf x < found.size := Array.idxOf_lt_size_iff.2 hx
    have heq : (found[found.idxOf x] == x) = true := Array.findIdx_getElem (w := hlt)
    rw [intern_of_mem hx, Array.getElem?_eq_getElem hlt, eq_of_beq heq]
  · rw [intern_of_not_mem hx, Array.idxOf_eq_size hx, Array.getElem?_push_size]

theorem nodup_intern (h : found.toList.Nodup) : (intern found x).1.toList.Nodup := by
  by_cases hx : x ∈ found
  · rwa [intern_of_mem hx]
  · rw [intern_of_not_mem hx, Array.toList_push]
    refine List.nodup_append.2 ⟨h, List.pairwise_singleton _ x, fun a ha b hb hab => hx ?_⟩
    rw [List.mem_singleton] at hb
    rwa [← hb, ← hab, Array.mem_def]

theorem mem_intern {y : α} (h : y ∈ (intern found x).1) : y ∈ found ∨ y = x := by
  by_cases hx : x ∈ found
  · rw [intern_of_mem hx] at h
    exact .inl h
  · rw [intern_of_not_mem hx] at h
    exact Array.mem_push.1 h

/-! ### A list of nodes -/

/-- **What numbering a list of nodes does**: nodes keep their numbers, only nodes of the list are
added, none twice, and the row holds the numbers of the list. -/
structure Interned (found : Array α) (l : List (Option α)) (found' : Array α)
    (row : List (Option Nat)) : Prop where
  keeps : Keeps found found'
  nodup : found.toList.Nodup → found'.toList.Nodup
  mem : ∀ y ∈ found', y ∈ found ∨ some y ∈ l
  numbered : List.Forall₂ (Numbered found') l row

theorem interned_internAll (found : Array α) (l : List (Option α)) :
    Interned found l (internAll found l).1 (internAll found l).2 := by
  induction l generalizing found with
  | nil => exact ⟨fun _ _ => id, id, fun y hy => .inl hy, .nil⟩
  | cons o rest ih =>
    -- an absent node finds nothing, and one that is present is numbered before the others
    cases o with
    | none =>
      obtain ⟨hkeep, hnodup, hmem, hnum⟩ := ih found
      exact ⟨hkeep, hnodup, fun y hy => (hmem y hy).imp_right (.tail _), .cons .absent hnum⟩
    | some x =>
      obtain ⟨hkeep, hnodup, hmem, hnum⟩ := ih (intern found x).1
      refine ⟨keeps_intern.trans hkeep, fun h => hnodup (nodup_intern h), fun y hy => ?_,
        .cons (.present (hkeep _ _ getElem?_intern)) hnum⟩
      rcases hmem y hy with hy | hy
      · rcases mem_intern hy with hy | rfl
        · exact .inl hy
        · exact .inr List.mem_cons_self
      · exact .inr (List.mem_cons_of_mem _ hy)

/-! ### The whole exploration -/

variable {next : α → List (Option α)} {rows : Array (List (Option Nat))}

/-- **The invariant of an exploration.** No node is found twice, and each node that has been
expanded has a row with the numbers of its successors. -/
structure Expanded (next : α → List (Option α)) (found : Array α)
    (rows : Array (List (Option Nat))) : Prop where
  /-- No node is found twice. -/
  nodup : found.toList.Nodup
  /-- Only nodes found are expanded. -/
  size_le : rows.size ≤ found.size
  /-- Rows hold the numbers of successors. -/
  row : ∀ {i : Nat} {x : α} {row : List (Option Nat)}, found[i]? = some x → rows[i]? = some row →
    List.Forall₂ (Numbered found) (next x) row

omit [DecidableEq α] in
theorem expanded_singleton (x : α) : Expanded next #[x] #[] where
  nodup := List.pairwise_singleton _ x
  size_le := Nat.zero_le _
  row _ hrow := by cases hrow

/-- **One round keeps the invariant.** -/
theorem Expanded.push (h : Expanded next found rows) (hlt : rows.size < found.size) :
    Expanded next (internAll found (next found[rows.size])).1
      (rows.push (internAll found (next found[rows.size])).2) := by
  obtain ⟨hkeep, hnodup, -, hnum⟩ := interned_internAll found (next found[rows.size])
  refine ⟨hnodup h.nodup, ?_, ?_⟩
  · rw [Array.size_push]
    exact (Array.getElem?_eq_some_iff.1 (hkeep _ _ (Array.getElem?_eq_getElem hlt))).1
  · intro i x row hx hrow
    rw [Array.getElem?_push] at hrow
    split at hrow
    · -- the row just added belongs to the node just expanded
      next hi =>
      obtain rfl := Option.some.inj hrow
      rw [hi, hkeep _ _ (Array.getElem?_eq_getElem hlt)] at hx
      obtain rfl := Option.some.inj hx
      exact hnum
    · -- an older row belongs to an older node, whose number stays what it was
      have hi : i < found.size :=
        Nat.lt_of_lt_of_le (Array.getElem?_eq_some_iff.1 hrow).1 h.size_le
      exact (h.row (hkeep.getElem?_of_lt hi hx) hrow).imp fun _ _ => Numbered.mono hkeep

variable (finite : ∃ space : List α, ∀ s t, some t ∈ next s → t ∈ space)

/-- **When an exploration ends** the invariant holds and every node has its row. -/
theorem expanded_explore (h : Expanded next found rows) :
    Expanded next (explore next finite found rows).nodes (explore next finite found rows).rows ∧
      (explore next finite found rows).rows.size = (explore next finite found rows).nodes.size := by
  fun_induction explore next finite found rows with
  | case1 found rows hlt step ih => exact ih (h.push hlt)
  | case2 found rows hlt => exact ⟨h, Nat.le_antisymm h.size_le (Nat.not_lt.1 hlt)⟩

/-- The nodes found first keep their numbers. -/
theorem keeps_explore : Keeps found (explore next finite found rows).nodes := by
  fun_induction explore next finite found rows with
  | case1 found rows hlt step ih => exact (interned_internAll found _).keeps.trans ih
  | case2 found rows hlt => exact fun _ _ => id

/-- **What passes to successors holds of all nodes found.** -/
theorem forall_mem_explore {P : α → Prop} (hfound : ∀ x ∈ found, P x)
    (hnext : ∀ x y, P x → some y ∈ next x → P y) :
    ∀ x ∈ (explore next finite found rows).nodes, P x := by
  fun_induction explore next finite found rows with
  | case1 found rows hlt step ih =>
    refine ih fun y hy => ?_
    -- a node found in this round is a successor of the one expanded
    rcases (interned_internAll found _).mem y hy with hy | hy
    · exact hfound y hy
    · exact hnext _ y (hfound _ (Array.getElem_mem hlt)) hy
  | case2 found rows hlt => exact hfound

/-- **Explorations agree** if the successors of all nodes that can be met do. -/
theorem explore_congr {next' : α → List (Option α)}
    (finite' : ∃ space : List α, ∀ s t, some t ∈ next' s → t ∈ space) {P : α → Prop}
    (hfound : ∀ x ∈ found, P x) (hnext : ∀ x y, P x → some y ∈ next x → P y)
    (heq : ∀ x, P x → next x = next' x) :
    explore next finite found rows = explore next' finite' found rows := by
  fun_induction explore next finite found rows with
  | case1 found rows hlt step ih =>
    have hexpanded : P found[rows.size] := hfound _ (Array.getElem_mem hlt)
    -- the round is the same on both sides
    have hround : explore next' finite' found rows =
        explore next' finite' step.1 (rows.push step.2) := by
      conv_lhs => rw [explore, dif_pos hlt, ← heq _ hexpanded]
    rw [hround]
    refine ih fun y hy => ?_
    rcases (interned_internAll found _).mem y hy with hy | hy
    · exact hfound y hy
    · exact hnext _ y hexpanded hy
  | case2 found rows hlt => rw [explore, dif_neg hlt]

/-! ### How many rounds there are -/

/-- **Rounds of an exploration.** Each takes the first node without a row, numbers its successors
and gives it its row. -/
inductive Rounds (next : α → List (Option α)) : Nat → Exploration α → Exploration α → Prop
  | nil {e : Exploration α} : Rounds next 0 e e
  | cons {k : Nat} {e e' : Exploration α} (h : e.rows.size < e.nodes.size) :
      Rounds next k
        ⟨(internAll e.nodes (next e.nodes[e.rows.size])).1,
          e.rows.push (internAll e.nodes (next e.nodes[e.rows.size])).2⟩ e' →
      Rounds next (k + 1) e e'

/-- Each round adds one row. -/
theorem Rounds.size_rows {k : Nat} {e e' : Exploration α} (h : Rounds next k e e') :
    e'.rows.size = e.rows.size + k := by
  induction h with
  | nil => rfl
  | cons _ _ ih =>
    rw [ih, Array.size_push]
    omega

/-- **An exploration is a number of rounds**, after which none is left. -/
theorem exists_rounds_explore :
    ∃ k, Rounds next k ⟨found, rows⟩ (explore next finite found rows) := by
  fun_induction explore next finite found rows with
  | case1 found rows hlt step ih =>
    obtain ⟨k, hk⟩ := ih
    exact ⟨k + 1, .cons hlt hk⟩
  | case2 found rows hlt => exact ⟨0, .nil⟩

/-! ### In which order nodes are met -/

/-- The node has one of the numbers below `j`. -/
def Below (found : Array α) (j : Nat) (x : α) : Prop := ∃ i < j, found[i]? = some x

omit [DecidableEq α] in
theorem Below.mono {j : Nat} (hkeep : Keeps found found') (h : Below found j x) :
    Below found' j x := by
  obtain ⟨i, hi, hx⟩ := h
  exact ⟨i, hi, hkeep i x hx⟩

/-- **The place where a node is met first.** The node numbered `j` is listed as a successor of the
one numbered `p`. All that is listed before it there, and all successors of the nodes before that
one, have smaller numbers. -/
inductive FirstMet (next : α → List (Option α)) (found : Array α) (j : Nat) : Prop
  | intro {p : Nat} {x y : α} {before after : List (Option α)} :
      p < j → found[p]? = some x → found[j]? = some y → next x = before ++ some y :: after →
      (∀ z, some z ∈ before → Below found j z) →
      (∀ q x', q < p → found[q]? = some x' → ∀ z, some z ∈ next x' → Below found j z) →
      FirstMet next found j

omit [DecidableEq α] in
theorem FirstMet.mono {j : Nat} (hkeep : Keeps found found') (h : FirstMet next found j) :
    FirstMet next found' j := by
  obtain ⟨hp, hx, hy, hnext, hbefore, hearlier⟩ := h
  refine .intro hp (hkeep _ _ hx) (hkeep _ _ hy) hnext (fun z hz => (hbefore z hz).mono hkeep) ?_
  intro q x' hq hx' z hz
  -- the nodes that were expanded before have kept their numbers
  have hlt : q < found.size := Nat.lt_trans hq (Array.getElem?_eq_some_iff.1 hx).1
  exact (hearlier q x' hq (hkeep.getElem?_of_lt hlt hx') z hz).mono hkeep

/-- **New numbers are given from left to right**: what is listed before a new node has a smaller
number. -/
theorem exists_place_of_internAll {j : Nat} {l : List (Option α)} (hj : found.size ≤ j)
    (hlt : j < (internAll found l).1.size) :
    ∃ y before after, l = before ++ some y :: after ∧ (internAll found l).1[j]? = some y ∧
      ∀ z, some z ∈ before → Below (internAll found l).1 j z := by
  induction l generalizing found with
  | nil => exact absurd hlt (Nat.not_lt.2 hj)
  | cons o rest ih =>
    cases o with
    | none =>
      obtain ⟨y, before, after, rfl, hy, hbefore⟩ := ih hj hlt
      refine ⟨y, none :: before, after, rfl, hy, ?_⟩
      intro z hz
      exact hbefore z (List.mem_of_ne_of_mem (Option.some_ne_none z) hz)
    | some x =>
      rw [internAll_some] at hlt ⊢
      have hkeep := (interned_internAll (intern found x).1 rest).keeps
      have hx : (internAll (intern found x).1 rest).1[(intern found x).2]? = some x :=
        hkeep _ _ getElem?_intern
      -- the first node of the list is the one with the number, or it has a smaller one
      by_cases hnew : x ∉ found ∧ j = found.size
      · obtain ⟨hmem, rfl⟩ := hnew
        have hnumber : (intern found x).2 = found.size := Array.idxOf_eq_size hmem
        rw [hnumber] at hx
        exact ⟨x, [], rest, rfl, hx, fun z hz => absurd hz List.not_mem_nil⟩
      · have hsmaller : (intern found x).2 < j ∧ (intern found x).1.size ≤ j := by
          by_cases hmem : x ∈ found
          · rw [intern_of_mem hmem]
            exact ⟨Nat.lt_of_lt_of_le (Array.idxOf_lt_size_iff.2 hmem) hj, hj⟩
          · have hnumber : (intern found x).2 = found.size := Array.idxOf_eq_size hmem
            have hlt : found.size < j := Nat.lt_of_le_of_ne hj fun he => hnew ⟨hmem, he.symm⟩
            rw [intern_of_not_mem hmem, Array.size_push, hnumber]
            exact ⟨hlt, hlt⟩
        obtain ⟨y, before, after, rfl, hy, hbefore⟩ := ih hsmaller.2 hlt
        refine ⟨y, some x :: before, after, rfl, hy, ?_⟩
        intro z hz
        rcases List.mem_cons.1 hz with hzx | hz
        · obtain rfl := Option.some.inj hzx
          exact ⟨_, hsmaller.1, hx⟩
        · exact hbefore z hz

omit [DecidableEq α] in
/-- The nodes of which a row holds the numbers have been found. -/
theorem exists_of_numbered {l : List (Option α)} {row : List (Option Nat)}
    (h : List.Forall₂ (Numbered found) l row) (hx : some x ∈ l) :
    ∃ i : Nat, found[i]? = some x := by
  induction h with
  | nil => exact absurd hx List.not_mem_nil
  | cons ho _ ih =>
    rcases List.mem_cons.1 hx with rfl | hx
    · cases ho with
      | present hi => exact ⟨_, hi⟩
    · exact ih hx

/-- **One round** meets its new nodes at the node that it expands. -/
theorem Expanded.firstMet_push {k : Nat} (h : Expanded next found rows)
    (hlt : rows.size < found.size) (hmet : ∀ j, k ≤ j → j < found.size → FirstMet next found j) :
    ∀ j, k ≤ j → j < (internAll found (next found[rows.size])).1.size →
      FirstMet next (internAll found (next found[rows.size])).1 j := by
  intro j hk hj
  have hkeep := (interned_internAll found (next found[rows.size])).keeps
  by_cases hold : j < found.size
  · exact (hmet j hk hold).mono hkeep
  · have hsize : found.size ≤ j := Nat.not_lt.1 hold
    obtain ⟨y, before, after, hnext, hy, hbefore⟩ := exists_place_of_internAll hsize hj
    have hexpanded := hkeep _ _ (Array.getElem?_eq_getElem hlt)
    refine .intro (Nat.lt_of_lt_of_le hlt hsize) hexpanded hy hnext hbefore ?_
    intro q x hq hx z hz
    -- the nodes before have their rows, and the numbers in these were given before
    have hrow : rows[q]? = some rows[q] := Array.getElem?_eq_getElem hq
    have hx' := hkeep.getElem?_of_lt (Nat.lt_trans hq hlt) hx
    obtain ⟨i, hi⟩ := exists_of_numbered (h.row hx' hrow) hz
    have hi' : i < found.size := (Array.getElem?_eq_some_iff.1 hi).1
    exact ⟨i, Nat.lt_of_lt_of_le hi' hsize, hkeep _ _ hi⟩

/-- **Every node that is found later** has a place where it is met first. -/
theorem firstMet_explore {k : Nat} (h : Expanded next found rows)
    (hmet : ∀ j, k ≤ j → j < found.size → FirstMet next found j) :
    ∀ j, k ≤ j → j < (explore next finite found rows).nodes.size →
      FirstMet next (explore next finite found rows).nodes j := by
  fun_induction explore next finite found rows with
  | case1 found rows hlt step ih => exact ih (h.push hlt) (h.firstMet_push hlt hmet)
  | case2 found rows hlt => exact hmet

end LexerGen
