import LexerGen.StateSet

/-!
# Closing a set of states under a successor function

Which states can be reached from some seeds by following a successor function? `close` answers with
a worklist: it takes a state off the list, and if the state is new it is added to the answer and
its successors are put on the list. Repetitions on the list are harmless, and so are cycles, since
a state already in the answer is dropped.

States are the numbers below a bound, which is what makes the search end: every step either adds one
of the finitely many states still missing or shortens the list (`termination_by`). `Reach` is the
relation that the answer is measured against.
-/

namespace LexerGen

/-- **The states still missing** from a set of states below `bound`. -/
def missing (bound : Nat) (seen : StateSet) : List Nat :=
  (List.range bound).filter (· ∉ seen)

/-- Filtering by a stronger condition that a kept element fails leaves strictly fewer elements. -/
theorem length_filter_lt {α : Type} {p r : α → Bool} {l : List α} (h : ∀ x, r x → p x) {a : α}
    (ha : a ∈ l) (hp : p a) (hr : r a = false) : (l.filter r).length < (l.filter p).length := by
  have split : l.filter r = (l.filter p).filter r := by
    rw [List.filter_filter]
    exact List.filter_congr fun x _ => by
      cases hx : r x with
      | false => rfl
      | true => simp [h x hx]
  rw [split]
  refine List.length_filter_lt_length_iff_exists.2 ⟨a, List.mem_filter.2 ⟨ha, hp⟩, by simp [hr]⟩

/-- A new state is missing no longer. -/
theorem length_missing_insert {bound q : Nat} {seen : StateSet} (hq : q < bound)
    (hs : q ∉ seen) : (missing bound (seen.insert q)).length < (missing bound seen).length := by
  refine length_filter_lt (fun x hx => ?_) (List.mem_range.2 hq) (by simpa using hs) (by simp)
  simp only [StateSet.mem_insert, not_or, decide_eq_true_eq] at hx ⊢
  exact hx.2

/-- **Closure by worklist.** Adds to `seen` every state of the list and every state that can be
reached from one through states not in `seen` before. Numbers that are not below `bound` are
ignored. -/
def close (bound : Nat) (next : Nat → List Nat) (seen : StateSet) : List Nat → StateSet
  | [] => seen
  | q :: queue =>
    if q < bound ∧ q ∉ seen then close bound next (seen.insert q) (next q ++ queue)
    else close bound next seen queue
termination_by queue => ((missing bound seen).length, queue.length)
decreasing_by
  · rename_i h
    exact Prod.Lex.left _ _ (length_missing_insert h.1 h.2)
  · exact Prod.Lex.right _ (Nat.lt_succ_self _)

/-- Closing adds only states below the bound. -/
theorem lt_of_mem_close {bound : Nat} {next : Nat → List Nat} {seen : StateSet}
    {queue : List Nat} (h : ∀ q ∈ seen, q < bound) :
    ∀ q ∈ close bound next seen queue, q < bound := by
  fun_induction close bound next seen queue with
  | case1 => exact h
  | case2 seen q queue hq ih =>
    refine ih fun p hp => ?_
    rcases StateSet.mem_insert.1 hp with rfl | hp
    · exact hq.1
    · exact h p hp
  | case3 _ _ _ _ ih => exact ih h

/-- **Reachability outside a set.** `Reach bound next seen seeds q` holds of the states at the end
of a path that starts at a seed and has none of its states, the last one included, in `seen`. -/
inductive Reach (bound : Nat) (next : Nat → List Nat) (seen : StateSet) (seeds : List Nat) :
    Nat → Prop
  /-- A seed is reached. -/
  | seed {q : Nat} : q ∈ seeds → q < bound → q ∉ seen → Reach bound next seen seeds q
  /-- So is a successor of a state reached. -/
  | step {p q : Nat} : Reach bound next seen seeds p → q ∈ next p → q < bound → q ∉ seen →
      Reach bound next seen seeds q

end LexerGen
