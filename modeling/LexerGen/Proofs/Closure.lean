import LexerGen.Closure

/-!
# What closing a set of states adds

`close` takes states off a worklist until none is left, and `Reach` says which states a path leads
to that avoids the states seen before. The two agree (`mem_close`): a state is in the closure
exactly if it was in the set already or is reached outside it.

The proof follows the worklist. When a new state `q` is taken off, it joins the set and its
successors join the list, so reachability has to be compared for two sets and two lists that
differ in `q` alone. One direction is `Reach.of_insert`, where a successor of `q` becomes a path
of one step. The other is `Reach.eq_or_insert`: a path outside the smaller set either ends in `q`,
or what comes after its last visit to `q` is a path outside the larger one.
-/

namespace LexerGen

variable {bound p q : Nat} {next : Nat → List Nat} {seen : StateSet} {seeds queue : List Nat}

/-! ### Paths outside a set -/

/-- Without seeds nothing is reached. -/
theorem not_reach_nil : ¬ Reach bound next seen [] p := by
  intro h
  induction h with
  | seed hs _ _ => exact absurd hs List.not_mem_nil
  | step _ _ _ _ ih => exact ih

/-- Paths from some seeds are paths from more seeds. -/
theorem Reach.mono {more : List Nat} (hsub : ∀ s ∈ seeds, s ∈ more)
    (h : Reach bound next seen seeds p) : Reach bound next seen more p := by
  induction h with
  | seed hs hb hn => exact .seed (hsub _ hs) hb hn
  | step _ he hb hn ih => exact .step ih he hb hn

/-- A path that avoids `q` and starts at a successor of `q` or a seed of the list becomes a path
from `q` or that seed. -/
theorem Reach.of_insert (hq : q < bound) (hn : q ∉ seen)
    (h : Reach bound next (seen.insert q) (next q ++ queue) p) :
    Reach bound next seen (q :: queue) p := by
  -- on the path: only its start can be a successor of `q`, and there `q` is put before it
  induction h with
  | seed hs hb hp =>
    rw [StateSet.mem_insert, not_or] at hp
    rcases List.mem_append.1 hs with hs | hs
    · exact .step (.seed List.mem_cons_self hq hn) hs hb hp.2
    · exact .seed (List.mem_cons_of_mem q hs) hb hp.2
  | step _ he hb hp ih =>
    rw [StateSet.mem_insert, not_or] at hp
    exact .step ih he hb hp.2

/-- A path that may visit `q` ends there, or the part after the last visit avoids it. -/
theorem Reach.eq_or_insert (h : Reach bound next seen (q :: queue) p) :
    p = q ∨ Reach bound next (seen.insert q) (next q ++ queue) p := by
  -- outside the larger set means: outside the smaller one, and not `q`
  have outside : ∀ {r : Nat}, r ≠ q → r ∉ seen → r ∉ seen.insert q := fun hr hn hm =>
    (StateSet.mem_insert.1 hm).elim hr hn
  induction h with
  | @seed r hs hb hn =>
    by_cases hr : r = q
    · exact .inl hr
    · have hs : r ∈ queue := (List.mem_cons.1 hs).resolve_left hr
      exact .inr (.seed (List.mem_append_right _ hs) hb (outside hr hn))
  | @step t r _ he hb hn ih =>
    by_cases hr : r = q
    · exact .inl hr
    · refine .inr ?_
      -- a visit to `q` just before makes the successor a seed of the new list
      rcases ih with rfl | ih
      · exact .seed (List.mem_append_left _ he) hb (outside hr hn)
      · exact .step ih he hb (outside hr hn)

/-- A seed that is in the set already, or is no state at all, is of no use. -/
theorem Reach.of_cons (hq : ¬ (q < bound ∧ q ∉ seen))
    (h : Reach bound next seen (q :: queue) p) : Reach bound next seen queue p := by
  induction h with
  | @seed r hs hb hn =>
    have hr : r ≠ q := fun e => hq ⟨e ▸ hb, e ▸ hn⟩
    exact .seed ((List.mem_cons.1 hs).resolve_left hr) hb hn
  | step _ he hb hn ih => exact .step ih he hb hn

/-! ### The closure -/

/-- **The closure is what can be reached.** A state is in the closure of a set under a list exactly
if it was in the set or a path from the list leads to it outside the set. -/
theorem mem_close :
    p ∈ close bound next seen queue ↔ p ∈ seen ∨ Reach bound next seen queue p := by
  -- the worklist is empty, or its first state is new, or it is dropped
  fun_induction close bound next seen queue with
  | case1 seen => exact ⟨.inl, fun h => h.resolve_right not_reach_nil⟩
  | case2 seen q queue hq ih =>
    rw [ih, StateSet.mem_insert]
    refine ⟨?_, ?_⟩
    · rintro ((rfl | h) | h)
      · exact .inr (.seed List.mem_cons_self hq.1 hq.2)
      · exact .inl h
      · exact .inr (.of_insert hq.1 hq.2 h)
    · rintro (h | h)
      · exact .inl (.inr h)
      · exact h.eq_or_insert.imp .inl id
  | case3 seen q queue hq ih =>
    rw [ih]
    exact or_congr_right ⟨.mono fun s => List.mem_cons_of_mem q, .of_cons hq⟩

end LexerGen
