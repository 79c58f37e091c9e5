import LexerGen.Proofs.Closure
import Mathlib.Data.Finset.Range
import Mathlib.Logic.Relation

/-!
# Searching with a queue

A search keeps the states that were seen and a queue of states to look at. A step takes the oldest
state off the queue; if the state is new it joins those seen, and its successors join the queue at
the end, whether they are new or not (`Search.step`). So the queue may hold one state many times,
and states that were seen long ago.

`close` does the same with a worklist that is open at one end only, and it ignores numbers that are
no states. Neither makes a difference. What is found depends on the members of the queue alone
(`close_congr`), and so a step of a search leaves unchanged what closing comes to
(`Search.close_step`). A search comes to an end, since a step that adds no state shortens the queue,
and then it has seen exactly the closure (`Search.exists_iterate_step`).

In terms of paths (`mem_close_iff_leads`), the closure holds what was there before and the ends of
all paths from a seed that keep clear of it. Successors matter through these paths only, so neither
their order nor repetitions among them have an influence.
-/

namespace LexerGen

open Relation (ReflTransGen)

variable {bound p q : Nat} {next next' : Nat → List Nat} {seen : StateSet}
  {seeds seeds' queue again : List Nat} {states : Finset Nat}

/-! ### What the closure depends on -/

/-- **Closing depends on the members of the list alone**, not on their order or number. -/
theorem close_congr (h : ∀ s, s ∈ seeds ↔ s ∈ seeds') :
    close bound next seen seeds = close bound next seen seeds' := by
  apply StateSet.ext_mem
  intro q
  rw [mem_close, mem_close]
  exact or_congr_right ⟨.mono fun s => (h s).1, .mono fun s => (h s).2⟩

/-- A state that was seen before adds nothing. -/
theorem close_cons_of_mem (h : q ∈ seen) :
    close bound next seen (q :: queue) = close bound next seen queue := by
  rw [close, if_neg fun hq => hq.2 h]

/-- A new state adds itself and what its successors lead to. -/
theorem close_cons_of_not_mem (hq : q < bound) (h : q ∉ seen) :
    close bound next seen (q :: queue) = close bound next (seen.insert q) (queue ++ next q) := by
  calc close bound next seen (q :: queue)
      = close bound next (seen.insert q) (next q ++ queue) := by rw [close, if_pos ⟨hq, h⟩]
    _ = close bound next (seen.insert q) (queue ++ next q) :=
        close_congr fun s => by rw [List.mem_append, List.mem_append, or_comm]

/-- Closing a set from some of its own members adds nothing. -/
theorem close_of_subset (h : ∀ q ∈ again, q ∈ seen) : close bound next seen again = seen := by
  induction again with
  | nil => rw [close]
  | cons q again ih =>
    rw [List.forall_mem_cons] at h
    rw [close_cons_of_mem h.1, ih h.2]

/-- **Nor does starting over** from all that was found. -/
theorem close_toList_close :
    close bound next seen (close bound next seen seeds).toList = close bound next seen seeds := by
  apply StateSet.ext_mem
  intro q
  -- a path from a state that was found continues the path to that state
  have hback : Reach bound next seen (close bound next seen seeds).toList q →
      Reach bound next seen seeds q := by
    intro h
    induction h with
    | seed hs _ hn => exact (mem_close.1 (StateSet.mem_toList.1 hs)).resolve_left hn
    | step _ he hb hn ih => exact .step ih he hb hn
  have hforth : Reach bound next seen seeds q →
      Reach bound next seen (close bound next seen seeds).toList q := by
    intro h
    have hmem : q ∈ (close bound next seen seeds).toList :=
      StateSet.mem_toList.2 (mem_close.2 (.inr h))
    cases h with
    | seed _ hb hn => exact .seed hmem hb hn
    | step _ _ hb hn => exact .seed hmem hb hn
  rw [mem_close, mem_close]
  exact or_congr_right ⟨hback, hforth⟩

/-! ### A search -/

/-- **A search under way.** -/
structure Search where
  /-- The states that were seen. -/
  seen : StateSet
  /-- The states to be looked at, oldest first. -/
  queue : List Nat

/-- **One step of a search.** Without a state to look at, it is over. -/
def Search.step (next : Nat → List Nat) : Search → Search
  | ⟨seen, []⟩ => ⟨seen, []⟩
  | ⟨seen, q :: queue⟩ =>
    if q ∈ seen then ⟨seen, queue⟩ else ⟨seen.insert q, queue ++ next q⟩

/-- **A step leaves unchanged what closing comes to.** -/
theorem Search.close_step (s : Search) (h : ∀ q ∈ s.queue, q < bound) :
    close bound next (s.step next).seen (s.step next).queue = close bound next s.seen s.queue := by
  obtain ⟨seen, _ | ⟨q, queue⟩⟩ := s
  · rfl
  · rw [step]
    split
    · next hseen => exact (close_cons_of_mem hseen).symm
    · next hseen => exact (close_cons_of_not_mem (List.forall_mem_cons.1 h).1 hseen).symm

section States

variable (hbound : ∀ q ∈ states, q < bound) (hnext : ∀ q ∈ states, ∀ p ∈ next q, p ∈ states)

include hnext in
/-- What is queued are states, and remains so. -/
theorem Search.mem_states_of_mem_step (s : Search) (h : ∀ q ∈ s.queue, q ∈ states) :
    ∀ q ∈ (s.step next).queue, q ∈ states := by
  obtain ⟨seen, _ | ⟨q, queue⟩⟩ := s
  · exact h
  · obtain ⟨hq, hqueue⟩ := List.forall_mem_cons.1 h
    rw [step]
    split
    · exact hqueue
    · exact List.forall_mem_append.2 ⟨hqueue, hnext q hq⟩

include hbound hnext

/-- **A search ends**, with an empty queue, and what it has seen is the closure. -/
theorem Search.exists_iterate_step : ∀ s : Search, (∀ q ∈ s.queue, q ∈ states) →
    ∃ k, (step next)^[k] s = ⟨close bound next s.seen s.queue, []⟩
  | ⟨seen, []⟩, _ => ⟨0, by rw [close]; rfl⟩
  | ⟨seen, q :: queue⟩, h => by
    obtain ⟨k, hk⟩ := exists_iterate_step (step next ⟨seen, q :: queue⟩)
      (mem_states_of_mem_step hnext _ h)
    rw [close_step _ fun q hq => hbound q (h q hq)] at hk
    exact ⟨k + 1, hk⟩
termination_by s => ((missing bound s.seen).length, s.queue.length)
decreasing_by
  rw [step]
  split
  · -- the queue is shorter by one
    exact Prod.Lex.right _ (Nat.lt_succ_self _)
  · -- the queue may be longer, but one state fewer is missing
    next hseen =>
      exact Prod.Lex.left _ _ (length_missing_insert (hbound q (h q List.mem_cons_self)) hseen)

end States

/-! ### Paths -/

/-- **A path from a seed that keeps clear of a set**, with its first and its last state. -/
def Leads (next : Nat → List Nat) (seen : StateSet) (seeds : List Nat) (q : Nat) : Prop :=
  ∃ s ∈ seeds, s ∉ seen ∧ ReflTransGen (fun p q => q ∈ next p ∧ q ∉ seen) s q

/-- Where nothing was seen before, all paths count. -/
theorem leads_empty_iff :
    Leads next ∅ seeds q ↔ ∃ s ∈ seeds, ReflTransGen (fun p q => q ∈ next p) s q := by
  simp [Leads]

theorem leads_of_reach (h : Reach bound next seen seeds q) : Leads next seen seeds q := by
  induction h with
  | seed hs _ hn => exact ⟨_, hs, hn, .refl⟩
  | step _ he _ hn ih =>
    obtain ⟨s, hs, hsn, hpath⟩ := ih
    exact ⟨s, hs, hsn, hpath.tail ⟨he, hn⟩⟩

section States

variable (hbound : ∀ q ∈ states, q < bound) (hnext : ∀ q ∈ states, ∀ p ∈ next q, p ∈ states)
  (hseeds : ∀ s ∈ seeds, s ∈ states)

include hbound hnext hseeds

/-- **Paths stay among the states**, so that none of their states is ignored. Only the members of
the successors matter to them. -/
theorem Leads.mem_and_reach (hsame : ∀ q ∈ states, ∀ p ∈ next q, p ∈ next' q)
    (h : Leads next seen seeds q) : q ∈ states ∧ Reach bound next' seen seeds q := by
  obtain ⟨s, hs, hsn, hpath⟩ := h
  induction hpath with
  | refl =>
    have hmem := hseeds s hs
    exact ⟨hmem, .seed hs (hbound s hmem) hsn⟩
  | @tail p q _ hstep ih =>
    obtain ⟨he, hn⟩ := hstep
    have hmem := hnext p ih.1 q he
    exact ⟨hmem, .step ih.2 (hsame p ih.1 q he) (hbound q hmem) hn⟩

/-- **The closure in terms of paths.** -/
theorem mem_close_iff_leads :
    q ∈ close bound next seen seeds ↔ q ∈ seen ∨ Leads next seen seeds q := by
  rw [mem_close]
  refine or_congr_right ⟨leads_of_reach, fun h => ?_⟩
  exact (h.mem_and_reach hbound hnext hseeds fun _ _ _ => id).2

/-- **Closing depends on the members of the successors alone** and on those of the list. -/
theorem close_congr_next (hsame : ∀ q ∈ states, ∀ p, p ∈ next q ↔ p ∈ next' q)
    (hlist : ∀ s, s ∈ seeds ↔ s ∈ seeds') :
    close bound next seen seeds = close bound next' seen seeds' := by
  have hnext' : ∀ q ∈ states, ∀ p ∈ next' q, p ∈ states := fun q hq p hp =>
    hnext q hq p ((hsame q hq p).2 hp)
  have hto : ∀ q, Reach bound next seen seeds q → Reach bound next' seen seeds q := fun q h =>
    ((leads_of_reach h).mem_and_reach hbound hnext hseeds fun r hr p => (hsame r hr p).1).2
  have hfrom : ∀ q, Reach bound next' seen seeds q → Reach bound next seen seeds q := fun q h =>
    ((leads_of_reach h).mem_and_reach hbound hnext' hseeds fun r hr p => (hsame r hr p).2).2
  calc close bound next seen seeds
      = close bound next' seen seeds := by
        apply StateSet.ext_mem
        intro q
        rw [mem_close, mem_close]
        exact or_congr_right ⟨hto q, hfrom q⟩
    _ = close bound next' seen seeds' := close_congr hlist

end States

/-- **What a search finds.** On finitely many states, a search ends with an empty queue, and it has
then seen the closure. This holds what was seen before and the ends of the paths from the seeds that
keep clear of it; where nothing was seen before, it holds what can be reached from the seeds. Order
and repetitions of seeds and of successors do not matter, and closing again from what was found adds
nothing, whether one goes on or starts over. -/
theorem search_finds_closure (hbound : ∀ q ∈ states, q < bound)
    (hnext : ∀ q ∈ states, ∀ p ∈ next q, p ∈ states) :
    (∀ seen seeds, (∀ s ∈ seeds, s ∈ states) →
      (∃ k, (Search.step next)^[k] ⟨seen, seeds⟩ = ⟨close bound next seen seeds, []⟩) ∧
      ∀ q, q ∈ close bound next seen seeds ↔
        q ∈ seen ∨ ∃ s ∈ seeds, s ∉ seen ∧ ReflTransGen (fun p q => q ∈ next p ∧ q ∉ seen) s q) ∧
    (∀ seeds, (∀ s ∈ seeds, s ∈ states) → ∀ q, q ∈ close bound next ∅ seeds ↔
      ∃ s ∈ seeds, ReflTransGen (fun p q => q ∈ next p) s q) ∧
    (∀ seen seeds seeds' next', (∀ s ∈ seeds, s ∈ states) → (∀ s, s ∈ seeds ↔ s ∈ seeds') →
      (∀ q ∈ states, ∀ p, p ∈ next q ↔ p ∈ next' q) →
      close bound next seen seeds = close bound next' seen seeds') ∧
    ∀ seen seeds,
      close bound next seen (close bound next seen seeds).toList = close bound next seen seeds ∧
      ∀ again, (∀ q ∈ again, q ∈ close bound next seen seeds) →
        close bound next (close bound next seen seeds) again = close bound next seen seeds := by
  refine ⟨?_, ?_, ?_, ?_⟩
  · intro seen seeds hseeds
    exact ⟨Search.exists_iterate_step hbound hnext ⟨seen, seeds⟩ hseeds, fun q =>
      mem_close_iff_leads hbound hnext hseeds⟩
  · intro seeds hseeds q
    rw [mem_close_iff_leads hbound hnext hseeds, leads_empty_iff]
    exact or_iff_right (StateSet.not_mem_empty q)
  · intro seen seeds seeds' next' hseeds hlist hsame
    exact close_congr_next hbound hnext hseeds hsame hlist
  · intro seen seeds
    exact ⟨close_toList_close, fun again h => close_of_subset h⟩

/-- A way round and a way back to oneself. State `2` was seen before, so what only it leads to is
not found. -/
theorem search_finds_closure_cycle :
    (∃ k, (Search.step ([[1, 1], [2], [0, 3], [3], [0]].getD · []))^[k] ⟨⟨4⟩, [4, 0, 4]⟩ =
      ⟨⟨23⟩, []⟩) ∧
    (⟨23⟩ : StateSet).toList = [0, 1, 2, 4] := by
  have hbound : ∀ q ∈ Finset.range 5, q < 5 := fun q => Finset.mem_range.1
  have hnext : ∀ q ∈ Finset.range 5, ∀ p ∈ [[1, 1], [2], [0, 3], [3], [0]].getD q [],
      p ∈ Finset.range 5 := by decide
  obtain ⟨hsearch, -⟩ := search_finds_closure hbound hnext
  obtain ⟨⟨k, hk⟩, -⟩ := hsearch ⟨4⟩ [4, 0, 4] (by decide)
  have hclose : close 5 ([[1, 1], [2], [0, 3], [3], [0]].getD · []) ⟨4⟩ [4, 0, 4] = ⟨23⟩ := by cbv
  exact ⟨⟨k, hk.trans (by rw [hclose])⟩, by decide⟩

end LexerGen
