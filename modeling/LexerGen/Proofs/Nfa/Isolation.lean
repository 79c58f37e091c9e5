import LexerGen.Proofs.Nfa.Thompson

/-!
# Construction in isolation

A construction is given a head and a tail inside an automaton that others have begun and will go on
with. What it may do there is little: it appends blank states, and it adds edges from the head or
from its own states to the tail or to its own states, each behind the edges that are there
(`Inserts`). All else stays as it is, so nothing that is built later can be entered by accident, and
no loop leads back into what was built before.

`Extends` says which edges there are; here it matters also that none is added twice and that the
old ones come first, so the lists of edges are compared (`Grows`). Two parts may share a state, the
tail of one being the head of the other, and each of them respects the frame of the whole
(`Inserts.sequence`, `Inserts.alternation`, `Inserts.branch`, `Inserts.loop`).

How many states are appended depends on the expression alone (`Regex.width`).
-/

namespace LexerGen

/-- **The number of states that an expression takes** between its head and its tail. -/
def Regex.width : Regex → Nat
  | void | eps | lit _ | quoted _ => 0
  | concat l r => width l + width r + 1
  | union l r => width l + width r + 4
  | star r => width r + 2
  | plus r => 2 * width r + 3
  | maybe r => width r + 4

namespace Nfa

variable {n n' n'' : Nfa} {p q head tail source target lo hi j k : Nat} {l : Option Char}
  {S S' T T' : Nat → Prop} {body left right : Nat → Nat → Nfa → Nfa}

/-! ### Growth -/

/-- **One automaton grows into another** by blank states and by edges that lead from the states `S`
to the states `T`. -/
structure Grows (S T : Nat → Prop) (n n' : Nfa) : Prop where
  start_eq : n'.start = n.start
  /-- States keep what they have, and new edges come last. -/
  stateAt_eq : ∀ q, ∃ added,
    n'.stateAt q = { n.stateAt q with edges := (n.stateAt q).edges ++ added } ∧
      (¬S q → added = []) ∧ ∀ e ∈ added, T e.2

namespace Grows

theorem refl (n : Nfa) : Grows S T n n where
  start_eq := rfl
  stateAt_eq q := ⟨[], by rw [List.append_nil], fun _ => rfl, List.forall_mem_nil _⟩

theorem trans (h : Grows S T n n') (k : Grows S T n' n'') : Grows S T n n'' where
  start_eq := k.start_eq.trans h.start_eq
  stateAt_eq q := by
    obtain ⟨first, hq, hfirst, htargets⟩ := h.stateAt_eq q
    obtain ⟨second, kq, hsecond, htargets'⟩ := k.stateAt_eq q
    refine ⟨first ++ second, by rw [kq, hq, List.append_assoc], fun hn => ?_,
      List.forall_mem_append.2 ⟨htargets, htargets'⟩⟩
    rw [hfirst hn, hsecond hn, List.append_nil]

theorem mono (h : Grows S T n n') (hS : ∀ q, S q → S' q) (hT : ∀ q, T q → T' q) :
    Grows S' T' n n' where
  start_eq := h.start_eq
  stateAt_eq q := by
    obtain ⟨added, hq, hsource, htargets⟩ := h.stateAt_eq q
    exact ⟨added, hq, fun hn => hsource (mt (hS q) hn), fun e he => hT e.2 (htargets e he)⟩

/-- A blank state is nothing that the automaton did not have. -/
theorem of_addState (h : Grows S T n.addState n') : Grows S T n n' where
  start_eq := h.start_eq
  stateAt_eq q := by
    obtain ⟨added, hq, hadded⟩ := h.stateAt_eq q
    rw [stateAt_addState] at hq
    exact ⟨added, hq, hadded⟩

theorem connect (hsource : source < n.size) (hS : S source) (hT : T target) :
    Grows S T n (n.connect source l target) where
  start_eq := rfl
  stateAt_eq q := by
    refine ⟨_, stateAt_connect hsource, fun hn => ?_, fun e he => ?_⟩
    · rw [if_neg]
      rintro rfl
      exact hn hS
    · split at he
      · rwa [List.mem_singleton.1 he]
      · exact absurd he List.not_mem_nil

end Grows

/-! ### What the construction inserts -/

/-- **One end of a construction and its own states**, which are the numbers from `lo` up to
`hi`. -/
def Span (p lo hi q : Nat) : Prop := q = p ∨ lo ≤ q ∧ q < hi

/-- **A construction inserts `k` states.** Its edges start at the head or at one of these, and they
end at the tail or at one of these. -/
structure Inserts (body : Nat → Nat → Nfa → Nfa) (k : Nat) : Prop where
  size_eq : ∀ n head tail, (body head tail n).size = n.size + k
  grows : ∀ n head tail, head < n.size →
    Grows (Span head n.size (n.size + k)) (Span tail n.size (n.size + k)) n (body head tail n)

namespace Inserts

/-- The construction of an expression that matches nothing. -/
theorem nothing : Inserts (fun _ _ n => n) 0 where
  size_eq _ _ _ := rfl
  grows n _ _ _ := .refl n

theorem edge (l : Option Char) : Inserts (fun head tail n => n.connect head l tail) 0 where
  size_eq _ _ _ := size_connect
  grows _ _ _ hhead := .connect hhead (.inl rfl) (.inl rfl)

/-- **Parts in a row** share the state between them, which is fresh. -/
theorem sequence (hl : Inserts left j) (hr : Inserts right k) :
    Inserts (sequence left right) (j + k + 1) where
  size_eq n head tail := by
    rw [Nfa.sequence, hr.size_eq, hl.size_eq, size_addState]
    omega
  grows n head tail hhead := by
    have hfirst := hl.grows n.addState head n.size (by rw [size_addState]; omega)
    have hsecond := hr.grows (left head n.size n.addState) n.size tail
      (by rw [hl.size_eq, size_addState]; omega)
    rw [size_addState] at hfirst
    rw [hl.size_eq, size_addState] at hsecond
    refine ((hfirst.mono ?_ ?_).trans (hsecond.mono ?_ ?_)).of_addState
    all_goals
      intro q hq
      unfold Span at hq ⊢
      omega

/-- **Parts side by side** share head and tail. -/
theorem alternation (hl : Inserts left j) (hr : Inserts right k) :
    Inserts (fun head tail n => right head tail (left head tail n)) (j + k) where
  size_eq n head tail := by rw [hr.size_eq, hl.size_eq, Nat.add_assoc]
  grows n head tail hhead := by
    have hfirst := hl.grows n head tail hhead
    have hsecond := hr.grows (left head tail n) head tail (by rw [hl.size_eq]; omega)
    rw [hl.size_eq] at hsecond
    refine (hfirst.mono ?_ ?_).trans (hsecond.mono ?_ ?_)
    all_goals
      intro q hq
      unfold Span at hq ⊢
      omega

theorem size_branch (h : Inserts body k) (n : Nfa) (head tail : Nat) :
    (Nfa.branch body head tail n).size = n.size + (k + 2) := by
  rw [Nfa.branch, size_connect, size_connect, h.size_eq, size_addState, size_addState]
  omega

/-- **A branch** has two states of its own, one at either end of its body. -/
theorem branch (h : Inserts body k) : Inserts (branch body) (k + 2) where
  size_eq := h.size_branch
  grows n head tail hhead := by
    have hbody := h.grows n.addState.addState n.size (n.size + 1)
      (by rw [size_addState, size_addState]; omega)
    have hsize := h.size_eq n.addState.addState n.size (n.size + 1)
    rw [size_addState, size_addState] at hbody hsize
    have hinner : Grows (Span head n.size (n.size + (k + 2))) (Span tail n.size (n.size + (k + 2)))
        n (body n.size (n.size + 1) n.addState.addState) := by
      refine (hbody.mono ?_ ?_).of_addState.of_addState
      all_goals
        intro q hq
        unfold Span at hq ⊢
        omega
    refine (hinner.trans (.connect ?_ (.inl rfl) (.inr ?_))).trans
      (.connect ?_ (.inr ?_) (.inl rfl))
    · omega
    · omega
    · rw [size_connect]
      omega
    · omega

/-- **A loop** adds two edges to a branch, and no state. -/
theorem loop (h : Inserts body k) : Inserts (loop body) (k + 2) where
  size_eq n head tail := by
    rw [Nfa.loop, size_connect, size_connect, h.size_branch]
  grows n head tail hhead := by
    have hsize := h.size_branch n head tail
    refine ((h.branch.grows n head tail hhead).trans (.connect ?_ (.inl rfl) (.inl rfl))).trans
      (.connect ?_ (.inr ?_) (.inr ?_))
    · omega
    · rw [size_connect]
      omega
    · omega
    · omega

end Inserts

/-- **The construction of an expression inserts the states that it takes.** -/
theorem inserts_build (r : Regex) : Inserts (build r) r.width := by
  induction r with
  | void => exact .nothing
  | eps => exact .edge none
  | lit c | quoted c => exact .edge (some c)
  | concat a b iha ihb => exact iha.sequence ihb
  | union a b iha ihb =>
    have hwidth : a.width + 2 + (b.width + 2) = (Regex.union a b).width := by
      rw [Regex.width]
      omega
    exact hwidth ▸ iha.branch.alternation ihb.branch
  | star a ih => exact ih.loop
  | plus a ih =>
    -- the body is built twice, the second time as a loop
    have hwidth : a.width + (a.width + 2) + 1 = (Regex.plus a).width := by
      rw [Regex.width]
      omega
    exact hwidth ▸ ih.sequence ih.loop
  | maybe a ih =>
    have hwidth : 0 + 2 + (a.width + 2) = (Regex.maybe a).width := by
      rw [Regex.width]
      omega
    exact hwidth ▸ (Inserts.edge none).branch.alternation ih.branch

/-! ### The frame -/

theorem getElem?_states (h : q < n.size) : n.states[q]? = some (n.stateAt q) := by
  rw [stateAt, Array.getElem?_eq_getElem h]
  rfl

/-- A number that is no state stands for a blank one. -/
theorem stateAt_of_le (h : n.size ≤ q) : n.stateAt q = .blank := by
  rw [stateAt, Array.getElem?_eq_none h]
  rfl

/-- **What an automaton is like** after `k` states were inserted between a head and a tail. -/
structure Inserted (n : Nfa) (head tail k : Nat) (n' : Nfa) : Prop where
  size_eq : n'.size = n.size + k
  start_eq : n'.start = n.start
  /-- A state that was there keeps its flags, its tag and its edges. Only the head gets more edges,
  which come last and end at the tail or at a state that was inserted. -/
  old : ∀ q s, n.states[q]? = some s → ∃ added,
    n'.states[q]? = some { s with edges := s.edges ++ added } ∧ (q ≠ head → added = []) ∧
      ∀ e ∈ added, e.2 = tail ∨ n.size ≤ e.2 ∧ e.2 < n'.size
  /-- A state that was inserted has no flag and no tag, and its edges end in the same places. -/
  fresh : ∀ q, n.size ≤ q → q < n'.size → ∃ edges,
    n'.states[q]? = some { State.blank with edges := edges } ∧
      ∀ e ∈ edges, e.2 = tail ∨ n.size ≤ e.2 ∧ e.2 < n'.size
  /-- No edge into the head was added. -/
  into_head : ∀ q, (n'.edges q).filter (·.2 = head) = (n.edges q).filter (·.2 = head)
  /-- Nor was one out of the tail. -/
  edges_tail : n'.edges tail = n.edges tail

/-- **An insertion keeps to its frame.** -/
theorem Inserts.inserted (h : Inserts body k) (hhead : head < n.size) (htail : tail < n.size)
    (hne : head ≠ tail) : Inserted n head tail k (body head tail n) := by
  have hsize := h.size_eq n head tail
  have hgrows := h.grows n head tail hhead
  rw [← hsize] at hgrows
  exact {
    size_eq := hsize
    start_eq := hgrows.start_eq
    old := by
      intro q s hs
      obtain ⟨hq, -⟩ := Array.getElem?_eq_some_iff.1 hs
      replace hq : q < n.size := hq
      obtain ⟨added, hadded, hsource, htargets⟩ := hgrows.stateAt_eq q
      rw [getElem?_states hq] at hs
      rw [Option.some.inj hs] at hadded
      refine ⟨added, ?_, fun hq' => hsource ?_, htargets⟩
      · rw [getElem?_states (by omega), hadded]
      · unfold Span
        omega
    fresh := by
      intro q hlo hhi
      obtain ⟨edges, hedges, -, htargets⟩ := hgrows.stateAt_eq q
      rw [stateAt_of_le hlo] at hedges
      exact ⟨edges, by rw [getElem?_states hhi, hedges]; rfl, htargets⟩
    into_head := by
      intro q
      obtain ⟨added, hadded, -, htargets⟩ := hgrows.stateAt_eq q
      -- the head is neither the tail nor fresh
      have hnone : added.filter (·.2 = head) = [] := by
        rw [List.filter_eq_nil_iff]
        intro e he
        have htarget := htargets e he
        unfold Span at htarget
        rw [decide_eq_true_eq]
        omega
      rw [edges_eq, hadded, List.filter_append, hnone, List.append_nil, ← edges_eq]
    edges_tail := by
      obtain ⟨added, hadded, hsource, -⟩ := hgrows.stateAt_eq tail
      rw [edges_eq, hadded, hsource, List.append_nil, ← edges_eq]
      unfold Span
      omega }

/-- **Fragments are built in isolation.** Between two different states of any automaton, the
construction of an expression inserts as many states as the expression takes and keeps to its frame.
In the automaton of the expression itself, these come after the start and the final state. -/
theorem build_isolated (r : Regex) :
    (∀ n head tail, head < n.size → tail < n.size → head ≠ tail →
      Inserted n head tail r.width (build r head tail n)) ∧
    (ofRegex r).size = 2 + r.width :=
  ⟨fun _ _ _ hhead htail hne => (inserts_build r).inserted hhead htail hne,
    (inserts_build r).size_eq empty 0 1⟩

/-- Between the final state, which has an edge back to the start, and the start: a loop in a loop
and a repetition of it. -/
theorem build_isolated_loops :
    (build (.plus (.star (.lit 'a'))) 1 0 (empty.connect 1 (some 'b') 0)).size = 9 ∧
    Inserted (empty.connect 1 (some 'b') 0) 1 0 7
      (build (.plus (.star (.lit 'a'))) 1 0 (empty.connect 1 (some 'b') 0)) ∧
    (build (.plus (.star (.lit 'a'))) 1 0 (empty.connect 1 (some 'b') 0)).edges 1 =
      [(some 'b', 0), (none, 3), (none, 2)] := by
  obtain ⟨hisolated, -⟩ := build_isolated (.plus (.star (.lit 'a')))
  have h := hisolated (empty.connect 1 (some 'b') 0) 1 0 (by decide) (by decide) (by decide)
  exact ⟨h.size_eq, h, by decide⟩

end Nfa

end LexerGen
