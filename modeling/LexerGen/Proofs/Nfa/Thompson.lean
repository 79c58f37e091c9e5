import LexerGen.Proofs.Nfa.Routes
import LexerGen.Proofs.Nfa.Simulation

/-!
# The automaton of an expression accepts its words

Thompson's construction extends an automaton (`Extends`): blank states are added, and edges, and
nothing else changes. What is added between a head and a tail is a fragment for the expression
(`Adds`), wherever in an automaton it is built, and this is shown once for each of the four ways
in which the construction puts its parts together. The induction over the expression
(`adds_build`) then has one line for each constructor.

The automaton of an expression starts from two states without edges, so its edges are those of the
fragment alone (`fragment_ofRegex`), and it accepts exactly the words of the expression
(`accepts_ofRegex`).
-/

namespace LexerGen.Nfa

variable {n n' n'' : Nfa} {E F : Links} {p q head tail source target : Nat} {c : Char}
  {l : Option Char}

/-! ### What a number stands for -/

/-- **The state with a number**, blank where there is none. -/
def stateAt (n : Nfa) (q : Nat) : State := (n.states[q]?).getD .blank

theorem edges_eq : n.edges q = (n.stateAt q).edges := by
  rw [edges, stateAt]
  cases n.states[q]? <;> rfl

theorem isStart_eq : n.isStart q = (n.stateAt q).isStart := by
  rw [isStart, stateAt]
  cases n.states[q]? <;> rfl

theorem isFinal_eq : n.isFinal q = (n.stateAt q).isFinal := by
  rw [isFinal, stateAt]
  cases n.states[q]? <;> rfl

theorem tag?_eq : n.tag? q = (n.stateAt q).tag := by
  rw [tag?, stateAt]
  cases n.states[q]? <;> rfl

/-! ### Adding a state or an edge -/

@[simp] theorem size_addState : n.addState.size = n.size + 1 := Array.size_push _

@[simp] theorem size_connect : (n.connect source l target).size = n.size := Array.size_modify

/-- The new state is blank, and no other changes. -/
theorem stateAt_addState : n.addState.stateAt q = n.stateAt q := by
  show ((n.states.push .blank)[q]?).getD .blank = (n.states[q]?).getD .blank
  rw [Array.getElem?_push]
  by_cases h : q = n.states.size
  · rw [if_pos h, Array.getElem?_eq_none (Nat.le_of_eq h.symm)]
    rfl
  · rw [if_neg h]

/-- A new edge comes last among those of its source, and changes no other state. -/
theorem stateAt_connect (h : source < n.size) : (n.connect source l target).stateAt q =
    { n.stateAt q with
      edges := (n.stateAt q).edges ++ if q = source then [(l, target)] else [] } := by
  show ((n.states.modify source _)[q]?).getD .blank = _
  rw [Array.getElem?_modify]
  by_cases hq : q = source
  · subst hq
    rw [if_pos rfl, if_pos rfl, stateAt, Array.getElem?_eq_getElem h]
    rfl
  · rw [if_neg (Ne.symm hq), if_neg hq, List.append_nil, stateAt]

theorem mem_labelled {alphabet : SortedSet Char} :
    c ∈ labelled alphabet l ↔ c ∈ alphabet ∨ l = some c := by
  cases l with
  | none => simp [labelled]
  | some d => simp [labelled, or_comm, eq_comm]

/-! ### Extensions -/

/-- **One automaton extends another** by the edges `E` and by blank states. -/
structure Extends (n : Nfa) (E : Links) (n' : Nfa) : Prop where
  /-- No state is lost. -/
  size_le : n.size ≤ n'.size
  /-- The start stays. -/
  start_eq : n'.start = n.start
  /-- States keep what they have, and new edges come last. -/
  stateAt_eq : ∀ q, ∃ added,
    n'.stateAt q = { n.stateAt q with edges := (n.stateAt q).edges ++ added }
  /-- The edges added are those of `E`. -/
  mem_edges : ∀ {p q : Nat} {l : Option Char}, (l, q) ∈ n'.edges p ↔ (l, q) ∈ n.edges p ∨ E p l q
  /-- The letters of the new edges join the alphabet. -/
  mem_alphabet : ∀ {c : Char}, c ∈ n'.alphabet ↔ c ∈ n.alphabet ∨ ∃ p q, E p (some c) q

namespace Extends

/-- States keep their flags and tags. -/
theorem isStart_eq (h : n.Extends E n') : n'.isStart q = n.isStart q := by
  obtain ⟨added, hq⟩ := h.stateAt_eq q
  rw [Nfa.isStart_eq, Nfa.isStart_eq, hq]

theorem isFinal_eq (h : n.Extends E n') : n'.isFinal q = n.isFinal q := by
  obtain ⟨added, hq⟩ := h.stateAt_eq q
  rw [Nfa.isFinal_eq, Nfa.isFinal_eq, hq]

theorem tag?_eq (h : n.Extends E n') : n'.tag? q = n.tag? q := by
  obtain ⟨added, hq⟩ := h.stateAt_eq q
  rw [Nfa.tag?_eq, Nfa.tag?_eq, hq]

theorem refl (n : Nfa) : n.Extends .none n where
  size_le := Nat.le_refl _
  start_eq := rfl
  stateAt_eq q := ⟨[], by rw [List.append_nil]⟩
  mem_edges := (or_iff_left id).symm
  mem_alphabet := (or_iff_left fun ⟨_, _, he⟩ => he).symm

theorem trans (h : n.Extends E n') (k : n'.Extends F n'') : n.Extends (E.join F) n'' where
  size_le := Nat.le_trans h.size_le k.size_le
  start_eq := k.start_eq.trans h.start_eq
  stateAt_eq q := by
    obtain ⟨first, h⟩ := h.stateAt_eq q
    obtain ⟨second, k⟩ := k.stateAt_eq q
    exact ⟨first ++ second, by rw [k, h, List.append_assoc]⟩
  mem_edges {p q l} := by
    rw [k.mem_edges, h.mem_edges, or_assoc]
    rfl
  mem_alphabet {c} := by
    rw [k.mem_alphabet, h.mem_alphabet, or_assoc]
    simp only [Links.join, exists_or]

/-- A blank state in front of an extension makes no difference to what is added. -/
theorem of_addState (h : n.addState.Extends E n') : n.Extends E n' where
  size_le := by
    have hs := h.size_le
    rw [size_addState] at hs
    omega
  start_eq := h.start_eq
  stateAt_eq q := by
    obtain ⟨added, hq⟩ := h.stateAt_eq q
    exact ⟨added, by rw [hq, stateAt_addState]⟩
  mem_edges {p q l} := by rw [h.mem_edges, edges_eq, stateAt_addState, ← edges_eq]
  mem_alphabet := h.mem_alphabet

/-- One edge extends an automaton by that edge. -/
theorem connect (h : source < n.size) :
    n.Extends (.single source l target) (n.connect source l target) where
  size_le := Nat.le_of_eq size_connect.symm
  start_eq := rfl
  stateAt_eq q := ⟨_, stateAt_connect h⟩
  mem_edges {p q l'} := by
    rw [edges_eq, stateAt_connect h, ← edges_eq, List.mem_append]
    by_cases hp : p = source
    · simp [hp, Links.single]
    · simp [hp, Links.single]
  mem_alphabet {c} := by
    show c ∈ labelled n.alphabet l ↔ _
    rw [mem_labelled]
    simp [Links.single, eq_comm]

end Extends

/-! ### What the construction adds -/

/-- **A construction adds an expression** if between any two states it adds a fragment for it. -/
def Adds (body : Nat → Nat → Nfa → Nfa) (r : Regex) : Prop :=
  ∀ (n : Nfa) (head tail : Nat), head < n.size → tail < n.size → head ≠ tail →
    ∃ E, n.Extends E (body head tail n) ∧
      Fragment E head tail n.size (body head tail n).size r

namespace Adds

variable {body left right : Nat → Nat → Nfa → Nfa} {a b : Regex}

theorem congr (h : Adds body a) (hw : ∀ w, a.Matches w ↔ b.Matches w)
    (hv : b.VoidFree → a.VoidFree) : Adds body b := by
  intro n head tail hh ht hne
  obtain ⟨E, hE, hf⟩ := h n head tail hh ht hne
  exact ⟨E, hE, hf.congr hw hv⟩

theorem void : Adds (fun _ _ n => n) .void := fun _ _ _ hh ht hne =>
  ⟨.none, .refl _, .void hh ht hne⟩

theorem edge (ha : ∀ w, a.Matches w ↔ w = l.toList) :
    Adds (fun head tail n => n.connect head l tail) a := by
  intro n head tail hh ht hne
  refine ⟨.single head l tail, .connect hh, ?_⟩
  rw [size_connect]
  exact .edge hh ht hne ha

/-- Parts in a row add a concatenation. -/
theorem sequence (hl : Adds left a) (hr : Adds right b) :
    Adds (sequence left right) (.concat a b) := by
  intro n head tail hh ht hne
  have hs : n.addState.size = n.size + 1 := size_addState
  obtain ⟨E, hE, hfE⟩ := hl n.addState head n.size
    (by omega) (by omega) (by omega)
  -- the second part is built in an automaton that has the states of the first
  have hle := hE.size_le
  obtain ⟨F, hF, hfF⟩ := hr (left head n.size n.addState) n.size tail
    (by omega) (by omega) (by omega)
  rw [hs] at hfE
  exact ⟨E.join F, (hE.trans hF).of_addState, hfE.sequence hfF hh ht hne⟩

/-- Parts side by side add a union. -/
theorem alternation (hl : Adds left a) (hr : Adds right b) :
    Adds (fun head tail n => right head tail (left head tail n)) (.union a b) := by
  intro n head tail hh ht hne
  obtain ⟨E, hE, hfE⟩ := hl n head tail hh ht hne
  have hle := hE.size_le
  obtain ⟨F, hF, hfF⟩ := hr (left head tail n) head tail
    (by omega) (by omega) hne
  exact ⟨E.join F, hE.trans hF, hfE.alternation hfF⟩

/-- The body of a branch is built between two states of its own. -/
theorem exists_body (h : Adds body a) (n : Nfa) :
    ∃ E, n.Extends E (body n.size (n.size + 1) n.addState.addState) ∧
      Fragment E n.size (n.size + 1) (n.size + 2)
        (body n.size (n.size + 1) n.addState.addState).size a := by
  have hs : n.addState.addState.size = n.size + 2 := by rw [size_addState, size_addState]
  obtain ⟨E, hE, hf⟩ := h n.addState.addState n.size (n.size + 1)
    (by omega) (by omega) (by omega)
  rw [hs] at hf
  exact ⟨E, hE.of_addState.of_addState, hf⟩

/-- The edges of a branch. -/
theorem extends_branch {E : Links} (hh : head < n.size)
    (hE : n.Extends E (body n.size (n.size + 1) n.addState.addState))
    (hf : Fragment E n.size (n.size + 1) (n.size + 2)
      (body n.size (n.size + 1) n.addState.addState).size a) :
    n.Extends (E.branch head tail n.size) (branch body head tail n) := by
  have hle := hf.le
  exact (hE.trans (.connect (by omega))).trans (.connect (by rw [size_connect]; omega))

/-- A branch adds what its body adds. -/
theorem branch (h : Adds body a) : Adds (branch body) a := by
  intro n head tail hh ht hne
  obtain ⟨E, hE, hf⟩ := h.exists_body n
  refine ⟨E.branch head tail n.size, extends_branch hh hE hf, ?_⟩
  rw [Nfa.branch, size_connect, size_connect]
  exact hf.branch hh ht hne

/-- A loop adds the repetitions of what its body adds. -/
theorem loop (h : Adds body a) : Adds (loop body) (.star a) := by
  intro n head tail hh ht hne
  obtain ⟨E, hE, hf⟩ := h.exists_body n
  have hsize : (Nfa.branch body head tail n).size =
      (body n.size (n.size + 1) n.addState.addState).size := by
    rw [Nfa.branch, size_connect, size_connect]
  have hle := hf.le
  refine ⟨E.loop head tail n.size, ?_, ?_⟩
  · exact ((extends_branch hh hE hf).trans (.connect (by omega))).trans
      (.connect (by rw [size_connect]; omega))
  · rw [Nfa.loop, size_connect, size_connect, hsize]
    exact hf.loop hh ht hne

end Adds

/-- **The construction of an expression adds that expression.** -/
theorem adds_build (r : Regex) : Adds (build r) r := by
  induction r with
  | void => exact .void
  | eps => exact .edge fun w => Regex.matches_eps
  | lit c => exact .edge fun w => Regex.matches_lit
  | quoted c => exact .edge fun w => Regex.matches_quoted
  | concat a b iha ihb => exact iha.sequence ihb
  | union a b iha ihb => exact iha.branch.alternation ihb.branch
  | star a ih => exact ih.loop
  | plus a ih =>
    -- the body is built twice, once for the first repetition and once for the others
    exact (ih.sequence ih.loop).congr (fun w => Regex.matches_plus.symm) fun hv => ⟨hv, hv⟩
  | maybe a ih =>
    have heps : Adds (fun head tail n => n.connect head none tail) .eps :=
      .edge fun w => Regex.matches_eps
    refine (heps.branch.alternation ih.branch).congr (fun w => ?_) fun hv => ⟨trivial, hv⟩
    rw [Regex.matches_union, Regex.matches_maybe, Regex.matches_eps]

/-! ### The automaton of an expression -/

theorem edges_empty : empty.edges q = [] := by
  rcases q with _ | _ | q
  · rfl
  · rfl
  · rfl

/-- The edges of the automaton of an expression are those that its construction adds. -/
theorem exists_fragment_ofRegex (r : Regex) :
    empty.Extends (ofRegex r).links (ofRegex r) ∧
      Fragment (ofRegex r).links 0 1 2 (ofRegex r).size r := by
  obtain ⟨E, hE, hf⟩ := adds_build r empty 0 1 (by decide) (by decide) (by decide)
  -- there were no edges before
  have hlinks : (ofRegex r).links = E := by
    funext p l q
    refine propext (hE.mem_edges.trans ?_)
    rw [edges_empty]
    exact or_iff_right List.not_mem_nil
  rw [hlinks]
  exact ⟨hE, hf⟩

theorem extends_ofRegex (r : Regex) : empty.Extends (ofRegex r).links (ofRegex r) :=
  (exists_fragment_ofRegex r).1

/-- **The automaton of an expression is a fragment** from state `0` to state `1`. -/
theorem fragment_ofRegex (r : Regex) : Fragment (ofRegex r).links 0 1 2 (ofRegex r).size r :=
  (exists_fragment_ofRegex r).2

variable {r : Regex} {w : List Char}

theorem start_ofRegex : (ofRegex r).start = 0 := (extends_ofRegex r).start_eq

theorem isFinal_ofRegex : (ofRegex r).isFinal q = true ↔ q = 1 := by
  rw [(extends_ofRegex r).isFinal_eq]
  -- the states of the empty automaton, and a number that is none of its states
  rcases q with _ | _ | q
  · decide
  · decide
  · exact iff_of_false (by rintro ⟨⟩) (by omega)

theorem tag?_ofRegex : (ofRegex r).tag? q = none := by
  rw [(extends_ofRegex r).tag?_eq]
  rcases q with _ | _ | q
  · rfl
  · rfl
  · rfl

theorem wellFormed_ofRegex (r : Regex) : (ofRegex r).WellFormed where
  start_lt := by
    rw [start_ofRegex]
    exact Nat.lt_of_lt_of_le Nat.two_pos (extends_ofRegex r).size_le
  target_lt he := by
    have hsize := (fragment_ofRegex r).le
    have ht := (fragment_ofRegex r).target he
    omega
  mem_alphabet he := (extends_ofRegex r).mem_alphabet.2 (.inr ⟨_, _, he⟩)

/-- Paths from the start to the final state spell the words of the expression. -/
theorem path_ofRegex : Path (ofRegex r) 0 w 1 ↔ r.Matches w := by
  rw [path_iff_route]
  exact (fragment_ofRegex r).spells w

/-- **The automaton of an expression accepts exactly its words**, whatever the expression. -/
theorem accepts_ofRegex (r : Regex) (w : List Char) :
    (ofRegex r).accepts w = true ↔ r.Matches w := by
  rw [accepts_iff (wellFormed_ofRegex r), start_ofRegex, ← path_ofRegex]
  refine ⟨?_, ?_⟩
  · rintro ⟨q, hp, hq⟩
    rwa [isFinal_ofRegex.1 hq] at hp
  · exact fun hp => ⟨1, hp, isFinal_ofRegex.2 rfl⟩

end LexerGen.Nfa
