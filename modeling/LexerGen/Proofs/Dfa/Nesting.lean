import LexerGen.Proofs.Dfa.Subset

/-!
# Joining step by step

Automata that have been joined can be joined with others. The start of the inner result then leads
on to the starts of its own parts, which the start of the outer result would otherwise lead to
directly, so the two ways of joining give automata with different edges. No text can tell them
apart: since no start is ever entered again, empty moves from the outer start are the only way to
any of the inner ones, and one that takes a detour ends in the same states.

`Alike` makes this precise. Two automata are alike if they have the same states, up to edges, and if
every text leads to the same states from their starts. Joining is associative up to that
(`alike_append_assoc`) and respects it (`Alike.append`), and the subset construction looks at
nothing else: automata that are alike have one and the same deterministic automaton, state by
state and number by number (`ofNfa_eq`).
-/

namespace LexerGen

namespace Nfa

variable {n n' n'' m m' k : Nfa} {p q : Nat} {w : List Char} {ns : List Nfa}

/-! ### Automata that no text can tell apart -/

/-- A state without its edges. -/
def State.bare (s : State) : State := { s with edges := [] }

/-- **Automata that differ in edges only**, and not in where texts lead to. -/
structure Alike (n m : Nfa) : Prop where
  size : n.size = m.size
  alphabet : n.alphabet = m.alphabet
  /-- States have the same flags and tags. -/
  bare : ∀ q, (n.stateAt q).bare = (m.stateAt q).bare
  /-- Every text leads to the same states. -/
  path : ∀ w q, Path n n.start w q ↔ Path m m.start w q

theorem Alike.refl (n : Nfa) : Alike n n := ⟨rfl, rfl, fun _ => rfl, fun _ _ => Iff.rfl⟩

theorem Alike.symm (h : Alike n m) : Alike m n :=
  ⟨h.size.symm, h.alphabet.symm, fun q => (h.bare q).symm, fun w q => (h.path w q).symm⟩

theorem Alike.trans (h : Alike n n') (h' : Alike n' n'') : Alike n n'' where
  size := h.size.trans h'.size
  alphabet := h.alphabet.trans h'.alphabet
  bare q := (h.bare q).trans (h'.bare q)
  path w q := (h.path w q).trans (h'.path w q)

/-! ### Joining automata that are alike -/

theorem bare_append_left (hp : p < n.size) :
    ((append n m).stateAt p).bare = (n.stateAt p).bare := by
  rw [stateAt_append_left hp]
  rfl

/-- The start of the second automaton is one no longer. -/
theorem bare_append_right (hn : n.start < n.size) :
    ((append n m).stateAt (p + n.size)).bare = { (m.stateAt p).bare with isStart := false } := by
  rw [stateAt_append_right hn]
  rfl

/-- **Joining respects likeness.** -/
theorem Alike.append (hn : n.Rooted) (hn' : n'.Rooted) (h : Alike n n') (h' : Alike m m') :
    Alike (append n m) (append n' m') where
  size := by rw [size_append, size_append, h.size, h'.size]
  alphabet := by
    show n.alphabet.union m.alphabet = n'.alphabet.union m'.alphabet
    rw [h.alphabet, h'.alphabet]
  bare q := by
    rcases lt_or_exists_add n q with hq | ⟨q, rfl⟩
    · rw [bare_append_left hq, bare_append_left (h.size ▸ hq), h.bare]
    · rw [bare_append_right hn.start_lt, h.size, bare_append_right hn'.start_lt, h'.bare]
  path w q := by
    show Path (Nfa.append n m) n.start w q ↔ Path (Nfa.append n' m') n'.start w q
    rw [path_append_iff hn, path_append_iff hn', h.path, h.size]
    simp only [h'.path]

/-- **The order of joining is immaterial**: states get the same numbers, and what the start of the
second automaton leads on to, the start of the first leads to as well. -/
theorem alike_append_assoc (hn : n.Rooted) (hm : m.Rooted) :
    Alike (append (append n m) k) (append n (append m k)) where
  size := by simp only [size_append, Nat.add_assoc]
  alphabet := by
    apply SortedSet.ext_mem
    intro c
    show c ∈ (n.alphabet.union m.alphabet).union k.alphabet ↔
      c ∈ n.alphabet.union (m.alphabet.union k.alphabet)
    simp only [SortedSet.mem_union, or_assoc]
  bare q := by
    have hnm : (append n m).start < (append n m).size := (hn.append hm).start_lt
    -- the state is one of the first, the second or the third automaton
    rcases lt_or_exists_add n q with hq | ⟨q, rfl⟩
    · have hq' : q < (append n m).size := by
        rw [size_append]
        exact Nat.lt_add_right m.size hq
      rw [bare_append_left hq', bare_append_left hq, bare_append_left hq]
    rcases lt_or_exists_add m q with hq | ⟨q, rfl⟩
    · have hq' : q + n.size < (append n m).size := by
        rw [size_append, Nat.add_comm n.size]
        exact Nat.add_lt_add_right hq n.size
      rw [bare_append_left hq', bare_append_right hn.start_lt, bare_append_right hn.start_lt,
        bare_append_left hq]
    · have hq' : q + m.size + n.size = q + (append n m).size := by
        rw [size_append, Nat.add_assoc, Nat.add_comm m.size]
      rw [bare_append_right hn.start_lt, bare_append_right hm.start_lt, hq', bare_append_right hnm]
  path w q := by
    show Path (append (append n m) k) (append n m).start w q ↔
      Path (append n (append m k)) n.start w q
    rw [path_append_iff (hn.append hm), path_append_iff hn]
    show (Path (append n m) n.start w q ∨ _) ↔
      Path n n.start w q ∨ ∃ c, q = c + n.size ∧ Path (append m k) m.start w c
    -- the states of the third automaton are shifted once by both sizes, or by one and then the
    -- other
    simp only [path_append_iff hn, path_append_iff hm, size_append, and_or_left, exists_or,
      or_assoc]
    refine or_congr_right (or_congr_right ⟨?_, ?_⟩)
    · rintro ⟨b, rfl, hb⟩
      exact ⟨b + m.size, by omega, b, rfl, hb⟩
    · rintro ⟨_, rfl, b, rfl, hb⟩
      exact ⟨b, by omega, hb⟩

/-! ### Joined lists -/

theorem rooted_foldl_append (hn : n.Rooted) (hns : ∀ m ∈ ns, m.Rooted) :
    (ns.foldl append n).Rooted :=
  rooted_merge (List.forall_mem_cons.2 ⟨hn, hns⟩) rfl

theorem Alike.foldl_append (hn : n.Rooted) (hn' : n'.Rooted) (hns : ∀ m ∈ ns, m.Rooted)
    (h : Alike n n') : Alike (ns.foldl Nfa.append n) (ns.foldl Nfa.append n') := by
  induction ns generalizing n n' with
  | nil => exact h
  | cons m ns ih =>
    rw [List.forall_mem_cons] at hns
    exact ih (hn.append hns.1) (hn'.append hns.1) hns.2 (h.append hn hn' (.refl m))

/-- **A list may be joined before it is added** to an automaton. -/
theorem alike_append_foldl (hn : n.Rooted) (hm : m.Rooted) (hns : ∀ k ∈ ns, k.Rooted) :
    Alike (append n (ns.foldl append m)) (ns.foldl append (append n m)) := by
  induction ns generalizing m with
  | nil => exact .refl _
  | cons k ns ih =>
    rw [List.forall_mem_cons] at hns
    have hk := hns.1
    have houter : Alike (append n (append m k)) (append (append n m) k) :=
      (alike_append_assoc hn hm).symm
    exact (ih (hm.append hk) hns.2).trans
      (houter.foldl_append (hn.append (hm.append hk)) ((hn.append hm).append hk) hns.2)

end Nfa

namespace Dfa

variable {n m : Nfa} {w : List Char}

/-! ### What the subset construction looks at -/

theorem statesAfter_eq (hn : n.WellFormed) (hm : m.WellFormed) (h : n.Alike m) :
    n.statesAfter w = m.statesAfter w := by
  apply StateSet.ext_mem
  intro q
  rw [Nfa.mem_statesAfter hn, Nfa.mem_statesAfter hm, h.path]

/-- The sets that a text leads to next are the sets for the texts with one more character. -/
theorem successors_statesAfter : successors n (n.statesAfter w) =
    n.alphabet.toList.map fun c =>
      if n.statesAfter (w ++ [c]) = ∅ then none else some (n.statesAfter (w ++ [c])) := by
  refine List.map_congr_left fun c _ => ?_
  have hadvance : n.statesAfter (w ++ [c]) = n.advance (n.statesAfter w) c :=
    List.foldl_concat _ _ _ _
  rw [hadvance]
  exact successor_eq

/-- The search begins with the set for the empty text. -/
theorem exists_text_of_mem_start {S : StateSet} (hS : S ∈ #[n.closure [n.start]]) :
    ∃ w, S = n.statesAfter w := by
  rw [Array.mem_def, List.mem_singleton] at hS
  exact ⟨[], hS⟩

/-- And it goes on to sets for longer texts. -/
theorem exists_text_of_mem_successors {S T : StateSet} (hS : ∃ w, S = n.statesAfter w)
    (hT : some T ∈ successors n S) : ∃ w, T = n.statesAfter w := by
  obtain ⟨w, rfl⟩ := hS
  rw [successors_statesAfter] at hT
  obtain ⟨c, -, hc⟩ := List.mem_map.1 hT
  split at hc
  · cases hc
  · exact ⟨w ++ [c], (Option.some.inj hc).symm⟩

/-- **Automata that are alike are explored alike**, since the sets that are met are those that texts
lead to. -/
theorem exploration_eq (hn : n.WellFormed) (hm : m.WellFormed) (h : n.Alike m) :
    exploration n = exploration m := by
  have hafter : ∀ w, n.statesAfter w = m.statesAfter w := fun w => statesAfter_eq hn hm h
  have hstart : n.closure [n.start] = m.closure [m.start] := hafter []
  have hnext : ∀ S, (∃ w, S = n.statesAfter w) → successors n S = successors m S := by
    rintro _ ⟨w, rfl⟩
    rw [successors_statesAfter, hafter w, successors_statesAfter, h.alphabet]
    simp only [hafter]
  unfold exploration
  rw [← hstart]
  exact explore_congr (exists_space n) (exists_space m) (fun _ => exists_text_of_mem_start)
    (fun _ _ => exists_text_of_mem_successors) hnext

/-- **Automata that are alike have the same deterministic automaton.** -/
theorem ofNfa_eq (hn : n.WellFormed) (hm : m.WellFormed) (h : n.Alike m) : ofNfa n = ofNfa m := by
  have hstart : n.isStart = m.isStart := by
    funext q
    rw [Nfa.isStart_eq, Nfa.isStart_eq]
    show (n.stateAt q).bare.isStart = (m.stateAt q).bare.isStart
    rw [h.bare]
  have hfinal : n.isFinal = m.isFinal := by
    funext q
    rw [Nfa.isFinal_eq, Nfa.isFinal_eq]
    show (n.stateAt q).bare.isFinal = (m.stateAt q).bare.isFinal
    rw [h.bare]
  have htag : n.tag? = m.tag? := by
    funext q
    rw [Nfa.tag?_eq, Nfa.tag?_eq]
    show (n.stateAt q).bare.tag = (m.stateAt q).bare.tag
    rw [h.bare]
  have hstate : stateOf n = stateOf m := by
    funext sink S row
    simp only [stateOf, tagOf, h.alphabet, hstart, hfinal, htag]
  simp only [ofNfa, exploration_eq hn hm h, hstate, h.alphabet]

/-! ### Lists within lists -/

/-- **Joining some members of a list first changes nothing** in the deterministic automaton: not a
state or its number, not a set that one stands for, not an edge, a flag or a tag. -/
theorem ofNfa_merge_nested {xs ys zs : List Nfa} (hxs : ∀ m ∈ xs, ∃ rs, Nfa.Built rs m)
    (hys : ∀ m ∈ ys, ∃ rs, Nfa.Built rs m) (hzs : ∀ m ∈ zs, ∃ rs, Nfa.Built rs m) (hne : ys ≠ []) :
    ∃ k n m, Nfa.merge ys = some k ∧ Nfa.merge (xs ++ [k] ++ zs) = some n ∧
      Nfa.merge (xs ++ ys ++ zs) = some m ∧ ofNfa n = ofNfa m := by
  have hzs : ∀ m ∈ zs, m.Rooted := Nfa.forall_rooted_of_built hzs
  obtain ⟨y, ys, rfl⟩ := List.exists_cons_of_ne_nil hne
  obtain ⟨hy, hys⟩ := List.forall_mem_cons.1 (Nfa.forall_rooted_of_built hys)
  have hk : Nfa.merge (y :: ys) = some (ys.foldl Nfa.append y) := rfl
  cases xs with
  | nil =>
    -- the inner list comes first, so its result is what the others are added to
    have hn : Nfa.merge ([] ++ [ys.foldl Nfa.append y] ++ zs) =
        some (zs.foldl Nfa.append (ys.foldl Nfa.append y)) := rfl
    have hm : Nfa.merge ([] ++ y :: ys ++ zs) =
        some (zs.foldl Nfa.append (ys.foldl Nfa.append y)) := Nfa.merge_append hk
    exact ⟨_, _, _, hk, hn, hm, rfl⟩
  | cons x xs =>
    obtain ⟨hx, hxs⟩ := List.forall_mem_cons.1 (Nfa.forall_rooted_of_built hxs)
    have hfirst : (xs.foldl Nfa.append x).Rooted := Nfa.rooted_foldl_append hx hxs
    have hinner : (ys.foldl Nfa.append y).Rooted := Nfa.rooted_foldl_append hy hys
    have hflat : ((y :: ys).foldl Nfa.append (xs.foldl Nfa.append x)).Rooted :=
      Nfa.rooted_foldl_append hfirst (List.forall_mem_cons.2 ⟨hy, hys⟩)
    have hxs' : Nfa.merge (x :: xs) = some (xs.foldl Nfa.append x) := rfl
    have hn : Nfa.merge (x :: xs ++ [ys.foldl Nfa.append y] ++ zs) =
        some (zs.foldl Nfa.append (Nfa.append (xs.foldl Nfa.append x) (ys.foldl Nfa.append y))) :=
      Nfa.merge_append (Nfa.merge_append hxs')
    have hm : Nfa.merge (x :: xs ++ y :: ys ++ zs) =
        some (zs.foldl Nfa.append ((y :: ys).foldl Nfa.append (xs.foldl Nfa.append x))) :=
      Nfa.merge_append (Nfa.merge_append hxs')
    refine ⟨_, _, _, hk, hn, hm, ofNfa_eq ?_ ?_ ?_⟩
    · exact (Nfa.rooted_foldl_append (hfirst.append hinner) hzs).toWellFormed
    · exact (Nfa.rooted_foldl_append hflat hzs).toWellFormed
    · exact (Nfa.alike_append_foldl hfirst hy hys).foldl_append (hfirst.append hinner) hflat hzs

/-- Joining in two steps gives another automaton, since the start of the inner list is passed
through, and yet the same deterministic one. -/
theorem ofNfa_merge_nested_detour :
    ∃ k n m, Nfa.merge [(Nfa.ofRegex (.lit 'b')).tagFinal ⟨"B", 0⟩, Nfa.ofRegex (.lit 'c')] =
        some k ∧
      Nfa.merge [Nfa.ofRegex (.lit 'a'), k] = some n ∧
      Nfa.merge [Nfa.ofRegex (.lit 'a'), (Nfa.ofRegex (.lit 'b')).tagFinal ⟨"B", 0⟩,
        Nfa.ofRegex (.lit 'c')] = some m ∧
      n.edges 0 ≠ m.edges 0 ∧ ofNfa n = ofNfa m := by
  obtain ⟨k, n, m, hk, hn, hm, h⟩ := ofNfa_merge_nested
    (List.forall_mem_singleton.2 ⟨_, .ofRegex (.lit 'a')⟩)
    (List.forall_mem_cons.2 ⟨⟨_, .tagFinal ⟨"B", 0⟩ (.ofRegex (.lit 'b'))⟩,
      List.forall_mem_singleton.2 ⟨_, .ofRegex (.lit 'c')⟩⟩)
    (List.forall_mem_nil _) (List.cons_ne_nil _ _)
  refine ⟨k, n, m, hk, hn, hm, ?_, h⟩
  cases hk
  cases hn
  cases hm
  decide +kernel

end Dfa

end LexerGen
