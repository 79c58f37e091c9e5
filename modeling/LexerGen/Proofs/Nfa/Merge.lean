import LexerGen.Proofs.Nfa.Thompson

/-!
# Joined automata accept what their parts accept

Joining shifts the states of the second automaton past those of the first and hangs its start on
the start of the first. This is a union only because a start state is never entered again:
otherwise the second automaton could be begun in the middle of a word of the first. So the
invariant of everything that can be put together is `Rooted`: the automaton is well-formed, and no
edge leads into its start.

A path of the joined automaton from its start is then a path of the first automaton or a shifted
path of the second (`path_append_iff`). What a text can end in is therefore what it can end in for
some of the parts (`outcome_append`, `outcome_merge`), where an `Outcome` is the tag of a final
state at the end of a path.

An automaton is `Live` if from every state that can be reached a path leads on to a final state.
That holds of what is put together from expressions without `void` (`live_of_built`).
-/

namespace LexerGen.Nfa

variable {n m : Nfa} {p q r k : Nat} {l : Option Char} {w : List Char} {t : Tag}

/-! ### Rooted automata -/

/-- **Rooted automata** are well-formed, and no edge leads into their start. -/
structure Rooted (n : Nfa) : Prop extends n.WellFormed where
  /-- The start is never entered again. -/
  ne_start : ∀ {p q : Nat} {l : Option Char}, (l, q) ∈ n.edges p → q ≠ n.start

theorem rooted_ofRegex (r : Regex) : (ofRegex r).Rooted where
  toWellFormed := wellFormed_ofRegex r
  ne_start he := by
    have ht := (fragment_ofRegex r).target he
    rw [start_ofRegex]
    omega

/-- Paths lead from states to states. -/
theorem Path.lt (hn : n.WellFormed) (h : Path n p w q) (hp : p < n.size) : q < n.size := by
  induction h with
  | nil => exact hp
  | empty he _ ih => exact ih (hn.target_lt he)
  | char he _ ih => exact ih (hn.target_lt he)

/-- A path stays when edges are added. -/
theorem Path.mono (hnm : ∀ p l q, (l, q) ∈ n.edges p → (l, q) ∈ m.edges p) (h : Path n p w q) :
    Path m p w q := by
  rw [path_iff_route] at h ⊢
  exact h.mono hnm

/-! ### Tagging -/

theorem stateAt_tagFinal : (n.tagFinal t).stateAt q =
    if (n.stateAt q).isFinal then { n.stateAt q with tag := some t } else n.stateAt q := by
  rw [stateAt, stateAt, tagFinal, Array.getElem?_map]
  cases n.states[q]? <;> rfl

theorem edges_tagFinal : (n.tagFinal t).edges q = n.edges q := by
  rw [edges_eq, edges_eq, stateAt_tagFinal]
  split <;> rfl

theorem isFinal_tagFinal : (n.tagFinal t).isFinal q = n.isFinal q := by
  rw [isFinal_eq, isFinal_eq, stateAt_tagFinal]
  split <;> rfl

theorem tag?_tagFinal (h : n.isFinal q = true) : (n.tagFinal t).tag? q = some t := by
  rw [isFinal_eq] at h
  rw [tag?_eq, stateAt_tagFinal, if_pos h]

theorem size_tagFinal : (n.tagFinal t).size = n.size := Array.size_map

theorem path_tagFinal : Path (n.tagFinal t) p w q ↔ Path n p w q :=
  ⟨.mono fun p l q he => by rwa [edges_tagFinal] at he,
    .mono fun p l q he => by rwa [edges_tagFinal]⟩

theorem Rooted.tagFinal (h : n.Rooted) (t : Tag) : (n.tagFinal t).Rooted where
  start_lt := by
    rw [size_tagFinal]
    exact h.start_lt
  target_lt he := by
    rw [edges_tagFinal] at he
    rw [size_tagFinal]
    exact h.target_lt he
  mem_alphabet he := by
    rw [edges_tagFinal] at he
    exact h.mem_alphabet he
  ne_start he := by
    rw [edges_tagFinal] at he
    exact h.ne_start he

/-! ### The states of two joined automata -/

theorem size_append : (append n m).size = n.size + m.size := by
  rw [size, append, Array.size_modify, Array.size_append, Array.size_map]
  rfl

/-- The states of the first automaton keep their numbers. Its start gets one more edge. -/
theorem stateAt_append_left (hp : p < n.size) : (append n m).stateAt p =
    { n.stateAt p with
      edges := (n.stateAt p).edges ++
        if p = n.start then [(none, m.start + n.size)] else [] } := by
  have hp' : p < n.states.size := hp
  rw [stateAt, stateAt, append, Array.getElem?_modify, Array.getElem?_append_left hp',
    Array.getElem?_eq_getElem hp']
  by_cases hs : p = n.start
  · rw [if_pos hs, if_pos hs.symm]
    rfl
  · rw [if_neg hs, if_neg (Ne.symm hs), List.append_nil]

/-- Those of the second are shifted. -/
theorem stateAt_append_right (hn : n.start < n.size) :
    (append n m).stateAt (p + n.size) = (m.stateAt p).shift n.size := by
  have hne : n.start ≠ p + n.size := by omega
  have hle : n.states.size ≤ p + n.size := Nat.le_add_left n.states.size p
  have hsub : p + n.size - n.states.size = p := Nat.add_sub_cancel p n.states.size
  rw [stateAt, stateAt, append, Array.getElem?_modify, if_neg hne,
    Array.getElem?_append_right hle, hsub, Array.getElem?_map]
  cases m.states[p]? <;> rfl

theorem mem_edges_append_left (hp : p < n.size) : (l, q) ∈ (append n m).edges p ↔
    (l, q) ∈ n.edges p ∨ p = n.start ∧ l = none ∧ q = m.start + n.size := by
  rw [edges_eq, stateAt_append_left hp, ← edges_eq, List.mem_append]
  by_cases hs : p = n.start
  · simp [hs]
  · simp [hs]

theorem mem_edges_append_right (hn : n.start < n.size) :
    (l, q) ∈ (append n m).edges (p + n.size) ↔
      ∃ q', q = q' + n.size ∧ (l, q') ∈ m.edges p := by
  rw [edges_eq, stateAt_append_right hn, edges_eq]
  show (l, q) ∈ (m.stateAt p).edges.map _ ↔ _
  rw [List.mem_map]
  refine ⟨?_, ?_⟩
  · rintro ⟨⟨l', q'⟩, he, hq⟩
    obtain ⟨rfl, rfl⟩ := Prod.mk.inj hq
    exact ⟨q', rfl, he⟩
  · rintro ⟨q', rfl, he⟩
    exact ⟨(l, q'), he, rfl⟩

theorem isFinal_append_left (hp : p < n.size) : (append n m).isFinal p = n.isFinal p := by
  rw [isFinal_eq, stateAt_append_left hp, ← isFinal_eq]

theorem isFinal_append_right (hn : n.start < n.size) :
    (append n m).isFinal (p + n.size) = m.isFinal p := by
  rw [isFinal_eq, stateAt_append_right hn, isFinal_eq]
  rfl

theorem tag?_append_left (hp : p < n.size) : (append n m).tag? p = n.tag? p := by
  rw [tag?_eq, stateAt_append_left hp, ← tag?_eq]

theorem tag?_append_right (hn : n.start < n.size) :
    (append n m).tag? (p + n.size) = m.tag? p := by
  rw [tag?_eq, stateAt_append_right hn, tag?_eq]
  rfl

/-- A state of two joined automata is one of the first or a shifted one of the second. -/
theorem lt_or_exists_add (n : Nfa) (p : Nat) : p < n.size ∨ ∃ k, p = k + n.size := by
  rcases Nat.lt_or_ge p n.size with hp | hp
  · exact .inl hp
  · exact .inr ⟨p - n.size, (Nat.sub_add_cancel hp).symm⟩

theorem Rooted.append (hn : n.Rooted) (hm : m.Rooted) : (append n m).Rooted := by
  have hsize : (Nfa.append n m).size = n.size + m.size := size_append
  have hns := hn.start_lt
  have hms := hm.start_lt
  -- every edge is old, or leads to the start of the second automaton, or is shifted
  have hedge : ∀ {p q : Nat} {l : Option Char}, (l, q) ∈ (Nfa.append n m).edges p →
      q < n.size + m.size ∧ q ≠ n.start ∧ ∀ c, l = some c → c ∈ n.alphabet ∨ c ∈ m.alphabet := by
    intro p q l he
    rcases lt_or_exists_add n p with hp | ⟨k, rfl⟩
    · rcases (mem_edges_append_left hp).1 he with he | ⟨-, rfl, rfl⟩
      · have hq := hn.target_lt he
        refine ⟨by omega, hn.ne_start he, fun c hc => ?_⟩
        subst hc
        exact .inl (hn.mem_alphabet he)
      · -- the edge to the start of the second automaton has no label
        exact ⟨by omega, by omega, fun c hc => by cases hc⟩
    · obtain ⟨q', rfl, he'⟩ := (mem_edges_append_right hns).1 he
      have hq := hm.target_lt he'
      refine ⟨by omega, by omega, fun c hc => ?_⟩
      subst hc
      exact .inr (hm.mem_alphabet he')
  exact {
    start_lt := by
      show n.start < _
      omega
    target_lt := fun he => by
      rw [hsize]
      exact (hedge he).1
    mem_alphabet := fun he => SortedSet.mem_union.2 ((hedge he).2.2 _ rfl)
    ne_start := fun he => (hedge he).2.1 }

/-! ### The paths of two joined automata -/

theorem lt_of_mem_edges (he : (l, q) ∈ n.edges p) : p < n.size := by
  refine Nat.lt_of_not_le fun hp => ?_
  have hnone : n.states[p]? = none := Array.getElem?_eq_none hp
  rw [edges, hnone] at he
  exact absurd he List.not_mem_nil

/-- The first automaton keeps its paths. -/
theorem Path.append_left (h : Path n p w q) : Path (Nfa.append n m) p w q :=
  h.mono fun _ _ _ he => (mem_edges_append_left (lt_of_mem_edges he)).2 (.inl he)

/-- The second has its paths shifted. -/
theorem Path.append_right (hn : n.start < n.size) (h : Path m p w q) :
    Path (Nfa.append n m) (p + n.size) w (q + n.size) := by
  induction h with
  | nil => exact .nil
  | empty he _ ih => exact .empty ((mem_edges_append_right hn).2 ⟨_, rfl, he⟩) ih
  | char he _ ih => exact .char ((mem_edges_append_right hn).2 ⟨_, rfl, he⟩) ih

/-- A path from a state of the second automaton stays there. -/
theorem Path.of_append_right (hn : n.start < n.size)
    (h : Path (Nfa.append n m) (k + n.size) w r) :
    ∃ q, r = q + n.size ∧ Path m k w q := by
  -- on the path, which meets shifted states only
  generalize hp : k + n.size = p at h
  induction h generalizing k with
  | nil => exact ⟨k, hp.symm, .nil⟩
  | empty he _ ih =>
    subst hp
    obtain ⟨q', rfl, he'⟩ := (mem_edges_append_right hn).1 he
    obtain ⟨q, rfl, hq⟩ := ih rfl
    exact ⟨q, rfl, .empty he' hq⟩
  | char he _ ih =>
    subst hp
    obtain ⟨q', rfl, he'⟩ := (mem_edges_append_right hn).1 he
    obtain ⟨q, rfl, hq⟩ := ih rfl
    exact ⟨q, rfl, .char he' hq⟩

/-- **A path from a state of the first automaton stays there too**, unless that state is the start:
the start is the only way across, and it is not met again. -/
theorem Path.of_append_left (hn : n.Rooted) (h : Path (Nfa.append n m) p w r) (hp : p < n.size)
    (hs : p ≠ n.start) : Path n p w r := by
  have hstep : ∀ {p q : Nat} {l : Option Char}, p < n.size → p ≠ n.start →
      (l, q) ∈ (Nfa.append n m).edges p → (l, q) ∈ n.edges p := fun hp hs he =>
    ((mem_edges_append_left hp).1 he).resolve_right fun h => hs h.1
  induction h with
  | nil => exact .nil
  | empty he _ ih =>
    -- the edge is an old one, so it leads neither away nor to the start
    have he := hstep hp hs he
    exact .empty he (ih (hn.target_lt he) (hn.ne_start he))
  | char he _ ih =>
    have he := hstep hp hs he
    exact .char he (ih (hn.target_lt he) (hn.ne_start he))

/-- **Paths of joined automata.** A path from the start is one of the first automaton or a shifted
one of the second. -/
theorem path_append_iff (hn : n.Rooted) : Path (append n m) n.start w r ↔
    Path n n.start w r ∨ ∃ q, r = q + n.size ∧ Path m m.start w q := by
  have hns := hn.start_lt
  refine ⟨?_, ?_⟩
  · intro h
    -- the first edge decides which automaton the path is in
    cases h with
    | nil => exact .inl .nil
    | empty he hrest =>
      rcases (mem_edges_append_left hns).1 he with he | ⟨-, -, rfl⟩
      · exact .inl (.empty he (hrest.of_append_left hn (hn.target_lt he) (hn.ne_start he)))
      · exact .inr (hrest.of_append_right hns)
    | char he hrest =>
      rcases (mem_edges_append_left hns).1 he with he | ⟨-, hl, -⟩
      · exact .inl (.char he (hrest.of_append_left hn (hn.target_lt he) (hn.ne_start he)))
      · cases hl
  · rintro (h | ⟨q, rfl, h⟩)
    · exact h.append_left
    · exact .empty ((mem_edges_append_left hns).2 (.inr ⟨rfl, rfl, rfl⟩)) (h.append_right hns)

/-! ### What a text can end in -/

/-- **An outcome of a text**: the tag, if any, of a final state at the end of a path for it. -/
def Outcome (n : Nfa) (w : List Char) (tag : Option Tag) : Prop :=
  ∃ q, Path n n.start w q ∧ n.isFinal q = true ∧ n.tag? q = tag

variable {tag : Option Tag}

/-- A tagged expression gives its words the tag. -/
theorem outcome_tagFinal_ofRegex {r : Regex} :
    Outcome ((ofRegex r).tagFinal t) w tag ↔ r.Matches w ∧ tag = some t := by
  have hstart : ((ofRegex r).tagFinal t).start = 0 := start_ofRegex
  unfold Outcome
  simp only [hstart, path_tagFinal, isFinal_tagFinal, isFinal_ofRegex]
  refine ⟨?_, ?_⟩
  · rintro ⟨q, hp, rfl, ht⟩
    rw [tag?_tagFinal (isFinal_ofRegex.2 rfl)] at ht
    exact ⟨path_ofRegex.1 hp, ht.symm⟩
  · rintro ⟨hw, rfl⟩
    exact ⟨1, path_ofRegex.2 hw, rfl, tag?_tagFinal (isFinal_ofRegex.2 rfl)⟩

/-- **Two joined automata have the outcomes of both.** -/
theorem outcome_append (hn : n.Rooted) :
    Outcome (append n m) w tag ↔ Outcome n w tag ∨ Outcome m w tag := by
  have hns := hn.start_lt
  refine ⟨?_, ?_⟩
  · rintro ⟨r, hp, hf, ht⟩
    rcases (path_append_iff hn).1 hp with hleft | ⟨q, rfl, hright⟩
    · have hr := hleft.lt hn.toWellFormed hns
      rw [isFinal_append_left hr] at hf
      rw [tag?_append_left hr] at ht
      exact .inl ⟨r, hleft, hf, ht⟩
    · rw [isFinal_append_right hns] at hf
      rw [tag?_append_right hns] at ht
      exact .inr ⟨q, hright, hf, ht⟩
  · rintro (⟨r, hp, hf, ht⟩ | ⟨q, hp, hf, ht⟩)
    · have hr := hp.lt hn.toWellFormed hns
      refine ⟨r, (path_append_iff hn).2 (.inl hp), ?_, ?_⟩
      · rwa [isFinal_append_left hr]
      · rwa [tag?_append_left hr]
    · refine ⟨q + n.size, (path_append_iff hn).2 (.inr ⟨q, rfl, hp⟩), ?_, ?_⟩
      · rwa [isFinal_append_right hns]
      · rwa [tag?_append_right hns]

/-- To accept a text is to have an outcome for it. -/
theorem accepts_iff_exists_outcome (hn : n.WellFormed) :
    n.accepts w = true ↔ ∃ tag, Outcome n w tag := by
  rw [accepts_iff hn]
  constructor
  · rintro ⟨q, hq, hf⟩
    exact ⟨n.tag? q, q, hq, hf, rfl⟩
  · rintro ⟨-, q, hq, hf, -⟩
    exact ⟨q, hq, hf⟩

/-! ### Joined lists -/

variable {ns ms : List Nfa}

/-- Joining continues where it stopped. -/
theorem merge_append (h : merge ns = some n) : merge (ns ++ ms) = some (ms.foldl append n) := by
  cases ns with
  | nil => cases h
  | cons first rest =>
    obtain rfl : rest.foldl append first = n := Option.some.inj h
    show some ((rest ++ ms).foldl append first) = _
    rw [List.foldl_append]

/-- **Joining adds one member after the other** to those that have been joined before. -/
@[elab_as_elim]
theorem merge_induction {P : List Nfa → Nfa → Prop} (hone : ∀ n, P [n] n)
    (hadd : ∀ ns n m, merge ns = some n → P ns n → P (ns ++ [m]) (append n m))
    (h : merge ns = some n) : P ns n := by
  cases ns with
  | nil => cases h
  | cons first rest =>
    obtain rfl : rest.foldl append first = n := Option.some.inj h
    -- whatever has been joined, the rest can be added to it
    have hrest : ∀ before n, merge before = some n → P before n →
        P (before ++ rest) (rest.foldl append n) := by
      clear h
      induction rest with
      | nil =>
        intro before n _ hP
        rwa [List.append_nil]
      | cons m rest ih =>
        intro before n hbefore hP
        have hnext : P (before ++ [m]) (append n m) := hadd before n m hbefore hP
        have hlast := ih (before ++ [m]) (append n m) (merge_append hbefore) hnext
        rwa [List.append_assoc] at hlast
    exact hrest [first] first rfl (hone first)

/-- A property of automata that joining two of them keeps holds of a joined list. -/
theorem merge_closed {P : Nfa → Prop} (hP : ∀ n m, P n → P m → P (append n m))
    (hns : ∀ m ∈ ns, P m) (h : merge ns = some n) : P n := by
  revert hns
  refine merge_induction ?_ ?_ h
  · exact fun m hm => hm m List.mem_cons_self
  · intro ns n m _ ih hns
    rw [List.forall_mem_append, List.forall_mem_singleton] at hns
    exact hP n m (ih hns.1) hns.2

theorem rooted_merge (hns : ∀ m ∈ ns, m.Rooted) (h : merge ns = some n) : n.Rooted :=
  merge_closed (fun _ _ => Rooted.append) hns h

/-- **A joined list has the outcomes of its members.** -/
theorem outcome_merge (hns : ∀ m ∈ ns, m.Rooted) (h : merge ns = some n) :
    Outcome n w tag ↔ ∃ m ∈ ns, Outcome m w tag := by
  revert hns
  refine merge_induction ?_ ?_ h
  · simp
  · intro ns n m hn ih hns
    rw [List.forall_mem_append, List.forall_mem_singleton] at hns
    rw [outcome_append (rooted_merge hns.1 hn), ih hns.1]
    simp only [List.mem_append, List.mem_singleton, or_and_right, exists_or, exists_eq_left]

/-! ### Everything that can be put together -/

/-- **Induction on what is put together.** A joined automaton is its first part with the others
added to it one after the other, so only two automata have to be joined at a time. -/
@[elab_as_elim]
theorem built_induction {P : List Regex → Nfa → Prop} {rs : List Regex}
    (hone : ∀ r, P [r] (ofRegex r)) (htag : ∀ rs n t, P rs n → P rs (n.tagFinal t))
    (hadd : ∀ rs rs' n m, P rs n → P rs' m → P (rs ++ rs') (append n m)) (h : Built rs n) :
    P rs n := by
  induction h with
  | ofRegex r => exact hone r
  | tagFinal tag _ ih => exact htag _ _ tag ih
  | @merge parts n _ hmerge ih =>
    cases parts with
    | nil => cases hmerge
    | cons first rest =>
      obtain rfl : (rest.map Prod.snd).foldl append first.2 = n := Option.some.inj hmerge
      obtain ⟨hfirst, hrest⟩ := List.forall_mem_cons.1 ih
      -- whatever has been joined from the parts before, the others can be added to it
      have hjoin : ∀ (rest : List (List Regex × Nfa)) (rs : List Regex) (n : Nfa),
          (∀ p ∈ rest, P p.1 p.2) → P rs n →
          P (rs ++ rest.flatMap Prod.fst) ((rest.map Prod.snd).foldl append n) := by
        intro rest
        induction rest with
        | nil =>
          intro rs n _ hn
          simpa using hn
        | cons part rest ih =>
          intro rs n hparts hn
          rw [List.forall_mem_cons] at hparts
          have hlast := ih (rs ++ part.1) (append n part.2) hparts.2 (hadd _ _ _ _ hn hparts.1)
          rwa [List.append_assoc] at hlast
      exact hjoin rest first.1 first.2 hrest hfirst

/-- **Whatever is put together is rooted.** -/
theorem rooted_of_built {rs : List Regex} (h : Built rs n) : n.Rooted := by
  refine built_induction ?_ ?_ ?_ h
  · exact rooted_ofRegex
  · exact fun _ _ t hn => hn.tagFinal t
  · exact fun _ _ _ _ hn hm => hn.append hm

theorem forall_rooted_of_built (h : ∀ m ∈ ns, ∃ rs, Built rs m) : ∀ m ∈ ns, m.Rooted := by
  intro m hm
  obtain ⟨rs, hbuilt⟩ := h m hm
  exact rooted_of_built hbuilt

/-- **Live automata**: from every state that can be reached, a path leads on to a final state. -/
def Live (n : Nfa) : Prop :=
  ∀ q w, Path n n.start w q → ∃ v f, Path n q v f ∧ n.isFinal f = true

theorem live_ofRegex {r : Regex} (hr : r.VoidFree) : (ofRegex r).Live := by
  intro q w hq
  have hlt : q < (ofRegex r).size := hq.lt (wellFormed_ofRegex r) (wellFormed_ofRegex r).start_lt
  -- the final state is where a route has to end, and the others belong to the fragment
  by_cases hone : q = 1
  · exact ⟨[], q, .nil, isFinal_ofRegex.2 hone⟩
  · obtain ⟨v, hv⟩ := (fragment_ofRegex r).live hr q (by omega)
    exact ⟨v, 1, path_iff_route.2 hv, isFinal_ofRegex.2 rfl⟩

theorem Live.tagFinal (h : n.Live) (t : Tag) : (n.tagFinal t).Live := by
  intro q w hq
  obtain ⟨v, f, hv, hf⟩ := h q w (path_tagFinal.1 hq)
  exact ⟨v, f, path_tagFinal.2 hv, by rwa [isFinal_tagFinal]⟩

theorem Live.append (hn : n.Rooted) (hln : n.Live) (hlm : m.Live) : (append n m).Live := by
  intro r w hr
  have hns := hn.start_lt
  rcases (path_append_iff hn).1 hr with hr | ⟨q, rfl, hq⟩
  · obtain ⟨v, f, hv, hf⟩ := hln r w hr
    have hlt := hv.lt hn.toWellFormed (hr.lt hn.toWellFormed hns)
    exact ⟨v, f, hv.append_left, by rwa [isFinal_append_left hlt]⟩
  · obtain ⟨v, f, hv, hf⟩ := hlm q w hq
    exact ⟨v, f + n.size, hv.append_right hns, by rwa [isFinal_append_right hns]⟩

/-- **Without `void` there are no dead ends.** -/
theorem live_of_built {rs : List Regex} (h : Built rs n) (hrs : ∀ r ∈ rs, r.VoidFree) : n.Live := by
  have hlive : n.Rooted ∧ ((∀ r ∈ rs, r.VoidFree) → n.Live) := by
    refine built_induction ?_ ?_ ?_ h
    · exact fun r => ⟨rooted_ofRegex r, fun hr => live_ofRegex (hr r List.mem_cons_self)⟩
    · exact fun _ _ t hn => ⟨hn.1.tagFinal t, fun hr => (hn.2 hr).tagFinal t⟩
    · intro rs rs' n m hn hm
      refine ⟨hn.1.append hm.1, fun hr => ?_⟩
      rw [List.forall_mem_append] at hr
      exact (hn.2 hr.1).append hn.1 (hm.2 hr.2)
  exact hlive.2 hrs

/-- Joining two automata is putting them together. -/
theorem Built.append {rs rs' : List Regex} (hn : Built rs n) (hm : Built rs' m) :
    Built (rs ++ rs') (append n m) := by
  have hparts : ∀ p ∈ [(rs, n), (rs', m)], Built p.1 p.2 :=
    List.forall_mem_cons.2 ⟨hn, List.forall_mem_singleton.2 hm⟩
  have hbuilt := Built.merge hparts rfl
  rwa [List.flatMap_cons, List.flatMap_singleton] at hbuilt

/-- A tagged expression joined with one that has no tag. -/
theorem built_append_tagFinal (r r' : Regex) (tag : Tag) :
    Built [r, r'] (((ofRegex r).tagFinal tag).append (ofRegex r')) :=
  (Built.tagFinal tag (.ofRegex r)).append (.ofRegex r')

end LexerGen.Nfa
