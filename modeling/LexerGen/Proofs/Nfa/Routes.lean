import LexerGen.Nfa.Path
import LexerGen.Regex.Forms
import LexerGen.Regex.Language

/-!
# Fragments of an automaton

An automaton is built from pieces that share states: what is the tail of one piece may be the head
of the next. To speak of one piece inside the whole, this module looks at sets of edges alone
(`Links`) and at the routes through them. A set of edges is a `Fragment` for an expression if it
lies between a head and a tail, all its other states being fresh, and its routes from head to tail
spell the words of the expression.

Fragments are put together in the four ways of the construction: in a row (`Fragment.sequence`),
side by side (`Fragment.alternation`), as a branch with a state of its own at either end
(`Fragment.branch`) and as a loop (`Fragment.loop`). In each of them the point is that a route
cannot stray: no edge of a fragment enters its head or leaves its tail, so a route through the
whole falls into routes through the parts. Two lemmas say so once for all of them. `Route.confine`
keeps a route inside a region that no edge leaves; `Route.cross` cuts a route at the only exit of
a region.

A fragment for an expression without `void` is also live: from each of its states a route leads on
to the tail. That is what makes the empty set of states the only dead end.
-/

namespace LexerGen.Nfa

/-- **A set of labelled edges.** -/
abbrev Links : Type := Nat → Option Char → Nat → Prop

namespace Links

/-- No edges. -/
def none : Links := fun _ _ _ => False

/-- One edge. -/
def single (p : Nat) (l : Option Char) (q : Nat) : Links := fun p' l' q' => p' = p ∧ l' = l ∧ q' = q

/-- The edges of two sets. -/
def join (E F : Links) : Links := fun p l q => E p l q ∨ F p l q

/-- The edges of a branch, whose body has the states `s` and `s + 1` at its ends. -/
def branch (E : Links) (head tail s : Nat) : Links :=
  (E.join (single head .none s)).join (single (s + 1) .none tail)

/-- The edges of a loop: a branch, a way around it and a way back. -/
def loop (E : Links) (head tail s : Nat) : Links :=
  ((E.branch head tail s).join (single head .none tail)).join (single (s + 1) .none s)

section Body

variable {E : Links} {head tail s p q : Nat} {l : Option Char}

theorem branch_body (he : E p l q) : E.branch head tail s p l q := Or.inl (Or.inl he)

theorem branch_enter : E.branch head tail s head .none s := Or.inl (Or.inr ⟨rfl, rfl, rfl⟩)

theorem branch_leave : E.branch head tail s (s + 1) .none tail := Or.inr ⟨rfl, rfl, rfl⟩

theorem loop_branch (he : E.branch head tail s p l q) : E.loop head tail s p l q :=
  Or.inl (Or.inl he)

theorem loop_skip : E.loop head tail s head .none tail := Or.inl (Or.inr ⟨rfl, rfl, rfl⟩)

theorem loop_again : E.loop head tail s (s + 1) .none s := Or.inr ⟨rfl, rfl, rfl⟩

end Body

end Links

/-- The edges of an automaton. -/
def links (n : Nfa) : Links := fun p l q => (l, q) ∈ n.edges p

/-- **Routes through a set of edges**, with the words that they spell. -/
inductive Route (E : Links) : Nat → List Char → Nat → Prop
  /-- Staying where one is spells nothing. -/
  | nil {q : Nat} : Route E q [] q
  /-- An edge adds its character, if it has one. -/
  | step {p q r : Nat} {l : Option Char} {w : List Char} :
      E p l q → Route E q w r → Route E p (l.toList ++ w) r

variable {E F : Links} {p q r s t head tail lo mid hi : Nat} {l : Option Char} {u v w : List Char}

/-! ### Routes -/

/-- Routes through the edges of an automaton are its paths. -/
theorem path_iff_route {n : Nfa} : Path n p w q ↔ Route n.links p w q := by
  refine ⟨?_, ?_⟩
  · intro h
    induction h with
    | nil => exact .nil
    | empty he _ ih => exact .step (l := none) he ih
    | char he _ ih => exact .step (l := some _) he ih
  · intro h
    induction h with
    | nil => exact .nil
    | @step p q r l w he _ ih =>
      cases l with
      | none => exact .empty he ih
      | some c => exact .char he ih

theorem Route.single (h : E p l q) : Route E p l.toList q := by
  have hr : Route E p (l.toList ++ []) q := .step h .nil
  rwa [List.append_nil] at hr

theorem Route.append (h : Route E p u q) (k : Route E q v r) : Route E p (u ++ v) r := by
  induction h with
  | nil => exact k
  | step he _ ih =>
    rw [List.append_assoc]
    exact .step he (ih k)

/-- Edges added leave routes in place. -/
theorem Route.mono (hEF : ∀ p l q, E p l q → F p l q) (h : Route E p w q) : Route F p w q := by
  induction h with
  | nil => exact .nil
  | step he _ ih => exact .step (hEF _ _ _ he) ih

theorem Route.inl (h : Route E p w q) : Route (E.join F) p w q := h.mono fun _ _ _ => .inl

theorem Route.inr (h : Route F p w q) : Route (E.join F) p w q := h.mono fun _ _ _ => .inr

theorem Route.branch (h : Route E p w q) : Route (E.branch head tail s) p w q :=
  h.mono fun _ _ _ => Links.branch_body

theorem Route.loop (h : Route E p w q) : Route (E.loop head tail s) p w q :=
  h.branch.mono fun _ _ _ => Links.loop_branch

/-- A route between different states starts with an edge. -/
theorem Route.exists_step (h : Route E p w r) (hpr : p ≠ r) :
    ∃ l q v, E p l q ∧ w = l.toList ++ v ∧ Route E q v r := by
  cases h with
  | nil => exact absurd rfl hpr
  | step he hr => exact ⟨_, _, _, he, rfl, hr⟩

/-- A route from a state without edges goes nowhere. -/
theorem Route.eq_nil (h : Route E p w r) (hp : ∀ l q, ¬ E p l q) : w = [] := by
  cases h with
  | nil => rfl
  | step he _ => exact absurd he (hp _ _)

/-- **A route stays in a region that no edge leaves**, and uses only the edges that there are. -/
theorem Route.confine {P : Nat → Prop} (hP : ∀ p l q, P p → E p l q → F p l q ∧ P q)
    (h : Route E p w r) (hp : P p) : Route F p w r := by
  induction h with
  | nil => exact .nil
  | step he _ ih =>
    obtain ⟨hF, hq⟩ := hP _ _ _ hp he
    exact .step hF (ih hq)

/-- **A route out of a region passes its only exit.** -/
theorem Route.cross {P : Nat → Prop} (hP : ∀ p l q, P p → E p l q → F p l q ∧ (q = s ∨ P q))
    (h : Route E p w r) (hp : P p) (hr : ¬ P r) :
    ∃ u v, w = u ++ v ∧ Route F p u s ∧ Route E s v r := by
  induction h with
  | nil => exact absurd hp hr
  | @step p q r l w he hrest ih =>
    obtain ⟨hF, rfl | hq⟩ := hP _ _ _ hp he
    · -- this edge is the first to reach the exit
      exact ⟨l.toList, w, rfl, .single hF, hrest⟩
    · obtain ⟨u, v, rfl, hu, hv⟩ := ih hq hr
      exact ⟨l.toList ++ u, v, (List.append_assoc ..).symm, .step hF hu, hv⟩

/-! ### Fragments -/

/-- **A fragment for an expression.** Its edges lie between `head` and `tail`, its other states are
the numbers from `lo` up to `hi`, and its routes from head to tail spell the words of `r`. -/
structure Fragment (E : Links) (head tail lo hi : Nat) (r : Regex) : Prop where
  /-- The head is older than the states of the fragment. -/
  head_lt : head < lo
  /-- So is the tail. -/
  tail_lt : tail < lo
  /-- Head and tail are different. -/
  ne : head ≠ tail
  /-- The fresh states form an interval. -/
  le : lo ≤ hi
  /-- Edges start at the head or a fresh state. -/
  source : ∀ {p q : Nat} {l : Option Char}, E p l q → p = head ∨ lo ≤ p ∧ p < hi
  /-- Edges end at the tail or a fresh state. -/
  target : ∀ {p q : Nat} {l : Option Char}, E p l q → q = tail ∨ lo ≤ q ∧ q < hi
  /-- Routes from head to tail spell the words of the expression. -/
  spells : ∀ w, Route E head w tail ↔ r.Matches w
  /-- Without `void`, every state of the fragment has a route to the tail. -/
  live : r.VoidFree → ∀ p, p = head ∨ lo ≤ p ∧ p < hi → ∃ w, Route E p w tail

variable {a b : Regex}

/-- An expression may be replaced by one with the same words. -/
theorem Fragment.congr (h : Fragment E head tail lo hi a) (hw : ∀ w, a.Matches w ↔ b.Matches w)
    (hv : b.VoidFree → a.VoidFree) : Fragment E head tail lo hi b where
  head_lt := h.head_lt
  tail_lt := h.tail_lt
  ne := h.ne
  le := h.le
  source := h.source
  target := h.target
  spells w := (h.spells w).trans (hw w)
  live hb := h.live (hv hb)

/-- Nothing between head and tail spells nothing. -/
theorem Fragment.void (hh : head < lo) (ht : tail < lo) (hne : head ≠ tail) :
    Fragment Links.none head tail lo lo .void where
  head_lt := hh
  tail_lt := ht
  ne := hne
  le := Nat.le_refl lo
  source he := absurd he id
  target he := absurd he id
  spells w := by
    refine iff_of_false (fun h => ?_) Regex.not_matches_void
    obtain ⟨l, q, v, he, -, -⟩ := h.exists_step hne
    exact he
  live hv := absurd hv id

/-- **One edge from head to tail** spells its label. -/
theorem Fragment.edge (hh : head < lo) (ht : tail < lo) (hne : head ≠ tail)
    (ha : ∀ w, a.Matches w ↔ w = l.toList) :
    Fragment (Links.single head l tail) head tail lo lo a where
  head_lt := hh
  tail_lt := ht
  ne := hne
  le := Nat.le_refl lo
  source he := .inl he.1
  target he := .inl he.2.2
  spells w := by
    rw [ha]
    refine ⟨?_, ?_⟩
    · intro h
      obtain ⟨l', q, v, ⟨-, rfl, rfl⟩, rfl, hrest⟩ := h.exists_step hne
      -- the edge has reached the tail, which no edge leaves
      have hv : v = [] := hrest.eq_nil fun l' p he => hne he.1.symm
      rw [hv, List.append_nil]
    · rintro rfl
      exact .single ⟨rfl, rfl, rfl⟩
  live _ p hp := by
    obtain rfl : p = head := hp.resolve_right fun hp => absurd hp.2 (Nat.not_lt.2 hp.1)
    exact ⟨l.toList, .single ⟨rfl, rfl, rfl⟩⟩

/-- No edge leaves a state that is neither the head nor fresh, such as the tail. -/
theorem Fragment.not_source (h : Fragment E head tail lo hi a) (hp : p ≠ head) (hlo : p < lo) :
    ¬ E p l q := by
  intro he
  have hs := h.source he
  omega

/-! ### Fragments in a row and side by side -/

/-- **Two fragments in a row**, the tail `s` of the first being the head of the second. -/
theorem Fragment.sequence (hE : Fragment E head s (s + 1) mid a) (hF : Fragment F s tail mid hi b)
    (hh : head < s) (ht : tail < s) (hne : head ≠ tail) :
    Fragment (E.join F) head tail s hi (.concat a b) where
  head_lt := hh
  tail_lt := ht
  ne := hne
  le := by
    have h₁ := hE.le
    have h₂ := hF.le
    omega
  source he := by
    have h₁ := hE.le
    have h₂ := hF.le
    rcases he with he | he
    · have hs := hE.source he
      omega
    · have hs := hF.source he
      omega
  target he := by
    have h₁ := hE.le
    have h₂ := hF.le
    rcases he with he | he
    · have hs := hE.target he
      omega
    · have hs := hF.target he
      omega
  spells w := by
    have h₁ := hE.le
    rw [Regex.matches_concat]
    refine ⟨?_, ?_⟩
    · intro h
      -- the first fragment is left through `s` only
      obtain ⟨u, v, rfl, hu, hv⟩ := h.cross (F := E) (s := s)
        (P := fun p => p = head ∨ s + 1 ≤ p ∧ p < mid)
        (fun p l q hp he => by
          rcases he with he | he
          · exact ⟨he, (hE.target he).imp_right .inr⟩
          · have hs := hF.source he
            omega)
        (.inl rfl) (by omega)
      -- and the second is never left
      have hv := hv.confine (F := F) (P := fun p => p = s ∨ p = tail ∨ mid ≤ p ∧ p < hi)
        (fun p l q hp he => by
          rcases he with he | he
          · have hs := hE.source he
            omega
          · exact ⟨he, .inr (hF.target he)⟩)
        (.inl rfl)
      exact ⟨u, v, rfl, (hE.spells u).1 hu, (hF.spells v).1 hv⟩
    · rintro ⟨u, v, rfl, hu, hv⟩
      exact ((hE.spells u).2 hu).inl.append ((hF.spells v).2 hv).inr
  live hv p hp := by
    have h₁ := hE.le
    -- the state is in the second fragment, or a route leads to its head
    by_cases hm : p = s ∨ mid ≤ p ∧ p < hi
    · obtain ⟨w, hw⟩ := hF.live hv.2 p hm
      exact ⟨w, hw.inr⟩
    · obtain ⟨u, hu⟩ := hE.live hv.1 p (by omega)
      obtain ⟨v, hv⟩ := hF.live hv.2 s (.inl rfl)
      exact ⟨u ++ v, hu.inl.append hv.inr⟩

/-- **Two fragments side by side**, between the same head and tail. -/
theorem Fragment.alternation (hE : Fragment E head tail lo mid a)
    (hF : Fragment F head tail mid hi b) : Fragment (E.join F) head tail lo hi (.union a b) where
  head_lt := hE.head_lt
  tail_lt := hE.tail_lt
  ne := hE.ne
  le := Nat.le_trans hE.le hF.le
  source he := by
    have h₁ := hE.le
    have h₂ := hF.le
    rcases he with he | he
    · have hs := hE.source he
      omega
    · have hs := hF.source he
      omega
  target he := by
    have h₁ := hE.le
    have h₂ := hF.le
    rcases he with he | he
    · have hs := hE.target he
      omega
    · have hs := hF.target he
      omega
  spells w := by
    have hhead := hE.head_lt
    have htail := hE.tail_lt
    have hne := hE.ne
    have h₁ := hE.le
    rw [Regex.matches_union]
    refine ⟨?_, ?_⟩
    · intro h
      -- the first edge chooses the side, and no edge leads across
      obtain ⟨l, q, v, he | he, rfl, hv⟩ := h.exists_step hne
      · have hv := hv.confine (F := E) (P := fun p => p = tail ∨ lo ≤ p ∧ p < mid)
          (fun p l q hp he => by
            rcases he with he | he
            · exact ⟨he, hE.target he⟩
            · have hs := hF.source he
              omega)
          (hE.target he)
        exact .inl ((hE.spells _).1 (.step he hv))
      · have hv := hv.confine (F := F) (P := fun p => p = tail ∨ mid ≤ p ∧ p < hi)
          (fun p l q hp he => by
            rcases he with he | he
            · have hs := hE.source he
              omega
            · exact ⟨he, hF.target he⟩)
          (hF.target he)
        exact .inr ((hF.spells _).1 (.step he hv))
    · rintro (h | h)
      · exact ((hE.spells w).2 h).inl
      · exact ((hF.spells w).2 h).inr
  live hv p hp := by
    -- the state is in one of the two fragments, the head in both
    by_cases hm : p = head ∨ lo ≤ p ∧ p < mid
    · obtain ⟨w, hw⟩ := hE.live hv.1 p hm
      exact ⟨w, hw.inl⟩
    · obtain ⟨w, hw⟩ := hF.live hv.2 p (by omega)
      exact ⟨w, hw.inr⟩

/-! ### Branches and loops -/

section Body

variable (h : Fragment E s (s + 1) (s + 2) hi a) (hh : head < s) (ht : tail < s)

include h

/-- A route through the body enters it at its head and leaves it at its tail, whatever edges there
are outside. -/
theorem Fragment.cross_body (hF : ∀ p l q, F p l q → p = s ∨ s + 2 ≤ p → E p l q) (hr : r < s)
    (hp : p = s ∨ s + 2 ≤ p ∧ p < hi) (hroute : Route F p w r) :
    ∃ u v, w = u ++ v ∧ Route E p u (s + 1) ∧ Route F (s + 1) v r := by
  refine hroute.cross (P := fun p => p = s ∨ s + 2 ≤ p ∧ p < hi) (fun p l q hp he => ?_) hp
    (by omega)
  have hE : E p l q := hF p l q he (by omega)
  exact ⟨hE, (h.target hE).imp_right .inr⟩

omit h in
include hh in
/-- Inside its body a branch has the edges of the body alone. -/
theorem Fragment.body_of_branch (he : E.branch head tail s p l q) (hp : p = s ∨ s + 2 ≤ p) :
    E p l q := by
  obtain (he | ⟨rfl, -, -⟩) | ⟨rfl, -, -⟩ := he
  · exact he
  · omega
  · omega

include hh ht

/-- **A branch** spells what its body spells. -/
theorem Fragment.branch (hne : head ≠ tail) : Fragment (E.branch head tail s) head tail s hi a where
  head_lt := hh
  tail_lt := ht
  ne := hne
  le := by
    have h₁ := h.le
    omega
  source he := by
    have h₁ := h.le
    obtain (he | ⟨rfl, -, -⟩) | ⟨rfl, -, -⟩ := he
    · have hs := h.source he
      omega
    · exact .inl rfl
    · omega
  target he := by
    have h₁ := h.le
    obtain (he | ⟨-, -, rfl⟩) | ⟨-, -, rfl⟩ := he
    · have hs := h.target he
      omega
    · omega
    · exact .inl rfl
  spells w := by
    rw [← h.spells w]
    refine ⟨?_, ?_⟩
    · intro hroute
      -- the only edge from the head leads into the body
      obtain ⟨l, q, x, he, rfl, hrest⟩ := hroute.exists_step hne
      obtain (he | ⟨-, rfl, rfl⟩) | ⟨hx, -, -⟩ := he
      · exact absurd he (h.not_source (by omega) (by omega))
      · obtain ⟨u, v, rfl, hu, hout⟩ :=
          h.cross_body (fun p l q => Fragment.body_of_branch hh) ht (.inl rfl) hrest
        -- and the only edge from the last state of the body leads to the tail, where all ends
        obtain ⟨l, q, y, he, hv, hend⟩ := hout.exists_step (by omega)
        obtain (he | ⟨hx, -, -⟩) | ⟨-, rfl, rfl⟩ := he
        · exact absurd he (h.not_source (by omega) (by omega))
        · omega
        · have hy : y = [] := hend.eq_nil fun l p he => by
            obtain (he | ⟨hx, -, -⟩) | ⟨hx, -, -⟩ := he
            · exact absurd he (h.not_source (by omega) (by omega))
            · exact hne hx.symm
            · omega
          rw [hv, hy, Option.toList_none, List.nil_append, List.nil_append, List.append_nil]
          exact hu
      · omega
    · intro hroute
      have hleave : Route (E.branch head tail s) (s + 1) [] tail := .single Links.branch_leave
      have hbody := hroute.branch.append hleave
      rw [List.append_nil] at hbody
      exact .step Links.branch_enter hbody
  live hv p hp := by
    have hleave : Route (E.branch head tail s) (s + 1) [] tail := .single Links.branch_leave
    -- from the body a route leads to its last state, and from there out
    have hbody : ∀ p, p = s ∨ s + 2 ≤ p ∧ p < hi → ∃ w, Route (E.branch head tail s) p w tail := by
      intro p hp
      obtain ⟨w, hw⟩ := h.live hv p hp
      exact ⟨_, hw.branch.append hleave⟩
    by_cases hlast : p = s + 1
    · exact ⟨[], hlast ▸ hleave⟩
    · rcases hp with rfl | hp
      · -- from the head one edge leads into the body
        obtain ⟨w, hw⟩ := hbody s (.inl rfl)
        exact ⟨_, .step Links.branch_enter hw⟩
      · exact hbody p (by omega)

/-- **What is left of a route through a loop.** At the tail it ends; after the body it spells
repetitions; inside the body it ends one repetition before. -/
theorem Fragment.route_loop (hne : head ≠ tail) (hr : r = tail)
    (hroute : Route (E.loop head tail s) p w r) :
    (p = tail → w = []) ∧ (p = s + 1 → (Regex.star a).Matches w) ∧
      (p = s ∨ s + 2 ≤ p ∧ p < hi →
        ∃ u v, w = u ++ v ∧ Route E p u (s + 1) ∧ (Regex.star a).Matches v) := by
  -- on the route, the three places together: each edge leads from one of them to another
  induction hroute with
  | nil =>
    subst hr
    exact ⟨fun _ => rfl, fun hp => by omega, fun hp => by omega⟩
  | @step p q r l w he hrest ih =>
    obtain ⟨ihtail, ihlast, ihbody⟩ := ih hr
    obtain (((he | ⟨rfl, rfl, rfl⟩) | ⟨rfl, rfl, rfl⟩) | ⟨rfl, rfl, rfl⟩) | ⟨rfl, rfl, rfl⟩ := he
    · -- inside the body
      have hs := h.source he
      refine ⟨fun hp => by omega, fun hp => by omega, fun _ => ?_⟩
      rcases h.target he with rfl | hq
      · exact ⟨l.toList, w, rfl, .single he, ihlast rfl⟩
      · obtain ⟨u, v, rfl, hu, hv⟩ := ihbody (.inr hq)
        exact ⟨l.toList ++ u, v, (List.append_assoc ..).symm, .step he hu, hv⟩
    · -- into the body
      exact ⟨fun hp => absurd hp hne, fun hp => by omega, fun hp => by omega⟩
    · -- out of the loop
      refine ⟨fun hp => by omega, fun _ => ?_, fun hp => by omega⟩
      rw [ihtail rfl]
      exact .starNil
    · -- around the loop
      exact ⟨fun hp => absurd hp hne, fun hp => by omega, fun hp => by omega⟩
    · -- back for another repetition
      refine ⟨fun hp => by omega, fun _ => ?_, fun hp => by omega⟩
      obtain ⟨u, v, rfl, hu, hv⟩ := ihbody (.inl rfl)
      show (Regex.star a).Matches (u ++ v)
      exact .starAppend ((h.spells u).1 hu) hv

omit hh ht in
/-- After the body every number of further repetitions can be spelled. -/
theorem Fragment.route_of_star (hw : (Regex.star a).Matches w) :
    Route (E.loop head tail s) (s + 1) w tail := by
  generalize hr : Regex.star a = r at hw
  induction hw with
  | starNil => exact .single (Links.loop_branch Links.branch_leave)
  | @starAppend r u v hu hv _ ih =>
    cases hr
    have hbody : Route (E.loop head tail s) s u (s + 1) := ((h.spells u).2 hu).loop
    exact .step Links.loop_again (hbody.append (ih rfl))
  | _ => cases hr

/-- **A loop** spells the repetitions of what its body spells. -/
theorem Fragment.loop (hne : head ≠ tail) :
    Fragment (E.loop head tail s) head tail s hi (.star a) where
  head_lt := hh
  tail_lt := ht
  ne := hne
  le := (h.branch hh ht hne).le
  source he := by
    have h₁ := h.le
    obtain (he | ⟨rfl, -, -⟩) | ⟨rfl, -, -⟩ := he
    · exact (h.branch hh ht hne).source he
    · exact .inl rfl
    · omega
  target he := by
    have h₁ := h.le
    obtain (he | ⟨-, -, rfl⟩) | ⟨-, -, rfl⟩ := he
    · exact (h.branch hh ht hne).target he
    · exact .inl rfl
    · omega
  spells w := by
    refine ⟨?_, ?_⟩
    · intro hroute
      obtain ⟨l, q, x, he, rfl, hrest⟩ := hroute.exists_step hne
      obtain ⟨hstop, -, hbody⟩ := h.route_loop hh ht hne rfl hrest
      -- from the head one edge leads into the body and one around it
      obtain (((he | ⟨-, rfl, rfl⟩) | ⟨hx, -, -⟩) | ⟨-, rfl, rfl⟩) | ⟨hx, -, -⟩ := he
      · exact absurd he (h.not_source (by omega) (by omega))
      · obtain ⟨u, v, rfl, hu, hv⟩ := hbody (.inl rfl)
        show (Regex.star a).Matches (u ++ v)
        exact .starAppend ((h.spells u).1 hu) hv
      · omega
      · rw [hstop rfl]
        exact .starNil
      · omega
    · intro hw
      rcases Regex.matches_star.1 hw with rfl | ⟨u, v, rfl, -, hu, hv⟩
      · exact .single Links.loop_skip
      · have hbody : Route (E.loop head tail s) s u (s + 1) := ((h.spells u).2 hu).loop
        exact .step (Links.loop_branch Links.branch_enter) (hbody.append (h.route_of_star hv))
  live hv p hp := by
    obtain ⟨w, hw⟩ := (h.branch hh ht hne).live hv p hp
    exact ⟨w, hw.mono fun p l q => Links.loop_branch⟩

end Body

end LexerGen.Nfa
