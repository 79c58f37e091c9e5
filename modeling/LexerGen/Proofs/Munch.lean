import LexerGen.Proofs.Lex
import Mathlib.Data.List.Permutation

/-!
# Maximal munch, offset by offset

What a scanner yields is described here by the states of its automaton and by offsets into the text,
without the cursors that the scanner moves and for any automaton that the subset construction makes,
whatever its tags. `Dfa.between text i j` is the state that the part of the text from `i` to `j`
leads to. From the offset `i` where a token starts, `Upcoming` says what comes next: the token that
reaches as far as some tag is found, the end, or the failure at the first character that leads to
the sink. `Scanned` puts these steps one after the other.

Both relations have one result (`Scanned.unique`), and the items of a scan are that result
(`scanned_items`). The step is where the loop of the scanner is opened: what it carries along is
turned into facts about all offsets (`along_slice`). After that nothing but `Upcoming` is needed,
not for the run and not for what follows from it (`scan_munches`): every item lies further on in the
text, so there are no more of them than characters.
-/

namespace LexerGen

variable {d : Dfa} {n : Nfa} {P : Nat → Prop} {text u v : List Char} {i j k m : Nat} {tag : Tag}
  {s t : Scanner} {item : Except LexError Token} {items items' : List (Except LexError Token)}
  {o o' : Option (Except LexError Token)} {next next' : Option Nat}

/-! ### Parts of a text -/

theorem length_slice (hj : j ≤ text.length) : (slice text i j).length = j - i := by
  rw [slice, List.length_take, List.length_drop]
  omega

theorem slice_append_slice (hij : i ≤ j) (hjk : j ≤ k) :
    slice text i j ++ slice text j k = slice text i k := by
  have hk : k - i = (j - i) + (k - j) := by omega
  have hj : i + (j - i) = j := by omega
  rw [slice, slice, slice, hk, List.take_add, List.drop_drop, hj]

theorem take_append_slice (hij : i ≤ j) : text.take i ++ slice text i j = text.take j := by
  have hj : j = i + (j - i) := by omega
  rw [slice, hj, List.take_add, Nat.add_sub_cancel_left]

theorem drop_ne_nil (hi : i < text.length) : text.drop i ≠ [] := by
  intro hnil
  have hle : text.length ≤ i := List.drop_eq_nil_iff.1 hnil
  omega

theorem drop_eq_slice : text.drop i = slice text i text.length := by
  have hlength : (text.drop i).length = text.length - i := List.length_drop
  rw [slice, List.take_of_length_le (Nat.le_of_eq hlength)]

namespace Dfa

/-- **The state after a part of a text**, read from the start of the automaton. -/
def between (d : Dfa) (text : List Char) (i j : Nat) : Nat := d.run d.start (slice text i j)

theorem between_self : d.between text i i = d.start := by
  rw [between, slice, Nat.sub_self]
  rfl

theorem run_between (hij : i ≤ j) (hjk : j ≤ k) :
    d.run (d.between text i j) (slice text j k) = d.between text i k := by
  rw [between, between, ← run_append, slice_append_slice hij hjk]

/-- **Along a part of a text** means at every offset in it. -/
theorem along_slice (hij : i ≤ j) (hjk : j ≤ k) (hk : k ≤ text.length) :
    d.Along P (d.between text i j) (slice text j k) ↔
      ∀ l, j < l → l ≤ k → P (d.between text i l) := by
  rw [along_iff]
  constructor
  · intro h l hjl hlk
    have hne : slice text j l ≠ [] := by
      apply List.ne_nil_of_length_pos
      rw [length_slice (Nat.le_trans hlk hk)]
      omega
    have hl := h _ _ (slice_append_slice (Nat.le_of_lt hjl) hlk).symm hne
    rwa [run_between hij (Nat.le_of_lt hjl)] at hl
  · intro h u v huv hu
    -- the prefix is the part up to the offset where it ends
    have hlength : u.length + v.length = k - j := by
      rw [← List.length_append, ← huv, length_slice hk]
    have hpos := List.length_pos_iff.2 hu
    have hu_eq : u = slice text j (j + u.length) := by
      have hmin : min u.length (k - j) = u.length := by omega
      calc u = (slice text j k).take u.length := by rw [huv, List.take_left]
        _ = (text.drop j).take u.length := by rw [slice, List.take_take, hmin]
        _ = slice text j (j + u.length) := by rw [slice, Nat.add_sub_cancel_left]
    rw [hu_eq, run_between hij (Nat.le_add_right j _)]
    exact h _ (by omega) (by omega)

end Dfa

/-! ### What comes next -/

/-- No part of the text that starts at `i` leads to a tag. -/
def Dfa.Bare (d : Dfa) (text : List Char) (i : Nat) : Prop :=
  ∀ j, i < j → j ≤ text.length → d.tag? (d.between text i j) = none

/-- **What comes next** where a token starts at `i`: the item, and the offset where the token after
it starts. Nothing starts after a failure. -/
inductive Upcoming (d : Dfa) (text : List Char) (i : Nat) :
    Option (Except LexError Token) → Option Nat → Prop
  /-- The token ends at the largest offset with a tag, and that tag names it. -/
  | token {j : Nat} {tag : Tag} :
      i < j → j ≤ text.length → d.tag? (d.between text i j) = some tag →
      (∀ k, j < k → k ≤ text.length → d.tag? (d.between text i k) = none) →
      Upcoming d text i (some (.ok ⟨tag.name, slice text i j⟩)) (some j)
  /-- The text has been scanned. -/
  | done : i = text.length → Upcoming d text i none none
  /-- There is no tag, and `k` is the smallest offset with the sink. -/
  | stuck {k : Nat} :
      d.Bare text i → i < text.length → i ≤ k → k ≤ text.length →
      d.isSink (d.between text i k) = true →
      (∀ j, i ≤ j → j < k → d.isSink (d.between text i j) = false) →
      Upcoming d text i (some (.error ⟨.offset (k - 1), newlines (text.take (k - 1))⟩)) none
  /-- There is no tag, and the sink is not reached. -/
  | ended :
      d.Bare text i → i < text.length →
      (∀ k, i ≤ k → k ≤ text.length → d.isSink (d.between text i k) = false) →
      Upcoming d text i
        (some (.error ⟨.endOfText, newlines (text.take (text.length - 1))⟩)) none

/-- **One thing comes next.** -/
theorem Upcoming.unique (h : Upcoming d text i o next) (h' : Upcoming d text i o' next') :
    o = o' ∧ next = next' := by
  cases h with
  | @token j tag hij hj htag hmax =>
    cases h' with
    | @token j' tag' hij' hj' htag' hmax' =>
      -- after the smaller of two offsets there would be no tag at the larger
      have hjj : j = j' := by
        rcases Nat.lt_trichotomy j j' with hlt | heq | hgt
        · rw [hmax j' hlt hj'] at htag'
          cases htag'
        · exact heq
        · rw [hmax' j hgt hj] at htag
          cases htag
      subst hjj
      obtain rfl : tag = tag' := Option.some.inj (htag.symm.trans htag')
      exact ⟨rfl, rfl⟩
    | done hi => omega
    | stuck hbare | ended hbare =>
      rw [hbare j hij hj] at htag
      cases htag
  | done hi =>
    cases h' with
    | token => omega
    | done => exact ⟨rfl, rfl⟩
    | stuck => omega
    | ended => omega
  | @stuck k hbare hlt hik hk hsink hmin =>
    cases h' with
    | @token j tag hij hj htag =>
      rw [hbare j hij hj] at htag
      cases htag
    | done => omega
    | @stuck k' _ _ hik' _ hsink' hmin' =>
      have hkk : k = k' := by
        rcases Nat.lt_trichotomy k k' with hkk | heq | hkk
        · rw [hmin' k hik hkk] at hsink
          cases hsink
        · exact heq
        · rw [hmin k' hik' hkk] at hsink'
          cases hsink'
      subst hkk
      exact ⟨rfl, rfl⟩
    | ended _ _ hnone =>
      rw [hnone k hik hk] at hsink
      cases hsink
  | ended hbare hlt hnone =>
    cases h' with
    | @token j tag hij hj htag =>
      rw [hbare j hij hj] at htag
      cases htag
    | done => omega
    | @stuck k' _ _ hik' hk' hsink' =>
      rw [hnone k' hik' hk'] at hsink'
      cases hsink'
    | ended => exact ⟨rfl, rfl⟩

/-- What comes next lies further on. -/
theorem Upcoming.lt (h : Upcoming d text i o (some j)) : i < j ∧ j ≤ text.length := by
  cases h with
  | token hij hj => exact ⟨hij, hj⟩

/-- **All that comes** where a token starts at `i`. -/
inductive Scanned (d : Dfa) (text : List Char) : Nat → List (Except LexError Token) → Prop
  | token {i j : Nat} {item : Except LexError Token} {items : List (Except LexError Token)} :
      Upcoming d text i (some item) (some j) → Scanned d text j items →
      Scanned d text i (item :: items)
  | failure {i : Nat} {item : Except LexError Token} :
      Upcoming d text i (some item) none → Scanned d text i [item]
  | done {i : Nat} : Upcoming d text i none none → Scanned d text i []

theorem Scanned.unique (h : Scanned d text i items) (h' : Scanned d text i items') :
    items = items' := by
  induction h generalizing items' with
  | token hnext _ ih =>
    cases h' with
    | token hnext' hrest' =>
      obtain ⟨hitem, hj⟩ := hnext.unique hnext'
      cases hitem
      cases hj
      rw [ih hrest']
    | failure hnext' => cases (hnext.unique hnext').2
    | done hnext' => cases (hnext.unique hnext').2
  | failure hnext =>
    cases h' with
    | token hnext' => cases (hnext.unique hnext').2
    | failure hnext' =>
      cases (hnext.unique hnext').1
      rfl
    | done hnext' => cases (hnext.unique hnext').1
  | done hnext =>
    cases h' with
    | token hnext' => cases (hnext.unique hnext').2
    | failure hnext' => cases (hnext.unique hnext').1
    | done => rfl

/-! ### What the scanner does -/

namespace Scanner

/-- **A scanner at a place** in a text, where the next token starts. -/
def place (d : Dfa) (text : List Char) (i : Nat) : Scanner :=
  ⟨d, i, newlines (text.take i), text.drop i⟩

theorem start_eq_place : start d text = place d text 0 := rfl

theorem advance_place (hij : i ≤ j) : (place d text i).advance (j - i) = place d text j := by
  have hj : i + (j - i) = j := by omega
  have hline : newlines (text.take i) + newlines ((text.drop i).take (j - i)) =
      newlines (text.take j) := by
    rw [← newlines_append, ← take_append_slice hij]
    rfl
  have hrest : (text.drop i).drop (j - i) = text.drop j := by rw [List.drop_drop, hj]
  show Scanner.mk d (i + (j - i)) (newlines (text.take i) +
    newlines ((text.drop i).take (j - i))) ((text.drop i).drop (j - i)) = _
  rw [hline, hrest, hj]
  rfl

/-! ### One step -/

/-- At an offset, what is left has a prefix up to each larger one. -/
theorem exists_offset (h : text.drop i = u ++ v) (hi : i ≤ text.length) :
    ∃ j, i ≤ j ∧ j ≤ text.length ∧ u.length = j - i ∧ u = slice text i j ∧
      v = slice text j text.length := by
  have hlength : text.length - i = u.length + v.length := by
    rw [← List.length_drop, h, List.length_append]
  refine ⟨i + u.length, Nat.le_add_right _ _, by omega, by omega, ?_, ?_⟩
  · rw [slice, h, Nat.add_sub_cancel_left, List.take_left]
  · rw [← drop_eq_slice, ← List.drop_drop, h, List.drop_left]

/-- Where the states on the way are quiet, the sink is met at no offset, the first one included. -/
theorem isSink_of_quiet (hstart : d.isSink d.start = false) (hij : i ≤ j) (hj : j ≤ text.length)
    (h : d.Along d.Quiet d.start (slice text i j)) (hik : i ≤ k) (hkj : k ≤ j) :
    d.isSink (d.between text i k) = false := by
  have hself : d.between text i i = d.start := Dfa.between_self
  rw [← hself, Dfa.along_slice (Nat.le_refl i) hij hj] at h
  rcases Nat.lt_or_eq_of_le hik with hlt | rfl
  · exact (h k hlt hkj).2
  · rwa [hself]

theorem bare_of_untagged (hi : i ≤ text.length)
    (h : d.Along d.Untagged d.start (text.drop i)) : d.Bare text i := by
  have hself : d.between text i i = d.start := Dfa.between_self
  rwa [drop_eq_slice, ← hself, Dfa.along_slice (Nat.le_refl i) hi (Nat.le_refl _)] at h

/-- **A match** is the token that comes next. -/
theorem exists_upcoming_of_found (hd : d.Trapping) (hi : i ≤ text.length)
    (h : d.longest d.start 0 none (text.drop i) = .found m tag) :
    ∃ j, i ≤ j ∧ m = j - i ∧
      Upcoming d text i (some (.ok ⟨tag.name, (text.drop i).take m⟩)) (some j) := by
  obtain ⟨u, v, huv, hu, hm, htag, hv⟩ | ⟨hbest, -⟩ := Dfa.found_of_longest hd h
  · obtain ⟨j, hij, hj, hlength, rfl, rfl⟩ := exists_offset huv hi
    have hpos := List.length_pos_iff.2 hu
    have hmax := (Dfa.along_slice hij hj (Nat.le_refl _)).1 hv
    rw [Nat.zero_add, hlength] at hm
    have htake : (text.drop i).take m = slice text i j := by rw [hm, slice]
    rw [htake]
    exact ⟨j, hij, hm, .token (by omega) hj htag hmax⟩
  · cases hbest

/-- **Getting stuck** is the failure that comes next. -/
theorem upcoming_of_stuck (hd : d.Trapping) (hstart : d.isSink d.start = false)
    (hi : i ≤ text.length) (h : d.longest d.start 0 none (text.drop i) = .stuck m) :
    Upcoming d text i (some (.error ⟨.offset (i + m),
      newlines (text.take i) + newlines ((text.drop i).take m)⟩)) none := by
  obtain ⟨-, u, c, v, huv, hm, hquiet, -, hsink⟩ := Dfa.stuck_of_longest h
  -- the part before the character that leads to the sink, and the part with it
  obtain ⟨j, hij, hj, hlength, rfl, -⟩ := exists_offset huv hi
  have hword : text.drop i = (slice text i j ++ [c]) ++ v := by
    rw [huv, List.append_assoc]
    rfl
  obtain ⟨k, hik, hk, hlength', hword, -⟩ := exists_offset hword hi
  rw [List.length_append, List.length_singleton] at hlength'
  obtain rfl : j = k - 1 := by omega
  have hmin : ∀ l, i ≤ l → l < k → d.isSink (d.between text i l) = false := by
    intro l hil hlk
    exact isSink_of_quiet hstart hij hj hquiet hil (by omega)
  rw [Nat.zero_add, hlength] at hm
  have hoffset : i + m = k - 1 := by omega
  have hline : newlines (text.take i) + newlines ((text.drop i).take m) =
      newlines (text.take (k - 1)) := by
    have htake : (text.drop i).take m = slice text i (k - 1) := by rw [hm, slice]
    rw [htake, ← newlines_append, take_append_slice hij]
  rw [hoffset, hline]
  refine .stuck (bare_of_untagged hi (Dfa.untagged_of_stuck hd h)) (by omega) hik hk ?_ hmin
  rwa [Dfa.between, ← hword]

/-- **Ending with the text**, before the end was reached, is the failure that comes next. -/
theorem upcoming_of_ended (hstart : d.isSink d.start = false) (hi : i < text.length)
    (h : d.longest d.start 0 none (text.drop i) = .ended) :
    Upcoming d text i (some (.error ⟨.endOfText,
      newlines (text.take i) + newlines (text.drop i).dropLast⟩)) none := by
  obtain ⟨-, hquiet⟩ := Dfa.ended_of_longest h
  have hbare : d.Bare text i := bare_of_untagged (Nat.le_of_lt hi) (hquiet.mono fun q hq => hq.1)
  have hline : newlines (text.take i) + newlines (text.drop i).dropLast =
      newlines (text.take (text.length - 1)) := by
    rw [← newlines_append, ← List.dropLast_append_of_ne_nil (drop_ne_nil hi), List.take_append_drop,
      List.dropLast_eq_take]
  rw [hline]
  rw [drop_eq_slice] at hquiet
  refine .ended hbare hi ?_
  intro k hik hk
  exact isSink_of_quiet hstart (Nat.le_of_lt hi) (Nat.le_refl _) hquiet hik hk

theorem next_of_found (h : s.dfa.longest s.dfa.start 0 none s.rest = .found m tag) :
    s.next = (some (.ok ⟨tag.name, s.rest.take m⟩), s.advance m) := by
  simp only [Scanner.next, h]

theorem next_of_stuck (h : s.dfa.longest s.dfa.start 0 none s.rest = .stuck m) :
    s.next =
      (some (.error ⟨.offset (s.offset + m), s.line + newlines (s.rest.take m)⟩), s.stop) := by
  simp only [Scanner.next, h]

theorem next_of_ended (h : s.dfa.longest s.dfa.start 0 none s.rest = .ended)
    (hrest : s.rest ≠ []) :
    s.next = (some (.error ⟨.endOfText, s.line + newlines s.rest.dropLast⟩), s.stop) := by
  simp only [Scanner.next, h, List.isEmpty_iff, hrest, if_false]

/-- At the end of the text nothing moves. -/
theorem next_of_rest_eq_nil (h : s.rest = []) : s.next = (none, s) := by
  have hended : s.dfa.longest s.dfa.start 0 none s.rest = .ended := by
    rw [h]
    rfl
  simp only [Scanner.next, hended]
  rw [h]
  rfl

/-- **The next step of a scanner** at a place, and where it leaves the scanner. -/
theorem upcoming_next (hd : d.Trapping) (hstart : d.isSink d.start = false)
    (hi : i ≤ text.length) :
    ∃ next, Upcoming d text i (place d text i).next.1 next ∧
      (place d text i).next.2 = next.elim (place d text i).stop (place d text) := by
  cases h : d.longest d.start 0 none (text.drop i) with
  | found m tag =>
    obtain ⟨j, hij, rfl, hnext⟩ := exists_upcoming_of_found hd hi h
    rw [next_of_found h]
    exact ⟨some j, hnext, advance_place hij⟩
  | stuck m =>
    rw [next_of_stuck h]
    exact ⟨none, upcoming_of_stuck hd hstart hi h, rfl⟩
  | ended =>
    by_cases hend : i = text.length
    · have hrest : (place d text i).rest = [] := by
        show text.drop i = []
        rw [hend, List.drop_length]
      rw [next_of_rest_eq_nil hrest]
      refine ⟨none, .done hend, ?_⟩
      show place d text i = { place d text i with rest := [] }
      rw [← hrest]
    · have hlt : i < text.length := Nat.lt_of_le_of_ne hi hend
      rw [next_of_ended h (drop_ne_nil hlt)]
      exact ⟨none, upcoming_of_ended hstart hlt h, rfl⟩

/-! ### All steps -/

theorem items_of_next_eq_some (h : s.next = (some item, t)) : s.items = item :: t.items := by
  rw [items]
  split
  · next h' =>
    rw [h] at h'
    cases h'
  · next h' =>
    rw [h] at h'
    cases h'
    rfl

theorem items_of_next_eq_none (h : s.next = (none, t)) : s.items = [] := by
  rw [items]
  split
  · rfl
  · next h' =>
    rw [h] at h'
    cases h'

/-- **The items of a scanner** at a place are what comes from there. -/
theorem scanned_items (hd : d.Trapping) (hstart : d.isSink d.start = false)
    (hi : i ≤ text.length) : Scanned d text i (place d text i).items := by
  -- on the steps of the scanner: a token leaves it at a place, and a failure at the end
  induction hs : place d text i using items.induct generalizing i with
  | case1 s t h =>
    subst hs
    obtain ⟨next, hnext, -⟩ := upcoming_next hd hstart hi
    rw [h] at hnext
    rw [items_of_next_eq_none h]
    cases hnext with
    | done hend => exact .done (.done hend)
  | case2 s item t h ih =>
    subst hs
    obtain ⟨next, hnext, hplace⟩ := upcoming_next hd hstart hi
    rw [h] at hnext hplace
    rw [items_of_next_eq_some h]
    cases next with
    | none =>
      obtain rfl : t = (place d text i).stop := hplace
      rw [items_stop]
      exact .failure hnext
    | some j =>
      obtain rfl : t = place d text j := hplace
      exact .token hnext (ih hnext.lt.2 rfl)

/-- **The result of a call**, counted from the next one on. -/
def call (s : Scanner) : Nat → Option (Except LexError Token)
  | 0 => s.next.1
  | m + 1 => s.next.2.call m

/-- A scanner at its end stays there. -/
theorem call_of_rest_eq_nil (h : s.rest = []) : s.call m = none := by
  induction m with
  | zero => rw [call, next_of_rest_eq_nil h]
  | succ m ih =>
    rw [call, next_of_rest_eq_nil h]
    exact ih

theorem rest_eq_nil_of_next (h : s.next = (none, t)) : s.rest = [] := by
  unfold next at h
  split at h
  · cases h
  · cases h
  · split at h
    · next hempty => exact List.isEmpty_iff.1 hempty
    · cases h

/-- **Calls yield the items**, each once and in order, and nothing ever after. -/
theorem call_eq_getElem? : s.call m = s.items[m]? := by
  induction m generalizing s with
  | zero =>
    rw [call]
    cases h : s.next with
    | mk o t =>
      cases o with
      | none => rw [items_of_next_eq_none h, List.getElem?_nil]
      | some item => rw [items_of_next_eq_some h, List.getElem?_cons_zero]
  | succ m ih =>
    cases h : s.next with
    | mk o t =>
      cases o with
      | none =>
        rw [call_of_rest_eq_nil (rest_eq_nil_of_next h), items_of_next_eq_none h, List.getElem?_nil]
      | some item =>
        rw [items_of_next_eq_some h, List.getElem?_cons_succ, call, h]
        exact ih

end Scanner

/-! ### What follows for a whole scan -/

/-- The items are tokens, which make up the text if they are all there is. A failure comes last, and
it leaves something. -/
theorem Scanned.exists_tokens (h : Scanned d text i items) (hi : i ≤ text.length) :
    ∃ (toks : List Token) (rest : List Char), text.drop i = toks.flatMap Token.lexeme ++ rest ∧
      (∀ tok ∈ toks, tok.lexeme ≠ []) ∧
      (rest = [] ∧ items = toks.map .ok ∨ rest ≠ [] ∧ ∃ e, items = toks.map .ok ++ [.error e]) := by
  induction h with
  | @token i j item items hnext _ ih =>
    cases hnext with
    | @token _ tag hij hj _ _ =>
      obtain ⟨toks, rest, hdrop, hne, hitems⟩ := ih hj
      have hlexeme : slice text i j ≠ [] := by
        apply List.ne_nil_of_length_pos
        rw [length_slice hj]
        omega
      have htext : text.drop i = slice text i j ++ text.drop j := by
        rw [drop_eq_slice, drop_eq_slice, slice_append_slice (Nat.le_of_lt hij) hj]
      refine ⟨⟨tag.name, slice text i j⟩ :: toks, rest, ?_, ?_, ?_⟩
      · rw [htext, hdrop, List.flatMap_cons, List.append_assoc]
      · exact List.forall_mem_cons.2 ⟨hlexeme, hne⟩
      · rcases hitems with ⟨hrest, rfl⟩ | ⟨hrest, e, rfl⟩
        · exact .inl ⟨hrest, rfl⟩
        · exact .inr ⟨hrest, e, rfl⟩
  | @failure i item hnext =>
    cases hnext with
    | stuck _ hlt => exact ⟨[], _, rfl, List.forall_mem_nil _, .inr ⟨drop_ne_nil hlt, _, rfl⟩⟩
    | ended _ hlt => exact ⟨[], _, rfl, List.forall_mem_nil _, .inr ⟨drop_ne_nil hlt, _, rfl⟩⟩
  | done hnext =>
    cases hnext with
    | done hend =>
      refine ⟨[], [], ?_, List.forall_mem_nil _, .inl ⟨rfl, rfl⟩⟩
      rw [hend, List.drop_length]
      rfl

/-- **There are no more items than characters.** -/
theorem Scanned.length_le (h : Scanned d text i items) (hi : i ≤ text.length) :
    items.length ≤ text.length - i := by
  induction h with
  | token hnext _ ih =>
    obtain ⟨hij, hj⟩ := hnext.lt
    have hle := ih hj
    rw [List.length_cons]
    omega
  | failure hnext =>
    cases hnext with
    | stuck _ hlt | ended _ hlt =>
      rw [List.length_singleton]
      omega
  | done => exact Nat.zero_le _

theorem trapping_ofNfa (n : Nfa) : (Dfa.ofNfa n).Trapping :=
  ⟨fun _ => Dfa.step_sink, Dfa.tag?_sink⟩

/-- Something is left at the start: the start itself. -/
theorem isSink_start (hn : n.WellFormed) :
    (Dfa.ofNfa n).isSink (Dfa.ofNfa n).start = false := by
  rw [← Bool.not_eq_true]
  intro hsink
  have hempty : n.statesAfter [] = ∅ := (Dfa.isSink_run hn).1 hsink
  have hmem : n.start ∈ n.statesAfter [] := (Nfa.mem_statesAfter hn).2 .nil
  rw [hempty] at hmem
  exact StateSet.not_mem_empty _ hmem

/-- **Scanning is maximal munch**, with any automaton that the subset construction makes. The items
of a scan are what comes, step by step, from the first offset on. Calls yield these items and then
nothing, however often the scanner is called; there are no more items than characters. They are
tokens, none of which is empty, and a failure only if these leave a part of the text. -/
theorem scan_munches {rs : List Regex} (h : Nfa.Built rs n) (text : List Char) :
    (∀ items, Scanned (Dfa.ofNfa n) text 0 items ↔
      items = (Scanner.start (Dfa.ofNfa n) text).items) ∧
    (∀ m, (Scanner.start (Dfa.ofNfa n) text).call m =
      (Scanner.start (Dfa.ofNfa n) text).items[m]?) ∧
    (Scanner.start (Dfa.ofNfa n) text).items.length ≤ text.length ∧
    ∃ (toks : List Token) (rest : List Char), text = toks.flatMap Token.lexeme ++ rest ∧
      (∀ tok ∈ toks, tok.lexeme ≠ []) ∧
      (rest = [] ∧ (Scanner.start (Dfa.ofNfa n) text).items = toks.map .ok ∨
        rest ≠ [] ∧ ∃ e, (Scanner.start (Dfa.ofNfa n) text).items =
          toks.map .ok ++ [.error e]) := by
  have hn : n.WellFormed := (Nfa.rooted_of_built h).toWellFormed
  have hscanned : Scanned (Dfa.ofNfa n) text 0 (Scanner.start (Dfa.ofNfa n) text).items :=
    Scanner.scanned_items (trapping_ofNfa n) (isSink_start hn) (Nat.zero_le _)
  refine ⟨fun items => ?_, fun m => Scanner.call_eq_getElem?, ?_, ?_⟩
  · constructor
    · exact fun hitems => hitems.unique hscanned
    · rintro rfl
      exact hscanned
  · exact hscanned.length_le (Nat.zero_le _)
  · exact hscanned.exists_tokens (Nat.zero_le _)

/-- After the tag of a newline an untagged part leads on, through `a` to `b`. Here it is left at
the `c`, so the scan goes back to the end of the newline, and gets stuck from there. -/
theorem scan_munches_rewind :
    ∃ n, Nfa.Built [.lit '\n', .concat (.lit '\n') (.concat (.lit 'a') (.lit 'b'))] n ∧
      Scanned (Dfa.ofNfa n) ['\n', '\n', 'a', 'c'] 0
        [.ok ⟨"N", ['\n']⟩, .ok ⟨"N", ['\n']⟩, .error ⟨.offset 2, 2⟩] ∧
      (Scanner.start (Dfa.ofNfa n) ['\n', '\n', 'a', 'c']).call 3 = none := by
  have hbuilt := Nfa.built_append_tagFinal (.lit '\n')
    (.concat (.lit '\n') (.concat (.lit 'a') (.lit 'b'))) ⟨"N", 0⟩
  obtain ⟨hscanned, hcall, -⟩ := scan_munches hbuilt ['\n', '\n', 'a', 'c']
  refine ⟨_, hbuilt, (hscanned _).2 ?_, (hcall 3).trans ?_⟩
  · cbv
  · cbv

end LexerGen
