import LexerGen.Proofs.Munch

/-!
# Splitting a text where a token ends

A scanner carries nothing from one token to the next but its offset and its line. So a text may be
split where a token ends: a scan of the first part yields the tokens up to there, and a scan of the
second part yields all that comes after them, except that its failures lie further on in the whole
(`scan_splits`).

The two parts differ in what they need. The scan of the second part takes the same steps, from a
scanner that has been moved (`Scanner.next_shift`). The scan of the first part ends sooner than the
other, which has read past the boundary and come back. Here maximal munch is the reason: a tag with
no tag at any larger offset of the text has none at a larger offset of its beginning
(`Upcoming.take`).
-/

namespace LexerGen

variable {d : Dfa} {n : Nfa} {text : List Char} {i j k : Nat} {tok : Token} {toks : List Token}
  {items more : List (Except LexError Token)} {s : Scanner}

/-! ### Behind a text -/

/-- A position in the text that follows `u`, counted from the beginning of `u`. -/
def Position.shift (u : List Char) : Position → Position
  | offset m => offset (u.length + m)
  | endOfText => endOfText

/-- **A failure in the text that follows `u`**, as the scan of the whole reports it. -/
def LexError.shift (u : List Char) (e : LexError) : LexError :=
  ⟨e.position.shift u, newlines u + e.line⟩

namespace Scanner

/-- The scanner with `u` before all that it has read. -/
def shift (u : List Char) (s : Scanner) : Scanner :=
  { s with
    offset := u.length + s.offset
    line := newlines u + s.line }

theorem advance_shift (u : List Char) (m : Nat) :
    (s.shift u).advance m = (s.advance m).shift u := by
  unfold advance shift
  simp only [Nat.add_assoc]

/-- **A step behind `u`** is a step. -/
theorem next_shift (u : List Char) :
    (s.shift u).next =
      (s.next.1.map (Except.mapError (LexError.shift u)), s.next.2.shift u) := by
  have hrest : (s.shift u).rest = s.rest := rfl
  cases h : s.dfa.longest s.dfa.start 0 none s.rest with
  | found m tag =>
    have h' : (s.shift u).dfa.longest (s.shift u).dfa.start 0 none (s.shift u).rest =
      .found m tag := h
    rw [next_of_found h, next_of_found h', advance_shift]
    rfl
  | stuck m =>
    have h' : (s.shift u).dfa.longest (s.shift u).dfa.start 0 none (s.shift u).rest =
      .stuck m := h
    rw [next_of_stuck h, next_of_stuck h', hrest]
    simp only [Option.map_some, Except.mapError, LexError.shift, Position.shift, shift, stop,
      Nat.add_assoc]
  | ended =>
    by_cases hnil : s.rest = []
    · rw [next_of_rest_eq_nil hnil, next_of_rest_eq_nil (s := s.shift u) hnil]
      rfl
    · have h' : (s.shift u).dfa.longest (s.shift u).dfa.start 0 none (s.shift u).rest =
        .ended := h
      rw [next_of_ended h hnil, next_of_ended h' hnil, hrest]
      simp only [Option.map_some, Except.mapError, LexError.shift, Position.shift, shift, stop,
        Nat.add_assoc]

/-- **All steps behind `u`.** -/
theorem items_shift (u : List Char) (s : Scanner) :
    (s.shift u).items = s.items.map (Except.mapError (LexError.shift u)) := by
  induction s using items.induct with
  | case1 s t h =>
    have hnext := next_shift (s := s) u
    rw [h] at hnext
    rw [items_of_next_eq_none h, items_of_next_eq_none hnext]
    rfl
  | case2 s item t h ih =>
    have hnext := next_shift (s := s) u
    rw [h] at hnext
    rw [items_of_next_eq_some h, items_of_next_eq_some hnext, List.map_cons, ih]

/-- A scanner at a place is one that starts with what is left, behind the part before it. -/
theorem place_eq_shift (hi : i ≤ text.length) :
    place d text i = (start d (text.drop i)).shift (text.take i) := by
  have hlength : (text.take i).length = i := by
    rw [List.length_take]
    exact Nat.min_eq_left hi
  unfold place start shift
  simp only [hlength, Nat.add_zero]

end Scanner

/-! ### The beginning of a text -/

theorem slice_take (hjk : j ≤ k) : slice (text.take k) i j = slice text i j := by
  have hmin : min (j - i) (k - i) = j - i := by omega
  rw [slice, slice, List.drop_take, List.take_take, hmin]

/-- **A token that ends in the beginning of a text** comes there as well. -/
theorem Upcoming.take (h : Upcoming d text i (some (.ok tok)) (some j)) (hjk : j ≤ k)
    (hk : k ≤ text.length) : Upcoming d (text.take k) i (some (.ok tok)) (some j) := by
  have hlength : (text.take k).length = k := by
    rw [List.length_take]
    exact Nat.min_eq_left hk
  have hbetween : ∀ l ≤ k, d.between (text.take k) i l = d.between text i l := by
    intro l hl
    rw [Dfa.between, slice_take hl]
    rfl
  cases h with
  | @token _ tag hij hj htag hmax =>
    rw [← slice_take hjk]
    refine .token hij (by omega) ?_ ?_
    · rwa [hbetween j hjk]
    · intro l hjl hl
      rw [hlength] at hl
      rw [hbetween l hl]
      exact hmax l hjl (Nat.le_trans hl hk)

theorem Scanned.exists_of_cons (h : Scanned d text i (.ok tok :: items)) :
    ∃ j, Upcoming d text i (some (.ok tok)) (some j) ∧ Scanned d text j items := by
  cases h with
  | token hnext hscanned => exact ⟨_, hnext, hscanned⟩
  | failure hnext => cases hnext

/-- **Where tokens end** in a text, the text up to there has these tokens, and the others come from
there on. -/
theorem Scanned.exists_boundary (h : Scanned d text i (toks.map .ok ++ more))
    (hi : i ≤ text.length) :
    ∃ k, i ≤ k ∧ k ≤ text.length ∧ slice text i k = toks.flatMap Token.lexeme ∧
      Scanned d (text.take k) i (toks.map .ok) ∧ Scanned d text k more := by
  induction toks generalizing i with
  | nil =>
    refine ⟨i, Nat.le_refl i, hi, ?_, ?_, h⟩
    · rw [slice, Nat.sub_self]
      rfl
    · refine .done (.done ?_)
      rw [List.length_take]
      exact (Nat.min_eq_left hi).symm
  | cons tok toks ih =>
    obtain ⟨j, hnext, hscanned⟩ := h.exists_of_cons
    obtain ⟨hij, hj⟩ := hnext.lt
    obtain ⟨k, hjk, hk, hslice, hbefore, hafter⟩ := ih hscanned hj
    have hlexeme : tok.lexeme = slice text i j := by
      cases hnext
      rfl
    refine ⟨k, by omega, hk, ?_, .token (hnext.take hjk hk) hbefore, hafter⟩
    rw [List.flatMap_cons, hlexeme, ← hslice, slice_append_slice (Nat.le_of_lt hij) hjk]

/-- **A text may be split where a token ends**, with any automaton that the subset construction
makes. A scan of the part before it yields the tokens that a scan of the text yields up to there,
and no failure. What the scan of the text yields after them is what a scan of the second part
yields, its failures shifted by the part before. -/
theorem scan_splits {rs : List Regex} (h : Nfa.Built rs n) (toks : List Token)
    (hitems : (Scanner.start (Dfa.ofNfa n) text).items = toks.map .ok ++ more) :
    ∃ u v, u = toks.flatMap Token.lexeme ∧ text = u ++ v ∧
      (Scanner.start (Dfa.ofNfa n) u).items = toks.map .ok ∧
      more = (Scanner.start (Dfa.ofNfa n) v).items.map (Except.mapError (LexError.shift u)) := by
  have hn : n.WellFormed := (Nfa.rooted_of_built h).toWellFormed
  have hscanned : ∀ text i, i ≤ text.length →
      Scanned (Dfa.ofNfa n) text i (Scanner.place (Dfa.ofNfa n) text i).items :=
    fun _ _ => Scanner.scanned_items (trapping_ofNfa n) (isSink_start hn)
  have htext := hscanned text 0 (Nat.zero_le _)
  rw [← Scanner.start_eq_place, hitems] at htext
  obtain ⟨k, -, hk, hslice, hbefore, hafter⟩ := htext.exists_boundary (Nat.zero_le _)
  refine ⟨text.take k, text.drop k, hslice, (List.take_append_drop k text).symm, ?_, ?_⟩
  · exact (hscanned (text.take k) 0 (Nat.zero_le _)).unique hbefore
  · rw [← Scanner.items_shift, ← Scanner.place_eq_shift hk]
    exact hafter.unique (hscanned text k hk)

/-- At the second newline the scan of the whole reads on, through `a`, and comes back. The text may
be split before that newline; the failure behind it is then one character and one line nearer. -/
theorem scan_splits_lookahead :
    ∃ n, Nfa.Built [.lit '\n', .concat (.lit '\n') (.concat (.lit 'a') (.lit 'b'))] n ∧
      (Scanner.start (Dfa.ofNfa n) ['\n', '\n', 'a', 'c']).items =
        [.ok ⟨"N", ['\n']⟩, .ok ⟨"N", ['\n']⟩, .error ⟨.offset 2, 2⟩] ∧
      ∃ u v, u = ['\n'] ∧ ['\n', '\n', 'a', 'c'] = u ++ v ∧
        (Scanner.start (Dfa.ofNfa n) u).items = [.ok ⟨"N", ['\n']⟩] ∧
        [.ok ⟨"N", ['\n']⟩, .error ⟨.offset 2, 2⟩] =
          (Scanner.start (Dfa.ofNfa n) v).items.map (Except.mapError (LexError.shift u)) := by
  have hbuilt := Nfa.built_append_tagFinal (.lit '\n')
    (.concat (.lit '\n') (.concat (.lit 'a') (.lit 'b'))) ⟨"N", 0⟩
  have hitems : (Scanner.start (Dfa.ofNfa (((Nfa.ofRegex (.lit '\n')).tagFinal ⟨"N", 0⟩).append
      (Nfa.ofRegex (.concat (.lit '\n') (.concat (.lit 'a') (.lit 'b'))))))
        ['\n', '\n', 'a', 'c']).items =
      [.ok ⟨"N", ['\n']⟩, .ok ⟨"N", ['\n']⟩, .error ⟨.offset 2, 2⟩] := by cbv
  exact ⟨_, hbuilt, hitems, scan_splits hbuilt [⟨"N", ['\n']⟩] hitems⟩

end LexerGen
