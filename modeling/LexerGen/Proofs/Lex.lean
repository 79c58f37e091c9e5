import LexerGen.Proofs.Scan

/-!
# What a lexer does

The two results about a compiled lexer speak of its definitions and of texts only. Each definition
has a rule, its name with the tree that its pattern denotes, and the rules have languages.

* A scan yields the tokenization of the text, and a failure after it unless that reaches the end
  of the text (`Lexer.scan_tokenizes`).
* A failure says where the text stops being the beginning of something that could be matched,
  counted from the end of the last token (`Lexer.scan_failure`).

The second depends on the sink being met exactly where the text cannot be continued. That patterns
have no void parts is needed for it: an automaton with dead ends would read on through them.
-/

namespace LexerGen

variable {rules : List (String × Regex)} {tokens : List (String × String)} {lexer : Lexer}
  {text u v rest : List Char} {toks toks' : List Token} {offset line s p q : Nat}
  {e e' : LexError} {more : List (Except LexError Token)}

namespace Scanner

/-! ### Items and tokens -/

theorem collect_tokens (toks : List Token) : collect (toks.map .ok) = .ok toks := by
  induction toks with
  | nil => rfl
  | cons tok toks ih => rw [List.map_cons, collect, ih]; rfl

theorem collect_failure (toks : List Token) :
    collect (toks.map .ok ++ .error e :: more) = .error e := by
  induction toks with
  | nil => rfl
  | cons tok toks ih => rw [List.map_cons, List.cons_append, collect, ih]; rfl

/-- The tokens before a failure, the failure and what follows are determined by the items. -/
theorem eq_of_items_eq
    (h : toks.map .ok ++ .error e :: more = toks'.map .ok ++ [.error e']) :
    toks = toks' ∧ e = e' ∧ more = [] := by
  induction toks generalizing toks' with
  | nil =>
    cases toks' with
    | nil =>
      obtain ⟨he, hmore⟩ := List.cons.inj h
      exact ⟨rfl, Except.error.inj he, hmore⟩
    | cons tok toks' => cases (List.cons.inj h).1
  | cons tok toks ih =>
    cases toks' with
    | nil => cases (List.cons.inj h).1
    | cons tok' toks' =>
      obtain ⟨htok, hrest⟩ := List.cons.inj h
      obtain ⟨rfl, he, hmore⟩ := ih hrest
      rw [Except.ok.inj htok]
      exact ⟨rfl, he, hmore⟩

theorem failure_not_mem_tokens (toks : List Token) :
    toks.map .ok ++ .error e :: more ≠ toks'.map .ok := by
  intro h
  have hmem : Except.error e ∈ toks'.map Except.ok := by
    rw [← h]
    exact List.mem_append_right _ List.mem_cons_self
  obtain ⟨tok, -, htok⟩ := List.mem_map.1 hmem
  cases htok

end Scanner

namespace Lexer

/-- **The items of a scan** are the tokens of the text, and a failure where they end before the
text does. -/
theorem items_scan (hd : Recognizes lexer.dfa rules) (text : List Char) :
    ∃ toks rest, Tokenizes rules text toks rest ∧
      (rest = [] ∧ (lexer.scan text).items = toks.map .ok ∨
        ∃ e, (lexer.scan text).items = toks.map .ok ++ [.error e] ∧
          FailsAt rules (toks.flatMap Token.lexeme).length
            (newlines (toks.flatMap Token.lexeme)) rest e) := by
  have hscan : Recognizes (lexer.scan text).dfa rules := hd
  obtain ⟨toks, rest, htoks, hitems⟩ := Scanner.tokenizes_items hscan
  -- a scan starts with nothing counted
  have hoffset : (lexer.scan text).offset + (toks.flatMap Token.lexeme).length =
      (toks.flatMap Token.lexeme).length := Nat.zero_add _
  have hline : (lexer.scan text).line + newlines (toks.flatMap Token.lexeme) =
      newlines (toks.flatMap Token.lexeme) := Nat.zero_add _
  rw [hoffset, hline] at hitems
  exact ⟨toks, rest, htoks, hitems⟩

/-- A text that its tokens do not reach the end of has a failure after them. -/
theorem exists_failure_of_tokenizes (hd : Recognizes lexer.dfa rules)
    (h : Tokenizes rules text toks rest) (hne : rest ≠ []) :
    ∃ e, (lexer.scan text).items = toks.map .ok ++ [.error e] := by
  obtain ⟨toks', rest', htoks', hitems⟩ := items_scan hd text
  obtain ⟨rfl, rfl⟩ := htoks'.unique h
  rcases hitems with ⟨hrest, -⟩ | ⟨e, hitems, -⟩
  · exact absurd hrest hne
  · exact ⟨e, hitems⟩

/-! ### Greedy tokenization -/

/-- **A lexer yields the greedy tokenization.** The rules of its definitions fix the tokens of each
text and what is left of it. If nothing is left, the items are the tokens, and so is the result. If
something is left, the items are the tokens and a failure, and the result is that failure. -/
theorem scan_tokenizes (h : compile tokens = .ok lexer) :
    ∃ rules, List.Forall₂ ReadsAs tokens rules ∧ ∀ text, ∃ toks rest,
      (∀ toks' rest', Tokenizes rules text toks' rest' ↔ toks' = toks ∧ rest' = rest) ∧
      (rest = [] ∧ (lexer.scan text).items = toks.map .ok ∧ lexer.lex text = .ok toks ∨
        rest ≠ [] ∧ ∃ e, (lexer.scan text).items = toks.map .ok ++ [.error e] ∧
          lexer.lex text = .error e) := by
  obtain ⟨rules, hrules, hd⟩ := recognizes_of_compile h
  refine ⟨rules, hrules, fun text => ?_⟩
  obtain ⟨toks, rest, htoks, hitems⟩ := items_scan hd text
  refine ⟨toks, rest, fun toks' rest' => ?_, ?_⟩
  · refine ⟨?_, ?_⟩
    · exact fun htoks' => htoks'.unique htoks
    · rintro ⟨rfl, rfl⟩
      exact htoks
  · -- the result is read off the items
    rcases hitems with ⟨hrest, hitems⟩ | ⟨e, hitems, hfail⟩
    · have hlex : lexer.lex text = .ok toks := by
        rw [lex, hitems, Scanner.collect_tokens]
      exact .inl ⟨hrest, hitems, hlex⟩
    · have hlex : lexer.lex text = .error e := by
        rw [lex, hitems, Scanner.collect_failure]
      exact .inr ⟨hfail.ne_nil, e, hitems, hlex⟩

/-- Two definitions that overlap, and a text that the longer match of the second covers. -/
theorem scan_tokenizes_overlap :
    ∃ lexer, compile [("KEY", "a"), ("ID", "a+")] = .ok lexer ∧
      lexer.lex ['a', 'a'] = .ok [⟨"ID", ['a', 'a']⟩] := by
  have hkey : Pattern.parse "a".toList = .ok (.lit 'a') := by cbv
  have hid : Pattern.parse "a+".toList = .ok (.plus (.lit 'a')) := by cbv
  have hrules : List.Forall₂ ReadsAs [("KEY", "a"), ("ID", "a+")]
      [("KEY", .lit 'a'), ("ID", .plus (.lit 'a'))] :=
    .cons ⟨rfl, hkey⟩ (.cons ⟨rfl, hid⟩ .nil)
  have hplus : (Regex.plus (.lit 'a')).Matches (['a'] ++ (['a'] ++ [])) :=
    .plus .lit (.starAppend .lit .starNil)
  have htoks : Tokenizes [("KEY", .lit 'a'), ("ID", .plus (.lit 'a'))] (['a', 'a'] ++ [])
      [⟨"ID", ['a', 'a']⟩] [] := by
    refine .token ⟨List.cons_ne_nil _ _, ⟨_, .tail _ (.head _), hplus⟩, fun u' v' heq _ => ?_⟩
      (.later (fun h => ?_) (.here hplus)) (.stop unmatched_nil)
    · -- no prefix is longer than the text
      have hlength : ['a', 'a'].length = (u' ++ v').length := congrArg List.length heq
      rw [hlength, List.length_append]
      exact Nat.le_add_right _ _
    · cases Regex.matches_lit.1 h
  obtain ⟨lexer, hlexer⟩ := exists_compile hrules (List.cons_ne_nil _ _)
  obtain ⟨rules, hrules', hscan⟩ := scan_tokenizes hlexer
  obtain rfl := rules_unique hrules hrules'
  obtain ⟨toks, rest, hunique, hresult⟩ := hscan ['a', 'a']
  obtain ⟨rfl, rfl⟩ := (hunique _ _).1 htoks
  rcases hresult with ⟨-, -, hlex⟩ | ⟨hne, -⟩
  · exact ⟨lexer, hlexer, hlex⟩
  · exact absurd rfl hne

end Lexer

/-! ### Where a failure points -/

/-- **The part of a text** from one offset up to, but not including, another. -/
def slice (text : List Char) (i j : Nat) : List Char := (text.drop i).take (j - i)

/-- **The first offset at which the text is dead**: counted from `s`, the text up to and including
the character there cannot be continued, though it could be before. -/
structure FirstDead (rules : List (String × Regex)) (text : List Char) (s p : Nat) : Prop where
  le : s ≤ p
  lt : p < text.length
  dead : ¬Viable rules (slice text s (p + 1))
  viable : ∀ q, s ≤ q → q < p → Viable rules (slice text s (q + 1))

theorem FirstDead.unique (h : FirstDead rules text s p) (h' : FirstDead rules text s q) :
    p = q := by
  -- at the smaller of two different offsets the text would be both dead and viable
  rcases Nat.lt_trichotomy p q with hlt | heq | hgt
  · exact absurd (h'.viable p h.le hlt) h.dead
  · exact heq
  · exact absurd (h.viable q h'.le hgt) h'.dead

/-- A part of what can be continued can be continued. -/
theorem Viable.slice (h : Viable rules (text.drop s)) (j : Nat) :
    Viable rules (slice text s j) := by
  rw [← List.take_append_drop (j - s) (text.drop s)] at h
  exact h.of_append

/-- **Where reading gets stuck** the text is dead for the first time. -/
theorem firstDead_of_stuck {c : Char} (hu : Viable rules u) (hc : ¬Viable rules (u ++ [c])) :
    FirstDead rules (text ++ (u ++ c :: v)) text.length (text.length + u.length) := by
  have hslice : ∀ k, LexerGen.slice (text ++ (u ++ c :: v)) text.length (text.length + k) =
      (u ++ c :: v).take k := fun k => by
    rw [LexerGen.slice, List.drop_left, Nat.add_sub_cancel_left]
  refine ⟨Nat.le_add_right _ _, ?_, ?_, fun q hq hlt => ?_⟩
  · simp only [List.length_append, List.length_cons]
    omega
  · have htake : (u ++ c :: v).take (u.length + 1) = u ++ [c] := by
      rw [List.take_length_add_append]
      rfl
    rw [Nat.add_assoc, hslice, htake]
    exact hc
  · -- a shorter part is a part of what was read before
    obtain ⟨k, rfl⟩ := Nat.exists_eq_add_of_le hq
    have hk : k + 1 ≤ u.length := Nat.lt_of_add_lt_add_left hlt
    rw [Nat.add_assoc, hslice, List.take_append_of_le_length hk]
    rw [← List.take_append_drop (k + 1) u] at hu
    exact hu.of_append

/-- **A failure at a character** is at the first at which the text is dead. -/
theorem FailsAt.position_eq_offset (h : FailsAt rules text.length line rest e) :
    e.position = .offset p ↔ FirstDead rules (text ++ rest) text.length p := by
  cases h with
  | @stuck u v c _ hrest hu hc =>
    have hfirst : FirstDead rules (text ++ rest) text.length (text.length + u.length) := by
      rw [hrest]
      exact firstDead_of_stuck hu hc
    refine ⟨?_, ?_⟩
    · intro hp
      rwa [← Position.offset.inj hp]
    · exact fun hp => congrArg Position.offset (hfirst.unique hp)
  | ended _ _ hviable =>
    -- all that is left can be continued, so the text is dead nowhere
    refine iff_of_false (fun hp => by cases hp) fun hp => hp.dead (Viable.slice ?_ _)
    rwa [List.drop_left]

theorem FailsAt.of_offset (h : FailsAt rules text.length (newlines text) rest e)
    (hp : e.position = .offset p) :
    Viable rules (slice (text ++ rest) text.length p) ∧
      e.line = newlines ((text ++ rest).take p) := by
  cases h with
  | @stuck u v c _ hrest hu hc =>
    obtain rfl := Position.offset.inj hp
    have hslice : slice (text ++ rest) text.length (text.length + u.length) = u := by
      rw [slice, List.drop_left, Nat.add_sub_cancel_left, hrest, List.take_left]
    have htake : (text ++ rest).take (text.length + u.length) = text ++ u := by
      rw [List.take_length_add_append, hrest, List.take_left]
    rw [hslice, htake, Scanner.newlines_append]
    exact ⟨hu, rfl⟩
  | ended => cases hp

/-- **A failure at the end** is one of a text that could be continued as it stands. -/
theorem FailsAt.position_eq_end (h : FailsAt rules offset line rest e) :
    e.position = .endOfText ↔ rest ≠ [] ∧ Viable rules rest ∧ Unmatched rules rest := by
  cases h with
  | @stuck u v c _ hrest _ hc =>
    -- what could be continued as a whole would not have been dead at the character
    refine iff_of_false (fun hp => by cases hp) fun ⟨_, hviable, _⟩ => hc ?_
    rw [hrest, ← List.singleton_append, ← List.append_assoc] at hviable
    exact hviable.of_append
  | ended hunmatched hne hviable => exact iff_of_true rfl ⟨hne, hviable, hunmatched⟩

theorem FailsAt.of_end (h : FailsAt rules offset (newlines text) rest e)
    (hp : e.position = .endOfText) : e.line = newlines (text ++ rest).dropLast := by
  cases h with
  | stuck => cases hp
  | ended _ hne => rw [List.dropLast_append_of_ne_nil hne, Scanner.newlines_append]

/-- **Failures are precise.** Let `s` be the end of the last token. The failure is at the first
offset at which the text after `s` is dead, if there is one. Otherwise it is at the end of the text:
then all that is left could be continued, though no part of it at its beginning is matched. The line
counts the newlines before the offset, or those of the text without its last character. -/
theorem Lexer.scan_failure (h : compile tokens = .ok lexer) :
    ∃ rules, List.Forall₂ ReadsAs tokens rules ∧
      ∀ (text : List Char) (toks : List Token) (e : LexError)
        (more : List (Except LexError Token)) (s : Nat),
        (lexer.scan text).items = toks.map .ok ++ .error e :: more →
        s = (toks.flatMap Token.lexeme).length →
        more = [] ∧ text.take s = toks.flatMap Token.lexeme ∧
        (∀ p, e.position = .offset p ↔ FirstDead rules text s p) ∧
        (∀ p, e.position = .offset p →
          Viable rules (slice text s p) ∧ e.line = (text.take p).count '\n') ∧
        (e.position = .endOfText ↔
          text.drop s ≠ [] ∧ Viable rules (text.drop s) ∧ Unmatched rules (text.drop s)) ∧
        (e.position = .endOfText → e.line = text.dropLast.count '\n') := by
  obtain ⟨rules, hrules, hd⟩ := recognizes_of_compile h
  refine ⟨rules, hrules, fun text toks e more s hitems hs => ?_⟩
  subst hs
  obtain ⟨toks', rest, htoks, ⟨-, hitems'⟩ | ⟨e', hitems', hfail⟩⟩ := items_scan hd text
  · -- without a failure all items are tokens
    rw [hitems'] at hitems
    exact absurd hitems.symm (Scanner.failure_not_mem_tokens toks)
  · -- the failure is the one of the scan, after the tokens of the text
    rw [hitems'] at hitems
    obtain ⟨rfl, rfl, rfl⟩ := Scanner.eq_of_items_eq hitems.symm
    have htext : text = toks.flatMap Token.lexeme ++ rest := htoks.text_eq
    have hdrop : text.drop (toks.flatMap Token.lexeme).length = rest := by
      rw [htext, List.drop_left]
    refine ⟨rfl, ?_, fun p => ?_, fun p hp => ?_, ?_, fun hp => ?_⟩
    · rw [htext, List.take_left]
    · rw [htext]
      exact hfail.position_eq_offset
    · rw [htext]
      exact hfail.of_offset hp
    · rw [hdrop]
      exact hfail.position_eq_end
    · rw [htext]
      exact hfail.of_end hp

/-- After one token a second one begins. It breaks off at a character that cannot follow, or at the
end of the text. -/
theorem Lexer.scan_failure_after_token :
    ∃ lexer, compile [("AB", "a\nb")] = .ok lexer ∧
      (lexer.scan ['a', '\n', 'b', 'a', '\n', 'c']).items =
        [.ok ⟨"AB", ['a', '\n', 'b']⟩, .error ⟨.offset 5, 2⟩] ∧
      (lexer.scan ['a', '\n', 'b', 'a', '\n']).items =
        [.ok ⟨"AB", ['a', '\n', 'b']⟩, .error ⟨.endOfText, 1⟩] := by
  have hparse : Pattern.parse "a\nb".toList =
      .ok (.concat (.lit 'a') (.concat (.quoted '\n') (.lit 'b'))) := by cbv
  have hread : List.Forall₂ ReadsAs [("AB", "a\nb")]
      [("AB", .concat (.lit 'a') (.concat (.quoted '\n') (.lit 'b')))] := .cons ⟨rfl, hparse⟩ .nil
  have hmatches : (Regex.concat (.lit 'a') (.concat (.quoted '\n') (.lit 'b'))).Matches
      ['a', '\n', 'b'] := .concat .lit (.concat .quoted .lit)
  obtain ⟨lexer, hlexer⟩ := exists_compile hread (List.cons_ne_nil _ _)
  obtain ⟨rules, hrules, hfailure⟩ := scan_failure hlexer
  obtain ⟨rules', hrules', hd⟩ := recognizes_of_compile hlexer
  obtain rfl := rules_unique hrules hrules'
  have hrule := rules_unique hrules hread
  have hfirst : FirstMatch rules ['a', '\n', 'b'] "AB" := hrule ▸ .here hmatches
  -- nothing but the one word is matched
  have hword : ∀ w, Matched rules w → w = ['a', '\n', 'b'] := by
    rintro w ⟨p, hp, hw⟩
    rw [hrule] at hp
    obtain rfl := List.mem_singleton.1 hp
    obtain ⟨u, v, rfl, hu, hv⟩ := Regex.matches_concat.1 hw
    obtain ⟨v, v', rfl, hv, hv'⟩ := Regex.matches_concat.1 hv
    rw [Regex.matches_lit.1 hu, Regex.matches_quoted.1 hv, Regex.matches_lit.1 hv']
    rfl
  have hviable : ∀ u v, u ++ v = ['a', '\n', 'b'] → Viable rules u := fun u v huv =>
    ⟨v, huv ▸ hfirst.matched⟩
  -- a token is followed by a failure if what comes next does not begin with the word
  have hitems : ∀ rest, rest ≠ [] → ¬['a', '\n', 'b'] <+: rest →
      ∃ e, (lexer.scan (['a', '\n', 'b'] ++ rest)).items =
        [.ok ⟨"AB", ['a', '\n', 'b']⟩, .error e] := by
    intro rest hne hbreaks
    have htoks : Tokenizes rules (['a', '\n', 'b'] ++ rest) [⟨"AB", ['a', '\n', 'b']⟩] rest := by
      refine .token ⟨List.cons_ne_nil _ _, hfirst.matched, fun u' v' _ hu' => ?_⟩ hfirst
        (.stop fun u v huv _ hu => ?_)
      · exact Nat.le_of_eq (congrArg List.length (hword u' hu'))
      · exact hbreaks (hword u hu ▸ ⟨v, huv.symm⟩)
    exact exists_failure_of_tokenizes hd htoks hne
  refine ⟨lexer, hlexer, ?_, ?_⟩
  · have hdead : FirstDead rules ['a', '\n', 'b', 'a', '\n', 'c'] 3 5 := by
      refine ⟨by decide, by decide, ?_, fun q hq hlt => ?_⟩
      · rintro ⟨v, hv⟩
        cases hword _ hv
      · obtain rfl | rfl : q = 3 ∨ q = 4 := by omega
        · exact hviable _ ['\n', 'b'] rfl
        · exact hviable _ ['b'] rfl
    obtain ⟨⟨position, line⟩, hscan⟩ := hitems ['a', '\n', 'c'] (by decide) (by decide)
    obtain ⟨-, -, hoffset, hline, -⟩ := hfailure _ [_] _ [] 3 hscan rfl
    obtain rfl : position = .offset 5 := (hoffset 5).2 hdead
    obtain rfl : line = 2 := (hline 5 rfl).2
    exact hscan
  · have hunmatched : Unmatched rules ['a', '\n'] := fun u v huv _ hu => by
      rw [hword u hu] at huv
      cases huv
    obtain ⟨⟨position, line⟩, hscan⟩ := hitems ['a', '\n'] (by decide) (by decide)
    obtain ⟨-, -, -, -, hend, hline⟩ := hfailure _ [_] _ [] 3 hscan rfl
    obtain rfl : position = .endOfText :=
      hend.2 ⟨List.cons_ne_nil _ _, hviable _ ['b'] rfl, hunmatched⟩
    obtain rfl : line = 1 := hline rfl
    exact hscan

end LexerGen
