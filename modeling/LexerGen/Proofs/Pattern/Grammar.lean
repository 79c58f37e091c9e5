import LexerGen.Proofs.Pattern.Stacks
import LexerGen.Proofs.Pattern.Symbols
import Mathlib.Data.List.Basic

/-!
# Reading agrees with the grammar

A text is read in two steps, it is cut into symbols and the yard puts these together, while the
grammar speaks about the characters alone. The two meet in the middle: a text is derived exactly if
it can be cut into the symbols of a phrase (`derives_iff_exists_cut`). One direction follows the
derivation, and cuts the text where its parts meet; the other follows the phrase, and each symbol of
it brings its characters along. What follows a text matters on both sides, since it may turn a
letter into the start of a longer symbol, so both inductions carry an arbitrary rest.

Hence a pattern is read exactly if the grammar derives it, and as the tree that the grammar gives it
(`parse_eq_ok_iff_derives`). In particular the grammar gives no pattern two trees.
-/

namespace LexerGen.Pattern

open Regex

variable {level : Level} {r : Regex} {text rest : List Char} {offset : Nat} {ss : List Symbol}
  {found : List (Symbol × Nat)} {first last c : Char}

/-! ### Classes -/

theorem isClass_iff : isClass first last = true ↔
    ∃ run ∈ classRuns, run.1 ≤ first ∧ first ≤ last ∧ last ≤ run.2 := by
  simp only [isClass, List.any_eq_true, Bool.and_eq_true, decide_eq_true_eq, and_assoc]

/-- The bounds of a class are in order, and lie below the gap in the code points. -/
theorem bounds_of_isClass (h : isClass first last = true) :
    first.toNat ≤ last.toNat ∧ last.toNat < 0xd800 := by
  obtain ⟨run, hrun, -, hle, hhigh⟩ := isClass_iff.1 h
  have hend : ∀ run ∈ classRuns, run.2.toNat < 0xd800 := by decide
  exact ⟨hle, Nat.lt_of_le_of_lt hhigh (hend run hrun)⟩

/-- The code points of a class are consecutive. -/
theorem toNat_class (h : isClass first last = true) :
    (first :: charsUpTo first last).map Char.toNat =
      List.range' first.toNat (last.toNat - first.toNat + 1) := by
  obtain ⟨hle, hlast⟩ := bounds_of_isClass h
  have hvalid : ∀ n ∈ List.range' (first.toNat + 1) (last.toNat - first.toNat),
      (Char.toNat ∘ Char.ofNat) n = id n := by
    intro n hn
    have hn : n < 0xd800 := by
      rw [List.mem_range'_1] at hn
      omega
    show (Char.ofNat n).toNat = n
    rw [Char.ofNat, dif_pos (Or.inl hn)]
    rfl
  -- below the gap a number is the code point of its character
  rw [List.map_cons, List.range'_succ, charsUpTo, List.map_map, List.map_congr_left hvalid,
    List.map_id]

/-- **The characters of a class** are those between its bounds. -/
theorem mem_class_iff (h : isClass first last = true) :
    c ∈ first :: charsUpTo first last ↔ first ≤ c ∧ c ≤ last := by
  obtain ⟨hle, -⟩ := bounds_of_isClass h
  have hinj : Function.Injective Char.toNat := fun _ _ => Char.toNat_inj.1
  rw [← List.mem_map_of_injective hinj, toNat_class h, List.mem_range'_1]
  show _ ↔ first.toNat ≤ c.toNat ∧ c.toNat ≤ last.toNat
  omega

theorem pairwise_class (h : isClass first last = true) :
    (first :: charsUpTo first last).Pairwise (· < ·) := by
  have hpairwise := List.pairwise_lt_range' (s := first.toNat) (n := last.toNat - first.toNat + 1) 1
  rw [← toNat_class h, List.pairwise_map] at hpairwise
  exact hpairwise

/-! ### Characters that stand for themselves -/

theorem ofChar_of_visible (hpunctuation : isPunctuation c = false)
    (hblank : Text.isBlank c = false) (hcontrol : Text.isControl c = false) :
    ofChar c = .lit c := by
  rw [ofChar, needsQuotes, hblank, hcontrol, hpunctuation]
  rfl

theorem ofChar_of_invisible (h : Text.isBlank c = true ∨ Text.isControl c = true) :
    ofChar c = .quoted c := by
  rw [ofChar, if_pos]
  rw [needsQuotes, Bool.or_eq_true, Bool.or_eq_true]
  exact .inl h

/-- The letter `e` can be seen. -/
theorem not_eps_of_invisible (h : Text.isBlank c = true ∨ Text.isControl c = true) :
    ¬(c = 'e' ∧ ['p', 's'] <+: rest) := by
  rintro ⟨rfl, -⟩
  exact absurd h (by decide)

/-- **A character that is no punctuation** is derived in the form in which it can be written. -/
theorem Derives.char (hpunctuation : isPunctuation c = false)
    (heps : ¬(c = 'e' ∧ ['p', 's'] <+: rest)) : Derives .atom [c] rest (ofChar c) := by
  by_cases h : Text.isBlank c = true ∨ Text.isControl c = true
  · rw [ofChar_of_invisible h]
    exact .invisible hpunctuation h
  · obtain ⟨hblank, hcontrol⟩ := not_or.1 h
    rw [Bool.not_eq_true] at hblank hcontrol
    rw [ofChar_of_visible hpunctuation hblank hcontrol]
    exact .bare hpunctuation hblank hcontrol heps

/-! ### From derivations to phrases -/

theorem exists_cut_of_written {word : List Char} (h : Written word rest (.operand r)) :
    ∃ found, Cut rest offset word found ∧ Phrase .atom (found.map Prod.fst) r :=
  ⟨_, cut_singleton h, .operand⟩

/-- A quantifier is put behind a repetition. -/
theorem exists_cut_quantifier {q : Quantifier} (hword : Written [c] rest (.quantifier q))
    (h : ∃ found, Cut (c :: rest) offset text found ∧ Phrase .repetition (found.map Prod.fst) r) :
    ∃ found, Cut rest offset (text ++ [c]) found ∧
      Phrase .repetition (found.map Prod.fst) (q.apply r) := by
  obtain ⟨found, hcut, hphrase⟩ := h
  refine ⟨found ++ [(.quantifier q, offset + text.length)], ?_, ?_⟩
  · exact cut_append_iff.2 ⟨text, [c], rfl, hcut, cut_singleton hword⟩
  · rw [List.map_append]
    exact .quantifier q hphrase

/-- **What is derived can be cut** into the symbols of a phrase. -/
theorem Derives.exists_cut (offset : Nat) (h : Derives level text rest r) :
    ∃ found, Cut rest offset text found ∧ Phrase level (found.map Prod.fst) r := by
  induction h generalizing offset with
  | sequence _ ih =>
    obtain ⟨found, hcut, hphrase⟩ := ih offset
    exact ⟨found, hcut, .sequence hphrase⟩
  | @union left _ _ _ _ _ _ ihl ihr =>
    -- the left part is cut in front of the bar, and the right part starts after it
    obtain ⟨before, hbefore, hl⟩ := ihl offset
    obtain ⟨after, hafter, hr⟩ := ihr (offset + left.length + 1)
    refine ⟨before ++ (.binary .union, offset + left.length) :: after, ?_, ?_⟩
    · exact cut_append_iff.2 ⟨left, _, rfl, hbefore, .cons .union hafter⟩
    · rw [List.map_append]
      exact .union hl hr
  | repetition _ ih =>
    obtain ⟨found, hcut, hphrase⟩ := ih offset
    exact ⟨found, hcut, .repetition hphrase⟩
  | @concat left _ _ _ _ _ _ ihl ihr =>
    -- nothing stands between the parts, and what the left one is cut in front of is the right one
    obtain ⟨before, hbefore, hl⟩ := ihl offset
    obtain ⟨after, hafter, hr⟩ := ihr (offset + left.length)
    refine ⟨before ++ after, cut_append_iff.2 ⟨left, _, rfl, hbefore, hafter⟩, ?_⟩
    rw [List.map_append]
    exact .concat hl hr
  | atom _ ih =>
    obtain ⟨found, hcut, hphrase⟩ := ih offset
    exact ⟨found, hcut, .atom hphrase⟩
  | star _ ih => exact exists_cut_quantifier .star (ih offset)
  | plus _ ih => exact exists_cut_quantifier .plus (ih offset)
  | maybe _ ih => exact exists_cut_quantifier .maybe (ih offset)
  | @group text _ _ _ ih =>
    -- both parentheses are symbols, and the group is cut in front of the second
    obtain ⟨found, hcut, hphrase⟩ := ih (offset + 1)
    refine ⟨(.openGroup, offset) :: found ++ [(.closeGroup, offset + 1 + text.length)], ?_, ?_⟩
    · have hclosed := cut_append_iff.2 ⟨text, [')'], rfl, hcut, cut_singleton .closeGroup⟩
      show Cut _ offset (['('] ++ (text ++ [')'])) _
      exact .cons .openGroup hclosed
    · rw [List.map_append]
      exact .group hphrase
  | charClass hclass => exact exists_cut_of_written (.charClass hclass)
  | quoted => exact exists_cut_of_written .quoted
  | eps => exact exists_cut_of_written .eps
  | bare hpunctuation hblank hcontrol heps =>
    rw [← ofChar_of_visible hpunctuation hblank hcontrol]
    exact exists_cut_of_written (.char hpunctuation heps)
  | invisible hpunctuation hinvisible =>
    rw [← ofChar_of_invisible hinvisible]
    exact exists_cut_of_written (.char hpunctuation (not_eps_of_invisible hinvisible))

/-! ### From phrases to derivations -/

theorem Written.derives (h : Written text rest (.operand r)) : Derives .atom text rest r := by
  generalize hsymbol : Symbol.operand r = symbol at h
  cases h with
  | charClass hclass =>
    cases hsymbol
    exact .charClass hclass
  | quoted =>
    cases hsymbol
    exact .quoted
  | eps =>
    cases hsymbol
    exact .eps
  | char hbare heps =>
    cases hsymbol
    exact .char hbare heps
  | openGroup | closeGroup | union | star | plus | maybe => cases hsymbol

/-- **A text cut into the symbols of a phrase is derived.** -/
theorem Phrase.derives (h : Phrase level ss r) (hcut : Cut rest offset text found)
    (hss : found.map Prod.fst = ss) : Derives level text rest r := by
  -- on the phrase: its parts are lists of symbols, and the text divides where these do
  induction h generalizing found offset text rest with
  | sequence _ ih => exact .sequence (ih hcut hss)
  | repetition _ ih => exact .repetition (ih hcut hss)
  | atom _ ih => exact .atom (ih hcut hss)
  | union _ _ ihl ihr =>
    obtain ⟨before, _, rfl, hbefore, hrest⟩ := List.map_eq_append_iff.1 hss
    obtain ⟨⟨_, bar⟩, after, rfl, rfl, hafter⟩ := List.map_eq_cons_iff.1 hrest
    obtain ⟨left, _, rfl, hl, hcut⟩ := cut_append_iff.1 hcut
    obtain ⟨⟩ | ⟨hbar, hr⟩ := hcut
    -- only one word is written for the operator
    cases hbar
    exact .union (ihl hl hbefore) (ihr hr hafter)
  | concat _ _ ihl ihr =>
    obtain ⟨before, after, rfl, hbefore, hafter⟩ := List.map_eq_append_iff.1 hss
    obtain ⟨left, right, rfl, hl, hr⟩ := cut_append_iff.1 hcut
    exact .concat (ihl hl hbefore) (ihr hr hafter)
  | quantifier q _ ih =>
    obtain ⟨before, _, rfl, hbefore, hquantifier⟩ := List.map_eq_append_iff.1 hss
    obtain ⟨⟨_, last⟩, _, rfl, rfl, hnil⟩ := List.map_eq_cons_iff.1 hquantifier
    obtain rfl := List.map_eq_nil_iff.1 hnil
    obtain ⟨operand, word, rfl, hoperand, hlast⟩ := cut_append_iff.1 hcut
    have hword := written_of_cut hlast
    have hr := ih hoperand hbefore
    -- each quantifier has a character of its own
    cases hword with
    | star => exact .star hr
    | plus => exact .plus hr
    | maybe => exact .maybe hr
  | group _ ih =>
    obtain ⟨⟨_, opened⟩, _, rfl, rfl, hrest⟩ := List.map_eq_cons_iff.1 hss
    obtain ⟨body, _, rfl, hbody, hclose⟩ := List.map_eq_append_iff.1 hrest
    obtain ⟨⟨_, closed⟩, _, rfl, rfl, hnil⟩ := List.map_eq_cons_iff.1 hclose
    obtain rfl := List.map_eq_nil_iff.1 hnil
    obtain ⟨⟩ | ⟨hopen, hcut⟩ := hcut
    cases hopen
    obtain ⟨inner, word, rfl, hinner, hlast⟩ := cut_append_iff.1 hcut
    have hword := written_of_cut hlast
    cases hword
    exact .group (ih hinner hbody)
  | operand =>
    obtain ⟨⟨_, start⟩, _, rfl, rfl, hnil⟩ := List.map_eq_cons_iff.1 hss
    obtain rfl := List.map_eq_nil_iff.1 hnil
    exact (written_of_cut hcut).derives

/-- **The grammar derives a text exactly if it can be cut** into the symbols of a phrase. -/
theorem derives_iff_exists_cut : Derives level text rest r ↔
    ∃ found, Cut rest offset text found ∧ Phrase level (found.map Prod.fst) r := by
  constructor
  · exact Derives.exists_cut offset
  · rintro ⟨found, hcut, hphrase⟩
    exact hphrase.derives hcut rfl

/-! ### Whole patterns -/

/-- Reading a pattern cuts it and puts the symbols together. -/
theorem parse_eq_ok_iff_exists_cut : parse text = .ok r ↔
    ∃ found, Cut [] 0 text found ∧ Phrase .alternation (found.map Prod.fst) r := by
  unfold parse symbols
  rw [bind_eq_ok]
  constructor
  · rintro ⟨_, hfound, hread⟩
    obtain ⟨found, hsplit, rfl⟩ := map_eq_ok.1 hfound
    have hcut : Cut [] 0 text found := split_eq_ok_iff.1 hsplit
    exact ⟨found, hcut, (Yard.read_eq_ok_iff (forall_ne_concat_of_cut hcut)).1 hread⟩
  · rintro ⟨found, hcut, hphrase⟩
    have hfound : (split 0 text).map (join false) = .ok (join false found) :=
      map_eq_ok.2 ⟨found, split_eq_ok_iff.2 hcut, rfl⟩
    exact ⟨_, hfound, (Yard.read_eq_ok_iff (forall_ne_concat_of_cut hcut)).2 hphrase⟩

/-- **Reading succeeds exactly with what is derived.** -/
theorem parse_eq_ok_iff : parse text = .ok r ↔ Derives .alternation text [] r :=
  calc parse text = .ok r
      ↔ ∃ found, Cut [] 0 text found ∧ Phrase .alternation (found.map Prod.fst) r :=
        parse_eq_ok_iff_exists_cut
    _ ↔ Derives .alternation text [] r := derives_iff_exists_cut.symm

theorem parse_eq_error_iff :
    (∃ e, parse text = .error e) ↔ ∀ r, ¬Derives .alternation text [] r := by
  simp only [← parse_eq_ok_iff]
  constructor
  · rintro ⟨e, he⟩ r hr
    rw [he] at hr
    cases hr
  · intro h
    cases hparse : parse text with
    | error e => exact ⟨e, rfl⟩
    | ok r => exact absurd hparse (h r)

/-- **The grammar of patterns.** A pattern is read as the tree that the grammar derives it to, and
it is rejected if the grammar derives it to none. A class stands for the union of the characters
between its bounds, in ascending order. -/
theorem parse_eq_ok_iff_derives :
    (∀ text r, parse text = .ok r ↔ Derives .alternation text [] r) ∧
      (∀ text, (∃ e, parse text = .error e) ↔ ∀ r, ¬Derives .alternation text [] r) ∧
      ∀ first last, isClass first last = true →
        ∃ cs, classUnion first last = anyOf first cs ∧ (first :: cs).Pairwise (· < ·) ∧
          ∀ c, c ∈ first :: cs ↔ first ≤ c ∧ c ≤ last := by
  refine ⟨fun _ _ => parse_eq_ok_iff, fun _ => parse_eq_error_iff, fun first last hclass => ?_⟩
  exact ⟨charsUpTo first last, rfl, pairwise_class hclass, fun _ => mem_class_iff hclass⟩

/-- Concatenation binds tighter than the bar, and both nest to the right; the letter before the bar
is a literal, and the one after it starts the word for the empty word. -/
theorem parse_eq_ok_iff_derives_class :
    isClass 'x' 'y' = true ∧
      (∃ cs, classUnion 'x' 'y' = anyOf 'x' cs ∧ ('x' :: cs).Pairwise (· < ·) ∧
        ∀ c, c ∈ 'x' :: cs ↔ 'x' ≤ c ∧ c ≤ 'y') ∧
      parse ['[', 'x', '-', 'y', ']', '*', 'e', '|', 'e', 'p', 's'] =
        .ok (.union (.concat (.star (.union (.lit 'x') (.lit 'y'))) (.lit 'e')) .eps) := by
  obtain ⟨hread, -, hclass⟩ := parse_eq_ok_iff_derives
  refine ⟨by decide, hclass 'x' 'y' (by decide), (hread _ _).2 ?_⟩
  have hstar : Derives .repetition ['[', 'x', '-', 'y', ']', '*'] ['e', '|', 'e', 'p', 's']
      (.star (classUnion 'x' 'y')) := .star (.atom (.charClass (by decide)))
  have hletter : Derives .sequence ['e'] ['|', 'e', 'p', 's'] (ofChar 'e') :=
    .repetition (.atom (.char (by decide) (by decide)))
  have heps : Derives .alternation ['e', 'p', 's'] [] .eps :=
    .sequence (.repetition (.atom .eps))
  exact .union (.concat hstar hletter) heps

end LexerGen.Pattern
