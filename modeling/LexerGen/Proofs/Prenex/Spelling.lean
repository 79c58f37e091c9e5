import LexerGen.Proofs.Fallible
import LexerGen.Proofs.Prenex.RoundTrip
import Mathlib.Data.List.Forall2
import Mathlib.Data.List.TakeWhile

/-!
# The words of a prenex text

Which words does a text consist of? `Spelled` says so without a reader: going from left to right,
spaces are skipped, a quoted character is a word if a space or the end of the text follows it, and
any other word is a run of characters up to the next space or the end. `spell` finds exactly these
words (`spell_eq_iff`), so a text has them in one way only.

A quote does not always start a quoted character. In `'ab'` it belongs to a run, and `' '` is one
word only if nothing else is attached to it; otherwise it is two runs. That is why the rule for
runs asks that no quoted character is met (`StartsQuoted`), and why this is a condition on the whole
rest of the text and not on the run alone.

`Recognized` says which word is meant by what is met. Recognising all words either gives a list that
agrees with what was met word by word (`identifyAll_eq_ok_iff`), or stops at the leftmost run that
means nothing (`identifyAll_eq_error_iff`).
-/

namespace LexerGen.Prenex

open Regex

variable {text rest cs : List Char} {c : Char} {offset : Nat} {word : Word}
  {found : List (Spelling × Nat)} {ws : List (Word × Nat)} {e : PatternError}

/-! ### Cutting a text -/

/-- The text starts with a quoted character that is a word of its own. -/
def StartsQuoted (text : List Char) : Prop :=
  ∃ c rest, AtBoundary rest ∧ text = '\'' :: c :: '\'' :: rest

/-- **Texts and their words**, each with the offset at which it starts. -/
inductive Spelled : Nat → List Char → List (Spelling × Nat) → Prop
  | nil {offset : Nat} : Spelled offset [] []
  | space {offset : Nat} {text : List Char} {found : List (Spelling × Nat)} :
      Spelled (offset + 1) text found → Spelled offset (' ' :: text) found
  | quoted {offset : Nat} {c : Char} {rest : List Char} {found : List (Spelling × Nat)} :
      AtBoundary rest → Spelled (offset + 3) rest found →
      Spelled offset ('\'' :: c :: '\'' :: rest) ((.quoted c, offset) :: found)
  | run {offset : Nat} {cs rest : List Char} {found : List (Spelling × Nat)} :
      cs ≠ [] → ' ' ∉ cs → AtBoundary rest → ¬StartsQuoted (cs ++ rest) →
      Spelled (offset + cs.length) rest found →
      Spelled offset (cs ++ rest) ((.run cs, offset) :: found)

theorem quotedHead_eq_some_iff :
    quotedHead text = some (c, rest) ↔ AtBoundary rest ∧ text = '\'' :: c :: '\'' :: rest := by
  constructor
  · intro h
    unfold quotedHead at h
    split at h
    · cases h
      exact ⟨.inl rfl, rfl⟩
    · cases h
      exact ⟨.inr ⟨_, rfl⟩, rfl⟩
    · cases h
  · rintro ⟨rfl | ⟨tail, rfl⟩, rfl⟩
    · rfl
    · rfl

theorem quotedHead_eq_none_iff : quotedHead text = none ↔ ¬StartsQuoted text := by
  unfold StartsQuoted
  rw [Option.eq_none_iff_forall_ne_some]
  simp only [Prod.forall, ne_eq, quotedHead_eq_some_iff, not_exists]

/-- What is left after a run is at a boundary. -/
theorem atBoundary_dropWhile (text : List Char) : AtBoundary (text.dropWhile (· != ' ')) := by
  cases h : text.dropWhile (· != ' ') with
  | nil => exact .inl rfl
  | cons c rest =>
    have hc : (c != ' ') = false := by
      have hhead := List.head_dropWhile_not (· != ' ') (l := text) (by simp [h])
      simpa [h] using hhead
    obtain rfl : c = ' ' := by simpa using hc
    exact .inr ⟨rest, rfl⟩

theorem spelled_spell (offset : Nat) (text : List Char) :
    Spelled offset text (spell offset text) := by
  fun_induction spell offset text with
  | case1 => exact .nil
  | case2 offset rest ih => exact .space ih
  | case3 offset c rest hc x after hhead ih =>
    obtain ⟨hafter, htext⟩ := quotedHead_eq_some_iff.1 hhead
    rw [htext]
    exact .quoted hafter ih
  | case4 offset c rest hc hhead run ih =>
    -- the run and what is left of the text make up the text
    have htext : c :: rest = run ++ rest.dropWhile (· != ' ') := by
      simp [run, List.takeWhile_append_dropWhile]
    have hrun : ' ' ∉ run := by
      intro hmem
      rcases List.mem_cons.1 hmem with h | h
      · exact hc h.symm
      · simpa using List.mem_takeWhile_imp h
    rw [htext]
    refine .run (List.cons_ne_nil _ _) hrun (atBoundary_dropWhile rest) ?_ ih
    rw [← htext]
    exact quotedHead_eq_none_iff.1 hhead

/-- **A text is cut into its words**, and these are the only ones that it has. -/
theorem spell_eq_iff : spell offset text = found ↔ Spelled offset text found := by
  constructor
  · rintro rfl
    exact spelled_spell offset text
  · intro h
    induction h with
    | nil => rw [spell]
    | space _ ih => rw [spell, if_pos rfl, ih]
    | @quoted offset c rest found hrest _ ih =>
      show spell offset (['\'', c, '\''] ++ rest) = _
      rw [spell_quoted hrest, ih]
    | run hne hspace hrest hquoted _ ih =>
      obtain ⟨c, cs, rfl⟩ := List.exists_cons_of_ne_nil hne
      rw [spell_run_of_quotedHead (quotedHead_eq_none_iff.2 hquoted) hspace hrest, ih]

/-! ### Recognising words -/

/-- **What is met and the word that it means.** A single character is bare or quoted, as it has to
be; a quoted one stays quoted. -/
inductive Recognized : Spelling → Word → Prop
  | quoted {c : Char} : Recognized (.quoted c) (.quoted c)
  | keyword {k : Keyword} : Recognized (.run k.text.toList) (.keyword k)
  | eps : Recognized (.run ['e', 'p', 's']) .eps
  | void : Recognized (.run ['v', 'o', 'i', 'd']) .void
  | bare {c : Char} : needsQuotes c = false → Recognized (.run [c]) (.lit c)
  | unsafeBare {c : Char} : needsQuotes c = true → Recognized (.run [c]) (.quoted c)

theorem identify_eq_some_iff : identify cs = some word ↔ Recognized (.run cs) word := by
  constructor
  · intro h
    unfold identify at h
    split at h
    · next k hk =>
      have htext : (k.text.toList == cs) = true :=
        List.find?_some (p := fun k : Keyword => k.text.toList == cs) hk
      cases h
      rw [← eq_of_beq htext]
      exact .keyword
    · split at h
      · next hcs =>
        cases h
        rw [hcs]
        exact .eps
      · split at h
        · next hcs =>
          cases h
          rw [hcs]
          exact .void
        · -- no word but a single character is left
          split at h
          · next c =>
            cases h
            split
            · next hc => exact .unsafeBare hc
            · next hc => exact .bare (Bool.eq_false_iff.2 hc)
          · cases h
  · intro h
    cases h with
    | keyword => exact identify_keyword _
    | eps => decide
    | void => decide
    | bare hc => rw [identify_singleton, if_neg (Bool.eq_false_iff.1 hc)]
    | unsafeBare hc => rw [identify_singleton, if_pos hc]

/-- The run means nothing. -/
def Unknown (cs : List Char) : Prop := ∀ word, ¬Recognized (.run cs) word

theorem identify_eq_none_iff : identify cs = none ↔ Unknown cs := by
  unfold Unknown
  rw [Option.eq_none_iff_forall_ne_some]
  simp only [ne_eq, identify_eq_some_iff]

/-- A word means what was met at its place. -/
def Means (s : Spelling × Nat) (w : Word × Nat) : Prop := Recognized s.1 w.1 ∧ w.2 = s.2

theorem identifyAll_eq_ok_iff : identifyAll found = .ok ws ↔ List.Forall₂ Means found ws := by
  induction found generalizing ws with
  | nil =>
    rw [List.forall₂_nil_left_iff]
    exact ⟨fun h => (Except.ok.inj h).symm, fun h => by rw [h]; rfl⟩
  | cons s found ih =>
    rw [List.forall₂_cons_left_iff]
    obtain ⟨c | cs, offset⟩ := s
    · rw [identifyAll, map_eq_ok]
      constructor
      · rintro ⟨ws, hws, rfl⟩
        exact ⟨_, ws, ⟨.quoted, rfl⟩, ih.1 hws, rfl⟩
      · rintro ⟨⟨word, _⟩, ws, ⟨hword, rfl⟩, hws, rfl⟩
        cases hword
        exact ⟨ws, ih.2 hws, rfl⟩
    · rw [identifyAll]
      constructor
      · intro h
        split at h
        · next word hword =>
          obtain ⟨ws, hws, rfl⟩ := map_eq_ok.1 h
          exact ⟨_, ws, ⟨identify_eq_some_iff.1 hword, rfl⟩, ih.1 hws, rfl⟩
        · cases h
      · rintro ⟨⟨word, _⟩, ws, ⟨hword, rfl⟩, hws, rfl⟩
        rw [identify_eq_some_iff.2 hword, ih.2 hws]
        rfl

/-- **The leftmost run that means nothing**, with its offset. Everything before it is a word. -/
def LeftmostUnknown (found : List (Spelling × Nat)) (cs : List Char) (offset : Nat) : Prop :=
  ∃ before after ws, found = before ++ (.run cs, offset) :: after ∧
    List.Forall₂ Means before ws ∧ Unknown cs

theorem LeftmostUnknown.cons {s : Spelling × Nat} {w : Word × Nat} (hs : Means s w)
    (h : LeftmostUnknown found cs offset) : LeftmostUnknown (s :: found) cs offset := by
  obtain ⟨before, after, ws, rfl, hbefore, hcs⟩ := h
  exact ⟨s :: before, after, w :: ws, rfl, .cons hs hbefore, hcs⟩

/-- **The leftmost run that means nothing** is reported, whatever comes after it. -/
theorem identifyAll_eq_error_iff : identifyAll found = .error e ↔
    ∃ cs offset, LeftmostUnknown found cs offset ∧ e = .unknownWord cs offset := by
  constructor
  · intro h
    induction found with
    | nil => cases h
    | cons s found ih =>
      obtain ⟨c | cs, offset⟩ := s
      · obtain ⟨cs, place, hunknown, he⟩ := ih (map_eq_error.1 h)
        exact ⟨cs, place, hunknown.cons (w := (.quoted c, offset)) ⟨.quoted, rfl⟩, he⟩
      · rw [identifyAll] at h
        split at h
        · next word hword =>
          obtain ⟨cs', place, hunknown, he⟩ := ih (map_eq_error.1 h)
          have hmeans : Means (.run cs, offset) (word, offset) :=
            ⟨identify_eq_some_iff.1 hword, rfl⟩
          exact ⟨cs', place, hunknown.cons hmeans, he⟩
        · next hnone =>
          cases h
          exact ⟨cs, offset, ⟨[], found, [], rfl, .nil, identify_eq_none_iff.1 hnone⟩, rfl⟩
  · rintro ⟨cs, offset, ⟨before, after, ws, rfl, hbefore, hcs⟩, rfl⟩
    induction hbefore with
    | nil => rw [List.nil_append, identifyAll, identify_eq_none_iff.2 hcs]
    | @cons s w before ws hw _ ih =>
      -- the words before the run are recognised, and do not change the error
      obtain ⟨c | cs, place⟩ := s
      · rw [List.cons_append, identifyAll, ih]
        rfl
      · rw [List.cons_append, identifyAll, identify_eq_some_iff.2 hw.1, ih]
        rfl

end LexerGen.Prenex
