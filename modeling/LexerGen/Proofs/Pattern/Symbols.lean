import LexerGen.Pattern.Symbol
import LexerGen.Proofs.Fallible

/-!
# The written symbols of a pattern

How a pattern is cut into symbols is said here without the function that does it. `Written` says
which characters stand for which symbol, in front of which rest of the pattern: a letter `e` is a
literal unless the rest goes on with `ps`. `Cut` puts written symbols one after the other, each with
the offset at which it starts. A text that is cut can be divided wherever a symbol ends
(`cut_append_iff`), and `split` finds exactly the texts that can be cut (`split_eq_ok_iff`).
-/

namespace LexerGen.Pattern

open Regex

variable {word text left right rest : List Char} {symbol : Symbol} {offset more : Nat} {c : Char}
  {found before after : List (Symbol × Nat)}

/-! ### One symbol -/

/-- **How symbols are written.** `Written word rest symbol` says that `word`, where `rest` follows,
stands for the symbol. -/
inductive Written : (word rest : List Char) → Symbol → Prop
  | charClass {first last : Char} {rest : List Char} : isClass first last = true →
      Written ['[', first, '-', last, ']'] rest (.operand (classUnion first last))
  | quoted {c : Char} {rest : List Char} : Written ['\'', c, '\''] rest (.operand (.quoted c))
  | eps {rest : List Char} : Written ['e', 'p', 's'] rest (.operand .eps)
  | char {c : Char} {rest : List Char} :
      isPunctuation c = false → ¬(c = 'e' ∧ ['p', 's'] <+: rest) →
      Written [c] rest (.operand (ofChar c))
  | openGroup {rest : List Char} : Written ['('] rest .openGroup
  | closeGroup {rest : List Char} : Written [')'] rest .closeGroup
  | union {rest : List Char} : Written ['|'] rest (.binary .union)
  | star {rest : List Char} : Written ['*'] rest (.quantifier .star)
  | plus {rest : List Char} : Written ['+'] rest (.quantifier .plus)
  | maybe {rest : List Char} : Written ['?'] rest (.quantifier .maybe)

theorem Written.ne_nil (h : Written word rest symbol) : word ≠ [] := by
  cases h <;> exact List.cons_ne_nil _ _

theorem Written.ne_concat (h : Written word rest symbol) : symbol ≠ .binary .concat := by
  rintro rfl
  cases h

/-- The next symbol starts behind the characters that were counted. -/
theorem offset_add_length (h : more ≤ rest.length) :
    offset + (c :: rest.take more).length = offset + 1 + more := by
  rw [List.length_cons, List.length_take_of_le h, Nat.add_comm more, Nat.add_assoc]

/-- **A symbol that is read was written**, with the characters that were counted. -/
theorem written_of_readSymbol (h : readSymbol offset c text = .ok (symbol, more)) :
    Written (c :: text.take more) (text.drop more) symbol ∧ more ≤ text.length := by
  unfold readSymbol at h
  split at h
  · split at h
    · split at h
      · next hclass =>
        cases h
        exact ⟨.charClass hclass, by simp⟩
      · cases h
    · cases h
  · split at h
    · cases h
      exact ⟨.quoted, by simp⟩
    · cases h
  · split at h
    · cases h
      exact ⟨.eps, by simp⟩
    · next hrest =>
      -- what follows does not complete the word for the empty word
      cases h
      refine ⟨.char (by decide) ?_, Nat.zero_le _⟩
      rintro ⟨-, tail, rfl⟩
      exact hrest tail rfl
  all_goals cases h
  · exact ⟨.openGroup, Nat.zero_le _⟩
  · exact ⟨.closeGroup, Nat.zero_le _⟩
  · exact ⟨.union, Nat.zero_le _⟩
  · exact ⟨.star, Nat.zero_le _⟩
  · exact ⟨.plus, Nat.zero_le _⟩
  · exact ⟨.maybe, Nat.zero_le _⟩
  · refine ⟨.char ?_ fun he => ?_, Nat.zero_le _⟩
    · simp_all [isPunctuation]
    · simp_all

/-- **A symbol that is written is read**, and its characters are counted. -/
theorem readSymbol_of_written (h : Written (c :: word) rest symbol) :
    readSymbol offset c (word ++ rest) = .ok (symbol, word.length) := by
  cases h with
  | charClass hclass =>
    show (if isClass _ _ = true then _ else _) = _
    rw [if_pos hclass]
    rfl
  | char hbare heps =>
    rw [List.nil_append]
    unfold readSymbol
    split
    -- no punctuation is written bare
    case h_1 | h_2 | h_4 | h_5 | h_6 | h_7 | h_8 | h_9 | h_10 => exact absurd hbare (by decide)
    case h_3 =>
      split
      · exact absurd ⟨rfl, _, rfl⟩ heps
      · rfl
    case h_11 => rfl
  | _ => rfl

/-! ### A whole text -/

/-- **Texts cut into symbols**, in front of a rest. Each symbol comes with its offset. -/
inductive Cut (rest : List Char) : Nat → List Char → List (Symbol × Nat) → Prop
  | nil {offset : Nat} : Cut rest offset [] []
  | cons {offset : Nat} {word text : List Char} {symbol : Symbol} {found : List (Symbol × Nat)} :
      Written word (text ++ rest) symbol → Cut rest (offset + word.length) text found →
      Cut rest offset (word ++ text) ((symbol, offset) :: found)

theorem cut_singleton (h : Written word rest symbol) :
    Cut rest offset word [(symbol, offset)] := by
  have hcut : Cut rest offset (word ++ []) [(symbol, offset)] := .cons h .nil
  rwa [List.append_nil] at hcut

/-- **Texts are divided where a symbol ends.** -/
theorem cut_append_iff : Cut rest offset text (before ++ after) ↔
    ∃ left right, text = left ++ right ∧ Cut (right ++ rest) offset left before ∧
      Cut rest (offset + left.length) right after := by
  constructor
  · intro h
    induction before generalizing offset text with
    | nil => exact ⟨[], text, rfl, .nil, h⟩
    | cons s before ih =>
      cases h with
      | @cons _ word text symbol _ hword htext =>
        obtain ⟨left, right, rfl, hleft, hright⟩ := ih htext
        rw [List.append_assoc] at hword
        refine ⟨word ++ left, right, (List.append_assoc _ _ _).symm, .cons hword hleft, ?_⟩
        rwa [List.length_append, ← Nat.add_assoc]
  · rintro ⟨left, right, rfl, hleft, hright⟩
    induction hleft with
    | nil => exact hright
    | @cons offset word text symbol found hword _ ih =>
      rw [List.length_append, ← Nat.add_assoc] at hright
      rw [List.append_assoc]
      refine .cons ?_ (ih hright)
      rwa [List.append_assoc]

theorem written_of_cut (h : Cut rest offset text [(symbol, more)]) :
    Written text rest symbol := by
  cases h with
  | cons hword hnil =>
    cases hnil
    rwa [List.append_nil]

/-- **Cutting finds the symbols that are written.** -/
theorem split_eq_ok_iff : split offset text = .ok found ↔ Cut [] offset text found := by
  constructor
  · intro h
    induction found generalizing offset text with
    | nil =>
      cases text with
      | nil => exact .nil
      | cons c rest =>
        rw [split] at h
        obtain ⟨⟨symbol, more⟩, -, h⟩ := bind_eq_ok.1 h
        obtain ⟨symbols, -, h⟩ := bind_eq_ok.1 h
        cases h
    | cons s found ih =>
      cases text with
      | nil =>
        rw [split] at h
        cases h
      | cons c rest =>
        rw [split] at h
        obtain ⟨⟨symbol, more⟩, hsymbol, h⟩ := bind_eq_ok.1 h
        obtain ⟨symbols, hsymbols, h⟩ := bind_eq_ok.1 h
        cases h
        obtain ⟨hword, hmore⟩ := written_of_readSymbol hsymbol
        have htext : c :: rest = (c :: rest.take more) ++ rest.drop more := by simp
        rw [htext]
        refine .cons ?_ ?_
        · rwa [List.append_nil]
        · rw [offset_add_length hmore]
          exact ih hsymbols
  · intro h
    induction h with
    | nil => rw [split]
    | @cons offset word text symbol found hword _ ih =>
      obtain ⟨c, word, rfl⟩ := List.exists_cons_of_ne_nil hword.ne_nil
      rw [List.append_nil] at hword
      rw [List.length_cons, Nat.add_comm word.length, ← Nat.add_assoc] at ih
      rw [List.cons_append, split, readSymbol_of_written hword]
      show (split (offset + 1 + word.length) ((word ++ text).drop word.length) >>= _) = _
      rw [List.drop_left, ih]
      rfl

theorem forall_ne_concat_of_cut (h : Cut rest offset text found) :
    ∀ s ∈ found, s.1 ≠ .binary .concat := by
  induction h with
  | nil => exact List.forall_mem_nil _
  | cons hword _ ih => exact List.forall_mem_cons.2 ⟨hword.ne_concat, ih⟩

end LexerGen.Pattern
