import LexerGen.Prenex.Reader
import LexerGen.Regex.Forms

/-!
# Prenex text is read back

`read` undoes `render`, up to the quotes that `render` puts around literals that could not be read
back bare (`read_render`). The proof follows the three steps of the reader. Each written word, if
the text ends after it or a space follows, is cut off as one word (`spell_text`); it is recognised
as the word that was written, or as its quoted form (`identifyAll_spellings`); and the words of a
tree, met from the right, push that tree on the stack, whatever was on it (`assemble_words`). The
last is an induction on the tree, and it goes through because the rest of the words is arbitrary.
-/

namespace LexerGen.Prenex

open Regex

variable {text rest cs : List Char} {c : Char} {offset : Nat} {word : Word} {ws : List Word}

/-! ### Cutting words -/

/-- **How a word is met** when its text is cut. -/
def Word.spelling : Word → Spelling
  | keyword k => .run k.text.toList
  | eps => .run ['e', 'p', 's']
  | void => .run ['v', 'o', 'i', 'd']
  | lit c => if needsQuotes c then .quoted c else .run [c]
  | quoted c => .quoted c

/-- **The ends of words**: the end of the text, or a space. -/
def AtBoundary (rest : List Char) : Prop := rest = [] ∨ ∃ tail, rest = ' ' :: tail

theorem spell_quoted (hrest : AtBoundary rest) :
    spell offset (['\'', c, '\''] ++ rest) = (.quoted c, offset) :: spell (offset + 3) rest := by
  have hhead : quotedHead ('\'' :: c :: '\'' :: rest) = some (c, rest) := by
    rcases hrest with rfl | ⟨tail, rfl⟩ <;> rfl
  have hspace : '\'' ≠ ' ' := by decide
  show spell offset ('\'' :: c :: '\'' :: rest) = _
  rw [spell, if_neg hspace]
  split
  · next x after h =>
    rw [hhead] at h
    obtain ⟨rfl, rfl⟩ := Prod.mk.inj (Option.some.inj h)
    rfl
  · next h =>
    rw [hhead] at h
    cases h

theorem takeWhile_append_boundary (hcs : ' ' ∉ cs) (hrest : AtBoundary rest) :
    (cs ++ rest).takeWhile (· != ' ') = cs ∧ (cs ++ rest).dropWhile (· != ' ') = rest := by
  have hall : ∀ x ∈ cs, (x != ' ') = true := fun x hx =>
    bne_iff_ne.2 fun hspace => hcs (hspace ▸ hx)
  rw [List.takeWhile_append_of_pos hall, List.dropWhile_append_of_pos hall]
  rcases hrest with rfl | ⟨tail, rfl⟩
  · exact ⟨List.append_nil cs, rfl⟩
  · exact ⟨List.append_nil cs, rfl⟩

/-- Where no quoted character is met, a run ends at the next space. -/
theorem spell_run_of_quotedHead (hhead : quotedHead (c :: cs ++ rest) = none) (hcs : ' ' ∉ c :: cs)
    (hrest : AtBoundary rest) :
    spell offset (c :: cs ++ rest) =
      (.run (c :: cs), offset) :: spell (offset + (c :: cs).length) rest := by
  have hc : c ≠ ' ' := fun hc => hcs (hc ▸ List.mem_cons_self)
  obtain ⟨htake, hdrop⟩ := takeWhile_append_boundary (fun h => hcs (List.mem_cons_of_mem c h)) hrest
  rw [List.cons_append] at hhead ⊢
  rw [spell, if_neg hc]
  split
  · next h =>
    rw [hhead] at h
    cases h
  · dsimp only
    rw [htake, hdrop]

/-- A run that does not start with a quote ends at the next space. -/
theorem spell_run (hquote : c ≠ '\'') (hcs : ' ' ∉ c :: cs) (hrest : AtBoundary rest) :
    spell offset (c :: cs ++ rest) =
      (.run (c :: cs), offset) :: spell (offset + (c :: cs).length) rest := by
  refine spell_run_of_quotedHead ?_ hcs hrest
  unfold quotedHead
  split
  · next h => exact absurd (List.cons.inj h).1 hquote
  · next h => exact absurd (List.cons.inj h).1 hquote
  · rfl

/-- The characters that can be written bare are neither quotes nor spaces. -/
theorem ne_of_needsQuotes_eq_false (h : needsQuotes c = false) : c ≠ '\'' ∧ c ≠ ' ' := by
  refine ⟨?_, ?_⟩
  · rintro rfl
    exact absurd h (by decide)
  · rintro rfl
    exact absurd h (by decide)

/-- **One written word** is cut off where it ends. -/
theorem spell_text (hrest : AtBoundary rest) :
    spell offset (word.text ++ rest) =
      (word.spelling, offset) :: spell (offset + word.text.length) rest := by
  cases word with
  | keyword k =>
    -- no keyword has a quote or a space in it
    rcases k with (_ | _) | (_ | _ | _) <;> exact spell_run (by decide) (by decide) hrest
  | eps | void => exact spell_run (by decide) (by decide) hrest
  | lit c =>
    rw [Word.text, Word.spelling]
    by_cases hc : needsQuotes c = true
    · rw [if_pos hc, if_pos hc]
      exact spell_quoted hrest
    · rw [if_neg hc, if_neg hc]
      obtain ⟨hquote, hspace⟩ := ne_of_needsQuotes_eq_false (Bool.eq_false_iff.2 hc)
      exact spell_run hquote (fun h => hspace (List.mem_singleton.1 h).symm) hrest
  | quoted c => exact spell_quoted hrest

/-- **Words written with single spaces between them** are cut into the same words. -/
theorem spell_intercalate :
    (spell offset ([' '].intercalate (ws.map Word.text))).map Prod.fst =
      ws.map Word.spelling := by
  induction ws generalizing offset with
  | nil => rw [List.map_nil, List.intercalate_nil, spell]; rfl
  | cons word ws ih =>
    -- the last word ends with the text, and the others before a space
    cases ws with
    | nil =>
      have hword : spell offset (word.text ++ []) =
          (word.spelling, offset) :: spell (offset + word.text.length) [] := spell_text (.inl rfl)
      rw [List.append_nil] at hword
      rw [List.map_singleton, List.intercalate_singleton, hword, spell]
      rfl
    | cons next ws =>
      rw [List.map_cons, List.map_cons, List.intercalate_cons_cons, List.append_assoc,
        ← List.map_cons, List.singleton_append, spell_text (.inr ⟨_, rfl⟩), List.map_cons, spell,
        if_pos rfl, ih]
      rfl

/-! ### Recognising words -/

/-- **The word as it is read back**: a literal that cannot stand bare has become a quoted one. -/
def Word.normal : Word → Word
  | lit c => if needsQuotes c then quoted c else lit c
  | word => word

/-- A run of one character is no keyword. -/
theorem find_keywords_singleton : (keywords.find? fun k => k.text.toList == [c]) = none := by
  refine List.find?_eq_none.2 fun k _ hk => ?_
  have hlength : k.text.toList.length = 1 := by rw [eq_of_beq hk, List.length_singleton]
  rcases k with (_ | _) | (_ | _ | _) <;> exact absurd hlength (by decide)

theorem identify_singleton :
    identify [c] = some (if needsQuotes c then .quoted c else .lit c) := by
  have heps : [c] ≠ ['e', 'p', 's'] := fun h => by cases h
  have hvoid : [c] ≠ ['v', 'o', 'i', 'd'] := fun h => by cases h
  rw [identify, find_keywords_singleton]
  dsimp only
  rw [if_neg heps, if_neg hvoid]

/-- **Keywords are recognised**, and no keyword is taken for another. -/
theorem identify_keyword (k : Keyword) : identify k.text.toList = some (.keyword k) := by
  rcases k with (_ | _) | (_ | _ | _) <;> decide

/-- **A word as it is met** is recognised. -/
theorem identifyAll_cons (found : List (Spelling × Nat)) :
    identifyAll ((word.spelling, offset) :: found) =
      (identifyAll found).map ((word.normal, offset) :: ·) := by
  cases word with
  | keyword k =>
    rw [Word.spelling, identifyAll, identify_keyword]
    rfl
  | eps => rfl
  | void => rfl
  | lit c =>
    rw [Word.spelling, Word.normal]
    by_cases hc : needsQuotes c = true
    · rw [if_pos hc, if_pos hc, identifyAll]
    · rw [if_neg hc, if_neg hc, identifyAll, identify_singleton, if_neg hc]
  | quoted c => rfl

/-- **Written words are recognised**, each as it is read back. -/
theorem identifyAll_spellings {found : List (Spelling × Nat)}
    (h : found.map Prod.fst = ws.map Word.spelling) :
    ∃ words, identifyAll found = .ok words ∧ words.map Prod.fst = ws.map Word.normal := by
  induction ws generalizing found with
  | nil =>
    rw [List.map_nil, List.map_eq_nil_iff] at h
    rw [h]
    exact ⟨[], rfl, rfl⟩
  | cons word ws ih =>
    obtain ⟨⟨spelling, offset⟩, found, rfl, rfl, hfound⟩ := List.map_eq_cons_iff.1 h
    obtain ⟨words, hwords, hfst⟩ := ih hfound
    refine ⟨(word.normal, offset) :: words, ?_, ?_⟩
    · rw [identifyAll_cons, hwords]
      rfl
    · rw [List.map_cons, List.map_cons, hfst]

/-! ### Putting trees together -/

variable {r : Regex} {found tail : List (Word × Nat)} {stack : List Regex}

/-- The words that are read back are those of the tree in which literals are quoted where they have
to be. -/
theorem map_normal_words (r : Regex) : (words r).map Word.normal = words r.normalize := by
  induction r with
  | union l r ihl ihr | concat l r ihl ihr =>
    rw [words, List.map_cons, List.map_append, ihl, ihr]
    rfl
  | star r ih | plus r ih | maybe r ih =>
    rw [words, List.map_cons, ih]
    rfl
  | eps | void | quoted => rfl
  | lit c =>
    show [if needsQuotes c then Word.quoted c else .lit c] = words (ofChar c)
    unfold ofChar
    split <;> rfl

/-- **The words of a tree push the tree** on what the words after them leave. -/
theorem assemble_words (h : found.map Prod.fst = words r) (htail : assemble tail = .ok stack) :
    assemble (found ++ tail) = .ok (r :: stack) := by
  induction r generalizing found tail stack with
  | union l r ihl ihr | concat l r ihl ihr =>
    -- a keyword, the words of the left operand, and those of the right one
    obtain ⟨⟨word, offset⟩, operands, rfl, rfl, hoperands⟩ := List.map_eq_cons_iff.1 h
    obtain ⟨left, right, rfl, hleft, hright⟩ := List.map_eq_append_iff.1 hoperands
    have hstack := ihl hleft (ihr hright htail)
    rw [List.cons_append, List.append_assoc, assemble, hstack]
    rfl
  | star r ih | plus r ih | maybe r ih =>
    obtain ⟨⟨word, offset⟩, operand, rfl, rfl, hoperand⟩ := List.map_eq_cons_iff.1 h
    rw [List.cons_append, assemble, ih hoperand htail]
    rfl
  | eps | void | lit | quoted =>
    obtain ⟨⟨word, offset⟩, none, rfl, rfl, hnone⟩ := List.map_eq_cons_iff.1 h
    obtain rfl := List.map_eq_nil_iff.1 hnone
    rw [List.singleton_append, assemble, htail]
    rfl

/-- **Reading undoes writing**, except that literals which cannot be written bare come back
quoted. -/
theorem read_render (r : Regex) : read (render r) = .ok r.normalize := by
  have hspell : (spell 0 (render r)).map Prod.fst = (words r).map Word.spelling :=
    spell_intercalate
  obtain ⟨found, hfound, hfst⟩ := identifyAll_spellings hspell
  rw [map_normal_words] at hfst
  have hassemble : assemble (found ++ []) = .ok [r.normalize] := assemble_words hfst rfl
  rw [List.append_nil] at hassemble
  rw [read, hfound]
  show (assemble found >>= _) = _
  rw [hassemble]
  rfl

end LexerGen.Prenex
