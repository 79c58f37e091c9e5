import LexerGen.Regex.Language
import LexerGen.Token

/-!
# What a tokenization is

The tokens of a text are fixed by the languages of the expressions alone; no automaton and no
scanner has a part in it. A list of *rules* gives each expression a name. A word is `Matched` if
it is a word of some rule, and its name is that of the first such rule (`FirstMatch`). The next
token of a text is its longest non-empty prefix that is matched (`IsNext`); after it the rest of
the text is cut in the same way, until no prefix is matched or nothing is left. `Tokenizes` says
this as a relation between a text, its tokens and what is left.

There is one tokenization at most (`Tokenizes.unique`): of two matched prefixes of the same text
that are both longest, each is as long as the other, and a word has one first match.
-/

namespace LexerGen

variable {rules : List (String × Regex)} {text u v w u' v' rest rest' : List Char}
  {name name' : String} {toks toks' : List Token}

/-! ### Words and rules -/

/-- **Some rule matches the word.** -/
def Matched (rules : List (String × Regex)) (w : List Char) : Prop := ∃ p ∈ rules, p.2.Matches w

/-- **The word can be continued** to one that some rule matches. -/
def Viable (rules : List (String × Regex)) (w : List Char) : Prop := ∃ v, Matched rules (w ++ v)

/-- **The name of the first rule that matches the word.** -/
inductive FirstMatch : List (String × Regex) → List Char → String → Prop
  | here {name : String} {r : Regex} {rules : List (String × Regex)} {w : List Char} :
      r.Matches w → FirstMatch ((name, r) :: rules) w name
  | later {p : String × Regex} {rules : List (String × Regex)} {w : List Char} {name : String} :
      ¬p.2.Matches w → FirstMatch rules w name → FirstMatch (p :: rules) w name

theorem FirstMatch.matched (h : FirstMatch rules w name) : Matched rules w := by
  induction h with
  | here hw => exact ⟨_, List.mem_cons_self, hw⟩
  | later _ _ ih =>
    obtain ⟨p, hp, hw⟩ := ih
    exact ⟨p, List.mem_cons_of_mem _ hp, hw⟩

theorem FirstMatch.unique (h : FirstMatch rules w name) (h' : FirstMatch rules w name') :
    name = name' := by
  -- a rule that matches cannot be passed over, so both end at the same rule
  induction h with
  | here hw =>
    cases h' with
    | here => rfl
    | later hnot => exact absurd hw hnot
  | later hnot _ ih =>
    cases h' with
    | here hw => exact absurd hw hnot
    | later _ h' => exact ih h'

/-- What can be continued was so before. -/
theorem Viable.of_append (h : Viable rules (u ++ v)) : Viable rules u := by
  obtain ⟨x, hx⟩ := h
  rw [List.append_assoc] at hx
  exact ⟨v ++ x, hx⟩

/-! ### The next token -/

/-- **No non-empty prefix is matched.** -/
def Unmatched (rules : List (String × Regex)) (text : List Char) : Prop :=
  ∀ u v, text = u ++ v → u ≠ [] → ¬Matched rules u

theorem unmatched_nil : Unmatched rules [] := by
  intro u v huv hu
  exact absurd (List.append_eq_nil_iff.1 huv.symm).1 hu

/-- **The next token of `u ++ v` is `u`**: it is not empty, it is matched, and no longer prefix
is. -/
structure IsNext (rules : List (String × Regex)) (u v : List Char) : Prop where
  ne_nil : u ≠ []
  matched : Matched rules u
  longest : ∀ u' v', u ++ v = u' ++ v' → Matched rules u' → u'.length ≤ u.length

theorem IsNext.unique (h : IsNext rules u v) (h' : IsNext rules u' v') (heq : u ++ v = u' ++ v') :
    u = u' ∧ v = v' := by
  have hle : u'.length ≤ u.length := h.longest u' v' heq h'.matched
  have hge : u.length ≤ u'.length := h'.longest u v heq.symm h.matched
  exact List.append_inj heq (Nat.le_antisymm hge hle)

/-! ### All tokens -/

/-- **The tokens of a text**, and what is left where no prefix is matched. -/
inductive Tokenizes (rules : List (String × Regex)) :
    List Char → List Token → List Char → Prop
  /-- Where no prefix is matched, there is no token. -/
  | stop {text : List Char} : Unmatched rules text → Tokenizes rules text [] text
  /-- The next token, and then those of the text after it. -/
  | token {u v rest : List Char} {name : String} {toks : List Token} :
      IsNext rules u v → FirstMatch rules u name → Tokenizes rules v toks rest →
      Tokenizes rules (u ++ v) (⟨name, u⟩ :: toks) rest

/-- **A text has one tokenization at most.** -/
theorem Tokenizes.unique (h : Tokenizes rules text toks rest)
    (h' : Tokenizes rules text toks' rest') : toks = toks' ∧ rest = rest' := by
  induction h generalizing toks' rest' with
  | stop hnone =>
    cases h' with
    | stop => exact ⟨rfl, rfl⟩
    | token hnext => exact absurd hnext.matched (hnone _ _ rfl hnext.ne_nil)
  | @token u v rest name toks hnext hname _ ih =>
    -- the text is cut at the same place, and so is what follows
    generalize htext : u ++ v = text at h'
    cases h' with
    | stop hnone => exact absurd hnext.matched (hnone u v htext.symm hnext.ne_nil)
    | token hnext' hname' hrest' =>
      obtain ⟨rfl, rfl⟩ := hnext.unique hnext' htext
      obtain ⟨rfl, rfl⟩ := ih hrest'
      rw [hname.unique hname']
      exact ⟨rfl, rfl⟩

/-- **The name of a token is fixed by its lexeme**, wherever in the text that is. -/
theorem Tokenizes.firstMatch (h : Tokenizes rules text toks rest) :
    ∀ tok ∈ toks, FirstMatch rules tok.lexeme tok.name := by
  induction h with
  | stop => exact List.forall_mem_nil _
  | token _ hname _ ih => exact List.forall_mem_cons.2 ⟨hname, ih⟩

/-- **The lexemes and what is left** make up the text. -/
theorem Tokenizes.text_eq (h : Tokenizes rules text toks rest) :
    text = toks.flatMap Token.lexeme ++ rest := by
  induction h with
  | stop => rfl
  | token _ _ _ ih => rw [List.flatMap_cons, List.append_assoc, ← ih]

end LexerGen
