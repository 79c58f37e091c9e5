import LexerGen.Proofs.Prenex.Spelling

/-!
# What a prenex text is read as

The result of `read` is a matter of the words of the text alone, and `Dictates` says which result
they dictate. A run that means nothing comes first. If all words are known, they are compared with
the preorder words of trees: no words, the words of one tree, and the words of several trees one
after the other have a result each, and in every other case some keyword *lacks* operands. The
words after it do not begin with as many complete expressions as it takes, and of all such keywords
the rightmost is reported.

`assemble` goes through the words from right to left, so what it has on its stack are trees whose
words, one after the other, are all the words that it has met (`assemble_eq_ok_iff`). If a keyword
finds too few of them, then no other way of dividing the words after it finds more, because no
tree's words are the beginning of another's (`exists_append_of_flatMap_words`), and the keywords
further right had what they needed (`assemble_eq_error_iff`).
-/

namespace LexerGen

/-- The number of operands that a keyword takes. -/
def Keyword.arity : Keyword → Nat
  | .binary _ => 2
  | .quantifier _ => 1

namespace Prenex

open Regex

variable {r s : Regex} {rs ss stack stack' : List Regex} {word : Word} {offset : Nat}
  {u v rest : List Word} {ws : List (Word × Nat)} {found : List (Spelling × Nat)}
  {e : PatternError} {result : Except PatternError Regex}

/-! ### Words say which trees they are of -/

theorem words_ne_nil (r : Regex) : words r ≠ [] := by
  cases r <;> simp [words]

/-- **Where the words of a tree end** is determined by the words themselves. -/
theorem words_append_inj (h : words r ++ u = words s ++ v) : r = s ∧ u = v := by
  induction r generalizing s u v with
  | union l r ihl ihr | concat l r ihl ihr =>
    -- only a tree with the same root starts with the same keyword
    cases s <;> simp only [words, List.cons_append, List.append_assoc, List.nil_append,
      List.cons.injEq, Word.keyword.injEq, Keyword.binary.injEq, reduceCtorEq, true_and,
      false_and] at h
    next l' r' =>
    obtain ⟨rfl, hright⟩ := ihl h
    obtain ⟨rfl, rfl⟩ := ihr hright
    exact ⟨rfl, rfl⟩
  | star r ih | plus r ih | maybe r ih =>
    cases s <;> simp only [words, List.cons_append, List.nil_append, List.cons.injEq,
      Word.keyword.injEq, Keyword.quantifier.injEq, reduceCtorEq, true_and, false_and] at h
    next r' =>
    obtain ⟨rfl, rfl⟩ := ih h
    exact ⟨rfl, rfl⟩
  | eps | void | lit c | quoted c =>
    -- a leaf is one word, and no other tree starts with it
    cases s <;> simp_all [words]

/-- **Complete expressions at the beginning of others** are the first of these. -/
theorem exists_append_of_flatMap_words (h : rs.flatMap words ++ rest = ss.flatMap words) :
    ∃ ts, ss = rs ++ ts := by
  induction rs generalizing ss with
  | nil => exact ⟨ss, rfl⟩
  | cons r rs ih =>
    cases ss with
    | nil => simp [words_ne_nil] at h
    | cons s ss =>
      rw [List.flatMap_cons, List.flatMap_cons, List.append_assoc] at h
      obtain ⟨rfl, hrest⟩ := words_append_inj h
      obtain ⟨ts, rfl⟩ := ih hrest
      exact ⟨ts, rfl⟩

theorem flatMap_words_injective : Function.Injective (List.flatMap words) := by
  intro rs ss h
  have happend : rs.flatMap words ++ [] = ss.flatMap words := (List.append_nil _).trans h
  obtain ⟨ts, rfl⟩ := exists_append_of_flatMap_words happend
  -- what is left over has no words
  cases ts with
  | nil => rw [List.append_nil]
  | cons t ts => simp [words_ne_nil] at h

/-! ### Words from right to left -/

/-- **One word** is put before the words of the expressions that follow it. -/
theorem flatMap_words_of_push (h : push word offset stack = .ok stack') :
    stack'.flatMap words = word :: stack.flatMap words := by
  unfold push at h
  split at h <;> cases h
  case h_1 | h_2 | h_3 | h_4 => rfl
  case h_5 op l r rest => cases op <;> simp [BinaryOp.apply, words]
  case h_6 q r rest => cases q <;> simp [Quantifier.apply, words]

theorem push_eq_error_iff : push word offset stack = .error e ↔
    ∃ k, word = .keyword k ∧ stack.length < k.arity ∧ e = .missingPrenexOperand k offset := by
  constructor
  · intro h
    unfold push at h
    split at h <;> cases h
    next k hbinary hquantifier =>
    refine ⟨k, rfl, ?_, rfl⟩
    cases k with
    | binary op =>
      -- two operands would have been taken
      match stack, hbinary with
      | [], _ => exact Nat.zero_lt_two
      | [_], _ => exact Nat.one_lt_two
      | l :: r :: rest, hbinary => exact absurd rfl (hbinary op l r rest rfl)
    | quantifier q =>
      cases stack with
      | nil => exact Nat.zero_lt_one
      | cons r rest => exact absurd rfl (hquantifier q r rest rfl)
  · rintro ⟨k, rfl, hlt, rfl⟩
    match k, stack, hlt with
    | .binary _, [], _ => rfl
    | .binary _, [_], _ => rfl
    | .quantifier _, [], _ => rfl

/-- **Words are put together** just if they are those of trees, one tree after the other. -/
theorem assemble_eq_ok_iff : assemble ws = .ok rs ↔ ws.map Prod.fst = rs.flatMap words := by
  constructor
  · intro h
    induction ws generalizing rs with
    | nil =>
      cases h
      rfl
    | cons w ws ih =>
      obtain ⟨stack, hstack, hpush⟩ := bind_eq_ok.1 h
      rw [flatMap_words_of_push hpush, ← ih hstack, List.map_cons]
  · intro h
    induction rs generalizing ws with
    | nil =>
      rw [List.map_eq_nil_iff.1 h]
      rfl
    | cons r rs ih =>
      obtain ⟨ws, tail, rfl, hws, htail⟩ := List.map_eq_append_iff.1 h
      exact assemble_words hws (ih htail)

/-! ### Keywords without operands -/

/-- The words after a keyword begin with fewer complete expressions than it takes. -/
def Lacking (k : Keyword) (after : List (Word × Nat)) : Prop :=
  ∀ (rs : List Regex) (rest : List Word),
    after.map Prod.fst = rs.flatMap words ++ rest → rs.length < k.arity

/-- No keyword lacks operands. -/
def Complete (ws : List (Word × Nat)) : Prop :=
  ∀ before k offset after, ws = before ++ (.keyword k, offset) :: after → ¬Lacking k after

/-- **The rightmost keyword that lacks operands**, with its offset. -/
def RightmostLacking (ws : List (Word × Nat)) (k : Keyword) (offset : Nat) : Prop :=
  ∃ before after, ws = before ++ (.keyword k, offset) :: after ∧ Lacking k after ∧ Complete after

/-- **After complete expressions** a keyword lacks operands if these are too few. -/
theorem lacking_iff (h : ws.map Prod.fst = rs.flatMap words) (k : Keyword) :
    Lacking k ws ↔ rs.length < k.arity := by
  constructor
  · intro hlacking
    exact hlacking rs [] (by rw [h, List.append_nil])
  · intro hlt ss rest hss
    rw [h] at hss
    obtain ⟨ts, rfl⟩ := exists_append_of_flatMap_words hss.symm
    rw [List.length_append] at hlt
    omega

/-- Words that are put together lack nothing. -/
theorem complete_of_assemble (h : assemble ws = .ok rs) : Complete ws := by
  rintro before k offset after rfl hlacking
  induction before generalizing rs with
  | nil =>
    obtain ⟨stack, hstack, hpush⟩ := bind_eq_ok.1 h
    have hlt := (lacking_iff (assemble_eq_ok_iff.1 hstack) k).1 hlacking
    rw [push_eq_error_iff.2 ⟨k, rfl, hlt, rfl⟩] at hpush
    cases hpush
  | cons w before ih =>
    -- the words further right are put together first
    obtain ⟨stack, hstack, -⟩ := bind_eq_ok.1 h
    exact ih hstack

theorem exists_rightmostLacking_of_assemble (h : assemble ws = .error e) :
    ∃ k offset, RightmostLacking ws k offset ∧ e = .missingPrenexOperand k offset := by
  induction ws with
  | nil => cases h
  | cons w ws ih =>
    obtain ⟨word, offset⟩ := w
    rcases bind_eq_error.1 h with hws | ⟨stack, hstack, hpush⟩
    · obtain ⟨k, place, ⟨before, after, rfl, hafter⟩, he⟩ := ih hws
      exact ⟨k, place, ⟨(word, offset) :: before, after, rfl, hafter⟩, he⟩
    · -- what is further right was put together, so it is this keyword that lacks operands
      obtain ⟨k, rfl, hlt, he⟩ := push_eq_error_iff.1 hpush
      have hlacking := (lacking_iff (assemble_eq_ok_iff.1 hstack) k).2 hlt
      exact ⟨k, offset, ⟨[], ws, rfl, hlacking, complete_of_assemble hstack⟩, he⟩

/-- **Words that lack nothing** are those of trees, one tree after the other. -/
theorem exists_assemble_of_complete (h : Complete ws) : ∃ rs, assemble ws = .ok rs := by
  cases hws : assemble ws with
  | ok rs => exact ⟨rs, rfl⟩
  | error e =>
    obtain ⟨k, offset, ⟨before, after, hsplit, hlacking, -⟩, -⟩ :=
      exists_rightmostLacking_of_assemble hws
    exact absurd hlacking (h before k offset after hsplit)

/-- **The rightmost keyword that lacks operands** is reported. -/
theorem assemble_eq_error_iff : assemble ws = .error e ↔
    ∃ k offset, RightmostLacking ws k offset ∧ e = .missingPrenexOperand k offset := by
  constructor
  · exact exists_rightmostLacking_of_assemble
  · rintro ⟨k, offset, ⟨before, after, rfl, hlacking, hcomplete⟩, rfl⟩
    induction before with
    | nil =>
      obtain ⟨stack, hstack⟩ := exists_assemble_of_complete hcomplete
      have hlt := (lacking_iff (assemble_eq_ok_iff.1 hstack) k).1 hlacking
      rw [List.nil_append, assemble, hstack]
      exact push_eq_error_iff.2 ⟨k, rfl, hlt, rfl⟩
    | cons w before ih =>
      rw [List.cons_append, assemble, ih]
      rfl

/-! ### The result -/

/-- **The result that the words of a text dictate.** -/
inductive Dictates : List (Spelling × Nat) → Except PatternError Regex → Prop
  /-- The leftmost run that means nothing is reported, whatever follows it. -/
  | unknown {found : List (Spelling × Nat)} {cs : List Char} {offset : Nat} :
      LeftmostUnknown found cs offset → Dictates found (.error (.unknownWord cs offset))
  | empty : Dictates [] (.error (.empty 0))
  /-- The words are those of one tree. -/
  | tree {found : List (Spelling × Nat)} {ws : List (Word × Nat)} {r : Regex} :
      List.Forall₂ Means found ws → ws.map Prod.fst = words r → Dictates found (.ok r)
  /-- The words are those of several trees. -/
  | trailing {found : List (Spelling × Nat)} {ws : List (Word × Nat)} {rs : List Regex}
      {extra : Nat} :
      List.Forall₂ Means found ws → ws.map Prod.fst = rs.flatMap words →
      rs.length = extra + 1 → 0 < extra →
      Dictates found (.error (.trailingOperands extra))
  /-- Some keyword lacks operands. -/
  | missing {found : List (Spelling × Nat)} {ws : List (Word × Nat)} {k : Keyword}
      {offset : Nat} :
      List.Forall₂ Means found ws → RightmostLacking ws k offset →
      Dictates found (.error (.missingPrenexOperand k offset))

theorem read_of_dictates {text : List Char} (hfound : spell 0 text = found)
    (h : Dictates found result) : read text = result := by
  unfold read
  rw [hfound]
  cases h with
  | unknown hunknown =>
    rw [identifyAll_eq_error_iff.2 ⟨_, _, hunknown, rfl⟩]
    rfl
  | empty => rfl
  | @tree _ ws r hmeans hws =>
    have hassemble : assemble ws = .ok [r] := by
      rw [assemble_eq_ok_iff, hws, List.flatMap_singleton]
    rw [identifyAll_eq_ok_iff.2 hmeans]
    show (assemble ws >>= _) = _
    rw [hassemble]
    rfl
  | @trailing _ ws rs extra hmeans hws hlength hpos =>
    rw [identifyAll_eq_ok_iff.2 hmeans]
    show (assemble ws >>= _) = _
    rw [assemble_eq_ok_iff.2 hws]
    match rs, hlength with
    | _ :: r :: rs, hlength =>
      obtain rfl : extra = rs.length + 1 := by simpa using hlength.symm
      rfl
    | [_], hlength => simp at hlength; omega
  | @missing _ ws k offset hmeans hlacking =>
    rw [identifyAll_eq_ok_iff.2 hmeans]
    show (assemble ws >>= _) = _
    rw [assemble_eq_error_iff.2 ⟨k, offset, hlacking, rfl⟩]
    rfl

theorem dictates_read (text : List Char) : Dictates (spell 0 text) (read text) := by
  unfold read
  cases hidentify : identifyAll (spell 0 text) with
  | error e =>
    obtain ⟨cs, offset, hunknown, rfl⟩ := identifyAll_eq_error_iff.1 hidentify
    exact .unknown hunknown
  | ok ws =>
    have hmeans := identifyAll_eq_ok_iff.1 hidentify
    show Dictates _ (assemble ws >>= _)
    cases hassemble : assemble ws with
    | error e =>
      obtain ⟨k, offset, hlacking, rfl⟩ := assemble_eq_error_iff.1 hassemble
      exact .missing hmeans hlacking
    | ok rs =>
      have hws := assemble_eq_ok_iff.1 hassemble
      match rs, hws with
      | [], hws =>
        -- without trees there are no words, and nothing was met
        obtain rfl := List.map_eq_nil_iff.1 hws
        rw [List.forall₂_nil_right_iff.1 hmeans]
        exact .empty
      | [r], hws => exact .tree hmeans (by rw [hws, List.flatMap_singleton])
      | _ :: r :: rs, hws => exact .trailing hmeans hws rfl (Nat.succ_pos _)

/-- **Reading is a matter of the words.** Every text is made of words in one way, and it is read as
what these dictate. Trees can be told from their words, also if several follow one another, so the
words dictate one result only. -/
theorem read_eq_iff_dictates :
    (∀ text, ∃ found, ∀ found', Spelled 0 text found' ↔ found' = found) ∧
    (∀ text result, read text = result ↔ ∃ found, Spelled 0 text found ∧ Dictates found result) ∧
    Function.Injective (List.flatMap words) := by
  refine ⟨fun text => ⟨spell 0 text, fun found => ?_⟩, fun text result => ⟨?_, ?_⟩,
    flatMap_words_injective⟩
  · rw [← spell_eq_iff]
    exact eq_comm
  · rintro rfl
    exact ⟨spell 0 text, spelled_spell 0 text, dictates_read text⟩
  · rintro ⟨found, hfound, hdictates⟩
    exact read_of_dictates (spell_eq_iff.2 hfound) hdictates

/-- Both keywords lack operands, and the right one is reported; the quote means itself. -/
example : read ['S', 'T', 'A', 'R', ' ', 'U', 'N', 'I', 'O', 'N', ' ', '\''] =
    .error (.missingPrenexOperand (.binary .union) 5) := by cbv

end Prenex

end LexerGen
