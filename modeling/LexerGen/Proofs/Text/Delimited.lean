import LexerGen.Text.Quoted
import Mathlib.Tactic.SplitIfs

/-!
# Texts that say where they end

Two things that are written the same are the same thing only if nothing is lost in writing, and two
things that are written in front of something else only if it can also be told where they end. A way
of writing with both properties is `SelfDelimiting`. It may be used for one thing after another, as
long as what comes last cannot be taken for one more of them (`SelfDelimiting.flatMap_inj`).

Quoted text is such a way of writing (`selfDelimiting_quoted`), and every format rests on this that
shows arbitrary text. A character is written bare, or as a backslash and a letter, or as its number
(`escapeChar_cases`), and in each of these the first characters say which of them it is. No use is
made of which characters are printable. A tab has a letter, so there is none in quoted text
(`tab_not_mem_quoted`), and what follows the last tab can be found without reading what is before.
-/

namespace LexerGen.Text

/-! ### Self-delimiting writing -/

section SelfDelimiting

variable {α : Type} {P : α → Prop} {write : α → List Char} {l m : List α} {u v : List Char}

/-- **Self-delimiting writing.** Things with the property `P` that are written the same in front of
anything are the same, and so is what follows them. -/
def SelfDelimiting (P : α → Prop) (write : α → List Char) : Prop :=
  ∀ a b, P a → P b → ∀ u v, write a ++ u = write b ++ v → a = b ∧ u = v

/-- **A text that nothing written starts.** -/
def Closing (P : α → Prop) (write : α → List Char) (u : List Char) : Prop :=
  ∀ a, P a → ∀ s, write a ++ s ≠ u

/-- **One thing after another** can be told from what is written, down to the text that closes the
list. -/
theorem SelfDelimiting.flatMap_inj (hwrite : SelfDelimiting P write) (hl : ∀ a ∈ l, P a)
    (hm : ∀ a ∈ m, P a) (hu : Closing P write u) (hv : Closing P write v)
    (h : l.flatMap write ++ u = m.flatMap write ++ v) : l = m ∧ u = v := by
  induction l generalizing m with
  | nil =>
    cases m with
    | nil => exact ⟨rfl, h⟩
    | cons b m =>
      -- the second list would go on where the first is closed
      rw [List.flatMap_nil, List.nil_append, List.flatMap_cons, List.append_assoc] at h
      exact absurd h.symm (hu b (hm b List.mem_cons_self) _)
  | cons a l ih =>
    rw [List.forall_mem_cons] at hl
    cases m with
    | nil =>
      rw [List.flatMap_nil, List.nil_append, List.flatMap_cons, List.append_assoc] at h
      exact absurd h (hv a hl.1 _)
    | cons b m =>
      rw [List.forall_mem_cons] at hm
      rw [List.flatMap_cons, List.flatMap_cons, List.append_assoc, List.append_assoc] at h
      obtain ⟨rfl, hrest⟩ := hwrite a b hl.1 hm.1 _ _ h
      obtain ⟨rfl, rfl⟩ := ih hl.2 hm.2 hrest
      exact ⟨rfl, rfl⟩

/-- **A text up to the first occurrence of a character** is self-delimiting. -/
theorem selfDelimiting_until (stop : Char) :
    SelfDelimiting (fun s : List Char => stop ∉ s) (· ++ [stop]) := by
  intro s t hs ht u v h
  rw [List.append_assoc, List.append_assoc] at h
  induction s generalizing t with
  | nil =>
    cases t with
    | nil => exact ⟨rfl, (List.cons.inj h).2⟩
    | cons d t => exact absurd (List.cons.inj h).1 (List.ne_of_not_mem_cons ht)
  | cons c s ih =>
    cases t with
    | nil => exact absurd (List.cons.inj h).1.symm (List.ne_of_not_mem_cons hs)
    | cons d t =>
      obtain ⟨rfl, hrest⟩ := List.cons.inj h
      obtain ⟨rfl, rfl⟩ := ih t (List.not_mem_of_not_mem_cons hs)
        (List.not_mem_of_not_mem_cons ht) hrest
      exact ⟨rfl, rfl⟩

end SelfDelimiting

/-! ### Hexadecimal numbers -/

theorem hexDigits_of_lt {n : Nat} (h : n < 16) : hexDigits n = [n.digitChar] :=
  Nat.toDigits_of_lt_base h

theorem hexDigits_of_le {n : Nat} (h : 16 ≤ n) :
    hexDigits n = hexDigits (n / 16) ++ [(n % 16).digitChar] :=
  Nat.toDigits_of_base_le (by decide) h

/-- **Different numbers have different digits.** -/
theorem hexDigits_inj {m n : Nat} (h : hexDigits m = hexDigits n) : m = n := by
  have hdigit : ∀ m < 16, ∀ n < 16, Nat.digitChar m = Nat.digitChar n → m = n := by decide
  -- a number of one digit differs from all that have something in front of their last digit
  have hlength : ∀ m < 16, ∀ n, 16 ≤ n → hexDigits m ≠ hexDigits n := by
    intro m hm n hn h
    rw [hexDigits_of_lt hm, hexDigits_of_le hn, ← List.nil_append [m.digitChar]] at h
    have hnil : [] = hexDigits (n / 16) := (List.append_inj' h rfl).1
    exact Nat.toDigits_ne_nil hnil.symm
  induction m using Nat.strongRecOn generalizing n with
  | ind m ih =>
    rcases Nat.lt_or_ge m 16 with hm | hm <;> rcases Nat.lt_or_ge n 16 with hn | hn
    · rw [hexDigits_of_lt hm, hexDigits_of_lt hn] at h
      exact hdigit m hm n hn (List.singleton_inj.1 h)
    · exact absurd h (hlength m hm n hn)
    · exact absurd h.symm (hlength n hn m hm)
    · rw [hexDigits_of_le hm, hexDigits_of_le hn] at h
      obtain ⟨hleft, hlast⟩ := List.append_inj' h rfl
      have hquotient := ih (m / 16) (by omega) hleft
      have hremainder := hdigit (m % 16) (by omega) (n % 16) (by omega) (List.singleton_inj.1 hlast)
      omega

/-- A character that is no digit does not occur in a number. -/
theorem not_mem_hexDigits {c : Char} (hc : ∀ n < 16, c ≠ Nat.digitChar n) (n : Nat) :
    c ∉ hexDigits n := by
  induction n using Nat.strongRecOn with
  | ind n ih =>
    by_cases hn : n < 16
    · rw [hexDigits_of_lt hn, List.mem_singleton]
      exact hc n hn
    · rw [hexDigits_of_le (by omega), List.mem_append, List.mem_singleton, not_or]
      exact ⟨ih (n / 16) (by omega), hc (n % 16) (by omega)⟩

/-- The brace that ends a number is none of its digits. -/
theorem brace_not_mem_hexDigits (n : Nat) : '\x7d' ∉ hexDigits n :=
  not_mem_hexDigits (by decide) n

/-! ### Escaped characters -/

variable {style : QuoteStyle} {c : Char}

/-- What a backslash and a letter stand for. -/
def meaning (letter : Char) : Char :=
  match letter with
  | '0' => '\x00'
  | 't' => '\t'
  | 'n' => '\n'
  | 'r' => '\r'
  | letter => letter

/-- **The three ways to write a character**: bare, as a letter or as a number. -/
theorem escapeChar_cases (style : QuoteStyle) (c : Char) :
    (escapeChar style c = [c] ∧ c ≠ '\\') ∨
    (∃ letter, escapeChar style c = ['\\', letter] ∧ letter ≠ 'u' ∧ meaning letter = c) ∨
    escapeChar style c = '\\' :: 'u' :: '\x7b' :: (hexDigits c.toNat ++ ['\x7d']) := by
  obtain ⟨written, hwritten⟩ : ∃ written, escapeChar style c = written := ⟨_, rfl⟩
  rw [hwritten]
  unfold escapeChar at hwritten
  split_ifs at hwritten with hnul htab hfeed hreturn hbackslash hquote hprintable <;> subst hwritten
  · exact .inr (.inl ⟨'0', rfl, by decide, hnul.symm⟩)
  · exact .inr (.inl ⟨'t', rfl, by decide, htab.symm⟩)
  · exact .inr (.inl ⟨'n', rfl, by decide, hfeed.symm⟩)
  · exact .inr (.inl ⟨'r', rfl, by decide, hreturn.symm⟩)
  · exact .inr (.inl ⟨'\\', rfl, by decide, hbackslash.symm⟩)
  · -- a quote mark stands for itself behind a backslash
    rcases hquote with ⟨rfl, -⟩ | ⟨rfl, -⟩
    · exact .inr (.inl ⟨'\'', rfl, by decide, rfl⟩)
    · exact .inr (.inl ⟨'"', rfl, by decide, rfl⟩)
  · exact .inl ⟨rfl, hbackslash⟩
  · exact .inr (.inr rfl)

/-- **An escaped character is self-delimiting**, whichever quote marks are escaped. -/
theorem selfDelimiting_escapeChar (style : QuoteStyle) :
    SelfDelimiting (fun _ => True) (escapeChar style) := by
  intro c d _ _ u v h
  rcases escapeChar_cases style c with ⟨hc, hc'⟩ | ⟨k, hc, hk, hmeaning⟩ | hc
  · rcases escapeChar_cases style d with ⟨hd, -⟩ | ⟨k', hd, -, -⟩ | hd
    · rw [hc, hd] at h
      exact List.cons.inj h
    all_goals
      rw [hc, hd] at h
      exact absurd (List.cons.inj h).1 hc'
  · rcases escapeChar_cases style d with ⟨hd, hd'⟩ | ⟨k', hd, -, hmeaning'⟩ | hd
    · rw [hc, hd] at h
      exact absurd (List.cons.inj h).1.symm hd'
    · rw [hc, hd] at h
      obtain ⟨rfl, hrest⟩ := List.cons.inj (List.cons.inj h).2
      exact ⟨hmeaning.symm.trans hmeaning', hrest⟩
    · rw [hc, hd] at h
      exact absurd (List.cons.inj (List.cons.inj h).2).1 hk
  · rcases escapeChar_cases style d with ⟨hd, hd'⟩ | ⟨k', hd, hk', -⟩ | hd
    · rw [hc, hd] at h
      exact absurd (List.cons.inj h).1.symm hd'
    · rw [hc, hd] at h
      exact absurd (List.cons.inj (List.cons.inj h).2).1.symm hk'
    · rw [hc, hd] at h
      have hdigits := (List.cons.inj (List.cons.inj (List.cons.inj h).2).2).2
      obtain ⟨hnumber, hrest⟩ := selfDelimiting_until '\x7d' _ _
        (brace_not_mem_hexDigits _) (brace_not_mem_hexDigits _) _ _ hdigits
      exact ⟨Char.toNat_inj.1 (hexDigits_inj hnumber), hrest⟩

/-! ### Quoted text -/

/-- No character between double quotes starts with one. -/
theorem closing_quote (s : List Char) :
    Closing (fun _ => True) (escapeChar .text) ('"' :: s) := by
  intro c _ t h
  rcases escapeChar_cases .text c with ⟨hc, -⟩ | ⟨k, hc, -, -⟩ | hc
  · rw [hc] at h
    obtain rfl := (List.cons.inj h).1
    -- a double quote is not written bare
    exact absurd hc (by decide)
  all_goals
    rw [hc] at h
    exact absurd (List.cons.inj h).1 (by decide)

/-- **Quoted text is self-delimiting**: it ends at the first quote that is not escaped. -/
theorem selfDelimiting_quoted : SelfDelimiting (fun _ => True) quoted := by
  intro s t _ _ u v h
  unfold quoted escape at h
  rw [List.append_assoc, List.append_assoc] at h
  obtain ⟨hs, hrest⟩ := (selfDelimiting_escapeChar .text).flatMap_inj (fun _ _ => trivial)
    (fun _ _ => trivial) (closing_quote u) (closing_quote v) (List.cons.inj h).2
  exact ⟨hs, (List.cons.inj hrest).2⟩

/-- The same of strings. -/
theorem selfDelimiting_quoted_toList :
    SelfDelimiting (fun _ => True) fun s : String => quoted s.toList := by
  intro s t _ _ u v h
  obtain ⟨hs, hrest⟩ := selfDelimiting_quoted _ _ trivial trivial u v h
  exact ⟨String.toList_injective hs, hrest⟩

/-- A tab is not written bare. -/
theorem tab_not_mem_escapeChar (style : QuoteStyle) (c : Char) : '\t' ∉ escapeChar style c := by
  unfold escapeChar
  split_ifs with hnul htab hfeed hreturn hbackslash hquote hprintable
  · decide
  · decide
  · decide
  · decide
  · decide
  · rcases hquote with ⟨rfl, -⟩ | ⟨rfl, -⟩ <;> decide
  · rw [List.mem_singleton]
    exact Ne.symm htab
  · have hdigits : '\t' ∉ hexDigits c.toNat := not_mem_hexDigits (by decide) _
    simp [hdigits]

/-- **No tab occurs in quoted text.** -/
theorem tab_not_mem_quoted (s : List Char) : '\t' ∉ quoted s := by
  have hescape : '\t' ∉ escape .text s := by
    intro h
    obtain ⟨c, -, hc⟩ := List.mem_flatMap.1 h
    exact tab_not_mem_escapeChar .text c hc
  simp [quoted, hescape]

end LexerGen.Text
