import LexerGen.Proofs.Pattern.Trees
import LexerGen.Proofs.Prenex.Reading

/-!
# What was read is read back as it is

Every tree can be written in prenex notation and read back, and only bare literals that need quotes
are changed on the way (`read_render`). Trees without such literals are `Writable`. The reader
recognises no character as a bare literal that needs quotes (`Recognized.writable`), and a tree is
writable if its words are (`writable_of_words`), so the tree that it returns is writable
(`writable_read`).

So writing and reading are inverse to each other on the trees that come from either notation.
-/

namespace LexerGen.Prenex

open Regex

variable {text : List Char} {spelling : Spelling} {word : Word} {r : Regex}

/-! ### Trees that were read -/

/-- A word that can be written as it is. -/
def Word.Writable : Word → Prop
  | lit c => needsQuotes c = false
  | keyword _ | eps | void | quoted _ => True

/-- **A character** is recognised as a bare literal only if it needs no quotes. -/
theorem Recognized.writable (h : Recognized spelling word) : word.Writable := by
  cases h with
  | bare hc => exact hc
  | quoted | keyword | eps | void | unsafeBare => exact trivial

theorem writable_of_means {found : List (Spelling × Nat)} {ws : List (Word × Nat)}
    (h : List.Forall₂ Means found ws) : ∀ word ∈ ws.map Prod.fst, word.Writable := by
  induction h with
  | nil => exact List.forall_mem_nil _
  | cons hmeans _ ih => exact List.forall_mem_cons.2 ⟨hmeans.1.writable, ih⟩

/-- **A tree of writable words** is writable. -/
theorem writable_of_words (h : ∀ word ∈ words r, word.Writable) : r.Writable := by
  induction r with
  | union l r ihl ihr | concat l r ihl ihr =>
    rw [words, List.forall_mem_cons, List.forall_mem_append] at h
    exact ⟨ihl h.2.1, ihr h.2.2⟩
  | star r ih | plus r ih | maybe r ih =>
    rw [words, List.forall_mem_cons] at h
    exact ih h.2
  | eps | void | quoted => exact trivial
  | lit c => exact h (.lit c) List.mem_cons_self

/-- **What is read from prenex text can be written.** -/
theorem writable_read (h : read text = .ok r) : r.Writable := by
  have hdictates := dictates_read text
  rw [h] at hdictates
  generalize spell 0 text = found at hdictates
  cases hdictates with
  | tree hmeans hwords =>
    refine writable_of_words ?_
    rw [← hwords]
    exact writable_of_means hmeans

/-! ### Reading and writing -/

theorem read_render_of_writable (h : r.Writable) : read (render r) = .ok r := by
  rw [read_render, normalize_of_writable h]

/-- **The text of a tree says which tree it is.** Every tree is read back, with quotes around the
bare literals that need them and no other change. Trees that were read, from a pattern or from
prenex text, have no such literals and are read back unchanged, and two different trees without
them never have the same text. -/
theorem reading_inverts_rendering :
    (∀ r, read (render r) = .ok r.normalize) ∧
    (∀ text r, Pattern.parse text = .ok r → r.Writable ∧ read (render r) = .ok r) ∧
    (∀ text r, read text = .ok r → r.Writable ∧ read (render r) = .ok r) ∧
    ∀ r s, r.Writable → s.Writable → render r = render s → r = s := by
  refine ⟨read_render, fun text r h => ?_, fun text r h => ?_, fun r s hr hs h => ?_⟩
  · exact ⟨Pattern.writable_parse h, read_render_of_writable (Pattern.writable_parse h)⟩
  · exact ⟨writable_read h, read_render_of_writable (writable_read h)⟩
  · have hread : (.ok r : Except PatternError Regex) = .ok s := by
      rw [← read_render_of_writable hr, h, read_render_of_writable hs]
    exact Except.ok.inj hread

/-- A quote that was written bare, a quoted space that came from a pattern and a quoted quote that
came from prenex text, and two trees that differ in quotes only. -/
theorem reading_inverts_rendering_quotes :
    read (render (.concat (.lit '\'') (.lit 'a'))) = .ok (.concat (.quoted '\'') (.lit 'a')) ∧
    Pattern.parse ['\'', ' ', '\'', '*'] = .ok (.star (.quoted ' ')) ∧
    read (render (.star (.quoted ' '))) = .ok (.star (.quoted ' ')) ∧
    read ['\'', '\'', '\''] = .ok (.quoted '\'') ∧
    read (render (.quoted '\'')) = .ok (.quoted '\'') ∧
    render (.lit 'a') ≠ render (.quoted 'a') := by
  obtain ⟨hall, hparsed, hread, hinj⟩ := reading_inverts_rendering
  have hpattern : Pattern.parse ['\'', ' ', '\'', '*'] = .ok (.star (.quoted ' ')) := by cbv
  have hprenex : read ['\'', '\'', '\''] = .ok (.quoted '\'') := by cbv
  refine ⟨hall _, hpattern, (hparsed _ _ hpattern).2, hprenex, (hread _ _ hprenex).2, fun h => ?_⟩
  cases hinj (.lit 'a') (.quoted 'a') (show needsQuotes 'a' = false by decide) trivial h

end LexerGen.Prenex
