import LexerGen.Proofs.Pattern.Grammar
import LexerGen.Regex.Forms

/-!
# The trees that patterns denote

A pattern that is read puts its tree together from the operands that it writes down, by the five
operators. So a property of trees holds of every tree that is read, if it holds of the operands
that can be written and passes from the operands of an operator to its result. `Compositional`
collects these conditions, and `forall_parse` is the conclusion. It needs nothing about the yard:
what is read is what the grammar derives, and a derivation has one case for each operand and each
operator (`Derives.holds`).

Two properties matter for what is compiled later: no part of the tree denotes the empty language
(`voidFree_parse`), and every bare literal can be written bare (`writable_parse`).
-/

namespace LexerGen.Pattern

open Regex

/-- **Properties that reading a pattern provides**: written operands have them, and operators pass
them on. -/
structure Compositional (P : Regex → Prop) : Prop where
  binary : ∀ op l r, P l → P r → P (BinaryOp.apply op l r)
  quantifier : ∀ q r, P r → P (Quantifier.apply q r)
  eps : P .eps
  quoted : ∀ c, P (.quoted c)
  ofChar : ∀ c, P (ofChar c)
  classUnion : ∀ first last, isClass first last = true → P (classUnion first last)

variable {P : Regex → Prop} {text rest : List Char} {level : Level} {r : Regex}

theorem Derives.holds (hP : Compositional P) (h : Derives level text rest r) : P r := by
  induction h with
  | sequence _ ih | repetition _ ih | atom _ ih | group _ ih => exact ih
  | union _ _ hl hr => exact hP.binary .union _ _ hl hr
  | concat _ _ hl hr => exact hP.binary .concat _ _ hl hr
  | star _ ih => exact hP.quantifier .star _ ih
  | plus _ ih => exact hP.quantifier .plus _ ih
  | maybe _ ih => exact hP.quantifier .maybe _ ih
  | charClass hclass => exact hP.classUnion _ _ hclass
  | quoted => exact hP.quoted _
  | eps => exact hP.eps
  | bare hpunctuation hblank hcontrol _ =>
    rw [← ofChar_of_visible hpunctuation hblank hcontrol]
    exact hP.ofChar _
  | invisible => exact hP.quoted _

/-- **What holds of written operands and passes through operators** holds of every tree that is
read. -/
theorem forall_parse (hP : Compositional P) (h : parse text = .ok r) : P r :=
  (parse_eq_ok_iff.1 h).holds hP

/-! ### No part is void -/

theorem voidFree_ofChar (c : Char) : VoidFree (ofChar c) := by
  unfold ofChar
  split <;> exact trivial

theorem voidFree_anyOf (c : Char) (cs : List Char) : VoidFree (anyOf c cs) := by
  induction cs generalizing c with
  | nil => exact trivial
  | cons d ds ih => exact ⟨trivial, ih d⟩

/-- **Patterns cannot denote a tree with a void part.** -/
theorem voidFree_parse (h : parse text = .ok r) : VoidFree r := by
  refine forall_parse ⟨?_, ?_, trivial, fun _ => trivial, voidFree_ofChar, ?_⟩ h
  · intro op l r hl hr
    cases op <;> exact ⟨hl, hr⟩
  · intro q r hr
    cases q <;> exact hr
  · exact fun _ _ _ => voidFree_anyOf _ _

/-! ### Every bare literal can be written bare -/

theorem writable_anyOf {c : Char} {cs : List Char} (h : ∀ d ∈ c :: cs, needsQuotes d = false) :
    Writable (anyOf c cs) := by
  induction cs generalizing c with
  | nil => exact h c List.mem_cons_self
  | cons d ds ih =>
    rw [List.forall_mem_cons] at h
    exact ⟨h.1, ih h.2⟩

/-- No digit and no letter has to be quoted. -/
theorem needsQuotes_of_mem_run : ∀ run ∈ classRuns,
    ∀ n ∈ List.range' run.1.toNat (run.2.toNat + 1 - run.1.toNat),
      needsQuotes (Char.ofNat n) = false := by
  decide

theorem writable_classUnion {first last : Char} (h : isClass first last = true) :
    Writable (classUnion first last) := by
  obtain ⟨run, hrun, hlow, -, hhigh⟩ := isClass_iff.1 h
  refine writable_anyOf fun c hc => ?_
  obtain ⟨hfirst, hlast⟩ := (mem_class_iff h).1 hc
  have hle : run.1.toNat ≤ c.toNat := Nat.le_trans hlow hfirst
  have hge : c.toNat ≤ run.2.toNat := Nat.le_trans hlast hhigh
  -- the characters of a run are listed by their code points
  rw [← Char.ofNat_toNat c]
  exact needsQuotes_of_mem_run run hrun c.toNat (List.mem_range'_1.2 ⟨hle, by omega⟩)

/-- **What is read can be written**: literals that cannot stand bare are quoted. -/
theorem writable_parse (h : parse text = .ok r) : Writable r := by
  refine forall_parse ⟨?_, ?_, trivial, fun _ => trivial, writable_ofChar, ?_⟩ h
  · intro op l r hl hr
    cases op <;> exact ⟨hl, hr⟩
  · intro q r hr
    cases q <;> exact hr
  · exact fun _ _ => writable_classUnion

end LexerGen.Pattern
