import LexerGen.Proofs.Compile
import LexerGen.Regex.Forms

/-!
# Derived forms cost nothing

One or more repetitions, an optional part and a quoted literal can be said with the other forms of
expressions, and `desugar` says them so. The construction of automata has code of its own for the
first two, but it is code that does what the general forms do: it adds the same states and the same
edges, in the same order. So an expression and what it expands to have not only the same words but
the same automaton (`ofRegex_desugar`), and whatever is made of the automaton is the same as well.

A part is built inside an automaton that its surroundings have begun, and an expansion may repeat a
part. Therefore the induction says that the *constructions* are equal, for every head and tail and
in every automaton (`build_desugar`).
-/

namespace LexerGen

namespace Regex

/-- **Expressions without derived forms**: what is left are union, concatenation, star, the two
constants and bare literals. -/
def Primitive : Regex → Prop
  | union l r | concat l r => Primitive l ∧ Primitive r
  | star r => Primitive r
  | eps | void | lit _ => True
  | plus _ | maybe _ | quoted _ => False

/-- **Derived forms are expanded at any depth.** -/
theorem primitive_desugar (r : Regex) : Primitive (desugar r) := by
  induction r with
  | union l r ihl ihr | concat l r ihl ihr => exact ⟨ihl, ihr⟩
  | star r ih => exact ih
  | plus r ih => exact ⟨ih, ih⟩
  | maybe r ih => exact ⟨trivial, ih⟩
  | eps | void | lit | quoted => exact trivial

theorem desugar_of_primitive {r : Regex} (h : Primitive r) : desugar r = r := by
  induction r with
  | union l r ihl ihr | concat l r ihl ihr => rw [desugar, ihl h.1, ihr h.2]
  | star r ih => rw [desugar, ih h]
  | plus | maybe | quoted => exact h.elim
  | eps | void | lit => rfl

/-- Nothing else is changed. -/
theorem desugar_eq_self_iff {r : Regex} : desugar r = r ↔ Primitive r := by
  constructor
  · intro h
    rw [← h]
    exact primitive_desugar r
  · exact desugar_of_primitive

end Regex

open Regex

namespace Nfa

/-- **An expression is built as its expansion is**, between any two states of any automaton. -/
theorem build_desugar (r : Regex) : build (desugar r) = build r := by
  induction r with
  | union l r ihl ihr =>
    show (fun head tail n => branch (build (desugar r)) head tail
      (branch (build (desugar l)) head tail n)) = _
    rw [ihl, ihr]
    rfl
  | concat l r ihl ihr =>
    show sequence (build (desugar l)) (build (desugar r)) = _
    rw [ihl, ihr]
    rfl
  | star r ih =>
    show loop (build (desugar r)) = _
    rw [ih]
    rfl
  | plus r ih =>
    -- both build the body once, and a loop of it behind
    show sequence (build (desugar r)) (loop (build (desugar r))) = _
    rw [ih]
    rfl
  | maybe r ih =>
    -- both build a branch for the empty word in front of that for the body
    show (fun head tail n => branch (build (desugar r)) head tail
      (branch (build .eps) head tail n)) = _
    rw [ih]
    rfl
  | eps | void | lit | quoted => rfl

theorem ofRegex_desugar (r : Regex) : ofRegex (desugar r) = ofRegex r := by
  unfold ofRegex
  rw [build_desugar]

end Nfa

/-- Rules with expanded expressions have the same automata. -/
theorem parts_desugar (rank : Nat) (rules : List (String × Regex)) :
    (parts rank (rules.map fun p => (p.1, desugar p.2))).map Prod.snd =
      (parts rank rules).map Prod.snd := by
  induction rules generalizing rank with
  | nil => rfl
  | cons p rules ih =>
    rw [List.map_cons, parts, List.map_cons, ih, Nfa.ofRegex_desugar, parts, List.map_cons]

/-- **Desugaring is exact.** It leaves no derived form behind and changes nothing but derived forms.
The expansion of an expression is built by the same steps wherever it occurs, so its automaton is
the same, with the same states, numbers, edges and alphabet. Hence so are the deterministic
automaton and the scans, also those of a lexer whose rules are expanded. -/
theorem desugar_exact :
    (∀ r, Primitive (desugar r) ∧ (desugar r = r ↔ Primitive r)) ∧
    (∀ r head tail n, Nfa.build (desugar r) head tail n = Nfa.build r head tail n) ∧
    (∀ r, Nfa.ofRegex (desugar r) = Nfa.ofRegex r ∧
      Dfa.ofNfa (Nfa.ofRegex (desugar r)) = Dfa.ofNfa (Nfa.ofRegex r) ∧
      ∀ tag text, (Scanner.start (Dfa.ofNfa ((Nfa.ofRegex (desugar r)).tagFinal tag)) text).items =
        (Scanner.start (Dfa.ofNfa ((Nfa.ofRegex r).tagFinal tag)) text).items) ∧
    ∀ rank rules, Nfa.merge ((parts rank (rules.map fun p => (p.1, desugar p.2))).map Prod.snd) =
      Nfa.merge ((parts rank rules).map Prod.snd) := by
  refine ⟨?_, ?_, ?_, ?_⟩
  · intro r
    exact ⟨primitive_desugar r, desugar_eq_self_iff⟩
  · intro r head tail n
    rw [Nfa.build_desugar]
  · intro r
    rw [Nfa.ofRegex_desugar]
    exact ⟨rfl, rfl, fun _ _ => rfl⟩
  · intro rank rules
    rw [parts_desugar]

end LexerGen
