import LexerGen.Closure

/-!
# Numbering what can be reached, breadth first

A transition system is given by a function from a node to the list of its successors, some of which
may be absent. `explore` numbers the nodes that can be reached from the first one in the order in
which they are met, going through the nodes in the order of their numbers and through the
successors of each in the order of the list. It returns the nodes, each at the index that is its
number, and beside each node the numbers of its successors.

The successors of all nodes must lie in one finite list. That list is needed for termination only
and is never computed: each round takes one node off those that still wait to be expanded, unless
it meets new ones, of which there are finitely many.
-/

namespace LexerGen

variable {α : Type} [DecidableEq α]

/-- **The number of a node**: where it was found before, or else the next free one, at which it is
added. -/
def intern (found : Array α) (x : α) : Array α × Nat :=
  let i := found.idxOf x
  (if i < found.size then found else found.push x, i)

theorem intern_of_mem {found : Array α} {x : α} (h : x ∈ found) :
    (intern found x).1 = found := if_pos (Array.idxOf_lt_size_iff.2 h)

theorem intern_of_not_mem {found : Array α} {x : α} (h : x ∉ found) :
    (intern found x).1 = found.push x := if_neg (mt Array.idxOf_lt_size_iff.1 h)

/-- **The numbers of a list of nodes**, from left to right, absent ones staying absent. -/
def internAll (found : Array α) : List (Option α) → Array α × List (Option Nat)
  | [] => (found, [])
  | none :: rest =>
    let (found, row) := internAll found rest
    (found, none :: row)
  | some x :: rest =>
    let (found, i) := intern found x
    let (found, row) := internAll found rest
    (found, some i :: row)

@[simp] theorem internAll_some (found : Array α) (x : α) (rest : List (Option α)) :
    (internAll found (some x :: rest)).1 = (internAll (intern found x).1 rest).1 := rfl

/-- Nodes found stay found. -/
theorem mem_internAll {found : Array α} {x : α} (h : x ∈ found) (l : List (Option α)) :
    x ∈ (internAll found l).1 := by
  induction l generalizing found with
  | nil => exact h
  | cons y rest ih =>
    cases y with
    | none => exact ih h
    | some y =>
      rw [internAll_some]
      by_cases hy : y ∈ found
      · rw [intern_of_mem hy]; exact ih h
      · rw [intern_of_not_mem hy]; exact ih (Array.mem_push_of_mem y h)

/-- A list of nodes adds nothing, or it holds a new node that is found from then on. -/
theorem internAll_eq_or_exists (found : Array α) (l : List (Option α)) :
    (internAll found l).1 = found ∨
      ∃ x, some x ∈ l ∧ x ∉ found ∧ x ∈ (internAll found l).1 := by
  induction l generalizing found with
  | nil => exact .inl rfl
  | cons y rest ih =>
    cases y with
    | none =>
      exact (ih found).imp_right fun ⟨x, hx, hn, hm⟩ => ⟨x, .tail _ hx, hn, hm⟩
    | some y =>
      rw [internAll_some]
      by_cases hy : y ∈ found
      · rw [intern_of_mem hy]
        exact (ih found).imp_right fun ⟨x, hx, hn, hm⟩ => ⟨x, .tail _ hx, hn, hm⟩
      · rw [intern_of_not_mem hy]
        exact .inr ⟨y, .head _, hy, mem_internAll Array.mem_push_self rest⟩

/-- **Nodes numbered in order of discovery.** -/
structure Exploration (α : Type) where
  /-- The nodes; a node's index is its number. -/
  nodes : Array α
  /-- The numbers of the successors of each node that has been expanded. -/
  rows : Array (List (Option Nat))

/-- The nodes of `space` that have not been found. -/
def unfound (space : List α) (found : Array α) : List α := space.filter (· ∉ found)

/-- **Breadth-first exploration**, continued from the nodes found and those of them that have been
expanded already. -/
def explore (next : α → List (Option α))
    (finite : ∃ space : List α, ∀ s t, some t ∈ next s → t ∈ space)
    (found : Array α) (rows : Array (List (Option Nat))) : Exploration α :=
  if h : rows.size < found.size then
    -- the first node without a row is the next to be expanded
    let step := internAll found (next found[rows.size])
    explore next finite step.1 (rows.push step.2)
  else ⟨found, rows⟩
termination_by ((unfound finite.choose found).length, found.size - rows.size)
decreasing_by
  rcases internAll_eq_or_exists found (next found[rows.size]) with e | ⟨x, hx, hn, hm⟩
  · rw [e, Array.size_push]
    exact Prod.Lex.right _ (by omega)
  · refine Prod.Lex.left _ _ (length_filter_lt (fun y hy => ?_)
      (finite.choose_spec _ _ hx) (by simpa using hn) (by simpa using hm))
    simp only [decide_eq_true_eq] at hy ⊢
    exact fun hf => hy (mem_internAll hf _)

end LexerGen
