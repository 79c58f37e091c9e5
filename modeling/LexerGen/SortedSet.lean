/-!
# Finite sets with one canonical form

Alphabets are finite sets of characters that are run through in ascending order and shown in it, so
a set is kept as *the* ascending list of its elements: two sets are equal as data exactly when they
have the same elements (`SortedSet.ext_mem`), and running through one needs no further decision.

The main statement is the membership law of insertion, `SortedSet.mem_insert`; the laws of
`ofList` and `union` follow from it.
-/

namespace LexerGen

/-- **A finite set in canonical form.** The elements are kept in strictly ascending order, so no
element is listed twice and no two lists stand for the same set. -/
@[ext] structure SortedSet (α : Type) [LT α] where
  /-- The elements, smallest first. -/
  toList : List α
  /-- Each element is below all that follow it. -/
  ascending : toList.Pairwise (· < ·)

namespace SortedSet

variable {α : Type} [LT α]

instance [DecidableEq α] : DecidableEq (SortedSet α) := fun s t =>
  if h : s.toList = t.toList then isTrue (SortedSet.ext h)
  else isFalse fun e => h (congrArg SortedSet.toList e)

instance : EmptyCollection (SortedSet α) := ⟨⟨[], List.Pairwise.nil⟩⟩

instance : Inhabited (SortedSet α) := ⟨∅⟩

instance : Membership α (SortedSet α) := ⟨fun s x => x ∈ s.toList⟩

instance [DecidableEq α] (x : α) (s : SortedSet α) : Decidable (x ∈ s) :=
  inferInstanceAs (Decidable (x ∈ s.toList))

@[simp] theorem mem_toList {x : α} {s : SortedSet α} : x ∈ s.toList ↔ x ∈ s := Iff.rfl

@[simp] theorem not_mem_empty (x : α) : x ∉ (∅ : SortedSet α) := List.not_mem_nil

variable [DecidableLT α]

/-- **Insertion into an ascending list.** The new element is put before the first larger one, and
is dropped where it is met already. -/
def insertAscending (x : α) : List α → List α
  | [] => [x]
  | y :: ys =>
    if x < y then x :: y :: ys
    else if y < x then y :: insertAscending x ys
    else y :: ys

section Order

variable [LE α] [Std.IsLinearOrder α] [Std.LawfulOrderLT α]

theorem mem_insertAscending {x z : α} {l : List α} :
    z ∈ insertAscending x l ↔ z = x ∨ z ∈ l := by
  induction l with
  | nil => simp [insertAscending]
  | cons y ys ih =>
    rw [insertAscending]
    split
    · simp
    · split
      · simp only [List.mem_cons, ih]
        exact
          ⟨fun h => h.elim (fun e => .inr (.inl e)) fun h => h.elim .inl fun m => .inr (.inr m),
            fun h => h.elim (fun e => .inr (.inl e)) fun h => h.elim .inl fun m => .inr (.inr m)⟩
      · have : x = y := Std.le_antisymm (Std.not_lt.1 ‹_›) (Std.not_lt.1 ‹_›)
        subst this
        simp

theorem ascending_insertAscending {x : α} {l : List α} (h : l.Pairwise (· < ·)) :
    (insertAscending x l).Pairwise (· < ·) := by
  induction l with
  | nil => simp [insertAscending]
  | cons y ys ih =>
    rw [List.pairwise_cons] at h
    rw [insertAscending]
    split
    · rename_i hxy
      refine List.pairwise_cons.2 ⟨fun z hz => ?_, List.pairwise_cons.2 h⟩
      rcases List.mem_cons.1 hz with rfl | hz
      · exact hxy
      · exact Std.lt_trans hxy (h.1 z hz)
    · split
      · rename_i hyx
        refine List.pairwise_cons.2 ⟨fun z hz => ?_, ih h.2⟩
        rcases mem_insertAscending.1 hz with rfl | hz
        · exact hyx
        · exact h.1 z hz
      · exact List.pairwise_cons.2 h

/-- Adds one element. -/
def insert (s : SortedSet α) (x : α) : SortedSet α :=
  ⟨insertAscending x s.toList, ascending_insertAscending s.ascending⟩

@[simp] theorem mem_insert {s : SortedSet α} {x z : α} : z ∈ s.insert x ↔ z = x ∨ z ∈ s :=
  mem_insertAscending

/-- Adds every element of a list. -/
def insertAll (s : SortedSet α) (l : List α) : SortedSet α := l.foldl insert s

@[simp] theorem mem_insertAll {s : SortedSet α} {l : List α} {z : α} :
    z ∈ s.insertAll l ↔ z ∈ s ∨ z ∈ l := by
  induction l generalizing s with
  | nil => simp [insertAll]
  | cons x l ih =>
    have step : s.insertAll (x :: l) = (s.insert x).insertAll l := rfl
    rw [step, ih, mem_insert, List.mem_cons]
    exact ⟨fun h => h.elim (fun h => h.elim (fun e => .inr (.inl e)) .inl) (fun m => .inr (.inr m)),
      fun h => h.elim (fun m => .inl (.inr m)) (fun h => h.elim (fun e => .inl (.inl e)) .inr)⟩

/-- The set of the elements of a list. -/
def ofList (l : List α) : SortedSet α := (∅ : SortedSet α).insertAll l

@[simp] theorem mem_ofList {l : List α} {z : α} : z ∈ ofList l ↔ z ∈ l := by
  simp [ofList]

/-- The elements of either set. -/
def union (s t : SortedSet α) : SortedSet α := s.insertAll t.toList

@[simp] theorem mem_union {s t : SortedSet α} {z : α} : z ∈ s.union t ↔ z ∈ s ∨ z ∈ t :=
  mem_insertAll

omit [DecidableLT α] in
/-- An ascending list is determined by its elements: the smallest of each is the head of both. -/
theorem eq_of_ascending {l m : List α} (hl : l.Pairwise (· < ·)) (hm : m.Pairwise (· < ·))
    (h : ∀ z, z ∈ l ↔ z ∈ m) : l = m := by
  induction l generalizing m with
  | nil =>
    cases m with
    | nil => rfl
    | cons y ys => exact absurd ((h y).2 List.mem_cons_self) List.not_mem_nil
  | cons x xs ih =>
    cases m with
    | nil => exact absurd ((h x).1 List.mem_cons_self) List.not_mem_nil
    | cons y ys =>
      rw [List.pairwise_cons] at hl hm
      have hxy : x = y := by
        rcases List.mem_cons.1 ((h x).1 List.mem_cons_self) with e | hx
        · exact e
        rcases List.mem_cons.1 ((h y).2 List.mem_cons_self) with e | hy
        · exact e.symm
        · exact absurd (Std.lt_trans (hm.1 x hx) (hl.1 y hy)) Std.lt_irrefl
      subst hxy
      refine congrArg (x :: ·) (ih hl.2 hm.2 fun z => ?_)
      have hz := h z
      simp only [List.mem_cons] at hz
      constructor
      · intro m
        rcases hz.1 (.inr m) with rfl | m'
        · exact absurd (hl.1 z m) Std.lt_irrefl
        · exact m'
      · intro m
        rcases hz.2 (.inr m) with rfl | m'
        · exact absurd (hm.1 z m) Std.lt_irrefl
        · exact m'

omit [DecidableLT α] in
/-- In an ascending list, what is smaller than an element stands further left. -/
theorem mem_left_of_lt {l m : List α} {x y : α} (h : (l ++ x :: m).Pairwise (· < ·))
    (hy : y ∈ l ++ x :: m) (hlt : y < x) : y ∈ l := by
  rcases List.mem_append.1 hy with hl | hr
  · exact hl
  · rcases List.mem_cons.1 hr with rfl | hm
    · exact absurd hlt Std.lt_irrefl
    · have hright := (List.pairwise_append.1 h).2.1
      exact absurd (Std.lt_trans hlt ((List.pairwise_cons.1 hright).1 y hm)) Std.lt_irrefl

omit [DecidableLT α] in
/-- **Extensionality.** Sets with the same elements are the same set. -/
theorem ext_mem {s t : SortedSet α} (h : ∀ z, z ∈ s ↔ z ∈ t) : s = t :=
  SortedSet.ext (eq_of_ascending s.ascending t.ascending h)

end Order

end SortedSet

end LexerGen
