/-!
# Sets of states

The states of an automaton are numbers, and a set of states is kept as the number whose binary
digits say which states are in it. Equal sets are then equal numbers (`StateSet.ext_mem`), which is
what numbering sets by comparison needs; a set whose members are below a bound is a number below a
power of two (`StateSet.mem_allBelow`), so there are only finitely many of them.

`toList` lists the members in ascending order.
-/

namespace LexerGen

/-- **A finite set of states.** State `q` is a member if the binary digit at place `q` is
one. -/
@[ext] structure StateSet where
  bits : Nat
  deriving DecidableEq, Repr

namespace StateSet

instance : EmptyCollection StateSet := ⟨⟨0⟩⟩

instance : Inhabited StateSet := ⟨∅⟩

instance : Membership Nat StateSet := ⟨fun s q => s.bits.testBit q = true⟩

instance (q : Nat) (s : StateSet) : Decidable (q ∈ s) :=
  inferInstanceAs (Decidable (s.bits.testBit q = true))

theorem mem_iff {q : Nat} {s : StateSet} : q ∈ s ↔ s.bits.testBit q = true := Iff.rfl

@[simp] theorem not_mem_empty (q : Nat) : q ∉ (∅ : StateSet) := by
  rw [mem_iff]
  exact ne_true_of_eq_false (Nat.zero_testBit q)

/-- Sets with the same members are the same set. -/
theorem ext_mem {s t : StateSet} (h : ∀ q, q ∈ s ↔ q ∈ t) : s = t :=
  StateSet.ext (Nat.eq_of_testBit_eq fun q => Bool.eq_iff_iff.2 (h q))

/-- Whether the set has no members. -/
def isEmpty (s : StateSet) : Bool := s.bits == 0

theorem isEmpty_iff {s : StateSet} : s.isEmpty = true ↔ s = ∅ := by
  rw [isEmpty, beq_iff_eq]
  exact ⟨fun h => StateSet.ext h, fun h => congrArg StateSet.bits h⟩

/-- Adds one member. -/
def insert (s : StateSet) (q : Nat) : StateSet := ⟨s.bits ||| 1 <<< q⟩

@[simp] theorem mem_insert {s : StateSet} {q p : Nat} : p ∈ s.insert q ↔ p = q ∨ p ∈ s := by
  rw [mem_iff, insert, Nat.testBit_or, Nat.one_shiftLeft, Nat.testBit_two_pow, Bool.or_eq_true,
    decide_eq_true_eq, or_comm, eq_comm, mem_iff]

/-- **The members in ascending order.** -/
def toList (s : StateSet) : List Nat := (List.range (s.bits.log2 + 1)).filter (s.bits.testBit ·)

/-- No member is above the place of the leading digit. -/
theorem le_log2_of_mem {s : StateSet} {q : Nat} (h : q ∈ s) : q ≤ s.bits.log2 := by
  refine Nat.le_of_not_lt fun hq => ?_
  have below := Nat.lt_of_lt_of_le (Nat.lt_log2_self (n := s.bits))
    (Nat.pow_le_pow_right Nat.two_pos hq)
  rw [mem_iff, Nat.testBit_lt_two_pow below] at h
  exact absurd h Bool.false_ne_true

@[simp] theorem mem_toList {s : StateSet} {q : Nat} : q ∈ s.toList ↔ q ∈ s := by
  rw [toList, List.mem_filter, List.mem_range]
  exact ⟨fun h => h.2, fun h => ⟨Nat.lt_succ_of_le (le_log2_of_mem h), h⟩⟩

/-- The members are listed in strictly ascending order. -/
theorem pairwise_toList (s : StateSet) : s.toList.Pairwise (· < ·) :=
  List.Pairwise.filter _ List.pairwise_lt_range

/-- **Every set whose members are below a bound**: the numbers with that many digits. -/
def allBelow (bound : Nat) : List StateSet := (List.range (1 <<< bound)).map StateSet.mk

theorem mem_allBelow {bound : Nat} {s : StateSet} (h : ∀ q ∈ s, q < bound) :
    s ∈ allBelow bound := by
  refine List.mem_map.2 ⟨s.bits, List.mem_range.2 ?_, rfl⟩
  rw [Nat.one_shiftLeft]
  refine Nat.lt_pow_two_of_testBit _ fun q hq => ?_
  rw [← Bool.not_eq_true]
  exact fun hm => absurd (h q hm) (Nat.not_lt.2 hq)

end StateSet

end LexerGen
