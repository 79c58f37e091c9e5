import LexerGen.Dfa.Longest

/-!
# What the longest match is

`Dfa.longest` carries the best match so far along while it reads. What it returns is described
here by the states that the prefixes of the text lead to, without that bookkeeping: `Along d P q
text` says that `P` holds of the state after each non-empty prefix of `text`, read from `q`.

A match that is found is a prefix that leads to a tag, and no longer prefix does
(`longest_found`). If nothing is found, the text is cut where a character leads to the sink
(`longest_stuck`), or the whole text has been read (`longest_ended`); no state on the way has a
tag or is the sink.

Reading stops at the sink, and it matters that nothing can follow there: the sink has no tag and
is left by no character (`Trapping`).
-/

namespace LexerGen.Dfa

variable {d : Dfa} {P : Nat → Prop} {q length n : Nat} {best : Option (Nat × Tag)} {tag : Tag}
  {text w : List Char}

/-- **The state after each non-empty prefix** has the property. -/
def Along (d : Dfa) (P : Nat → Prop) (q : Nat) : List Char → Prop
  | [] => True
  | c :: text => P (d.step q c) ∧ d.Along P (d.step q c) text

theorem along_iff : d.Along P q text ↔ ∀ u v, text = u ++ v → u ≠ [] → P (d.run q u) := by
  induction text generalizing q with
  | nil =>
    refine iff_of_true trivial fun u v huv hu => absurd ?_ hu
    exact (List.append_eq_nil_iff.1 huv.symm).1
  | cons c text ih =>
    rw [Along, ih]
    refine ⟨?_, ?_⟩
    · rintro ⟨hc, htext⟩ u v huv hu
      obtain ⟨rfl, rfl⟩ | ⟨u, rfl, rfl⟩ := List.cons_eq_append_iff.1 huv
      · exact absurd rfl hu
      · -- the prefix is the first character, or it reaches beyond it
        cases u with
        | nil => exact hc
        | cons b u => exact htext (b :: u) v rfl (List.cons_ne_nil b u)
    · intro h
      refine ⟨h [c] text rfl (List.cons_ne_nil c []), fun u v huv _ => ?_⟩
      exact h (c :: u) v (congrArg (c :: ·) huv) (List.cons_ne_nil c u)

theorem along_append {u v : List Char} :
    d.Along P q (u ++ v) ↔ d.Along P q u ∧ d.Along P (d.run q u) v := by
  induction u generalizing q with
  | nil => exact (and_iff_right trivial).symm
  | cons c u ih => rw [List.cons_append, Along, Along, ih, and_assoc]; rfl

theorem Along.mono {P' : Nat → Prop} (hP : ∀ q, P q → P' q) (h : d.Along P q text) :
    d.Along P' q text :=
  along_iff.2 fun u v huv hu => hP _ (along_iff.1 h u v huv hu)

/-- The state has no tag. -/
def Untagged (d : Dfa) (q : Nat) : Prop := d.tag? q = none

/-- The state has no tag and is not the sink, so reading goes on. -/
def Quiet (d : Dfa) (q : Nat) : Prop := d.tag? q = none ∧ d.isSink q = false

/-- **The sink is a trap** without a tag. -/
structure Trapping (d : Dfa) : Prop where
  step_sink : ∀ c, d.step d.sink c = d.sink
  tag?_sink : d.tag? d.sink = none

theorem Trapping.along (h : d.Trapping) (hq : d.isSink q = true) : d.Along d.Untagged q text := by
  rw [isSink, beq_iff_eq] at hq
  subst hq
  induction text with
  | nil => exact trivial
  | cons c text ih =>
    rw [Along, h.step_sink]
    exact ⟨h.tag?_sink, ih⟩

/-- **A match that is found** is a prefix with that tag, no longer prefix having one; or it is the
best match from before, and no prefix has a tag. -/
theorem found_of_longest (hd : d.Trapping) (h : d.longest q length best text = .found n tag) :
    (∃ u v, text = u ++ v ∧ u ≠ [] ∧ n = length + u.length ∧ d.tag? (d.run q u) = some tag ∧
      d.Along d.Untagged (d.run q u) v) ∨
    best = some (n, tag) ∧ d.Along d.Untagged q text := by
  -- along the run; what is found later replaces what was found before
  fun_induction d.longest q length best text with
  | case1 q length m t =>
    cases h
    exact .inr ⟨rfl, trivial⟩
  | case2 => cases h
  | case3 q length best c text t ht ih =>
    -- the first character leads to a tag, so it is the best match from now on
    rcases ih h with ⟨u, v, rfl, -, rfl, htag, hv⟩ | ⟨hbest, hrest⟩
    · refine .inl ⟨c :: u, v, rfl, List.cons_ne_nil c u, ?_, htag, hv⟩
      rw [List.length_cons, Nat.add_assoc, Nat.add_comm 1]
    · obtain ⟨rfl, rfl⟩ := Prod.mk.inj (Option.some.inj hbest)
      exact .inl ⟨[c], text, rfl, List.cons_ne_nil c [], rfl, ht, hrest⟩
  | case4 q length c text ht hsink m t =>
    -- at the sink the best match stands, since no tag can follow
    cases h
    exact .inr ⟨rfl, ht, hd.along hsink⟩
  | case5 => cases h
  | case6 q length best c text ht hsink ih =>
    rcases ih h with ⟨u, v, rfl, -, rfl, htag, hv⟩ | ⟨hbest, hrest⟩
    · refine .inl ⟨c :: u, v, rfl, List.cons_ne_nil c u, ?_, htag, hv⟩
      rw [List.length_cons, Nat.add_assoc, Nat.add_comm 1]
    · exact .inr ⟨hbest, ht, hrest⟩

/-- **Where reading gets stuck**, no prefix up to there leads to a tag or to the sink, and the next
character leads to the sink. -/
theorem stuck_of_longest (h : d.longest q length best text = .stuck n) :
    best = none ∧ ∃ u c v, text = u ++ c :: v ∧ n = length + u.length ∧ d.Along d.Quiet q u ∧
      d.tag? (d.run q (u ++ [c])) = none ∧ d.isSink (d.run q (u ++ [c])) = true := by
  fun_induction d.longest q length best text with
  | case1 | case2 | case4 => cases h
  | case3 q length best c text t ht ih =>
    -- after a match there is a best one, so reading cannot get stuck
    obtain ⟨hbest, -⟩ := ih h
    cases hbest
  | case5 q length c text ht hsink =>
    cases h
    exact ⟨rfl, [], c, text, rfl, rfl, trivial, ht, hsink⟩
  | case6 q length best c text ht hsink ih =>
    obtain ⟨hbest, u, b, v, rfl, rfl, hu, htag, hb⟩ := ih h
    refine ⟨hbest, c :: u, b, v, rfl, ?_, ⟨⟨ht, Bool.eq_false_iff.2 hsink⟩, hu⟩, htag, hb⟩
    rw [List.length_cons, Nat.add_assoc, Nat.add_comm 1]

/-- Where reading gets stuck, no prefix of the text has a tag at all: the sink has been reached. -/
theorem untagged_of_stuck (hd : d.Trapping) (h : d.longest q length best text = .stuck n) :
    d.Along d.Untagged q text := by
  obtain ⟨-, u, c, v, rfl, -, hquiet, htag, hsink⟩ := stuck_of_longest h
  rw [run_append_singleton] at htag hsink
  exact along_append.2 ⟨hquiet.mono fun q hq => hq.1, htag, hd.along hsink⟩

/-- **Where reading ends with the text**, no prefix leads to a tag or to the sink. -/
theorem ended_of_longest (h : d.longest q length best text = .ended) :
    best = none ∧ d.Along d.Quiet q text := by
  fun_induction d.longest q length best text with
  | case1 | case4 | case5 => cases h
  | case2 => exact ⟨rfl, trivial⟩
  | case3 q length best c text t ht ih =>
    obtain ⟨hbest, -⟩ := ih h
    cases hbest
  | case6 q length best c text ht hsink ih =>
    obtain ⟨hbest, hrest⟩ := ih h
    exact ⟨hbest, ⟨ht, Bool.eq_false_iff.2 hsink⟩, hrest⟩

end LexerGen.Dfa
