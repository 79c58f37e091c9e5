/-!
# Maps that remember the order of their keys

Token definitions, the nodes of a graph and its groups of parallel edges are all looked up by key
and all listed in the order in which their keys first appeared. `OrderedMap` is an association list
with distinct keys: writing to a known key changes the value where it stands, and an unknown key
goes to the end.
-/

namespace LexerGen

variable {κ β : Type}

/-- **A map listed in order of first insertion.** No key occurs twice. -/
structure OrderedMap (κ β : Type) where
  /-- The bindings, oldest key first. -/
  toList : List (κ × β)
  /-- Each key is bound once. -/
  distinct : (toList.map Prod.fst).Nodup

namespace OrderedMap

instance : EmptyCollection (OrderedMap κ β) := ⟨⟨[], List.nodup_nil⟩⟩

instance : Inhabited (OrderedMap κ β) := ⟨∅⟩

/-- The keys in order of first insertion. -/
def keys (m : OrderedMap κ β) : List κ := m.toList.map Prod.fst

variable [DecidableEq κ]

/-- **Writing to an association list.** The value at the first pair with key `k` becomes
`f (some v)`, the other pairs stay, and if no pair has that key, `(k, f none)` is added at the
end. -/
def alterPairs (k : κ) (f : Option β → β) : List (κ × β) → List (κ × β)
  | [] => [(k, f none)]
  | (k', v) :: rest => if k' = k then (k', f (some v)) :: rest else (k', v) :: alterPairs k f rest

/-- A write keeps the keys in place, and adds a new one at the end. -/
theorem map_fst_alterPairs (k : κ) (f : Option β → β) (l : List (κ × β)) :
    (alterPairs k f l).map Prod.fst =
      if k ∈ l.map Prod.fst then l.map Prod.fst else l.map Prod.fst ++ [k] := by
  induction l with
  | nil => simp [alterPairs]
  | cons p rest ih =>
    obtain ⟨k', v⟩ := p
    rw [alterPairs]
    by_cases h : k' = k
    · simp [h]
    · simp only [h, if_false, List.map_cons, ih, List.mem_cons, Ne.symm h, false_or]
      split <;> simp

/-- Replaces the value at `k` by `f` of the old one, if any. -/
def alter (m : OrderedMap κ β) (k : κ) (f : Option β → β) : OrderedMap κ β where
  toList := alterPairs k f m.toList
  distinct := by
    rw [map_fst_alterPairs]
    split
    · exact m.distinct
    · rename_i h
      exact List.nodup_append.2 ⟨m.distinct, by simp, fun a ha b hb e => by
        rw [List.mem_singleton] at hb; exact h (hb ▸ e ▸ ha)⟩

/-- Binds `k` to `v`, in the old place if `k` was bound before. -/
def insert (m : OrderedMap κ β) (k : κ) (v : β) : OrderedMap κ β := m.alter k fun _ => v

/-- The map of a list of pairs, later pairs overwriting earlier ones. -/
def ofList (l : List (κ × β)) : OrderedMap κ β := l.foldl (fun m p => m.insert p.1 p.2) ∅

/-- A write keeps the order of the keys, and adds a new one at the end. -/
theorem keys_alter (m : OrderedMap κ β) (k : κ) (f : Option β → β) :
    (m.alter k f).keys = if k ∈ m.keys then m.keys else m.keys ++ [k] :=
  map_fst_alterPairs k f m.toList

end OrderedMap

end LexerGen
