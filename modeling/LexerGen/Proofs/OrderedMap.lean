import LexerGen.OrderedMap
import Mathlib.Data.List.Basic
import Mathlib.Data.List.Induction

/-!
# Looking up in maps that remember the order of their keys

An association list with distinct keys is two things at once, a function from keys to values and a
list of bindings. A write changes the function at its key only (`get?_alter`), and the list says no
more than the function and the order of the keys (`mem_toList_iff`).

What a map is used for here is a *record*: a sequence of entries, each of which changes the value at
its key by some rule. What it holds at a key afterwards depends on the entries for that key alone
(`get?_record`), and its keys come in the order in which the entries meet them (`keys_record_empty`,
`pairwise_keysOf`).
-/

namespace LexerGen.OrderedMap

variable {κ β γ : Type} [DecidableEq κ] {m m' : OrderedMap κ β} {k k' : κ} {v : β}
  {f : Option β → β} {change : Option β → γ → β} {entries : List (κ × γ)}

/-- **The value at a key**, if the key is bound. -/
def get? (m : OrderedMap κ β) (k : κ) : Option β := m.toList.lookup k

omit [DecidableEq κ] in
theorem ext_toList (h : m.toList = m'.toList) : m = m' := by
  obtain ⟨l, hl⟩ := m
  obtain ⟨l', hl'⟩ := m'
  obtain rfl : l = l' := h
  rfl

/-- The first pair of an association list, if it has the key. -/
theorem lookup_pair_cons (a : κ) (b : β) (l : List (κ × β)) :
    ((a, b) :: l).lookup k = if k = a then some b else l.lookup k := by
  rw [List.lookup_cons]
  by_cases h : k = a
  · rw [if_pos h, beq_iff_eq.2 h]
  · rw [if_neg h, beq_eq_false_iff_ne.2 h]

theorem lookup_eq_none {l : List (κ × β)} (hk : k ∉ l.map Prod.fst) : l.lookup k = none := by
  induction l with
  | nil => rfl
  | cons p l ih =>
    obtain ⟨a, b⟩ := p
    rw [List.map_cons, List.mem_cons, not_or] at hk
    rw [lookup_pair_cons, if_neg hk.1, ih hk.2]

theorem alterPairs_cons (a : κ) (b : β) (l : List (κ × β)) :
    alterPairs k f ((a, b) :: l) =
      if a = k then (a, f (some b)) :: l else (a, b) :: alterPairs k f l := rfl

theorem lookup_alterPairs (l : List (κ × β)) :
    (alterPairs k f l).lookup k' = if k' = k then some (f (l.lookup k)) else l.lookup k' := by
  induction l with
  | nil =>
    unfold alterPairs
    rw [lookup_pair_cons, List.lookup_nil, List.lookup_nil]
  | cons p l ih =>
    obtain ⟨a, b⟩ := p
    rw [alterPairs_cons]
    by_cases ha : a = k
    · subst ha
      rw [if_pos rfl]
      simp only [lookup_pair_cons, if_true]
      split <;> rfl
    · rw [if_neg ha, lookup_pair_cons, lookup_pair_cons, lookup_pair_cons, ih, if_neg (Ne.symm ha)]
      -- the key in front is another one
      by_cases h : k' = a
      · rw [if_pos h, if_pos h, if_neg (h.trans_ne ha)]
      · rw [if_neg h, if_neg h]

/-- **A write changes the value at its key** and no other. -/
theorem get?_alter : (m.alter k f).get? k' = if k' = k then some (f (m.get? k)) else m.get? k' :=
  lookup_alterPairs m.toList

/-- In a list without repeated keys every pair is found by its key. -/
theorem mem_iff_lookup_eq_some {l : List (κ × β)} (hl : (l.map Prod.fst).Nodup) :
    (k, v) ∈ l ↔ l.lookup k = some v := by
  induction l with
  | nil => simp
  | cons p l ih =>
    obtain ⟨a, b⟩ := p
    rw [List.map_cons, List.nodup_cons] at hl
    rw [List.mem_cons, Prod.mk.injEq, lookup_pair_cons]
    by_cases h : k = a
    · subst h
      -- the key is not bound again further on
      have hnot : (k, v) ∉ l := fun hmem => hl.1 (List.mem_map.2 ⟨_, hmem, rfl⟩)
      simp [hnot, eq_comm]
    · simp [h, ih hl.2]

/-- **The bindings are the values that are found.** -/
theorem mem_toList_iff : (k, v) ∈ m.toList ↔ m.get? k = some v := mem_iff_lookup_eq_some m.distinct

/-- **A map is its keys**, each with the value that is found there. -/
theorem toList_eq_filterMap (m : OrderedMap κ β) :
    m.toList = m.keys.filterMap fun k => (m.get? k).map (k, ·) := by
  have hself : ∀ binding ∈ m.toList, (m.get? binding.1).map (binding.1, ·) = some binding := by
    intro binding hbinding
    rw [mem_toList_iff.1 hbinding]
    rfl
  unfold keys
  rw [List.filterMap_map]
  exact ((List.filterMap_congr hself).trans List.filterMap_some).symm

omit [DecidableEq κ] in
theorem nodup_toList (m : OrderedMap κ β) : m.toList.Nodup := by
  have hdistinct := m.distinct
  rw [List.Nodup, List.pairwise_map] at hdistinct
  exact hdistinct.imp fun hne heq => hne (congrArg Prod.fst heq)

theorem mem_keys_alter : k' ∈ (m.alter k f).keys ↔ k' = k ∨ k' ∈ m.keys := by
  rw [keys_alter]
  split
  · constructor
    · exact .inr
    · rintro (rfl | hk)
      · assumption
      · exact hk
  · rw [List.mem_append, List.mem_singleton, or_comm]

theorem alterPairs_eq_self (hf : ∀ v, f (some v) = v) {l : List (κ × β)}
    (hk : k ∈ l.map Prod.fst) : alterPairs k f l = l := by
  induction l with
  | nil => exact absurd hk List.not_mem_nil
  | cons p l ih =>
    obtain ⟨a, b⟩ := p
    rw [alterPairs_cons]
    by_cases ha : a = k
    · rw [if_pos ha, hf]
    · rw [if_neg ha, ih ((List.mem_cons.1 hk).resolve_left (Ne.symm ha))]

/-- A write that keeps every value keeps the map, if the key is bound. -/
theorem alter_eq_self (hf : ∀ v, f (some v) = v) (hk : k ∈ m.keys) : m.alter k f = m :=
  ext_toList (alterPairs_eq_self hf hk)

/-! ### Keeping some of the keys -/

variable {p : κ → Bool}

omit [DecidableEq κ] in
/-- The bindings whose keys have a property. -/
def filter (m : OrderedMap κ β) (p : κ → Bool) : OrderedMap κ β where
  toList := m.toList.filter fun binding => p binding.1
  distinct := (List.filter_sublist.map Prod.fst).nodup m.distinct

theorem filter_alterPairs (l : List (κ × β)) :
    (alterPairs k f l).filter (fun binding => p binding.1) =
      if p k then alterPairs k f (l.filter fun binding => p binding.1)
      else l.filter fun binding => p binding.1 := by
  induction l with
  | nil => cases hp : p k <;> simp [alterPairs, hp]
  | cons binding l ih =>
    obtain ⟨a, b⟩ := binding
    rw [alterPairs_cons]
    by_cases ha : a = k
    · subst ha
      rw [if_pos rfl]
      cases hp : p a
      · simp [hp]
      · simp [alterPairs_cons, hp]
    · rw [if_neg ha, List.filter_cons, List.filter_cons, ih]
      -- the pair in front stays in front, if it stays at all
      cases p a
      · rfl
      · cases p k
        · rfl
        · simp [alterPairs_cons, ha]

/-- **A write is kept** just if its key is. -/
theorem filter_alter :
    (m.alter k f).filter p = if p k then (m.filter p).alter k f else m.filter p := by
  apply ext_toList
  show (alterPairs k f m.toList).filter _ = _
  rw [filter_alterPairs]
  split <;> rfl

/-! ### Records -/

/-- **The map of a sequence of entries**, each of which changes the value at its key. -/
def record (change : Option β → γ → β) (m : OrderedMap κ β) (entries : List (κ × γ)) :
    OrderedMap κ β :=
  entries.foldl (fun m entry => m.alter entry.1 fun old => change old entry.2) m

/-- **The value at a key** is what the entries for it have made of the old one. -/
theorem get?_record : (record change m entries).get? k =
    ((entries.filter fun entry => entry.1 = k).map Prod.snd).foldl
      (fun old x => some (change old x)) (m.get? k) := by
  induction entries generalizing m with
  | nil => rfl
  | cons entry entries ih =>
    show (record change (m.alter entry.1 fun old => change old entry.2) entries).get? k = _
    rw [ih, get?_alter]
    by_cases h : entry.1 = k
    · subst h
      simp
    · simp [h, Ne.symm h]

/-- **The keys of entries**, each at the place where it is met first. -/
def keysOf (entries : List (κ × γ)) : List κ := (entries.map Prod.fst).eraseDups

theorem mem_keysOf_iff : k ∈ keysOf entries ↔ k ∈ entries.map Prod.fst := List.mem_eraseDups

/-- **A record lists its keys** as they were met. -/
theorem keys_record_empty : (record change ∅ entries).keys = keysOf entries := by
  unfold keysOf
  -- the last entry is recorded last
  induction entries using List.reverseRecOn with
  | nil => rfl
  | append_singleton entries entry ih =>
    have hlast : record change ∅ (entries ++ [entry]) =
        (record change ∅ entries).alter entry.1 fun old => change old entry.2 :=
      List.foldl_append
    rw [hlast, keys_alter, ih, List.map_append, List.eraseDups_append]
    by_cases h : entry.1 ∈ (entries.map Prod.fst).eraseDups
    · have hmem := List.mem_eraseDups.1 h
      rw [if_pos h]
      simp [List.removeAll, hmem]
    · have hmem := mt List.mem_eraseDups.2 h
      rw [if_neg h]
      simp [List.removeAll, hmem, List.eraseDups_cons]

/-- The place where a key is met first. -/
def place (entries : List (κ × γ)) (k : κ) : Nat := (entries.map Prod.fst).idxOf k

/-- **Keys come in the order in which they are met**, so no key occurs twice. -/
theorem pairwise_keysOf (entries : List (κ × γ)) :
    (keysOf entries).Pairwise fun k k' => place entries k < place entries k' := by
  unfold keysOf place
  generalize entries.map Prod.fst = keys
  induction keys using List.reverseRecOn with
  | nil => exact .nil
  | append_singleton keys last ih =>
    rw [List.eraseDups_append, List.pairwise_append]
    refine ⟨ih.imp_of_mem ?_, ?_, ?_⟩
    · intro k k' hk hk' hlt
      rwa [List.idxOf_append_of_mem (List.mem_eraseDups.1 hk),
        List.idxOf_append_of_mem (List.mem_eraseDups.1 hk')]
    · by_cases h : last ∈ keys <;> simp [List.removeAll, List.eraseDups_cons, h]
    · -- a last key that is new is met after all others
      intro k hk k' hk'
      rw [List.mem_eraseDups] at hk
      obtain ⟨rfl, hnew⟩ : k' = last ∧ k' ∉ keys := by
        simpa [List.removeAll] using List.mem_eraseDups.1 hk'
      rw [List.idxOf_append_of_mem hk, List.idxOf_append_of_notMem hnew]
      exact Nat.lt_add_right _ (List.idxOf_lt_length_of_mem hk)

theorem nodup_keysOf (entries : List (κ × γ)) : (keysOf entries).Nodup := by
  refine (pairwise_keysOf entries).imp ?_
  rintro k _ hlt rfl
  exact Nat.lt_irrefl _ hlt

/-- Keys stay. -/
theorem mem_keys_record (hk : k ∈ m.keys) : k ∈ (record change m entries).keys := by
  induction entries generalizing m with
  | nil => exact hk
  | cons entry entries ih => exact ih (mem_keys_alter.2 (.inr hk))

end LexerGen.OrderedMap
