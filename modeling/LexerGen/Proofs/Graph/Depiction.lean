import LexerGen.Graph.Automaton
import LexerGen.Proofs.Graph.History
import Mathlib.Data.List.Nodup

/-!
# What the graph of an automaton shows

A state is mentioned by the edges into it as well as by its own step, often before that step, and
the edges of all states end up in groups. None of this can be seen in the end (`Depicts`): there is
one node for each state, with the attributes of that state, and one for the mark at the start, and
between two states there are the transitions from one to the other in their order.

This is read off the history of the graph. Numbers are written with digits, so different states have
different names and none has the name of the mark (`stateId_inj`, `stateId_ne_startId`). Hence of
the steps for all states only those for one state give attributes to its node, and only those add
edges from it (`flatMap_range_ite`).
-/

namespace LexerGen.Graph

variable {size start p q i j : Nat} {s : DrawnState} {states : List DrawnState}
  {draw : Nat → DrawnState}

/-! ### Names of states -/

theorem toList_stateId : (stateId q).toList = Nat.toDigits 10 q := Nat.toList_repr

/-- **Different states have different names.** -/
theorem stateId_inj : stateId p = stateId q ↔ p = q := by
  constructor
  · intro h
    have hdigits : Nat.toDigits 10 p = Nat.toDigits 10 q := by
      rw [← toList_stateId, ← toList_stateId, h]
    rw [← Nat.ofDigitChars_ten_toDigits (n := p), hdigits, Nat.ofDigitChars_ten_toDigits]
  · rintro rfl
    rfl

/-- **No state is named like the mark**, which has an underscore. -/
theorem stateId_ne_startId : stateId q ≠ startId := by
  intro h
  have hmem : '_' ∈ (stateId q).toList := by
    rw [h]
    decide
  rw [toList_stateId] at hmem
  exact Nat.underscore_not_in_toDigits hmem

/-! ### What is shown -/

/-- **The text at a state**: its number, and after a colon the name of its token. -/
def stateText (q : Nat) (tag : Option Tag) : String :=
  toString q ++ tag.elim "" fun t => ":" ++ t.name

/-- **The text at a transition**: a sign for an empty move, or the character, quoted and escaped if
it needs quotes. -/
def transitionText (l : Option Char) : String :=
  l.elim "ϵ" fun c =>
    if Regex.needsQuotes c then "'" ++ String.ofList (Text.escapeChar .both c) ++ "'"
    else String.singleton c

/-- The node for a state. -/
def stateNode (q : Nat) (isFinal : Bool) (tag : Option Tag) : String × NodeAttrs :=
  (stateId q,
    { label := some (stateText q tag), peripheries := if isFinal then some "2" else none })

/-- The invisible node that marks the start. -/
def startNode : String × NodeAttrs :=
  (startId, { label := some "", shape := some "point", style := some "invis" })

/-- **A graph that shows an automaton**, with states below `size`. -/
structure Depicts (g : Graph) (size start : Nat) (isFinal : Nat → Bool) (tag? : Nat → Option Tag)
    (edges : Nat → List (Option Char × Nat)) : Prop where
  /-- There is one node for each state and one for the mark. -/
  nodes : g.nodes.toList.Perm
    (startNode :: (List.range size).map fun q => stateNode q (isFinal q) (tag? q))
  /-- The edges between two states are the transitions. -/
  between : ∀ i < size, ∀ j < size, g.between (stateId i) (stateId j) =
    ((edges i).filter fun e => e.2 = j).map fun e => { label := some (transitionText e.1) }
  /-- The start is a state, and one edge without a label marks it. -/
  start_lt : start < size
  marked : g.between startId (stateId start) = [{}]
  /-- There are no other edges. -/
  ends : ∀ edge ∈ g.edgeList, edge.1 = (startId, stateId start) ∨
    ∃ i < size, ∃ j < size, edge.1 = (stateId i, stateId j)

theorem stateLabel_eq : stateLabel s = stateText s.number s.tag := by
  unfold stateLabel stateText
  cases s.tag with
  | none => exact (String.append_empty).symm
  | some t => exact String.append_assoc

theorem transitionLabel_eq (l : Option Char) : transitionLabel l = transitionText l := by
  cases l with
  | none => rfl
  | some c =>
    show (if _ then _ else _) = (if _ then _ else _)
    split
    · rw [← String.toList_inj]
      simp
    · rfl

/-! ### The steps for one state -/

/-- The edges that are drawn from a state. -/
def arrows (s : DrawnState) : List ((String × String) × EdgeAttrs) :=
  s.edges.map fun e => ((stateId s.number, stateId e.2), { label := some (transitionText e.1) })

theorem added_stateEdits (s : DrawnState) : (stateEdits s).flatMap Edit.added = arrows s := by
  unfold stateEdits arrows
  rw [List.flatMap_cons, List.flatMap_map, List.map_eq_flatMap]
  simp only [transitionLabel_eq]
  rfl

/-- The attributes of a node that a state is given. -/
def attrsOf (s : DrawnState) : List NodeAttr :=
  .label (stateText s.number s.tag) :: if s.isFinal then [.peripheries "2"] else []

theorem attrsFor_stateEdits (id : String) (s : DrawnState) :
    (stateEdits s).flatMap (Edit.attrsFor id) =
      if stateId s.number = id then attrsOf s else [] := by
  unfold stateEdits
  -- only the first step gives attributes
  simp [List.flatMap_map, Edit.attrsFor, attrsOf, stateLabel_eq]

theorem mem_mentions_stateEdits {id : String} :
    id ∈ ((stateEdits s).flatMap Edit.mentions).map Prod.fst ↔
      id = stateId s.number ∨ ∃ e ∈ s.edges, id = stateId e.2 := by
  unfold stateEdits
  rw [List.flatMap_cons, List.map_append, List.mem_append, List.flatMap_map, List.map_flatMap,
    List.mem_flatMap]
  simp only [Edit.mentions, List.map_cons, List.map_nil, List.mem_cons, List.not_mem_nil, or_false]
  constructor
  · rintro (hid | ⟨e, he, hid | hid⟩)
    · exact .inl hid
    · exact .inl hid
    · exact .inr ⟨e, he, hid⟩
  · rintro (hid | ⟨e, he, hid⟩)
    · exact .inl hid
    · exact .inr ⟨e, he, .inr hid⟩

/-- Of a family with one member for each number, one member is left. -/
theorem flatMap_range_ite {α : Type} (f : Nat → List α) (hi : i < size) :
    ((List.range size).flatMap fun q => if q = i then f q else []) = f i := by
  induction size with
  | zero => omega
  | succ size ih =>
    rw [List.range_succ, List.flatMap_append, List.flatMap_singleton]
    -- the member is the last one, or it is one of those before
    by_cases hlast : size = i
    · subst hlast
      have hnone : ((List.range size).flatMap fun q => if q = size then f q else []) = [] := by
        rw [List.flatMap_eq_nil_iff]
        intro q hq
        rw [if_neg (Nat.ne_of_lt (List.mem_range.1 hq))]
      rw [hnone, if_pos rfl, List.nil_append]
    · rw [ih (by omega), if_neg hlast, List.append_nil]

/-! ### The graph of a list of states -/

/-- The steps that draw an automaton. -/
def edits (states : List DrawnState) (start : Nat) : List Edit :=
  .rankdir "LR" :: (states.flatMap stateEdits ++ startEdits start)

theorem ofStates_eq : ofStates states start = build .directed (edits states start) := rfl

theorem added_edits : (edits states start).flatMap Edit.added =
    states.flatMap arrows ++ [((startId, stateId start), ({} : EdgeAttrs))] := by
  unfold edits
  rw [List.flatMap_cons, List.flatMap_append, List.flatMap_assoc]
  simp only [added_stateEdits]
  rfl

theorem attrsFor_edits (id : String) : (edits states start).flatMap (Edit.attrsFor id) =
    (states.flatMap fun s => if stateId s.number = id then attrsOf s else []) ++
      if startId = id then [.style "invis", .shape "point", .label ""] else [] := by
  unfold edits
  rw [List.flatMap_cons, List.flatMap_append, List.flatMap_assoc]
  simp only [attrsFor_stateEdits]
  simp [startEdits, Edit.attrsFor]

theorem mem_mentions_edits {id : String} :
    id ∈ ((edits states start).flatMap Edit.mentions).map Prod.fst ↔
      (∃ s ∈ states, id = stateId s.number ∨ ∃ e ∈ s.edges, id = stateId e.2) ∨
        id = startId ∨ id = stateId start := by
  have hmark : ((startEdits start).flatMap Edit.mentions).map Prod.fst =
      [startId, startId, stateId start] := rfl
  have hlayout : (Edit.rankdir "LR").mentions = [] := rfl
  unfold edits
  rw [List.flatMap_cons, hlayout, List.nil_append, List.flatMap_append, List.flatMap_assoc,
    List.map_append, hmark, List.mem_append, List.map_flatMap, List.mem_flatMap]
  simp only [mem_mentions_stateEdits, List.mem_cons, List.not_mem_nil, or_false, or_self_left]

/-! ### What is drawn -/

theorem filter_arrows :
    ((arrows s).filter fun edge => edge.1 = (stateId i, stateId j)).map Prod.snd =
      if s.number = i then
        (s.edges.filter fun e => e.2 = j).map fun e => { label := some (transitionText e.1) }
      else [] := by
  unfold arrows
  rw [List.filter_map, List.map_map]
  by_cases hi : s.number = i
  · subst hi
    simp [Function.comp_def, stateId_inj]
  · simp [Function.comp_def, stateId_inj, hi]

/-- States that are numbered in their order, with transitions to states only. -/
structure Drawable (draw : Nat → DrawnState) (size start : Nat) : Prop where
  number (q : Nat) : (draw q).number = q
  start_lt : start < size
  target_lt {p : Nat} {e : Option Char × Nat} : p < size → e ∈ (draw p).edges → e.2 < size

/-- The graph of the states below `size`. -/
def ofNumbered (draw : Nat → DrawnState) (size start : Nat) : Graph :=
  ofStates ((List.range size).map draw) start

variable (h : Drawable draw size start)
include h

/-- **The edges between two states** are the transitions from one to the other. -/
theorem between_ofNumbered (hi : i < size) :
    (ofNumbered draw size start).between (stateId i) (stateId j) =
      ((draw i).edges.filter fun e => e.2 = j).map fun e =>
        { label := some (transitionText e.1) } := by
  have hmark : (startId, stateId start) ≠ (stateId i, stateId j) := by
    intro heq
    exact stateId_ne_startId (Prod.mk.inj heq).1.symm
  rw [ofNumbered, ofStates_eq, between_build, added_edits, List.filter_append, List.map_append,
    List.filter_flatMap, List.map_flatMap, List.flatMap_map]
  -- of all states only the source has edges from here
  simp only [filter_arrows, h.number]
  rw [flatMap_range_ite _ hi]
  simp [hmark]

omit h in
/-- **The mark has one edge**, which is not labelled. -/
theorem between_startId :
    (ofStates states start).between startId (stateId start) = [({} : EdgeAttrs)] := by
  have hstates : (states.flatMap arrows).filter
      (fun edge => edge.1 = (startId, stateId start)) = [] := by
    rw [List.filter_eq_nil_iff]
    intro edge hedge
    obtain ⟨s, -, hs⟩ := List.mem_flatMap.1 hedge
    obtain ⟨e, -, rfl⟩ := List.mem_map.1 hs
    simp [stateId_ne_startId]
  rw [ofStates_eq, between_build, added_edits, List.filter_append, hstates]
  simp

/-- **The attributes of a state** are those that its own step gives. -/
theorem get?_stateId (hi : i < size) :
    (ofNumbered draw size start).nodes.get? (stateId i) =
      some (stateNode i (draw i).isFinal (draw i).tag).2 := by
  have hmem : stateId i ∈ ((edits ((List.range size).map draw) start).flatMap
      Edit.mentions).map Prod.fst := by
    rw [mem_mentions_edits]
    refine .inl ⟨draw i, List.mem_map.2 ⟨i, List.mem_range.2 hi, rfl⟩, .inl ?_⟩
    rw [h.number]
  rw [ofNumbered, ofStates_eq, get?_nodes_build, if_pos hmem, attrsFor_edits,
    if_neg (Ne.symm stateId_ne_startId), List.append_nil, List.flatMap_map]
  -- of all states only this one has its name
  simp only [h.number, stateId_inj]
  rw [flatMap_range_ite _ hi, attrsOf, h.number]
  cases hfinal : (draw i).isFinal <;> simp [stateNode, NodeAttrs.set]

omit h in
theorem get?_startId : (ofStates states start).nodes.get? startId = some startNode.2 := by
  have hmem : startId ∈ ((edits states start).flatMap Edit.mentions).map Prod.fst :=
    mem_mentions_edits.2 (.inr (.inl rfl))
  have hstates :
      (states.flatMap fun s => if stateId s.number = startId then attrsOf s else []) = [] := by
    rw [List.flatMap_eq_nil_iff]
    intro s _
    rw [if_neg stateId_ne_startId]
  -- what is left are the attributes of the mark
  rw [ofStates_eq, get?_nodes_build, if_pos hmem, attrsFor_edits, hstates]
  rfl

/-- **Every node** is the mark or the node of a state. -/
theorem eq_of_get?_eq_some {id : String} {attrs : NodeAttrs}
    (hid : (ofNumbered draw size start).nodes.get? id = some attrs) :
    id = startId ∨ ∃ q < size, id = stateId q := by
  have hmem : id ∈ ((edits ((List.range size).map draw) start).flatMap
      Edit.mentions).map Prod.fst := by
    rw [ofNumbered, ofStates_eq, get?_nodes_build] at hid
    by_contra hnot
    rw [if_neg hnot] at hid
    cases hid
  rw [mem_mentions_edits] at hmem
  rcases hmem with ⟨s, hs, hid⟩ | hid | hid
  · obtain ⟨q, hq, rfl⟩ := List.mem_map.1 hs
    have hlt := List.mem_range.1 hq
    -- a state is mentioned in its turn or as a target
    rcases hid with hid | ⟨e, he, hid⟩
    · exact .inr ⟨q, hlt, by rw [hid, h.number]⟩
    · exact .inr ⟨e.2, h.target_lt hlt he, hid⟩
  · exact .inl hid
  · exact .inr ⟨start, h.start_lt, hid⟩

omit h in
theorem nodup_nodes (isFinal : Nat → Bool) (tag? : Nat → Option Tag) :
    (startNode :: (List.range size).map fun q => stateNode q (isFinal q) (tag? q)).Nodup := by
  rw [List.nodup_cons]
  constructor
  · intro hmem
    obtain ⟨q, -, hq⟩ := List.mem_map.1 hmem
    exact stateId_ne_startId (Prod.mk.inj hq).1
  · refine List.Nodup.map ?_ List.nodup_range
    intro p q hpq
    exact stateId_inj.1 (Prod.mk.inj hpq).1

/-- **The graph of an automaton shows it**, whatever its states are. -/
theorem depicts_ofNumbered : Depicts (ofNumbered draw size start) size start
    (fun q => (draw q).isFinal) (fun q => (draw q).tag) (fun q => (draw q).edges) where
  nodes := by
    -- both lists are without repetition, so it is enough that they have the same members
    rw [List.perm_ext_iff_of_nodup (OrderedMap.nodup_toList _) (nodup_nodes _ _)]
    rintro ⟨id, attrs⟩
    rw [OrderedMap.mem_toList_iff, List.mem_cons, List.mem_map]
    constructor
    · intro hget
      rcases eq_of_get?_eq_some h hget with rfl | ⟨q, hq, rfl⟩
      · obtain rfl := Option.some.inj (hget.symm.trans get?_startId)
        exact .inl rfl
      · obtain rfl := Option.some.inj (hget.symm.trans (get?_stateId h hq))
        exact .inr ⟨q, List.mem_range.2 hq, rfl⟩
    · rintro (hnode | ⟨q, hq, hnode⟩)
      · obtain ⟨rfl, rfl⟩ := Prod.mk.inj hnode
        exact get?_startId
      · obtain ⟨rfl, rfl⟩ := Prod.mk.inj hnode
        exact get?_stateId h (List.mem_range.1 hq)
  between i hi j _ := between_ofNumbered h hi
  start_lt := h.start_lt
  marked := between_startId
  ends edge hedge := by
    rw [ofNumbered, ofStates_eq, mem_edgeList_build, added_edits, List.mem_append,
      List.mem_flatMap, List.mem_singleton] at hedge
    rcases hedge with ⟨s, hs, hedge⟩ | rfl
    · obtain ⟨q, hq, rfl⟩ := List.mem_map.1 hs
      obtain ⟨e, he, rfl⟩ := List.mem_map.1 hedge
      have hlt := List.mem_range.1 hq
      refine .inr ⟨q, hlt, e.2, h.target_lt hlt he, ?_⟩
      rw [h.number]
    · exact .inl rfl

end LexerGen.Graph
