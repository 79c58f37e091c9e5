import LexerGen.Graph.Basic
import LexerGen.Proofs.OrderedMap

/-!
# What a graph keeps of the steps that built it

Every step comes down to entries in two records, one for the nodes that it mentions and one for the
edges that it adds. So a node has the attributes that were given to it, in whatever order other
nodes were mentioned in between (`get?_nodes_build`), and the edges from one node to another are
those that were added there, in the order in which they were added (`between_build`).

Leaving out a node and the edges into it (`without`) is the same before a step as after it, and
steps that are about that node only need not be taken at all.
-/

namespace LexerGen.Graph

variable {g : Graph} {kind : Kind} {e : Edit} {edits : List Edit} {a b id x : String}

/-! ### Steps as entries -/

/-- **The nodes that a step mentions**, with the attributes that it gives them. -/
def Edit.mentions : Edit → List (String × List NodeAttr)
  | .label _ | .rankdir _ => []
  | .node id attrs => [(id, attrs)]
  | .edge source target _ => [(source, []), (target, [])]

/-- **The edges that a step adds.** -/
def Edit.added : Edit → List ((String × String) × EdgeAttrs)
  | .label _ | .rankdir _ | .node _ _ => []
  | .edge source target attrs => [((source, target), attrs.foldl EdgeAttrs.set {})]

/-- What becomes of a node that is given attributes. -/
def give (old : Option NodeAttrs) (attrs : List NodeAttr) : NodeAttrs :=
  attrs.foldl NodeAttrs.set (old.getD {})

/-- What becomes of a group that gets one more edge. -/
def join (old : Option (List EdgeAttrs)) (attrs : EdgeAttrs) : List EdgeAttrs :=
  old.getD [] ++ [attrs]

theorem nodes_edit : (g.edit e).nodes = OrderedMap.record give g.nodes e.mentions := by
  cases e <;> rfl

theorem edges_edit : (g.edit e).edges = OrderedMap.record join g.edges e.added := by
  cases e <;> rfl

/-- **Nodes are a record of what was mentioned.** -/
theorem nodes_foldl_edit : (edits.foldl edit g).nodes =
    OrderedMap.record give g.nodes (edits.flatMap Edit.mentions) := by
  induction edits generalizing g with
  | nil => rfl
  | cons e edits ih =>
    rw [List.foldl_cons, ih, nodes_edit, List.flatMap_cons]
    exact List.foldl_append.symm

/-- **Edges are a record of what was added.** -/
theorem edges_foldl_edit : (edits.foldl edit g).edges =
    OrderedMap.record join g.edges (edits.flatMap Edit.added) := by
  induction edits generalizing g with
  | nil => rfl
  | cons e edits ih =>
    rw [List.foldl_cons, ih, edges_edit, List.flatMap_cons]
    exact List.foldl_append.symm

/-! ### Nodes -/

/-- **The attributes that a step gives** to a node. -/
def Edit.attrsFor (id : String) : Edit → List NodeAttr
  | .node id' attrs => if id' = id then attrs else []
  | .label _ | .rankdir _ | .edge _ _ _ => []

theorem flatten_mentions (id : String) (e : Edit) :
    ((e.mentions.filter fun entry => entry.1 = id).map Prod.snd).flatten = e.attrsFor id := by
  cases e with
  | label value => rfl
  | rankdir value => rfl
  | node id' attrs =>
    unfold Edit.mentions Edit.attrsFor
    by_cases h : id' = id <;> simp [h]
  | edge source target attrs =>
    -- the ends of an edge are mentioned without attributes
    unfold Edit.mentions Edit.attrsFor
    by_cases hs : source = id <;> by_cases ht : target = id <;> simp [hs, ht]

theorem flatten_flatMap_mentions (id : String) (edits : List Edit) :
    (((edits.flatMap Edit.mentions).filter fun entry => entry.1 = id).map Prod.snd).flatten =
      edits.flatMap (Edit.attrsFor id) := by
  induction edits with
  | nil => rfl
  | cons e edits ih =>
    rw [List.flatMap_cons, List.filter_append, List.map_append, List.flatten_append, ih,
      flatten_mentions, List.flatMap_cons]

/-- Being given attributes one list at a time is being given all of them. -/
theorem foldl_give (lists : List (List NodeAttr)) (attrs : NodeAttrs) :
    lists.foldl (fun old attrs => some (give old attrs)) (some attrs) =
      some (lists.flatten.foldl NodeAttrs.set attrs) := by
  induction lists generalizing attrs with
  | nil => rfl
  | cons list lists ih =>
    rw [List.foldl_cons, ih, List.flatten_cons, List.foldl_append]
    rfl

/-- **A node has all attributes that were given to it**, and it is there if it was mentioned. -/
theorem get?_nodes_build : (build kind edits).nodes.get? id =
    if id ∈ (edits.flatMap Edit.mentions).map Prod.fst then
      some ((edits.flatMap (Edit.attrsFor id)).foldl NodeAttrs.set {})
    else none := by
  rw [build, nodes_foldl_edit, OrderedMap.get?_record, ← flatten_flatMap_mentions]
  show List.foldl _ none _ = _
  have hmem : id ∈ (edits.flatMap Edit.mentions).map Prod.fst ↔
      (edits.flatMap Edit.mentions).filter (fun entry => entry.1 = id) ≠ [] := by
    rw [Ne, List.filter_eq_nil_iff]
    simp
  by_cases h : id ∈ (edits.flatMap Edit.mentions).map Prod.fst
  · rw [if_pos h]
    -- the first mention makes the node, and from then on attributes are added to it
    obtain ⟨entry, entries, heq⟩ := List.exists_cons_of_ne_nil (hmem.1 h)
    rw [heq, List.map_cons, List.foldl_cons, foldl_give, List.flatten_cons, List.foldl_append]
    rfl
  · rw [if_neg h, Decidable.not_not.1 (mt hmem.2 h)]
    rfl

/-! ### Edges -/

/-- **The edges from one node to another** in the order in which they are listed. -/
def between (g : Graph) (a b : String) : List EdgeAttrs :=
  (g.edgeList.filter fun e => e.1 = (a, b)).map Prod.snd

/-- They are the group of that name, since other groups hold none of them. -/
theorem between_eq : g.between a b = (g.edges.get? (a, b)).getD [] := by
  unfold between edgeList OrderedMap.get?
  have hdistinct := g.edges.distinct
  generalize g.edges.toList = groups at hdistinct
  -- the groups are searched from the first one on, and only one of them has the name
  induction groups with
  | nil => rfl
  | cons group groups ih =>
    obtain ⟨key, list⟩ := group
    rw [List.map_cons, List.nodup_cons] at hdistinct
    rw [List.flatMap_cons, List.filter_append, List.map_append, ih hdistinct.2,
      OrderedMap.lookup_pair_cons]
    by_cases h : (a, b) = key
    · subst h
      rw [if_pos rfl, OrderedMap.lookup_eq_none hdistinct.1]
      simp [List.filter_map, Function.comp_def]
    · rw [if_neg h]
      simp [Ne.symm h]

theorem foldl_join (old : List EdgeAttrs) (list : List EdgeAttrs) :
    list.foldl (fun old attrs => some (join old attrs)) (some old) = some (old ++ list) := by
  induction list generalizing old with
  | nil => simp
  | cons attrs list ih =>
    rw [List.foldl_cons, ih]
    simp [join]

/-- **The edges from one node to another are those that were added**, in that order. -/
theorem between_build : (build kind edits).between a b =
    ((edits.flatMap Edit.added).filter fun e => e.1 = (a, b)).map Prod.snd := by
  rw [between_eq, build, edges_foldl_edit, OrderedMap.get?_record]
  show (List.foldl _ none _).getD [] = _
  cases ((edits.flatMap Edit.added).filter fun e => e.1 = (a, b)).map Prod.snd with
  | nil => rfl
  | cons attrs list =>
    -- the first edge starts the group
    rw [List.foldl_cons, foldl_join]
    rfl

theorem mem_between {attrs : EdgeAttrs} : attrs ∈ g.between a b ↔ ((a, b), attrs) ∈ g.edgeList := by
  unfold between
  simp

/-- No edge is listed that was not added, and none is lost. -/
theorem mem_edgeList_build {edge : (String × String) × EdgeAttrs} :
    edge ∈ (build kind edits).edgeList ↔ edge ∈ edits.flatMap Edit.added := by
  obtain ⟨⟨a, b⟩, attrs⟩ := edge
  rw [← mem_between, between_build]
  simp

/-! ### Leaving out a node -/

theorem mem_keys_edit (h : id ∈ g.nodes.keys) : id ∈ (g.edit e).nodes.keys := by
  rw [nodes_edit]
  exact OrderedMap.mem_keys_record h

/-- **The graph without a node** and without the edges into it. -/
def without (g : Graph) (x : String) : Graph :=
  { g with nodes := g.nodes.filter (· ≠ x), edges := g.edges.filter (·.2 ≠ x) }

theorem without_mention_self {attrs : List NodeAttr} :
    (g.mention x attrs).without x = g.without x := by
  unfold without mention
  simp [OrderedMap.filter_alter]

theorem without_mention {attrs : List NodeAttr} (h : id ≠ x) :
    (g.mention id attrs).without x = (g.without x).mention id attrs := by
  unfold without mention
  simp [OrderedMap.filter_alter, h]

/-- Nothing happens to a node that is mentioned again. -/
theorem mention_eq_self (h : id ∈ g.nodes.keys) : g.mention id [] = g := by
  unfold mention
  rw [OrderedMap.alter_eq_self (fun _ => rfl) h]

/-- **Steps that avoid the node** can be taken without it. -/
theorem without_edit_edge {attrs : List EdgeAttr} (ha : a ≠ x) (hb : b ≠ x) :
    (g.edit (.edge a b attrs)).without x = (g.without x).edit (.edge a b attrs) := by
  unfold without edit mention
  simp [OrderedMap.filter_alter, ha, hb]

/-- **An edge into the node** leaves no trace, if its source has been mentioned. -/
theorem without_edit_into {attrs : List EdgeAttr} (ha : a ∈ g.nodes.keys) :
    (g.edit (.edge a x attrs)).without x = g.without x := by
  -- mentioning the source again does nothing, and the rest is about the node left out
  show Graph.without { (g.mention a []).mention x [] with edges := _ } x = _
  rw [mention_eq_self ha]
  unfold without mention
  simp [OrderedMap.filter_alter]

theorem edgeList_without : (g.without x).edgeList = g.edgeList.filter fun e => e.1.2 ≠ x := by
  show List.flatMap _ (g.edges.toList.filter fun group => group.1.2 ≠ x) =
    (g.edges.toList.flatMap _).filter _
  induction g.edges.toList with
  | nil => rfl
  | cons group groups ih =>
    rw [List.filter_cons, List.flatMap_cons, List.filter_append, ← ih, List.filter_map]
    -- a group is kept whole or not at all
    by_cases h : group.1.2 = x
    · simp [Function.comp_def, h]
    · simp [Function.comp_def, h]

end LexerGen.Graph
