import LexerGen.Graph.Text
import LexerGen.Proofs.Graph.History
import LexerGen.SortedSet

/-!
# What is printed of a graph

The text of a graph is a function of the steps that built it, and that function can be read off the
steps directly, without a graph (`history`). Nodes are the identifiers that are mentioned, each at
the place of its first mention; an edge mentions its source and then its target. Edges are collected
by their ends (`grouped`): none is lost, and those with the same ends come together at the place of
the first of them, in the order in which they were added. An edge and one the other way have
different ends, whether or not edges have a direction. Attributes are what the settings leave
(`latest`): one for each name that was set, with the value it was given last, in alphabetical order.

The graph, its nodes and its edges keep their attributes in a fixed number of fields. That is the
same as looking up the settings from the last one back (`Keeps.fields_foldl`), and listing the
fields in their fixed order is listing names in alphabetical order (`given_eq_latest`).
-/

namespace LexerGen.Graph

open Text

variable {kind : Kind} {edits : List Edit} {name value : String}

/-! ### What settings leave -/

section Latest

variable {settings : List (String × String)}

/-- **The attributes that settings leave**: each name that was set, in alphabetical order, with its
last value. -/
def latest (settings : List (String × String)) : List (String × String) :=
  (SortedSet.ofList (settings.map Prod.fst)).toList.filterMap fun name =>
    (settings.reverse.lookup name).map (name, ·)

/-- A value that is found from the end back is the last one. -/
theorem lookup_reverse_eq_some_iff : settings.reverse.lookup name = some value ↔
    ∃ before after, settings = before ++ (name, value) :: after ∧
      ∀ setting ∈ after, setting.1 ≠ name := by
  rw [List.lookup_eq_some_iff]
  constructor
  · rintro ⟨after, before, heq, hafter⟩
    refine ⟨before.reverse, after.reverse, ?_, ?_⟩
    · rw [← List.reverse_inj, heq]
      simp
    · intro setting hsetting
      exact Ne.symm (bne_iff_ne.1 (hafter setting (List.mem_reverse.1 hsetting)))
  · rintro ⟨before, after, rfl, hafter⟩
    refine ⟨after.reverse, before.reverse, by simp, ?_⟩
    intro setting hsetting
    exact bne_iff_ne.2 (Ne.symm (hafter setting (List.mem_reverse.1 hsetting)))

/-- Names that are not set have no value. -/
theorem lookup_reverse_eq_none (h : name ∉ settings.map Prod.fst) :
    settings.reverse.lookup name = none := by
  apply OrderedMap.lookup_eq_none
  rwa [List.map_reverse, List.mem_reverse]

/-- **An attribute** is a name with the value that it was given last. -/
theorem mem_latest_iff : (name, value) ∈ latest settings ↔
    ∃ before after, settings = before ++ (name, value) :: after ∧
      ∀ setting ∈ after, setting.1 ≠ name := by
  rw [← lookup_reverse_eq_some_iff, latest, List.mem_filterMap]
  constructor
  · rintro ⟨name', -, h⟩
    obtain ⟨value', hvalue, heq⟩ := Option.map_eq_some_iff.1 h
    obtain ⟨rfl, rfl⟩ := Prod.mk.inj heq
    exact hvalue
  · intro h
    refine ⟨name, ?_, by rw [h]; rfl⟩
    rw [SortedSet.mem_toList, SortedSet.mem_ofList]
    by_contra hnot
    rw [lookup_reverse_eq_none hnot] at h
    cases h

/-- **Attributes are in alphabetical order**, so no name occurs twice. -/
theorem pairwise_latest : ((latest settings).map Prod.fst).Pairwise (· < ·) := by
  rw [List.pairwise_map]
  refine List.Pairwise.filterMap _ ?_ (SortedSet.ofList (settings.map Prod.fst)).ascending
  intro name name' hlt attr hattr attr' hattr'
  obtain ⟨_, -, rfl⟩ := Option.map_eq_some_iff.1 hattr
  obtain ⟨_, -, rfl⟩ := Option.map_eq_some_iff.1 hattr'
  exact hlt

/-! ### Fields -/

/-- **Fields that stand in alphabetical order** list what the settings leave, if there is a field
for each name that is set. -/
theorem given_eq_latest {names : List String} (hnames : names.Pairwise (· < ·))
    (hcover : ∀ name ∈ settings.map Prod.fst, name ∈ names) :
    given (names.map fun name => (name, settings.reverse.lookup name)) = latest settings := by
  have hset : (SortedSet.ofList (settings.map Prod.fst)).toList =
      names.filter fun name => name ∈ settings.map Prod.fst := by
    refine SortedSet.eq_of_ascending (SortedSet.ascending _) (hnames.filter _) ?_
    intro name
    rw [SortedSet.mem_toList, SortedSet.mem_ofList, List.mem_filter, decide_eq_true_eq]
    exact ⟨fun h => ⟨hcover name h, h⟩, And.right⟩
  unfold given latest
  rw [hset, List.filterMap_filter, List.filterMap_map]
  apply List.filterMap_congr
  intro name _
  -- a field whose name is not set is empty
  by_cases h : name ∈ settings.map Prod.fst
  · simp [h]
  · rw [if_neg (by simpa using h)]
    simp [lookup_reverse_eq_none h]

end Latest

/-- **Things with fields for attributes.** A step of kind `β` makes settings, and each of them is
found in the field with its name. -/
structure Keeps {α β : Type} (step : α → β → α) (set : β → List (String × String))
    (fields : α → List (String × Option String)) (names : List String) : Prop where
  /-- The fields are in alphabetical order. -/
  ascending : names.Pairwise (· < ·)
  /-- Every setting has a field. -/
  covers : ∀ b, ∀ setting ∈ set b, setting.1 ∈ names
  /-- A step puts its settings into the fields, in place of what was there before. -/
  step_eq : ∀ a b, fields (step a b) =
    (fields a).map fun field => (field.1, ((set b).reverse.lookup field.1).or field.2)

namespace Keeps

variable {α β : Type} {step : α → β → α} {set : β → List (String × String)}
  {fields : α → List (String × Option String)} {names : List String}

/-- **Fields hold what all the settings leave there.** -/
theorem fields_foldl (h : Keeps step set fields names) (steps : List β) (a : α) :
    fields (steps.foldl step a) = (fields a).map fun field =>
      (field.1, ((steps.flatMap set).reverse.lookup field.1).or field.2) := by
  induction steps generalizing a with
  | nil => simp
  | cons b steps ih =>
    rw [List.foldl_cons, ih, h.step_eq, List.map_map]
    simp [Function.comp_def, List.lookup_append, Option.or_assoc]

/-- **Fields that were empty at first** list what the settings leave. -/
theorem given_foldl (h : Keeps step set fields names) (steps : List β) {a : α}
    (hempty : fields a = names.map fun name => (name, none)) :
    given (fields (steps.foldl step a)) = latest (steps.flatMap set) := by
  rw [h.fields_foldl, hempty, List.map_map, ← given_eq_latest h.ascending]
  · simp [Function.comp_def]
  · intro name hname
    obtain ⟨setting, hsetting, rfl⟩ := List.mem_map.1 hname
    obtain ⟨b, -, hb⟩ := List.mem_flatMap.1 hsetting
    exact h.covers b setting hb

end Keeps

/-- The setting that an attribute of a node is. -/
def NodeAttr.setting : NodeAttr → String × String
  | label value => ("label", value)
  | peripheries value => ("peripheries", value)
  | shape value => ("shape", value)
  | style value => ("style", value)

/-- The setting that an attribute of an edge is. -/
def EdgeAttr.setting : EdgeAttr → String × String
  | color value => ("color", value)
  | label value => ("label", value)

/-- **The settings of the graph** that a step makes. -/
def Edit.settings : Edit → List (String × String)
  | label value => [("label", value)]
  | rankdir value => [("rankdir", value)]
  | node _ _ | edge _ _ _ => []

theorem keeps_nodeAttrs : Keeps NodeAttrs.set (fun attr => [attr.setting])
    (fun attrs => [("label", attrs.label), ("peripheries", attrs.peripheries),
      ("shape", attrs.shape), ("style", attrs.style)])
    ["label", "peripheries", "shape", "style"] where
  ascending := by decide
  covers attr := by cases attr <;> simp [NodeAttr.setting]
  step_eq attrs attr := by cases attr <;> rfl

theorem keeps_edgeAttrs : Keeps EdgeAttrs.set (fun attr => [attr.setting])
    (fun attrs => [("color", attrs.color), ("label", attrs.label)]) ["color", "label"] where
  ascending := by decide
  covers attr := by cases attr <;> simp [EdgeAttr.setting]
  step_eq attrs attr := by cases attr <;> rfl

theorem keeps_attrs : Keeps edit Edit.settings
    (fun g => [("label", g.attrs.label), ("rankdir", g.attrs.rankdir)]) ["label", "rankdir"] where
  ascending := by decide
  covers e := by cases e <;> simp [Edit.settings]
  step_eq g e := by cases e <;> rfl

theorem toList_nodeAttrs (attrs : List NodeAttr) :
    (attrs.foldl NodeAttrs.set {}).toList = latest (attrs.map NodeAttr.setting) := by
  rw [List.map_eq_flatMap]
  exact keeps_nodeAttrs.given_foldl attrs rfl

theorem toList_edgeAttrs (attrs : List EdgeAttr) :
    (attrs.foldl EdgeAttrs.set {}).toList = latest (attrs.map EdgeAttr.setting) := by
  rw [List.map_eq_flatMap]
  exact keeps_edgeAttrs.given_foldl attrs rfl

theorem toList_attrs_build :
    (build kind edits).attrs.toList = latest (edits.flatMap Edit.settings) :=
  keeps_attrs.given_foldl edits rfl

/-! ### Grouping -/

section Grouping

variable {κ γ δ : Type} [DecidableEq κ] {entries : List (κ × γ)}

/-- **Entries collected by their keys.** Keys come in the order in which they are met first, and the
entries for one key in their old order. -/
def grouped (entries : List (κ × γ)) : List (κ × γ) :=
  (OrderedMap.keysOf entries).flatMap fun key => entries.filter fun entry => entry.1 = key

theorem fst_of_mem_filter {key : κ} {entry : κ × γ}
    (h : entry ∈ entries.filter fun entry => entry.1 = key) : entry.1 = key :=
  of_decide_eq_true (List.mem_filter.1 h).2

theorem grouped_map (f : γ → δ) :
    grouped (entries.map fun entry => (entry.1, f entry.2)) =
      (grouped entries).map fun entry => (entry.1, f entry.2) := by
  unfold grouped OrderedMap.keysOf
  rw [List.map_map, List.map_flatMap]
  simp only [List.filter_map]
  rfl

/-- The entries for one key are their values, each with the key. -/
theorem map_pair_map_snd_filter (entries : List (κ × γ)) (key : κ) :
    ((entries.filter fun entry => entry.1 = key).map Prod.snd).map (key, ·) =
      entries.filter fun entry => entry.1 = key := by
  rw [List.map_map]
  refine (List.map_congr_left ?_).trans (List.map_id _)
  intro entry hentry
  exact Prod.ext (fst_of_mem_filter hentry).symm rfl

/-- Entries for a key that is not among those by which they are collected need not be there. -/
theorem flatMap_filter_of_not_mem {key : κ} {keys : List κ} (hkey : key ∉ keys) :
    (keys.flatMap fun key' => entries.filter fun entry => entry.1 = key') =
      keys.flatMap fun key' =>
        (entries.filter fun entry => !decide (entry.1 = key)).filter fun entry =>
          entry.1 = key' := by
  apply List.flatMap_congr
  intro key' hkey'
  have hne : key' ≠ key := fun heq => hkey (heq ▸ hkey')
  rw [List.filter_filter]
  apply List.filter_congr
  intro entry _
  by_cases h : entry.1 = key' <;> simp [h, hne]

/-- Entries whose keys are among some distinct ones can be collected by these. -/
theorem flatMap_filter_perm {keys : List κ} (hkeys : keys.Nodup)
    (hcover : ∀ entry ∈ entries, entry.1 ∈ keys) :
    (keys.flatMap fun key => entries.filter fun entry => entry.1 = key).Perm entries := by
  induction keys generalizing entries with
  | nil =>
    rw [List.eq_nil_iff_forall_not_mem.2 fun entry hentry => List.not_mem_nil (hcover entry hentry)]
    exact .nil
  | cons key keys ih =>
    rw [List.nodup_cons] at hkeys
    rw [List.flatMap_cons, flatMap_filter_of_not_mem hkeys.1]
    -- what is not collected by the first key is collected by the others
    refine (List.Perm.append_left _ (ih hkeys.2 ?_)).trans (List.filter_append_perm _ entries)
    intro entry hentry
    rw [List.mem_filter, Bool.not_eq_true', decide_eq_false_iff_not] at hentry
    exact (List.mem_cons.1 (hcover entry hentry.1)).resolve_left hentry.2

/-- **Collecting loses nothing** and adds nothing. -/
theorem grouped_perm (entries : List (κ × γ)) : (grouped entries).Perm entries := by
  refine flatMap_filter_perm (OrderedMap.nodup_keysOf entries) ?_
  intro entry hentry
  exact OrderedMap.mem_keysOf_iff.2 (List.mem_map_of_mem hentry)

/-- **Keys come in the order in which they are met**, each as often as it is met. -/
theorem pairwise_grouped (entries : List (κ × γ)) :
    ((grouped entries).map Prod.fst).Pairwise fun key key' =>
      OrderedMap.place entries key ≤ OrderedMap.place entries key' := by
  rw [List.pairwise_map, grouped, List.pairwise_flatMap]
  refine ⟨?_, (OrderedMap.pairwise_keysOf entries).imp ?_⟩
  · intro key _
    refine List.pairwise_of_forall_mem_list ?_
    intro entry hentry entry' hentry'
    exact Nat.le_of_eq (by rw [fst_of_mem_filter hentry, fst_of_mem_filter hentry'])
  · intro key key' hlt entry hentry entry' hentry'
    rw [fst_of_mem_filter hentry, fst_of_mem_filter hentry']
    exact Nat.le_of_lt hlt

/-- **The entries for one key stand together**, apart from all others. -/
theorem exists_block_grouped (entries : List (κ × γ)) (key : κ) :
    ∃ before after, grouped entries =
        before ++ (entries.filter fun entry => entry.1 = key) ++ after ∧
      ∀ entry ∈ before ++ after, entry.1 ≠ key := by
  by_cases h : key ∈ OrderedMap.keysOf entries
  · -- the key stands in one place among the keys
    obtain ⟨left, right, hkeys⟩ := List.append_of_mem h
    have hnodup := OrderedMap.nodup_keysOf entries
    rw [hkeys, List.perm_middle.nodup_iff, List.nodup_cons] at hnodup
    refine ⟨left.flatMap fun key => entries.filter fun entry => entry.1 = key,
      right.flatMap fun key => entries.filter fun entry => entry.1 = key, ?_, ?_⟩
    · rw [grouped, hkeys, List.flatMap_append, List.flatMap_cons, List.append_assoc]
    · rw [← List.flatMap_append]
      rintro entry hentry rfl
      obtain ⟨key', hkey', hmem⟩ := List.mem_flatMap.1 hentry
      exact hnodup.1 (fst_of_mem_filter hmem ▸ hkey')
  · -- there is no entry for the key
    have hnone : ∀ entry ∈ entries, entry.1 ≠ key := by
      rintro entry hentry rfl
      exact h (OrderedMap.mem_keysOf_iff.2 (List.mem_map_of_mem hentry))
    refine ⟨grouped entries, [], ?_, ?_⟩
    · rw [List.filter_eq_nil_iff.2 (by simpa using hnone), List.append_nil, List.append_nil]
    · rw [List.append_nil]
      intro entry hentry
      exact hnone entry ((grouped_perm entries).mem_iff.1 hentry)

end Grouping

/-! ### Nodes and edges -/

/-- **The identifiers that steps mention**, each at the place of its first mention. -/
def mentioned (edits : List Edit) : List String := OrderedMap.keysOf (edits.flatMap Edit.mentions)

/-- **Nodes are listed as they are mentioned first**, with the attributes that were given to
them. -/
theorem toList_nodes_build : (build kind edits).nodes.toList =
    (mentioned edits).map fun id =>
      (id, (edits.flatMap (Edit.attrsFor id)).foldl NodeAttrs.set {}) := by
  have hkeys : (build kind edits).nodes.keys = mentioned edits := by
    rw [build, nodes_foldl_edit]
    exact OrderedMap.keys_record_empty
  -- what is found at an identifier that is mentioned is known
  rw [OrderedMap.toList_eq_filterMap, hkeys, ← List.filterMap_eq_map]
  apply List.filterMap_congr
  intro id hid
  rw [get?_nodes_build, if_pos (OrderedMap.mem_keysOf_iff.1 hid)]
  rfl

theorem keys_edges_build :
    (build kind edits).edges.keys = OrderedMap.keysOf (edits.flatMap Edit.added) := by
  rw [build, edges_foldl_edit]
  exact OrderedMap.keys_record_empty

/-- **A group that is there** holds what was added between its ends. -/
theorem get?_edges_build {ends : String × String}
    (hends : ends ∈ OrderedMap.keysOf (edits.flatMap Edit.added)) :
    (build kind edits).edges.get? ends =
      some (((edits.flatMap Edit.added).filter fun e => e.1 = ends).map Prod.snd) := by
  obtain ⟨a, b⟩ := ends
  have hkeys : (build kind edits).edges.keys = _ := keys_edges_build
  rw [← hkeys] at hends
  obtain ⟨⟨_, group⟩, hmem, rfl⟩ := List.mem_map.1 hends
  have hget := OrderedMap.mem_toList_iff.1 hmem
  -- the edges between two nodes are the group, or none if it is not there
  have hbetween : (build kind edits).between a b = _ := between_build
  rw [between_eq, hget] at hbetween
  rw [hget, ← hbetween]
  rfl

/-- **Edges are listed by their ends.** -/
theorem edgeList_build :
    (build kind edits).edgeList = grouped (edits.flatMap Edit.added) := by
  unfold edgeList grouped
  rw [OrderedMap.toList_eq_filterMap, keys_edges_build]
  -- each of the keys has a group, which is a list without them
  have hgroup : ∀ ends ∈ OrderedMap.keysOf (edits.flatMap Edit.added),
      ((build kind edits).edges.get? ends).map (ends, ·) = some (ends,
        ((edits.flatMap Edit.added).filter fun e => e.1 = ends).map Prod.snd) := by
    intro ends hends
    rw [get?_edges_build hends]
    rfl
  rw [List.filterMap_congr hgroup, List.filterMap_eq_map', List.flatMap_map]
  simp only [map_pair_map_snd_filter]

/-! ### The whole text -/

/-- **The edges that a step adds**, with the attributes that they are given. -/
def Edit.joins : Edit → List ((String × String) × List EdgeAttr)
  | label _ | rankdir _ | node _ _ => []
  | edge source target attrs => [((source, target), attrs)]

/-- A setting as it is written. -/
def settingText (setting : String × String) : List Char :=
  setting.1.toList ++ '=' :: quoted setting.2.toList

/-- **Settings between brackets**, with a comma in front of each but the first. Nothing is written
if there are none. -/
def bracketed : List (String × String) → List Char
  | [] => []
  | setting :: more =>
    '[' :: settingText setting ++ more.flatMap (fun setting => ',' :: settingText setting) ++ [']']

theorem assignment_eq (attr : String × String) : assignment attr = settingText attr := by
  rw [assignment, settingText, List.append_assoc]
  rfl

/-- Commas between settings are commas in front of all but the first. -/
theorem intercalate_assignment (attr : String × String) (attrs : List (String × String)) :
    [','].intercalate ((attr :: attrs).map assignment) =
      settingText attr ++ attrs.flatMap fun attr => ',' :: settingText attr := by
  induction attrs generalizing attr with
  | nil => simp [assignment_eq]
  | cons next attrs ih =>
    rw [List.map_cons, List.map_cons, List.intercalate_cons_cons, ← List.map_cons, ih,
      assignment_eq, List.flatMap_cons, List.append_assoc]
    rfl

/-- **An attribute list is its settings between brackets.** -/
theorem attrList_eq_bracketed (attrs : List (String × String)) :
    attrList attrs = bracketed attrs := by
  cases attrs with
  | nil => rfl
  | cons attr attrs =>
    show ['['] ++ [','].intercalate ((attr :: attrs).map assignment) ++ [']'] = _
    rw [intercalate_assignment, bracketed]
    rfl

/-- **What is printed of a history.** -/
def history (kind : Kind) (edits : List Edit) : List Char :=
  kind.keyword.toList ++ [' ', '\x7b'] ++
    (latest (edits.flatMap Edit.settings)).flatMap (fun setting => settingText setting ++ [';']) ++
    (mentioned edits).flatMap (fun id => quoted id.toList ++
      bracketed (latest ((edits.flatMap (Edit.attrsFor id)).map NodeAttr.setting)) ++ [';']) ++
    (grouped (edits.flatMap Edit.joins)).flatMap (fun edge => quoted edge.1.1.toList ++
      kind.arrow.toList ++ quoted edge.1.2.toList ++
      bracketed (latest (edge.2.map EdgeAttr.setting)) ++ [';']) ++ ['\x7d']

theorem flatMap_nodeStatement_build : (build kind edits).nodes.toList.flatMap nodeStatement =
    (mentioned edits).flatMap fun id => quoted id.toList ++
      bracketed (latest ((edits.flatMap (Edit.attrsFor id)).map NodeAttr.setting)) ++ [';'] := by
  rw [toList_nodes_build, List.flatMap_map]
  simp only [nodeStatement, toList_nodeAttrs, attrList_eq_bracketed]

theorem flatMap_added : edits.flatMap Edit.added =
    (edits.flatMap Edit.joins).map fun edge => (edge.1, edge.2.foldl EdgeAttrs.set {}) := by
  rw [List.map_flatMap]
  apply List.flatMap_congr
  intro e _
  cases e <;> rfl

theorem flatMap_edgeStatement_build :
    (build kind edits).edgeList.flatMap (edgeStatement kind) =
      (grouped (edits.flatMap Edit.joins)).flatMap fun edge => quoted edge.1.1.toList ++
        kind.arrow.toList ++ quoted edge.1.2.toList ++
        bracketed (latest (edge.2.map EdgeAttr.setting)) ++ [';'] := by
  rw [edgeList_build, flatMap_added, grouped_map, List.flatMap_map]
  simp only [edgeStatement, toList_edgeAttrs, attrList_eq_bracketed]

/-- The kind of a graph stays. -/
theorem kind_foldl_edit (g : Graph) : (edits.foldl edit g).kind = g.kind := by
  induction edits generalizing g with
  | nil => rfl
  | cons e edits ih =>
    rw [List.foldl_cons, ih]
    cases e <;> rfl

theorem kind_build : (build kind edits).kind = kind := kind_foldl_edit _

/-- **The text of a graph is a function of its history.** The identifiers are those that are
mentioned, in the order of their first mentions. The edges are those that are added, in the order in
which their ends are joined first, and those with the same ends as they were added. The attributes
are in alphabetical order, each with its last value. -/
theorem text_build :
    (∀ (kind : Kind) (edits : List Edit), (build kind edits).text = history kind edits) ∧
    (∀ edits : List Edit,
      let mentions := edits.flatMap Edit.mentions
      (∀ id, id ∈ mentioned edits ↔ id ∈ mentions.map Prod.fst) ∧
      (mentioned edits).Pairwise fun id id' =>
        OrderedMap.place mentions id < OrderedMap.place mentions id') ∧
    (∀ edits : List Edit,
      let added := edits.flatMap Edit.joins
      (grouped added).Perm added ∧
      ((grouped added).map Prod.fst).Pairwise (fun ends ends' =>
        OrderedMap.place added ends ≤ OrderedMap.place added ends') ∧
      ∀ ends, ∃ before after,
        grouped added = before ++ (added.filter fun edge => edge.1 = ends) ++ after ∧
        ∀ edge ∈ before ++ after, edge.1 ≠ ends) ∧
    ∀ settings : List (String × String),
      ((latest settings).map Prod.fst).Pairwise (· < ·) ∧
      ∀ name value, (name, value) ∈ latest settings ↔
        ∃ before after, settings = before ++ (name, value) :: after ∧
          ∀ setting ∈ after, setting.1 ≠ name := by
  refine ⟨?_, ?_, ?_, ?_⟩
  · intro kind edits
    unfold text history
    rw [toList_attrs_build, flatMap_nodeStatement_build, kind_build, flatMap_edgeStatement_build]
    simp only [assignment_eq]
  · intro edits mentions
    exact ⟨fun id => OrderedMap.mem_keysOf_iff, OrderedMap.pairwise_keysOf _⟩
  · intro edits added
    exact ⟨grouped_perm added, pairwise_grouped added, exists_block_grouped added⟩
  · intro settings
    exact ⟨pairwise_latest, fun name value => mem_latest_iff⟩

/-- An edge the other way is not in the group of the first, also where edges have no direction. The
first edge and the last one are, and of the two labels of the last one the second is left. -/
theorem text_build_other_way :
    (build .undirected [.rankdir "LR", .edge "b" "a" [.label "1"], .edge "a" "b" [],
        .edge "b" "a" [.label "2", .color "red", .label "3"]]).text =
      ("graph \x7brankdir=\"LR\";" ++ "\"b\";\"a\";" ++ "\"b\"--\"a\"[label=\"1\"];" ++
        "\"b\"--\"a\"[color=\"red\",label=\"3\"];" ++ "\"a\"--\"b\";\x7d").toList := by
  obtain ⟨htext, -⟩ := text_build
  rw [htext]
  rfl

end LexerGen.Graph
