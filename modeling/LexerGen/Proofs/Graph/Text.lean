import LexerGen.Graph.Text
import LexerGen.Proofs.Text.Delimited

/-!
# The text of a graph tells the graph

Two graphs have the same text only if they are of the same kind and have the same attributes, the
same nodes in the same order and the same edges in the same order (`text_eq_text_iff`). Names and
values are arbitrary and may look like any part of the format; they are quoted, and quoted text is
self-delimiting, so what they look like does not matter.

What is left to show is that the format around them can be read from left to right. A name of an
attribute is made of letters, so it ends at the sign behind it. A list of attributes is either
absent, and then the statement ends, or it starts with a bracket. A statement for a node goes on
with one of these two after its first name, and a statement for an edge with an arrow. So each of
the three parts of the text ends where the next one starts.
-/

namespace LexerGen.Graph

open Text

variable {l m : List (String × String)} {u v : List Char} {kind : Kind}

/-! ### Attributes -/

/-- **Attributes with a name made of letters.** -/
def Named (attr : String × String) : Prop := ∀ c ∈ attr.1.toList, c.isAlpha = true

theorem Named.not_mem {attr : String × String} (h : Named attr) {c : Char}
    (hc : c.isAlpha = false) : c ∉ attr.1.toList := by
  intro hmem
  rw [h c hmem] at hc
  cases hc

/-- An assignment is its name up to the sign, and then its value. -/
theorem selfDelimiting_assignment : SelfDelimiting Named assignment := by
  rintro ⟨name, value⟩ ⟨name', value'⟩ hname hname' u v h
  unfold assignment at h
  rw [List.append_assoc (name.toList ++ ['=']), List.append_assoc (name'.toList ++ ['='])] at h
  obtain ⟨heq, hrest⟩ := selfDelimiting_until '=' name.toList name'.toList
    (hname.not_mem (by decide)) (hname'.not_mem (by decide)) _ _ h
  obtain ⟨rfl, huv⟩ := selfDelimiting_quoted_toList value value' trivial trivial u v hrest
  obtain rfl := String.toList_injective heq
  exact ⟨rfl, huv⟩

/-- A list that is not empty is its first assignment, and then one assignment behind each comma. -/
theorem attrList_cons (attr : String × String) (l : List (String × String)) :
    attrList (attr :: l) =
      '[' :: (assignment attr ++ l.flatMap (fun attr => ',' :: assignment attr)) ++ [']'] := by
  show '[' :: ([','].intercalate ((attr :: l).map assignment) ++ [']']) = _
  have hlist : [','].intercalate ((attr :: l).map assignment) =
      assignment attr ++ l.flatMap (fun attr => ',' :: assignment attr) := by
    induction l generalizing attr with
    | nil => simp
    | cons next l ih =>
      rw [List.map_cons, List.map_cons, List.intercalate_cons_cons, ← List.map_cons, ih next]
      simp
  rw [hlist]
  rfl

/-- What stands between brackets is self-delimiting. -/
theorem bracket_inj (hl : ∀ attr ∈ l, Named attr) (hm : ∀ attr ∈ m, Named attr)
    (h : l.flatMap (fun attr => ',' :: assignment attr) ++ ']' :: u =
      m.flatMap (fun attr => ',' :: assignment attr) ++ ']' :: v) : l = m ∧ u = v := by
  have hwrite : SelfDelimiting Named fun attr => ',' :: assignment attr := by
    intro a b ha hb u v h
    exact selfDelimiting_assignment a b ha hb u v (List.cons.inj h).2
  have hclose : ∀ u, Closing Named (fun attr => ',' :: assignment attr) (']' :: u) := by
    intro u a _ s h
    exact absurd (List.cons.inj h).1 (by decide)
  obtain ⟨hlm, huv⟩ := hwrite.flatMap_inj hl hm (hclose u) (hclose v) h
  exact ⟨hlm, (List.cons.inj huv).2⟩

/-- **The end of a statement**: a list of attributes, if there are any, and a semicolon. -/
theorem attrList_inj (hl : ∀ attr ∈ l, Named attr) (hm : ∀ attr ∈ m, Named attr)
    (h : attrList l ++ ';' :: u = attrList m ++ ';' :: v) : l = m ∧ u = v := by
  cases l with
  | nil =>
    cases m with
    | nil => exact ⟨rfl, (List.cons.inj h).2⟩
    | cons b m =>
      rw [attrList_cons] at h
      exact absurd (List.cons.inj h).1 (by decide)
  | cons a l =>
    rw [List.forall_mem_cons] at hl
    cases m with
    | nil =>
      rw [attrList_cons] at h
      exact absurd (List.cons.inj h).1 (by decide)
    | cons b m =>
      rw [List.forall_mem_cons] at hm
      rw [attrList_cons, attrList_cons] at h
      simp only [List.cons_append, List.append_assoc, List.cons.injEq, true_and] at h
      obtain ⟨rfl, hrest⟩ := selfDelimiting_assignment a b hl.1 hm.1 _ _ h
      obtain ⟨rfl, huv⟩ := bracket_inj hl.2 hm.2 hrest
      exact ⟨rfl, (List.cons.inj huv).2⟩

/-! ### Attributes that are set -/

theorem mem_map_fst_of_mem_given {l : List (String × Option String)} {attr : String × String}
    (h : attr ∈ given l) : attr.1 ∈ l.map Prod.fst := by
  obtain ⟨⟨name, value⟩, hmem, hvalue⟩ := List.mem_filterMap.1 h
  obtain ⟨value, rfl, rfl⟩ := Option.map_eq_some_iff.1 hvalue
  exact List.mem_map_of_mem hmem

/-- **Which attributes are set, and to what**, can be told from their list, if each name stands for
one attribute. -/
theorem given_inj {l m : List (String × Option String)} (hnames : l.map Prod.fst = m.map Prod.fst)
    (hnodup : (l.map Prod.fst).Nodup) (h : given l = given m) : l = m := by
  induction l generalizing m with
  | nil => exact (List.map_eq_nil_iff.1 hnames.symm).symm
  | cons a l ih =>
    obtain ⟨name, value⟩ := a
    obtain ⟨⟨name', value'⟩, m, rfl, hname, hlater⟩ := List.map_eq_cons_iff.1 hnames.symm
    obtain rfl : name = name' := hname.symm
    rw [List.map_cons, List.nodup_cons] at hnodup
    -- a name that is set in one list only would be a later name of the other
    have hleft : ∀ attr ∈ given l, attr.1 ≠ name := fun attr hattr heq =>
      hnodup.1 (heq ▸ mem_map_fst_of_mem_given hattr)
    have hright : ∀ attr ∈ given m, attr.1 ≠ name := fun attr hattr heq =>
      hnodup.1 (hlater ▸ heq ▸ mem_map_fst_of_mem_given hattr)
    cases value with
    | none =>
      cases value' with
      | none => rw [ih hlater.symm hnodup.2 h]
      | some value' =>
        have hmem : (name, value') ∈ given l := h ▸ List.mem_cons_self
        exact absurd rfl (hleft _ hmem)
    | some value =>
      cases value' with
      | none =>
        have hmem : (name, value) ∈ given m := h ▸ List.mem_cons_self
        exact absurd rfl (hright _ hmem)
      | some value' =>
        obtain ⟨hvalue, hrest⟩ := List.cons.inj h
        obtain rfl : value = value' := (Prod.mk.inj hvalue).2
        rw [ih hlater.symm hnodup.2 hrest]

/-- Names that are made of letters stay so in the list of those that are set. -/
theorem named_of_mem_given {l : List (String × Option String)}
    (hl : ∀ name ∈ l.map Prod.fst, ∀ c ∈ name.toList, c.isAlpha = true) :
    ∀ attr ∈ given l, Named attr :=
  fun _ hattr => hl _ (mem_map_fst_of_mem_given hattr)

theorem named_attrs (attrs : Attrs) : ∀ attr ∈ attrs.toList, Named attr :=
  named_of_mem_given (by simp)

theorem named_nodeAttrs (attrs : NodeAttrs) : ∀ attr ∈ attrs.toList, Named attr :=
  named_of_mem_given (by simp)

theorem named_edgeAttrs (attrs : EdgeAttrs) : ∀ attr ∈ attrs.toList, Named attr :=
  named_of_mem_given (by simp)

theorem attrs_toList_inj {a b : Attrs} (h : a.toList = b.toList) : a = b := by
  obtain ⟨label, rankdir⟩ := a
  obtain ⟨label', rankdir'⟩ := b
  have hlist := given_inj (by rfl) (by simp) h
  simp only [List.cons.injEq, Prod.mk.injEq, true_and, and_true] at hlist
  obtain ⟨rfl, rfl⟩ := hlist
  rfl

theorem nodeAttrs_toList_inj {a b : NodeAttrs} (h : a.toList = b.toList) : a = b := by
  obtain ⟨label, peripheries, shape, style⟩ := a
  obtain ⟨label', peripheries', shape', style'⟩ := b
  have hlist := given_inj (by rfl) (by simp) h
  simp only [List.cons.injEq, Prod.mk.injEq, true_and, and_true] at hlist
  obtain ⟨rfl, rfl, rfl, rfl⟩ := hlist
  rfl

theorem edgeAttrs_toList_inj {a b : EdgeAttrs} (h : a.toList = b.toList) : a = b := by
  obtain ⟨color, label⟩ := a
  obtain ⟨color', label'⟩ := b
  have hlist := given_inj (by rfl) (by simp) h
  simp only [List.cons.injEq, Prod.mk.injEq, true_and, and_true] at hlist
  obtain ⟨rfl, rfl⟩ := hlist
  rfl

/-! ### Statements -/

theorem selfDelimiting_nodeStatement : SelfDelimiting (fun _ => True) nodeStatement := by
  rintro ⟨id, attrs⟩ ⟨id', attrs'⟩ _ _ u v h
  unfold nodeStatement at h
  simp only [List.append_assoc] at h
  obtain ⟨rfl, hrest⟩ := selfDelimiting_quoted_toList id id' trivial trivial _ _ h
  obtain ⟨hattrs, huv⟩ := attrList_inj (named_nodeAttrs attrs) (named_nodeAttrs attrs') hrest
  rw [nodeAttrs_toList_inj hattrs]
  exact ⟨rfl, huv⟩

theorem selfDelimiting_edgeStatement (kind : Kind) :
    SelfDelimiting (fun _ => True) (edgeStatement kind) := by
  rintro ⟨⟨source, target⟩, attrs⟩ ⟨⟨source', target'⟩, attrs'⟩ _ _ u v h
  unfold edgeStatement at h
  simp only [List.append_assoc] at h
  obtain ⟨rfl, harrow⟩ := selfDelimiting_quoted_toList source source' trivial trivial _ _ h
  have htarget := List.append_cancel_left harrow
  obtain ⟨rfl, hrest⟩ := selfDelimiting_quoted_toList target target' trivial trivial _ _ htarget
  obtain ⟨hattrs, huv⟩ := attrList_inj (named_edgeAttrs attrs) (named_edgeAttrs attrs') hrest
  rw [edgeAttrs_toList_inj hattrs]
  exact ⟨rfl, huv⟩

theorem selfDelimiting_keyword :
    SelfDelimiting (fun _ => True) fun kind : Kind => kind.keyword.toList := by
  intro kind kind' _ _ u v h
  cases kind <;> cases kind'
  · exact ⟨rfl, List.append_cancel_left h⟩
  · exact absurd (List.cons.inj h).1 (by decide)
  · exact absurd (List.cons.inj h).1 (by decide)
  · exact ⟨rfl, List.append_cancel_left h⟩

theorem selfDelimiting_attrStatement :
    SelfDelimiting Named fun attr => assignment attr ++ [';'] := by
  intro a b ha hb u v h
  rw [List.append_assoc, List.append_assoc] at h
  obtain ⟨rfl, hrest⟩ := selfDelimiting_assignment a b ha hb _ _ h
  exact ⟨rfl, (List.cons.inj hrest).2⟩

/-- The text of a graph behind its attributes. -/
def body (g : Graph) : List Char :=
  g.nodes.toList.flatMap nodeStatement ++ (g.edgeList.flatMap (edgeStatement g.kind) ++ ['\x7d'])

/-- The edges are closed by a brace. -/
theorem closing_edgeStatement : Closing (fun _ => True) (edgeStatement kind) ['\x7d'] := by
  intro edge _ s h
  exact absurd (List.cons.inj h).1 (by decide)

/-- **A statement for an edge is none for a node**: an arrow follows its first name. -/
theorem closing_nodeStatement (edges : List ((String × String) × EdgeAttrs)) :
    Closing (fun _ => True) nodeStatement
      (edges.flatMap (edgeStatement kind) ++ ['\x7d']) := by
  rintro ⟨id, attrs⟩ _ s h
  cases edges with
  | nil => exact absurd (List.cons.inj h).1 (by decide)
  | cons edge edges =>
    unfold nodeStatement at h
    rw [List.flatMap_cons, edgeStatement] at h
    simp only [List.append_assoc] at h
    obtain ⟨-, hrest⟩ := selfDelimiting_quoted_toList _ _ trivial trivial _ _ h
    -- behind the name of a node stands a bracket or a semicolon
    cases hattrs : attrs.toList with
    | nil =>
      rw [hattrs] at hrest
      cases kind with
      | undirected => exact absurd (List.cons.inj hrest).1 (by decide)
      | directed => exact absurd (List.cons.inj hrest).1 (by decide)
    | cons attr l =>
      rw [hattrs, attrList_cons] at hrest
      cases kind with
      | undirected => exact absurd (List.cons.inj hrest).1 (by decide)
      | directed => exact absurd (List.cons.inj hrest).1 (by decide)

/-- **No attribute starts what follows the attributes**, which is a quote or the last brace. -/
theorem closing_attrStatement (g : Graph) :
    Closing Named (fun attr => assignment attr ++ [';']) g.body := by
  have hbody : ∃ c s, g.body = c :: s ∧ (c = '"' ∨ c = '\x7d') := by
    unfold body
    cases g.nodes.toList with
    | cons node nodes => exact ⟨_, _, rfl, .inl rfl⟩
    | nil =>
      cases g.edgeList with
      | cons edge edges => exact ⟨_, _, rfl, .inl rfl⟩
      | nil => exact ⟨_, _, rfl, .inr rfl⟩
  rintro ⟨name, value⟩ hname s h
  obtain ⟨c, t, heq, hc⟩ := hbody
  have hname : ∀ c ∈ name.toList, c.isAlpha = true := hname
  rw [heq] at h
  unfold assignment at h
  dsimp only at h
  cases hlist : name.toList with
  | nil =>
    rw [hlist] at h
    obtain rfl := (List.cons.inj h).1
    exact absurd hc (by decide)
  | cons d l =>
    rw [hlist] at h
    obtain rfl : d = c := (List.cons.inj h).1
    have halpha : d.isAlpha = true := hname d (hlist ▸ List.mem_cons_self)
    rcases hc with rfl | rfl
    · exact absurd halpha (by decide)
    · exact absurd halpha (by decide)

/-! ### Graphs -/

theorem text_eq (g : Graph) : g.text = g.kind.keyword.toList ++
    (' ' :: '\x7b' ::
      (g.attrs.toList.flatMap (fun attr => assignment attr ++ [';']) ++ g.body)) := by
  simp [text, body]

/-- **The text of a graph is a faithful record of it.** Two graphs have the same text exactly if
they are of the same kind, have the same attributes and list the same nodes and the same edges, with
the same attributes and in the same order. -/
theorem text_eq_text_iff (g g' : Graph) : g.text = g'.text ↔
    g.kind = g'.kind ∧ g.attrs = g'.attrs ∧ g.nodes.toList = g'.nodes.toList ∧
      g.edgeList = g'.edgeList := by
  constructor
  · intro h
    rw [text_eq, text_eq] at h
    obtain ⟨hkind, hopen⟩ := selfDelimiting_keyword g.kind g'.kind trivial trivial _ _ h
    have hlists := (List.cons.inj (List.cons.inj hopen).2).2
    -- each of the three lists is closed by what follows it
    obtain ⟨hattrs, hbody⟩ := selfDelimiting_attrStatement.flatMap_inj (named_attrs g.attrs)
      (named_attrs g'.attrs) (closing_attrStatement g) (closing_attrStatement g') hlists
    unfold body at hbody
    rw [hkind] at hbody
    obtain ⟨hnodes, hedges⟩ := selfDelimiting_nodeStatement.flatMap_inj (fun _ _ => trivial)
      (fun _ _ => trivial) (closing_nodeStatement _) (closing_nodeStatement _) hbody
    obtain ⟨hedges, -⟩ := (selfDelimiting_edgeStatement g'.kind).flatMap_inj (fun _ _ => trivial)
      (fun _ _ => trivial) closing_edgeStatement closing_edgeStatement hedges
    exact ⟨hkind, attrs_toList_inj hattrs, hnodes, hedges⟩
  · rintro ⟨hkind, hattrs, hnodes, hedges⟩
    unfold text
    rw [hkind, hattrs, hnodes, hedges]

end LexerGen.Graph
