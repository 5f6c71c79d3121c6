import TagTemplate.Proofs.Document.OutlineLines

/-!
# Documents are known by their outlines

An outline is read by people, and nothing in the program reads one. Still it loses nothing: two
documents that have been read have the same outline only if they are the same document. That is not
plain to see, since a string can have line breaks in it, and what follows a line break can look like
another line of the outline.

What keeps such a line from being taken for one is that it is between quotes, and that a quote in a
string has a backslash before it. An element is written as in a template, so it is seen where it
ends just as a reader of templates sees it (`Element.WellFormed.text_append_inj`). Hence an entry
is known by how it is written, whatever stands behind it (`Node.selfDelimiting_entry`), and an
outline has only one reading as a list of entries.

An entry says of a node what it is and at which level, but not what is in it. The levels say that:
the children of a loop are the entries behind it up to the first that is no further in than the loop
itself. So the list of entries has only one reading as nodes (`Node.labels_append_inj`).
-/

namespace TagTemplate

/-! ## Descriptions of elements -/

namespace Element

/-- An element is known by its description, and the closing parenthesis shows where it ends. -/
theorem selfDelimiting_description :
    SelfDelimiting WellFormed fun e ↦ e.description.toList := by
  intro e f r s he hf h
  have hkind : ∀ e : Element, ∀ c ∈ e.kindName.toList, (c != '(') = true := by
    intro e
    cases e <;> simp [kindName]
  have hcloses : ∀ t : List Char, ∀ c ∈ (')' :: t).head?,
      isNameChar c = false ∧ Numeral.isNumeralChar c = false := fun t ↦
    forall_mem_head?_cons.mpr (by decide)
  simp only [description, String.toList_append, List.append_assoc] at h
  obtain ⟨-, htext⟩ := eq_and_eq_of_append_cons_eq (hkind e) (hkind f) rfl h
  obtain ⟨rfl, hrest⟩ := he.text_append_inj hf (hcloses r) (hcloses s) htext
  exact ⟨rfl, (List.cons.inj hrest).2⟩

theorem selfDelimiting_descriptions (word : String) :
    SelfDelimiting (fun es : List Element ↦ es ≠ [] ∧ ∀ e ∈ es, e.WellFormed)
      fun es ↦ (word ++ " ".intercalate (es.map description)).toList ++ ['\n'] := by
  have hjoin : ∀ es : List Element, (" ".intercalate (es.map description)).toList
      = [' '].intercalate (es.map fun e ↦ e.description.toList) := fun es ↦ by
    rw [String.toList_intercalate, List.map_map]
    rfl
  intro es fs r s hes hfs h
  simp only [String.toList_append, List.append_assoc, List.append_cancel_left_eq, hjoin] at h
  rw [← List.append_assoc, ← List.append_assoc (List.intercalate _ (fs.map _))] at h
  exact selfDelimiting_description.intercalate (by decide) hes hfs h

end Element

namespace Node

theorem headline_loop (header : LoopHeader) (children : List Node) :
    headline (.loop header children)
      = "For " ++ " ".intercalate (header.elements.map Element.description) := by
  rw [headline, header.intercalate_elements, String.append_assoc, String.append_assoc,
    String.append_assoc]

/-! ## Nodes without their children -/

/-- The nodes within a node. -/
def children : Node → List Node
  | .text _ | .echo _ => []
  | .loop _ children => children

/-- A node as it is without the nodes within it. -/
def childless : Node → Node
  | .text content => .text content
  | .echo elements => .echo elements
  | .loop header _ => .loop header []

theorem children_childless (node : Node) : node.childless.children = [] := by
  cases node <;> rfl

theorem headline_childless (node : Node) : node.childless.headline = node.headline := by
  cases node <;> rfl

theorem eq_of_childless_eq {node other : Node} (h : node.childless = other.childless)
    (hchildren : node.children = other.children) : node = other := by
  cases node <;> cases other <;> simp_all [childless, children]

/-- Induction over a list of nodes and the nodes within the first. -/
theorem induction_children {motive : List Node → Prop} (nil : motive [])
    (cons : ∀ node nodes, motive node.children → motive nodes → motive (node :: nodes))
    (nodes : List Node) : motive nodes := by
  induction nodes using Node.induction with
  | nil => exact nil
  | text content nodes ih => exact cons (.text content) nodes nil ih
  | echo elements nodes ih => exact cons (.echo elements) nodes nil ih
  | loop header children nodes ihchildren ih =>
    exact cons (.loop header children) nodes ihchildren ih

theorem inSourceOrder_cons (level : ℕ) (node : Node) (nodes : List Node) :
    inSourceOrder level (node :: nodes) = (level, node) ::
      (inSourceOrder (level + 1) node.children ++ inSourceOrder level nodes) := by
  cases node <;> simp [inSourceOrder, children]

namespace WellFormed

variable {node : Node} {nodes : List Node}

theorem of_cons (h : WellFormed (node :: nodes)) :
    WellFormed [node.childless] ∧ WellFormed node.children ∧ WellFormed nodes := by
  cases h with
  | text hne _ hnodes => exact ⟨.text hne nofun .nil, .nil, hnodes⟩
  | echo hne helements hnodes => exact ⟨.echo hne helements .nil, .nil, hnodes⟩
  | loop hheader hchildren hnodes => exact ⟨.loop hheader .nil .nil, hchildren, hnodes⟩

end WellFormed

/-! ## What is seen of the nodes -/

/-- Nodes at a level and all nodes below them, in source order, each with its level but without its
children. -/
def labels (level : ℕ) (nodes : List Node) : List (ℕ × Node) :=
  (inSourceOrder level nodes).map fun place ↦ (place.1, place.2.childless)

theorem labels_nil (level : ℕ) : labels level [] = [] := by
  rw [labels, inSourceOrder, List.map_nil]

theorem labels_cons (level : ℕ) (node : Node) (nodes : List Node) :
    labels level (node :: nodes)
      = (level, node.childless) :: (labels (level + 1) node.children ++ labels level nodes) := by
  rw [labels, inSourceOrder_cons, List.map_cons, List.map_append]
  rfl

theorem level_lt_of_mem_head? {level : ℕ} (nodes : List Node) {rest : List (ℕ × Node)}
    (hrest : ∀ place ∈ rest.head?, place.1 < level) :
    ∀ place ∈ (labels level nodes ++ rest).head?, place.1 < level + 1 := by
  intro place hplace
  cases nodes with
  | nil =>
    rw [labels_nil, List.nil_append] at hplace
    exact Nat.lt_succ_of_lt (hrest place hplace)
  | cons node nodes =>
    rw [labels_cons] at hplace
    obtain rfl := Option.some.inj hplace
    exact Nat.lt_succ_self level

/-- Nodes are known by what is seen of them and all nodes below them, and the first entry that is
further out shows where they end. -/
theorem labels_append_inj {level : ℕ} {as bs : List Node} {ps qs : List (ℕ × Node)}
    (hps : ∀ p ∈ ps.head?, p.1 < level) (hqs : ∀ q ∈ qs.head?, q.1 < level)
    (h : labels level as ++ ps = labels level bs ++ qs) : as = bs ∧ ps = qs := by
  induction as using induction_children generalizing level bs ps qs with
  | nil =>
    cases bs with
    | nil => exact ⟨rfl, by rwa [labels_nil, List.nil_append, List.nil_append] at h⟩
    | cons b bs =>
      rw [labels_nil, labels_cons, List.nil_append] at h
      exact absurd (hps (level, b.childless) (by rw [h]; rfl)) (lt_irrefl level)
  | cons a as ihchildren ih =>
    cases bs with
    | nil =>
      rw [labels_nil, labels_cons, List.nil_append] at h
      exact absurd (hqs (level, a.childless) (by rw [← h]; rfl)) (lt_irrefl level)
    | cons b bs =>
      rw [labels_cons, labels_cons, List.cons_append, List.cons_append, List.append_assoc,
        List.append_assoc] at h
      obtain ⟨hfirst, hrest⟩ := List.cons.inj h
      -- The children end before the next node of this level, or before what is further out.
      obtain ⟨hchildren, hnext⟩ := ihchildren (level_lt_of_mem_head? as hps)
        (level_lt_of_mem_head? bs hqs) hrest
      obtain ⟨rfl, rfl⟩ := ih hps hqs hnext
      rw [eq_of_childless_eq (Prod.mk.inj hfirst).2 hchildren]
      exact ⟨rfl, rfl⟩

/-! ## Entries -/

/-- What the headline of a node begins with. -/
def initial : Node → Char
  | .text _ => 'T'
  | .echo _ => 'E'
  | .loop _ _ => 'F'

theorem exists_headline_eq_cons (node : Node) :
    ∃ cs, node.headline.toList = node.initial :: cs := by
  cases node with
  | text content => exact ⟨_, String.toList_append⟩
  | echo elements => exact ⟨_, String.toList_append⟩
  | loop header children =>
    rw [headline_loop]
    exact ⟨_, String.toList_append⟩

theorem selfDelimiting_headline :
    SelfDelimiting (fun node ↦ WellFormed [node] ∧ node.children = [])
      fun node ↦ node.headline.toList ++ ['\n'] := by
  rintro a b r s ⟨ha, hachildren⟩ ⟨hb, hbchildren⟩ h
  have hinitial : a.initial = b.initial := by
    obtain ⟨as, has⟩ := a.exists_headline_eq_cons
    obtain ⟨bs, hbs⟩ := b.exists_headline_eq_cons
    simp only [has, hbs, List.cons_append] at h
    exact (List.cons.inj h).1
  cases ha with
  | @text content _ _ _ _ =>
    cases hb with
    | @text content' _ _ _ _ =>
      simp only [headline, String.toList_append, List.append_assoc,
        List.append_cancel_left_eq] at h
      obtain ⟨rfl, hrest⟩ := Quoted.selfDelimiting_quote trivial trivial h
      exact ⟨rfl, (List.cons.inj hrest).2⟩
    | echo _ _ _ | loop _ _ _ => exact absurd hinitial (by simp [initial])
  | @echo es _ hne hes _ =>
    cases hb with
    | @echo fs _ hne' hfs _ =>
      obtain ⟨rfl, rfl⟩ :=
        Element.selfDelimiting_descriptions "Echo " ⟨hne, hes⟩ ⟨hne', hfs⟩ h
      exact ⟨rfl, rfl⟩
    | text _ _ _ | loop _ _ _ => exact absurd hinitial (by simp [initial])
  | @loop header children _ hheader _ _ =>
    cases hb with
    | @loop header' children' _ hheader' _ _ =>
      simp only [headline_loop] at h
      obtain ⟨helements, rfl⟩ := Element.selfDelimiting_descriptions "For "
        ⟨List.cons_ne_nil _ _, hheader.elements⟩ ⟨List.cons_ne_nil _ _, hheader'.elements⟩ h
      obtain rfl := LoopHeader.elements_inj helements
      obtain rfl : children = children' := hachildren.trans hbchildren.symm
      exact ⟨rfl, rfl⟩
    | text _ _ _ | echo _ _ _ => exact absurd hinitial (by simp [initial])

theorem head?_headline_ne_space (node : Node) (rest : List Char) :
    ∀ c ∈ (node.headline.toList ++ rest).head?, (c == ' ') = false := by
  have hinitial : (node.initial == ' ') = false := by cases node <;> rfl
  obtain ⟨cs, hcs⟩ := node.exists_headline_eq_cons
  rw [hcs]
  exact forall_mem_head?_cons.mpr hinitial

/-- A place is known by its entry: the level by how far the entry is indented, and the node by its
headline. -/
theorem selfDelimiting_entry :
    SelfDelimiting (fun place ↦ WellFormed [place.2] ∧ place.2.children = [])
      fun place ↦ (entry place).toList ++ ['\n'] := by
  rintro ⟨level, a⟩ ⟨level', b⟩ r s ha hb h
  have hspaces : ∀ (n : ℕ), ∀ c ∈ List.replicate (2 * n) ' ', (c == ' ') = true := fun n c hc ↦
    beq_iff_eq.mpr (List.eq_of_mem_replicate hc)
  simp only [entry, String.toList_append, String.toList_ofList, List.append_assoc] at h
  obtain ⟨hindent, hline⟩ := eq_and_eq_of_append_eq (p := (· == ' ')) (hspaces level)
    (hspaces level') (head?_headline_ne_space a _) (head?_headline_ne_space b _) h
  have hlevel := congrArg List.length hindent
  rw [List.length_replicate, List.length_replicate] at hlevel
  obtain rfl : level = level' := Nat.eq_of_mul_eq_mul_left (by decide) hlevel
  rw [← List.append_assoc, ← List.append_assoc b.headline.toList] at hline
  obtain ⟨rfl, rfl⟩ := selfDelimiting_headline ha hb hline
  exact ⟨rfl, rfl⟩

theorem toList_outlining (level : ℕ) (nodes : List Node) :
    (outlining level nodes).toList
      = (labels level nodes).flatMap fun place ↦ (entry place).toList ++ ['\n'] := by
  rw [outlining_eq_join, toList_join_lines, labels, List.flatMap_map, List.flatMap_map]
  refine List.flatMap_congr fun place _ ↦ ?_
  rw [entry, entry, headline_childless]

theorem WellFormed.of_mem_labels {level : ℕ} {nodes : List Node} (h : WellFormed nodes) :
    ∀ place ∈ labels level nodes, WellFormed [place.2] ∧ place.2.children = [] := by
  induction nodes using induction_children generalizing level with
  | nil =>
    rw [labels_nil]
    exact List.forall_mem_nil _
  | cons node nodes ihchildren ih =>
    obtain ⟨hnode, hchildren, hnodes⟩ := h.of_cons
    rw [labels_cons, List.forall_mem_cons, List.forall_mem_append]
    exact ⟨⟨hnode, node.children_childless⟩, ihchildren hchildren, ih hnodes⟩

theorem WellFormed.outlining_inj {level : ℕ} {as bs : List Node} (has : WellFormed as)
    (hbs : WellFormed bs) (h : outlining level as = outlining level bs) : as = bs := by
  have hentries := congrArg String.toList h
  rw [toList_outlining, toList_outlining] at hentries
  have hlabels : labels level as = labels level bs :=
    selfDelimiting_entry.flatMap_inj (fun _ _ ↦ List.concat_ne_nil _ _) has.of_mem_labels
      hbs.of_mem_labels hentries
  have hstop : ∀ place : ℕ × Node, place ∈ [].head? → place.1 < level := nofun
  have happend : labels level as ++ [] = labels level bs ++ [] := by rw [hlabels]
  exact (labels_append_inj hstop hstop happend).1

end Node

/-! ## Whole outlines -/

theorem Document.WellFormed.outline_inj {d e : Document} (hd : d.WellFormed) (he : e.WellFormed)
    (h : d.outline = e.outline) : d = e := by
  obtain ⟨nodes⟩ := d
  obtain ⟨nodes'⟩ := e
  rw [Document.outline_eq, Document.outline_eq] at h
  have hnodes := (String.append_right_inj _).mp (Except.ok.inj h)
  exact congrArg Document.mk (Node.WellFormed.outlining_inj hd he hnodes)

/-- **Outlines.** Documents that have been read have outlines, and the outlines are the same text if
and only if the documents are the same, with the same nodes at every level, the same elements in
them and the same bits in every number. -/
theorem outline_identifies_document {source source' : String} {d e : Document}
    (hd : Document.parse source = .ok d) (he : Document.parse source' = .ok e) :
    ∃ text text', d.outline = .ok text ∧ e.outline = .ok text' ∧ (text = text' ↔ d = e) := by
  have hd := Document.wellFormed_of_parse hd
  have he := Document.wellFormed_of_parse he
  refine ⟨_, _, d.outline_eq, e.outline_eq, fun h ↦ hd.outline_inj he ?_, ?_⟩
  · rw [d.outline_eq, e.outline_eq, h]
  · rintro rfl
    rfl

/-- A string that holds the end of one line of an outline and the beginning of another. -/
def forgedLine : Document where
  children := [.echo [.string "a\")\n  Echo String(\"b"]]

/-- What the string pretends to be. -/
def twoEchoes : Document where
  children := [.echo [.string "a"], .echo [.string "b"]]

/-- It is not taken for that, since its quotes have backslashes in the outline as in the
template. -/
theorem outline_of_forgedLine :
    Document.parse "\x7b$=\"a\\\")\n  Echo String(\\\"b\"$\x7d" = .ok forgedLine ∧
    Document.parse "\x7b$=\"a\"$\x7d\x7b$=\"b\"$\x7d" = .ok twoEchoes ∧
    ∃ text text', forgedLine.outline = .ok text ∧ twoEchoes.outline = .ok text' ∧
      text ≠ text' := by
  have hforged : Document.parse "\x7b$=\"a\\\")\n  Echo String(\\\"b\"$\x7d"
      = .ok forgedLine := by
    decide +kernel
  have htwo : Document.parse "\x7b$=\"a\"$\x7d\x7b$=\"b\"$\x7d" = .ok twoEchoes := by
    decide +kernel
  have hlength : forgedLine.children.length ≠ twoEchoes.children.length := by decide
  obtain ⟨text, text', htext, htext', hiff⟩ := outline_identifies_document hforged htwo
  refine ⟨hforged, htwo, text, text', htext, htext', fun heq ↦ hlength ?_⟩
  rw [hiff.mp heq]

end TagTemplate
