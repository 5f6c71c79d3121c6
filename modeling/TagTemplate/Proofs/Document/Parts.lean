import TagTemplate.Proofs.Document.Rendering

/-!
# Documents part by part

A document is written part by part, and each part as if it stood alone: what comes before or behind
a node has no say in how the node is written. The writer is one walk over the whole document that
adds to what has been written so far, so this is not plain from its definition. It is plain from
`Node.rendering`, which follows the nodes, and there the first node splits off
(`Node.rendering_cons`).

Reading does not go part by part, since texts side by side are read as one. But a part of a
well-formed document is well-formed when it is taken alone (`Node.WellFormed.atPath?`), and so
whatever can be read can be cut to pieces, and every piece can be written and read again.
-/

namespace TagTemplate

namespace Node

/-! ## Written alone -/

theorem rendering_cons (node : Node) (nodes : List Node) :
    rendering (node :: nodes) = rendering [node] ++ rendering nodes := by
  cases node <;> simp [rendering]

theorem render?_some (node : Node) :
    render? (some node) = .ok (String.ofList (rendering [node])) := by
  have h := renderer_traverse [node] ""
  rw [String.empty_append] at h
  rw [render?, finalState, Visitor.walkNode, Visitor.walkNodes_eq_traverse, h]

theorem exists_forall₂_render? (nodes : List Node) :
    ∃ texts, List.Forall₂ (fun node text ↦ render? (some node) = .ok text) nodes texts ∧
      String.join texts = String.ofList (rendering nodes) := by
  induction nodes with
  | nil => exact ⟨[], .nil, by rw [rendering, String.ofList_nil, String.join_nil]⟩
  | cons node nodes ih =>
    obtain ⟨texts, htexts, hjoin⟩ := ih
    refine ⟨_, .cons node.render?_some htexts, ?_⟩
    rw [String.join_cons, hjoin, rendering_cons node nodes, String.ofList_append]

theorem rendering_loop (header : LoopHeader) (children : List Node) :
    String.ofList (rendering [.loop header children])
      = header.tag ++ String.ofList (rendering children) ++ endTag := by
  rw [rendering, rendering, List.append_nil, String.ofList_append, String.ofList_append,
    String.ofList_toList, String.ofList_toList, String.append_assoc]

/-! ## Well-formed alone -/

namespace WellFormed

variable {nodes : List Node} {node : Node}

theorem of_mem (h : WellFormed nodes) (hmem : node ∈ nodes) : WellFormed [node] := by
  induction h with
  | nil => cases hmem
  | text hne _ _ ih =>
    rcases List.mem_cons.mp hmem with rfl | hmem
    · exact .text hne nofun .nil
    · exact ih hmem
  | echo hne helements _ ih =>
    rcases List.mem_cons.mp hmem with rfl | hmem
    · exact .echo hne helements .nil
    · exact ih hmem
  | loop hheader hchildren _ _ ih =>
    rcases List.mem_cons.mp hmem with rfl | hmem
    · exact .loop hheader hchildren .nil
    · exact ih hmem

theorem children {header : LoopHeader} {children : List Node}
    (h : WellFormed [.loop header children]) : WellFormed children := by
  cases h with
  | loop _ hchildren _ => exact hchildren

/-- Wherever a path leads among well-formed nodes, the node there is well-formed. -/
theorem atPath? {path : List Nat} (h : WellFormed nodes) (hpath : atPath? nodes path = some node) :
    WellFormed [node] := by
  fun_induction Node.atPath? nodes path with
  | case1 => contradiction
  | case2 nodes i => exact h.of_mem (List.mem_of_getElem? hpath)
  | case3 nodes i path _ header children hloop ih =>
    exact ih (h.of_mem (List.mem_of_getElem? hloop)).children hpath
  | case4 => contradiction

end WellFormed

end Node

theorem Node.WellFormed.parse_render? {node : Node} (h : WellFormed [node]) :
    ∃ text, render? (some node) = .ok text ∧ Document.parse text = .ok ⟨[node]⟩ := by
  have hdoc : Document.WellFormed ⟨[node]⟩ := h
  obtain ⟨text, hrender, hparse⟩ := hdoc.parse_render
  refine ⟨text, ?_, hparse⟩
  rw [← hrender, Document.render_eq, node.render?_some]

/-- **Parts.** A document is written as its nodes are, one behind the other, each of which is
written as if it were alone: a loop as its tag, what its children are written as and an END tag, an
echo as its tag, and a text with a backslash before every brace and backslash. And wherever a path
leads in a document that has been read, the node there is written as a text from which it is read
again, alone. -/
theorem parts_are_written_alone :
    (∀ doc : Document, ∃ texts,
      List.Forall₂ (fun node text ↦ Node.render? (some node) = .ok text) doc.children texts ∧
        doc.render = .ok (String.join texts)) ∧
    (∀ header children, ∃ texts,
      List.Forall₂ (fun node text ↦ Node.render? (some node) = .ok text) children texts ∧
        Node.render? (some (.loop header children)) = .ok ("\x7b$FOR " ++ header.counter ++ " "
          ++ " ".intercalate (header.bounds.map Element.text) ++ "$\x7d"
          ++ String.join texts ++ "\x7b$END$\x7d")) ∧
    (∀ elements, Node.render? (some (.echo elements))
      = .ok ("\x7b$=" ++ " ".intercalate (elements.map Element.text) ++ "$\x7d")) ∧
    (∀ content, Node.render? (some (.text content)) = .ok (String.ofList
      (content.toList.flatMap fun c ↦ if c = '{' ∨ c = '\\' then ['\\', c] else [c]))) ∧
    ∀ source doc path node, Document.parse source = .ok doc →
      Node.atPath? doc.children path = some node →
      ∃ text, Node.render? (some node) = .ok text ∧ Document.parse text = .ok ⟨[node]⟩ := by
  refine ⟨fun doc ↦ ?_, fun header children ↦ ?_, fun elements ↦ ?_, fun content ↦ ?_,
    fun source doc path node hdoc hpath ↦ ?_⟩
  · obtain ⟨texts, htexts, hjoin⟩ := Node.exists_forall₂_render? doc.children
    exact ⟨texts, htexts, by rw [doc.render_eq, hjoin]⟩
  · obtain ⟨texts, htexts, hjoin⟩ := Node.exists_forall₂_render? children
    refine ⟨texts, htexts, ?_⟩
    rw [Node.render?_some, Node.rendering_loop, hjoin]
    rfl
  · rw [Node.render?_some, Node.rendering, Node.rendering, List.append_nil, String.ofList_toList]
    rfl
  · rw [Node.render?_some, Node.rendering, Node.rendering, List.append_nil, Escaping.escape]
    simp only [Escaping.escapable_documentText_iff]
  · have hnodes : Node.WellFormed doc.children := Document.wellFormed_of_parse hdoc
    exact (hnodes.atPath? hpath).parse_render?

/-- The second node within the second node is a loop, and so it is when it is cut out. -/
theorem part_is_read_alone :
    Document.parse "a\x7b$for i 1 2$\x7db\x7b$for j 3 4$\x7dc\x7b$end$\x7d\x7b$end$\x7d"
      = .ok ⟨[.text "a", .loop ⟨"i", .integer 1, .integer 2, none⟩
          [.text "b", .loop ⟨"j", .integer 3, .integer 4, none⟩ [.text "c"]]]⟩ ∧
    Node.render? (some (.loop ⟨"j", .integer 3, .integer 4, none⟩ [.text "c"]))
      = .ok "\x7b$FOR j 3 4$\x7dc\x7b$END$\x7d" ∧
    Document.parse "\x7b$FOR j 3 4$\x7dc\x7b$END$\x7d"
      = .ok ⟨[.loop ⟨"j", .integer 3, .integer 4, none⟩ [.text "c"]]⟩ := by
  have hparse : Document.parse
      "a\x7b$for i 1 2$\x7db\x7b$for j 3 4$\x7dc\x7b$end$\x7d\x7b$end$\x7d"
        = .ok ⟨[.text "a", .loop ⟨"i", .integer 1, .integer 2, none⟩
          [.text "b", .loop ⟨"j", .integer 3, .integer 4, none⟩ [.text "c"]]]⟩ := by
    decide +kernel
  have hrender : Node.render? (some (.loop ⟨"j", .integer 3, .integer 4, none⟩ [.text "c"]))
      = .ok "\x7b$FOR j 3 4$\x7dc\x7b$END$\x7d" := by
    decide +kernel
  obtain ⟨-, -, -, -, halone⟩ := parts_are_written_alone
  obtain ⟨text, htext, hagain⟩ := halone _ _ [1, 1] _ hparse rfl
  obtain rfl := Except.ok.inj (hrender.symm.trans htext)
  exact ⟨hparse, hrender, hagain⟩

end TagTemplate
