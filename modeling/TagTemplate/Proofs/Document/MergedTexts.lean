import TagTemplate.Proofs.Document.Rendering

/-!
# Texts side by side

A document that was put together by hand may hold texts that no template has: empty ones, and texts
side by side. Of all that is in a document these are what is lost when it is written and read again,
and nothing else is, as long as its tags can be written (`Node.Writable`): the document that comes
back has its texts merged (`Node.mergeTexts`).

Texts are written one by one and read as one, and this is no matter, because how a character is
written does not depend on what is next to it. So a document and the same document with its texts
merged are written alike (`Node.rendering_mergeTexts`), and the latter is well-formed
(`Node.Writable.mergeTexts`).
-/

namespace TagTemplate

/-! ## Documents whose tags can be written -/

/-- Whether nodes have only tags that can be written, at every depth: no echo is empty, and headers
and elements are well-formed. Texts may be any. -/
inductive Node.Writable : List Node → Prop
  | nil : Writable []
  | text (content : String) {nodes : List Node} : Writable nodes →
    Writable (.text content :: nodes)
  | echo {elements : List Element} {nodes : List Node} : elements ≠ [] →
    (∀ e ∈ elements, e.WellFormed) → Writable nodes → Writable (.echo elements :: nodes)
  | loop {header : LoopHeader} {children nodes : List Node} : header.WellFormed →
    Writable children → Writable nodes → Writable (.loop header children :: nodes)

/-- Whether a document has only tags that can be written. -/
def Document.Writable (doc : Document) : Prop := Node.Writable doc.children

/-! ## Merging -/

namespace Node

/-- Nodes with a text before them, which is put together with the text that they begin with, if they
begin with one, and left out if it is empty. -/
def withText (content : String) : List Node → List Node
  | .text more :: nodes => .text (content ++ more) :: nodes
  | nodes => if content = "" then nodes else .text content :: nodes

/-- Nodes without their empty texts, and with one text for all that are side by side, at every
depth. -/
def mergeTexts : List Node → List Node
  | [] => []
  | .text content :: nodes => withText content (mergeTexts nodes)
  | .echo elements :: nodes => .echo elements :: mergeTexts nodes
  | .loop header children :: nodes => .loop header (mergeTexts children) :: mergeTexts nodes

theorem rendering_withText (content : String) (nodes : List Node) :
    rendering (withText content nodes)
      = Escaping.documentText.escape content.toList ++ rendering nodes := by
  unfold withText
  split
  · rw [rendering, rendering, String.toList_append, Escaping.escape_append, List.append_assoc]
  · split
    · rename_i hempty
      rw [hempty]
      rfl
    · rw [rendering]

theorem rendering_mergeTexts (nodes : List Node) :
    rendering (mergeTexts nodes) = rendering nodes := by
  induction nodes using Node.induction with
  | nil => rw [mergeTexts]
  | text content nodes ih => rw [mergeTexts, rendering_withText, rendering, ih]
  | echo elements nodes ih => rw [mergeTexts, rendering, rendering, ih]
  | loop header children nodes ihchildren ih =>
    rw [mergeTexts, rendering, rendering, ihchildren, ih]

theorem WellFormed.withText {nodes : List Node} (h : WellFormed nodes) (content : String) :
    WellFormed (withText content nodes) := by
  unfold Node.withText
  split
  · cases h with
    | text hne hhead h =>
      refine .text (fun hempty ↦ hne ?_) hhead h
      exact (String.append_eq_empty_iff.mp hempty).2
  · rename_i hhead
    split
    · exact h
    · rename_i hne
      refine .text hne (fun more hmore ↦ ?_) h
      obtain ⟨nodes, rfl⟩ := List.head?_eq_some_iff.mp hmore
      exact hhead more nodes rfl

theorem Writable.mergeTexts {nodes : List Node} (h : Writable nodes) :
    WellFormed (mergeTexts nodes) := by
  induction h with
  | nil =>
    rw [Node.mergeTexts]
    exact .nil
  | text content _ ih =>
    rw [Node.mergeTexts]
    exact ih.withText content
  | echo hne helements _ ih =>
    rw [Node.mergeTexts]
    exact .echo hne helements ih
  | loop hheader _ _ ihchildren ih =>
    rw [Node.mergeTexts]
    exact .loop hheader ihchildren ih

end Node

/-- A document with its texts merged. -/
def Document.mergeTexts (doc : Document) : Document := ⟨Node.mergeTexts doc.children⟩

/-- **Texts are merged.** A document whose tags can be written is written as a text from which it is
read with its texts merged, and with nothing else changed. -/
theorem Document.Writable.parse_render_eq_mergeTexts {doc : Document} (h : doc.Writable) :
    ∃ text, doc.render = .ok text ∧ Document.parse text = .ok doc.mergeTexts := by
  have hmerged : doc.mergeTexts.WellFormed := Node.Writable.mergeTexts h
  obtain ⟨text, hrender, hparse⟩ := hmerged.parse_render
  refine ⟨text, ?_, hparse⟩
  rw [← hrender, Document.render_eq, Document.render_eq, Document.mergeTexts,
    Node.rendering_mergeTexts]

/-- A document in which texts are split where they would open a tag together, and a loop that ends
with a backslash and a brace. -/
def splitTexts : Document where
  children := [.text "\x7b", .text "$", .text "", .echo [.double ⟨true, 0, by decide⟩],
    .loop ⟨"i", .integer 1, .string "\x7b$", none⟩ [.text "", .text "\\", .text "\x00\x7b"],
    .text ""]

/-- No tag comes of the texts that are put together, and the zero keeps its sign. -/
theorem parse_render_splitTexts :
    splitTexts.Writable ∧ ∃ text, splitTexts.render = .ok text ∧ Document.parse text = .ok
      ⟨[.text "\x7b$", .echo [.double ⟨true, 0, by decide⟩],
        .loop ⟨"i", .integer 1, .string "\x7b$", none⟩ [.text "\\\x00\x7b"]]⟩ := by
  have hheader : LoopHeader.WellFormed ⟨"i", .integer 1, .string "\x7b$", none⟩ :=
    ⟨.intro rfl (by simp), by decide,
      List.forall_mem_cons.mpr ⟨.integer 1, List.forall_mem_singleton.mpr (.string _)⟩⟩
  have hloop : Node.Writable [.loop ⟨"i", .integer 1, .string "\x7b$", none⟩
      [.text "", .text "\\", .text "\x00\x7b"], .text ""] :=
    .loop hheader (.text _ (.text _ (.text _ .nil))) (.text _ .nil)
  have hwritable : splitTexts.Writable :=
    .text _ (.text _ (.text _ (.echo (List.cons_ne_nil _ _)
      (List.forall_mem_singleton.mpr (.double rfl)) hloop)))
  have hmerged : splitTexts.mergeTexts = ⟨[.text "\x7b$", .echo [.double ⟨true, 0, by decide⟩],
      .loop ⟨"i", .integer 1, .string "\x7b$", none⟩ [.text "\\\x00\x7b"]]⟩ := by
    cbv
  exact ⟨hwritable, hmerged ▸ hwritable.parse_render_eq_mergeTexts⟩

end TagTemplate
