import TagTemplate.Proofs.Document.Rendering

/-!
# Reading and writing documents

Reading and writing fit together in two ways. A document that has been read is written as a
template that is read as the very same document, so writing a template anew changes it once at
most. And of all documents exactly those that could have been read come back from what they are
written as: they are the well-formed ones.

The second statement compares documents by their equality, which does not tell the two zeros
apart. Nothing is lost by that. A document that comes back as an equal one has been read in between,
hence it is equal to a well-formed document, and whatever is equal to one is well-formed.
-/

namespace TagTemplate

/-- **Round trip.** A document that is read from a source is written as a text, from which the same
document is read, and that is written as the same text again. -/
theorem parse_render_of_parse {source : String} {doc : Document}
    (h : Document.parse source = .ok doc) :
    ∃ text, doc.render = .ok text ∧
      ∃ again, Document.parse text = .ok again ∧ again = doc ∧ again.render = .ok text := by
  obtain ⟨text, hrender, hparse⟩ := (Document.wellFormed_of_parse h).parse_render
  exact ⟨text, hrender, doc, hparse, rfl, hrender⟩

private theorem parse_brace_and_echo : Document.parse "\x7b\x7b$= x$\x7d"
    = .ok ⟨[.text "\x7b", .echo [.variableName "x"]]⟩ := by
  have hname : IsName ['x'] := .intro rfl (by simp)
  -- The pieces, from the last to the first.
  have hx := Lexes.endOfInput.tagEnd.piece ['x']
    ⟨.bodyElement _, .variableName hname, forall_mem_head?_cons.mpr rfl⟩ nofun
  have hblank : Lexes .body [' ', 'x', '$', '}'] _ := hx.blank rfl
  have hequals := hblank.piece ['='] ⟨.tagHead _, .equalsSign, Or.inl rfl⟩ nofun
  have hopen := hequals.piece ['{', '$'] ⟨.tagStart, .tagStart, trivial⟩ nofun
  have hbrace : Escaping.documentText.Written ['{'] ['{'] := .plain (by decide) .nil
  have hunclosed : Escaping.documentText.Unclosed ['{'] ['{', '$', '=', ' ', 'x', '$', '}'] :=
    (Escaping.unclosed_plain_iff (by decide)).mpr ⟨rfl, Escaping.unclosed_nil _⟩
  have hall := hopen.piece ['{']
    ⟨.text _, .text (List.cons_ne_nil _ _) hbrace, Or.inr rfl, hunclosed⟩ nofun
  exact Document.parse_of_lexes
    (t := .text "\x7b" (.echo [.variableName "x"] (List.cons_ne_nil _ _) .done)) hall

/-- A brace that need not be protected, and a blank that need not be there, are written the other
way, and then nothing changes any more. -/
theorem parse_render_of_brace_and_echo :
    Document.parse "\x7b\x7b$= x$\x7d" = .ok ⟨[.text "\x7b", .echo [.variableName "x"]]⟩ ∧
      ∃ text, Document.render ⟨[.text "\x7b", .echo [.variableName "x"]]⟩ = .ok text ∧
        ∃ again, Document.parse text = .ok again ∧
          again = ⟨[.text "\x7b", .echo [.variableName "x"]]⟩ ∧ again.render = .ok text :=
  ⟨parse_brace_and_echo, parse_render_of_parse parse_brace_and_echo⟩

/-- **What can be read.** Documents that are read are well-formed, and a document, whether it was
read or not, comes back as an equal one from what it is written as if and only if it is
well-formed. -/
theorem parse_render_equal_iff_wellFormed :
    (∀ source doc, Document.parse source = .ok doc → doc.WellFormed) ∧
    ∀ doc : Document, (∃ text again, doc.render = .ok text ∧ Document.parse text = .ok again ∧
      again.equal doc = true) ↔ doc.WellFormed := by
  refine ⟨fun source doc ↦ Document.wellFormed_of_parse, fun doc ↦ ⟨?_, fun h ↦ ?_⟩⟩
  · rintro ⟨text, again, -, hparse, hequal⟩
    exact (Document.equal_iff.mp hequal).wellFormed (Document.wellFormed_of_parse hparse)
  · obtain ⟨text, hrender, hparse⟩ := h.parse_render
    exact ⟨text, doc, hrender, hparse, Document.equal_iff.mpr h.alike⟩

end TagTemplate
