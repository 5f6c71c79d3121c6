import TagTemplate.Proofs.Document.Outlining
import TagTemplate.Proofs.Document.Visits

/-!
# The depth of an outline is the level of what is visited

The writer of outlines counts its depth up where it enters a loop and down where it leaves one, so
at any moment the depth hangs on all visits before. It is meant to be a matter of the place alone:
the level of a node, which is 1 at the top and one more within each loop (`Node.leveledVisits`).

What a single visit does is plain. It finds the depth that belongs to its level and leaves the one
that belongs to the next place (`Outline.exists_run_visit`), where a loop is left from one level
further in. So a walk is right about the depth if its visits fit together, each leaving what the
next one finds (`Visit.Leads`). Those of a document do, from level 1 back to level 1
(`Visit.leads_leveledVisits`), and no level is below 1, so there is always a level to go back to.
-/

namespace TagTemplate

/-! ## Visits with their levels -/

/-- The visits that nodes at a level call for, in order, each with the level of its node: the
children of a loop are one level further in than the loop. -/
def Node.leveledVisits (level : Nat) : List Node → List (Nat × Visit)
  | [] => []
  | .text content :: nodes => (level, .enter (.text content)) :: leveledVisits level nodes
  | .echo elements :: nodes => (level, .enter (.echo elements)) :: leveledVisits level nodes
  | .loop header children :: nodes =>
    (level, .enter (.loop header children)) ::
      (leveledVisits (level + 1) children ++
        (level, .leave header children) :: leveledVisits level nodes)

theorem Node.map_snd_leveledVisits (level : Nat) (nodes : List Node) :
    (leveledVisits level nodes).map Prod.snd = visitOrder nodes := by
  induction nodes using Node.induction generalizing level with
  | nil => rw [leveledVisits, visitOrder, List.map_nil]
  | text content nodes ih => rw [leveledVisits, visitOrder, List.map_cons, ih]
  | echo elements nodes ih => rw [leveledVisits, visitOrder, List.map_cons, ih]
  | loop header children nodes ihchildren ih =>
    rw [leveledVisits, visitOrder, List.map_cons, List.map_append, List.map_cons, ihchildren, ih]

theorem Node.le_of_mem_leveledVisits {level : Nat} {nodes : List Node} {place : Nat × Visit}
    (h : place ∈ leveledVisits level nodes) : level ≤ place.1 := by
  induction nodes using Node.induction generalizing level with
  | nil =>
    rw [leveledVisits] at h
    exact absurd h List.not_mem_nil
  | text content nodes ih | echo elements nodes ih =>
    rw [leveledVisits] at h
    rcases List.mem_cons.mp h with rfl | h
    · exact Nat.le_refl _
    · exact ih h
  | loop header children nodes ihchildren ih =>
    rw [leveledVisits] at h
    rcases List.mem_cons.mp h with rfl | h
    · exact Nat.le_refl _
    rcases List.mem_append.mp h with h | h
    · exact Nat.le_trans (Nat.le_succ level) (ihchildren h)
    rcases List.mem_cons.mp h with rfl | h
    · exact Nat.le_refl _
    · exact ih h

namespace Visit

/-- The depth that a visit to a node at a level is to find: a loop is left from within. -/
def depthBefore (level : Nat) : Visit → Nat
  | enter _ => level
  | leave _ _ => level + 1

/-- The depth that a visit to a node at a level is to leave: what comes behind the entering of a
loop is within it. -/
def depthAfter (level : Nat) : Visit → Nat
  | enter (.loop _ _) => level + 1
  | enter (.text _) | enter (.echo _) | leave _ _ => level

/-- Whether visits lead from one depth to another: each of them is to find what the one before it
is to leave. -/
inductive Leads : Nat → List (Nat × Visit) → Nat → Prop
  | nil (depth : Nat) : Leads depth [] depth
  | cons {start level stop : Nat} {visit : Visit} {visits : List (Nat × Visit)} :
    start = visit.depthBefore level → Leads (visit.depthAfter level) visits stop →
    Leads start ((level, visit) :: visits) stop

theorem Leads.append {start middle stop : Nat} {before behind : List (Nat × Visit)}
    (h : Leads start before middle) (h' : Leads middle behind stop) :
    Leads start (before ++ behind) stop := by
  induction h with
  | nil depth => exact h'
  | cons hstart _ ih => exact .cons hstart (ih h')

theorem Leads.exists_of_append {start stop : Nat} {before behind : List (Nat × Visit)}
    (h : Leads start (before ++ behind) stop) :
    ∃ middle, Leads start before middle ∧ Leads middle behind stop := by
  induction before generalizing start with
  | nil => exact ⟨start, .nil start, h⟩
  | cons place before ih =>
    rw [List.cons_append] at h
    cases h with
    | cons hstart h =>
      obtain ⟨middle, hbefore, hbehind⟩ := ih h
      exact ⟨middle, .cons hstart hbefore, hbehind⟩

theorem leads_leveledVisits (level : Nat) (nodes : List Node) :
    Leads level (Node.leveledVisits level nodes) level := by
  induction nodes using Node.induction generalizing level with
  | nil =>
    rw [Node.leveledVisits]
    exact .nil level
  | text content nodes ih | echo elements nodes ih =>
    rw [Node.leveledVisits]
    exact .cons rfl (ih level)
  | loop header children nodes ihchildren ih =>
    rw [Node.leveledVisits]
    have hleave : Leads (level + 1) ((level, .leave header children) ::
        Node.leveledVisits level nodes) level := .cons rfl (ih level)
    exact .cons rfl ((ihchildren (level + 1)).append hleave)

end Visit

/-! ## The writer -/

namespace Outline

variable {outline : Outline} {start stop : Nat} {visits : List (Nat × Visit)}

/-- A visit that finds the depth for its level never fails, and leaves the depth for what comes
next. -/
theorem exists_run_visit {level : Nat} {visit : Visit}
    (h : outline.depth = visit.depthBefore level) :
    ∃ next, (writer.visit visit).run outline = .ok () next ∧
      next.depth = visit.depthAfter level := by
  match visit with
  | .enter (.text content) => exact ⟨outline.addLine (textLine content), rfl, h⟩
  | .enter (.echo elements) => exact ⟨outline.addLine (echoLine elements), rfl, h⟩
  | .enter (.loop header children) =>
    exact ⟨(outline.addLine (loopLine header)).deeper, rfl, congrArg (· + 1) h⟩
  | .leave header children => exact ⟨outline.shallower, rfl, congrArg (· - 1) h⟩

theorem exists_run_of_leads (h : Visit.Leads start visits stop) (hstart : outline.depth = start) :
    ∃ next, (forM (visits.map Prod.snd) writer.visit).run outline = .ok () next ∧
      next.depth = stop := by
  induction h generalizing outline with
  | nil depth => exact ⟨outline, rfl, hstart⟩
  | cons hbefore _ ih =>
    obtain ⟨next, hvisit, hnext⟩ := exists_run_visit (hstart.trans hbefore)
    obtain ⟨last, hvisits, hlast⟩ := ih hnext
    refine ⟨last, ?_, hlast⟩
    rw [List.map_cons, List.forM_cons, EStateM.run_bind, hvisit]
    exact hvisits

/-- The outline when the document itself has been visited. -/
def begun : Outline := (empty.addLine "Document").deeper

end Outline

/-- **Depth.** Every document has an outline, which is the line for the document and below it the
lines of its nodes by recursion. While it is written the visits are made one after the other, and
each of them finds the depth that is the level of its node, or one more where the node is a loop
that is being left; what it leaves behind is again the level, or one more where a loop has been
entered. The level is at least 1, so the depth is too, and it is taken back from 2 or more only.
When all is written the depth is 1. -/
theorem outline_depth_is_level (doc : Document) :
    doc.outline = .ok ("Document\n" ++ Node.outlining 1 doc.children) ∧
    Outline.writer.walkDocument doc = (do
      Outline.writer.document doc
      forM ((Node.leveledVisits 1 doc.children).map Prod.snd) Outline.writer.visit) ∧
    (∀ before level visit behind,
      Node.leveledVisits 1 doc.children = before ++ (level, visit) :: behind →
      ∃ found left,
        (do Outline.writer.document doc
            forM (before.map Prod.snd) Outline.writer.visit).run .empty = .ok () found ∧
        (Outline.writer.visit visit).run found = .ok () left ∧
        1 ≤ level ∧ found.depth = visit.depthBefore level ∧ left.depth = visit.depthAfter level) ∧
    ∃ last, (Outline.writer.walkDocument doc).run .empty = .ok () last ∧ last.depth = 1 := by
  have hwalk : Outline.writer.walkDocument doc = (do
      Outline.writer.document doc
      forM ((Node.leveledVisits 1 doc.children).map Prod.snd) Outline.writer.visit) := by
    rw [Visitor.walkDocument, Visitor.walkNodes_eq_forM, Node.map_snd_leveledVisits]
  have hleads := Visit.leads_leveledVisits 1 doc.children
  refine ⟨doc.outline_eq, hwalk, ?_, ?_⟩
  · intro before level visit behind hvisits
    have hlevel : (level, visit) ∈ Node.leveledVisits 1 doc.children := by simp [hvisits]
    rw [hvisits] at hleads
    obtain ⟨middle, hbefore, hbehind⟩ := hleads.exists_of_append
    obtain ⟨found, hrun, hfound⟩ := Outline.exists_run_of_leads hbefore
      (rfl : Outline.begun.depth = 1)
    cases hbehind with
    | cons hmiddle _ =>
      have hdepth := hfound.trans hmiddle
      obtain ⟨left, hvisit, hleft⟩ := Outline.exists_run_visit hdepth
      exact ⟨found, left, hrun, hvisit, Node.le_of_mem_leveledVisits hlevel, hdepth, hleft⟩
  · obtain ⟨last, hrun, hlast⟩ := Outline.exists_run_of_leads hleads
      (rfl : Outline.begun.depth = 1)
    exact ⟨last, by rw [hwalk]; exact hrun, hlast⟩

/-- A loop with a loop and a text in it, and a loop beside it. -/
def siblingLoops : Document where
  children := [.loop ⟨"i", .integer 1, .integer 2, none⟩
      [.loop ⟨"j", .integer 3, .integer 4, none⟩ [.echo [.variableName "j"]], .text "a"],
    .loop ⟨"k", .integer 5, .integer 6, none⟩ []]

/-- The level is taken back behind the inner loop and behind the outer one, and the inner loop is
left from level 3. -/
theorem outline_depth_of_siblingLoops :
    siblingLoops.outline = .ok ("Document\n  For Variable(i) Integer(1) Integer(2)\n" ++
      "    For Variable(j) Integer(3) Integer(4)\n      Echo Variable(j)\n    Text \"a\"\n" ++
      "  For Variable(k) Integer(5) Integer(6)\n") ∧
    ∃ found left,
      (do Outline.writer.document siblingLoops
          forM ((Node.visitOrder siblingLoops.children).take 3) Outline.writer.visit).run .empty
        = .ok () found ∧
      (Outline.writer.visit (.leave ⟨"j", .integer 3, .integer 4, none⟩
        [.echo [.variableName "j"]])).run found = .ok () left ∧
      found.depth = 3 ∧ left.depth = 2 := by
  obtain ⟨houtline, -, hvisits, -⟩ := outline_depth_is_level siblingLoops
  have hsplit : Node.leveledVisits 1 siblingLoops.children
      = (Node.leveledVisits 1 siblingLoops.children).take 3
        ++ (2, .leave ⟨"j", .integer 3, .integer 4, none⟩ [.echo [.variableName "j"]])
        :: (Node.leveledVisits 1 siblingLoops.children).drop 4 := by
    simp [siblingLoops, Node.leveledVisits]
  obtain ⟨found, left, hrun, hvisit, -, hfound, hleft⟩ := hvisits _ _ _ _ hsplit
  rw [List.map_take, Node.map_snd_leveledVisits] at hrun
  refine ⟨houtline.trans (congrArg Except.ok ?_), found, left, hrun, hvisit, hfound, hleft⟩
  simp only [siblingLoops, Node.outlining]
  decide +kernel

end TagTemplate
