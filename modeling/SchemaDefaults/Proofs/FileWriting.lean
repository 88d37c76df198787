import SchemaDefaults.Files
import SchemaDefaults.Proofs.Sequencing
/-!
Writing into a tree of files. A write that fails may leave directories behind, but no file is
changed by it. One that succeeds changes the file at the one place where its path leads, and the
text is read back by the same path.
-/

namespace SchemaDefaults

namespace FileTree

section Files

def file? (tree : FileTree) (place : Place) : Option Node :=
  match tree.node? place with
  | some .directory => none
  | other => other

def Leads (tree : FileTree) (path : String) (place : Place) : Prop :=
  tree.walk (tree.start path) (Path.names path) = .ok place

theorem node_put_same (tree : FileTree) (place : Place) (node : Node) (below : place ≠ []) :
    (tree.put place node).node? place = some node := by
  simp [node?, put, below]

theorem node_put_other (tree : FileTree) (place other : Place) (node : Node)
    (differs : other ≠ place) : (tree.put place node).node? other = tree.node? other := by
  have skipped : (other == place) = false := beq_false_of_ne differs
  simp [node?, put, List.lookup_cons, skipped]

theorem file_put_other (tree : FileTree) (place other : Place) (node : Node)
    (differs : other ≠ place) : (tree.put place node).file? other = tree.file? other := by
  simp only [file?, tree.node_put_other place other node differs]

end Files

section Directories

/-- The second tree is the first one with some more directories. -/
structure Grown (before after : FileTree) : Prop where
  working : after.working = before.working
  nodes : ∀ place, after.node? place = before.node? place ∨
    before.node? place = none ∧ after.node? place = some .directory

namespace Grown

theorem refl (tree : FileTree) : Grown tree tree :=
  ⟨rfl, fun _ => .inl rfl⟩

theorem trans {first second third : FileTree} (left : Grown first second)
    (right : Grown second third) : Grown first third := by
  refine ⟨right.working.trans left.working, ?_⟩
  intro place
  rcases left.nodes place with same | ⟨vacant, made⟩
  · rw [← same]
    exact right.nodes place
  · rcases right.nodes place with kept | ⟨missing, _⟩
    · exact .inr ⟨vacant, kept.trans made⟩
    · rw [made] at missing
      cases missing

theorem put (tree : FileTree) (place : Place) (vacant : tree.node? place = none) :
    Grown tree (tree.put place .directory) := by
  refine ⟨rfl, ?_⟩
  intro other
  by_cases same : other = place
  · subst same
    have below : other ≠ [] := by
      rintro rfl
      cases vacant
    exact .inr ⟨vacant, tree.node_put_same other .directory below⟩
  · exact .inl (tree.node_put_other place other .directory same)

theorem files {before after : FileTree} (grown : Grown before after) (place : Place) :
    after.file? place = before.file? place := by
  rcases grown.nodes place with same | ⟨vacant, made⟩
  · simp only [file?, same]
  · simp only [file?, vacant, made]

end Grown

/-- Also an attempt that fails on the way leaves nothing else behind. -/
theorem makeDirectories_grown (tree : FileTree) (base : Place) (names : List String) :
    Grown tree (tree.makeDirectories base names).tree := by
  induction names generalizing tree base with
  | nil => exact Grown.refl tree
  | cons name rest ih =>
      unfold makeDirectories
      by_cases up : name = ".."
      · rw [if_pos up]
        exact ih tree base.dropLast
      · rw [if_neg up]
        by_cases long : isTooLong name = true
        · rw [if_pos long]
          exact Grown.refl tree
        · rw [if_neg long]
          cases standing : tree.node? (base ++ [name]) with
          | none =>
              -- The only case that changes the tree; all others pass by or give up.
              simp only [standing]
              have made := Grown.put tree (base ++ [name]) standing
              exact made.trans (ih (tree.put (base ++ [name]) .directory) (base ++ [name]))
          | some node =>
              simp only [standing]
              cases node with
              | directory => exact ih tree (base ++ [name])
              | text content => exact Grown.refl tree
              | binary => exact Grown.refl tree

end Directories

section Writing

/-- Names are followed from directory to directory, so a file put at a place where no directory
is does not turn anyone away. -/
theorem walk_put (tree : FileTree) (place : Place) (node : Node) (base reached : Place)
    (names : List String) (other : tree.node? place ≠ some .directory)
    (walked : tree.walk base names = .ok reached) :
    (tree.put place node).walk base names = .ok reached := by
  induction names generalizing base with
  | nil => exact walked
  | cons name rest ih =>
      cases standing : tree.node? base with
      | none => simp [walk, standing] at walked
      | some found =>
          cases found with
          | text content => simp [walk, standing] at walked
          | binary => simp [walk, standing] at walked
          | directory =>
              -- The walk goes on from a directory, so it does not stand at the place itself.
              have differs : base ≠ place := by
                rintro rfl
                exact other standing
              have kept := (tree.node_put_other place base node differs).trans standing
              simp only [walk, standing] at walked
              simp only [walk, kept]
              by_cases dot : name = "."
              · rw [if_pos dot] at walked ⊢
                exact ih base walked
              · rw [if_neg dot] at walked ⊢
                by_cases up : name = ".."
                · rw [if_pos up] at walked ⊢
                  exact ih base.dropLast walked
                · rw [if_neg up] at walked ⊢
                  by_cases long : isTooLong name = true
                  · rw [if_pos long] at walked
                    cases walked
                  · rw [if_neg long] at walked ⊢
                    exact ih (base ++ [name]) walked

theorem target_ok (tree : FileTree) (path : String) (place : Place)
    (found : tree.target path = .ok place) :
    checkPath path = .ok () ∧ tree.Leads path place ∧ Path.endsInSlash path = false ∧
      tree.node? place ≠ some .directory := by
  obtain ⟨⟨⟩, checked, rest⟩ := (bind_ok_iff _ _ _).mp found
  obtain ⟨reached, walked, rest⟩ := (bind_ok_iff _ _ _).mp rest
  cases slash : Path.endsInSlash path with
  | true =>
      rw [slash] at rest
      cases rest
  | false =>
      rw [slash] at rest
      have free : tree.node? reached ≠ some .directory := by
        intro standing
        simp only [standing] at rest
        cases rest
      have there : reached = place := by
        cases standing : tree.node? reached with
        | none => simpa [standing, bind, Except.bind, pure, Except.pure] using rest
        | some node =>
            cases node with
            | directory => exact absurd standing free
            | text _ | binary => simpa [standing, bind, Except.bind, pure, Except.pure] using rest
      subst there
      exact ⟨checked, walked, rfl, free⟩

theorem writeFile_failed (tree : FileTree) (path content : String)
    (failed : (tree.writeFile path content).fault ≠ none) :
    (tree.writeFile path content).tree = tree := by
  unfold writeFile at failed ⊢
  cases found : tree.target path with
  | error fault => rfl
  | ok place => simp [found] at failed

theorem writeFile_written (tree : FileTree) (path content : String)
    (written : (tree.writeFile path content).fault = none) :
    (tree.writeFile path content).tree.readText path = .ok content ∧
      ∃ place, (tree.writeFile path content).tree.Leads path place ∧
        ∀ other, other ≠ place →
          (tree.writeFile path content).tree.file? other = tree.file? other := by
  unfold writeFile at written ⊢
  cases found : tree.target path with
  | error fault => simp [found] at written
  | ok place =>
      obtain ⟨checked, leads, slash, free⟩ := tree.target_ok path place found
      have still := tree.walk_put place (.text content) _ place _ free leads
      have below : place ≠ [] := by
        rintro rfl
        exact free rfl
      have standing := tree.node_put_same place (.text content) below
      refine ⟨?_, place, still, fun other => tree.file_put_other place other _⟩
      have names : steps path = Path.names path := by simp [steps, slash]
      have start : (tree.put place (.text content)).start path = tree.start path := rfl
      simp only [readText, checked, names, start, still, bind, Except.bind, standing]
      rfl

theorem writeText_cases (tree : FileTree) (path content : String) :
    ∃ middle, Grown tree middle ∧
      ((∃ fault, tree.writeText path content = ⟨some fault, middle⟩) ∨
        tree.writeText path content = middle.writeFile path content) := by
  have grown := tree.makeDirectories_grown (tree.start path) (parents path)
  unfold writeText
  split
  · exact ⟨tree, Grown.refl tree, .inl ⟨_, rfl⟩⟩
  · refine ⟨_, grown, ?_⟩
    cases made : (tree.makeDirectories (tree.start path) (parents path)).fault with
    | none =>
        right
        simp only [made]
    | some fault =>
        left
        refine ⟨fault, ?_⟩
        simp only [made]
        rw [← made]

/-- A write that fails changes no file and leaves none behind. -/
theorem writeText_failed (tree : FileTree) (path content : String)
    (failed : (tree.writeText path content).fault ≠ none) (place : Place) :
    (tree.writeText path content).tree.file? place = tree.file? place := by
  obtain ⟨middle, grown, ⟨fault, same⟩ | same⟩ := tree.writeText_cases path content
  · rw [same]
    exact grown.files place
  · rw [same] at failed ⊢
    rw [middle.writeFile_failed path content failed]
    exact grown.files place

/-- A write that succeeds changes the file where the path leads, and no other one, and the
content is read back. -/
theorem writeText_written (tree : FileTree) (path content : String)
    (written : (tree.writeText path content).fault = none) :
    (tree.writeText path content).tree.readText path = .ok content ∧
      ∃ place, (tree.writeText path content).tree.Leads path place ∧
        ∀ other, other ≠ place →
          (tree.writeText path content).tree.file? other = tree.file? other := by
  obtain ⟨middle, grown, ⟨fault, same⟩ | same⟩ := tree.writeText_cases path content
  · rw [same] at written
    cases written
  · rw [same] at written ⊢
    obtain ⟨read, place, leads, others⟩ := middle.writeFile_written path content written
    refine ⟨read, place, leads, ?_⟩
    intro other differs
    rw [others other differs, grown.files other]

end Writing

end FileTree

end SchemaDefaults
