import Typeset.Proofs.CommandLine.Files
import Typeset.Proofs.CommandLine.Render

/-!
Commands at a desk. A text that is put at a desk is found there, and what is refused leaves no trace
(`took_of_put`, `left_by_refused`). So a rendering is at the desk as a whole, or the desk is as it
was before (`render_at_desk`). A desk where a directory is missing shows that a command may end
without a code.
-/

set_option autoImplicit false

namespace Typeset.CommandLine

/-- The text is printed, or it is in its file, and all else is as before. -/
def Took (desk left : Desk) (target : Target) (text : String) : Prop :=
  match target with
  | .output => left = { desk with printed := desk.printed ++ text }
  | .file path =>
      left.input = desk.input ∧ left.printed = desk.printed ∧
        left.files.read path = .ok (.text text) ∧
        ∃ place, desk.files.locate path = .ok place ∧
          ∀ other, other ≠ place → left.files.contents? other = desk.files.contents? other

section Putting

variable {desk : Desk} {target : Target} {text : String}

variable (desk target text) in
theorem put_at_desk :
    (Host.put target text : StateM Desk _).run desk =
      match desk.put target text with
      | .error obstacle => (.error obstacle, desk)
      | .ok left => (.ok (), left) := by
  have handed : (Host.put target text : StateM Desk _).run desk =
      let tried : StateM Desk (Except Obstacle Unit) :=
        match desk.put target text with
        | .error obstacle => return .error obstacle
        | .ok left => do
            set left
            return .ok ()
      tried.run desk := rfl
  rw [handed]
  cases desk.put target text <;> rfl

theorem took_of_desk_put
    {left : Desk}
    (taken : desk.put target text = .ok left) :
    Took desk left target text := by
  cases target with
  | output =>
      cases taken
      rfl
  | file path =>
      rw [Desk.put] at taken
      split at taken
      · cases taken
      · cases written : desk.files.write path text with
        | error fault =>
            rw [written] at taken
            cases taken
        | ok files =>
            rw [written] at taken
            cases taken
            exact ⟨rfl, rfl, Files.read_of_write written⟩

/-- What was put is found. -/
theorem took_of_put (taken : putIn desk target text = .ok ()) :
    Took desk (leftBy desk [.put target text]) target text := by
  rw [leftBy, List.foldl_cons, List.foldl_nil, Access.leaves]
  rw [putIn] at taken
  rw [put_at_desk] at taken ⊢
  cases put : desk.put target text with
  | error obstacle =>
      rw [put] at taken
      cases taken
  | ok left => exact took_of_desk_put put

/-- What was refused leaves the desk as it is. -/
theorem left_by_refused {obstacle : Obstacle} (refused : putIn desk target text = .error obstacle) :
    leftBy desk [.put target text] = desk := by
  rw [leftBy, List.foldl_cons, List.foldl_nil, Access.leaves]
  rw [putIn] at refused
  rw [put_at_desk] at refused ⊢
  cases put : desk.put target text with
  | error other => rfl
  | ok left =>
      rw [put] at refused
      cases refused

end Putting

/-- A rendering is delivered at a desk as a whole, or the desk is left as it was. -/
theorem render_at_desk (request : RenderRequest) (session : Session) (desk : Desk) :
    ∃ ending after left, inWorld (render request) session desk = ((ending, after), left) ∧
      (ending = .exited 0 → ∃ rendering, Settles request session desk (.deliver rendering) ∧
        Took desk left request.target (rendering.text ++ "\n")) ∧
      (ending ≠ .exited 0 → left = desk) := by
  obtain ⟨verdict, settled⟩ := settles_some request session desk
  cases verdict with
  | report message =>
      obtain ⟨earlier, accesses, ended, readOnly⟩ := render_of_report settled
      refine ⟨_, _, _, ended, nofun, fun _ => ?_⟩
      rcases readOnly with rfl | rfl <;> rfl
  | crash crash =>
      obtain ⟨records, ended⟩ := render_of_crash settled
      exact ⟨_, _, _, ended, nofun, fun _ => rfl⟩
  | deliver rendering =>
      obtain ⟨records, ended⟩ := render_of_deliver settled
      let taking : Access := .put request.target (rendering.text ++ "\n")
      have whole : leftBy desk [.read request.source, taking] = leftBy desk [taking] := rfl
      rw [whole] at ended
      cases taken : delivery request desk rendering.text with
      | ok done =>
          rw [taken] at ended
          exact ⟨_, _, _, ended, fun _ => ⟨rendering, settled, took_of_put taken⟩,
            fun other => absurd rfl other⟩
      | error obstacle =>
          rw [taken] at ended
          exact ⟨_, _, _, ended, fun same => absurd same (obstacle.not_exited 0),
            fun _ => left_by_refused taken⟩

/-- A leaf that is to be written below a directory that is not there. -/
def intoMissing : RenderRequest :=
  { RenderRequest.defaults with formatter := "tree", output := some "nodir/out.txt" }

def leafDesk : Desk where
  input := .text "\"a\""
  files := .emptyAt []
  printed := ""

theorem leaf_loads : ∃ document, Formatter.tree.model.load "\"a\"" = .ok document := by
  have parsed : Json.read? Json.documentLimits "\"a\"" = some (.str "a") := by decide +kernel
  refine ⟨.ofTree (.leaf ⟨"a", by decide⟩), ?_⟩
  rw [Formatter.tree, Model.tree, Model.load, parsed]
  dsimp only
  rw [Tree.read]
  rfl

/-- Where a directory is missing, the command has no code to end with. -/
theorem missing_directory_unexpected :
    (inWorld (render intoMissing) .initial leafDesk).1.1 =
        .faulted ⟨.absent, some "nodir/out.txt"⟩ ∧
      ∀ code, (inWorld (render intoMissing) .initial leafDesk).1.1 ≠ .exited code := by
  obtain ⟨document, loaded⟩ := leaf_loads
  have bundled : Formatter.tree ∈ Formatter.bundled := by simp [Formatter.bundled]
  obtain ⟨layout, clean, given⟩ := Formatter.bundled_layout_steady bundled 2 loaded
  obtain ⟨text, written⟩ := layout.pretty_of_clean clean 80 0
  have yields := (Formatter.tree.prepare 2).format_yields loaded given written
  have registered : Session.initial.registry.find? "tree" = some Formatter.tree := by
    simp [Session.initial, Registry.bundled, Formatter.bundled, Registry.find_register,
      Formatter.cSource, Formatter.sExpr, Formatter.tree]
  have settled : Settles intoMissing .initial leafDesk (.deliver ⟨text, "tree", 80, 0⟩) :=
    .formatted registered rfl rfl loaded (yields { Session.initial with forced := none })
  obtain ⟨records, ended⟩ := render_of_deliver settled
  have refused : delivery intoMissing leafDesk text =
      .error (.fault ⟨.absent, some "nodir/out.txt"⟩) := rfl
  rw [ended, refused]
  refine ⟨rfl, ?_⟩
  intro code same
  cases same

end Typeset.CommandLine
