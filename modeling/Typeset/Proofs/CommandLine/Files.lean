import Typeset.Files

/-!
Written files. A file that was written can be read at the same path, and the other files hold what
they held (`Files.read_of_write`).
-/

set_option autoImplicit false

namespace Typeset.Files

theorem contents_put (files : Files) (place other : List String) (contents : Contents) :
    (files.put place contents).contents? other =
      if other = place then some contents else files.contents? other := by
  rw [contents?, put, List.find?_append, List.find?_filter]
  by_cases same : other = place
  · subst same
    rw [List.find?_eq_none.mpr (by simp), if_pos rfl]
    simp
  · have kept (entry : List String × Contents) :
        decide ((entry.1 != place) = true ∧ (entry.1 == other) = true) = (entry.1 == other) := by
      by_cases here : entry.1 = other <;> simp [here, same]
    rw [if_neg same, funext kept, contents?]
    simp [Ne.symm same]

/-- Directories stay when a file is put. -/
theorem is_directory_put
    {files : Files}
    {directory : List String}
    (held : files.isDirectory directory = true)
    (place : List String)
    (contents : Contents) :
    (files.put place contents).isDirectory directory = true := by
  simp only [isDirectory, Bool.or_eq_true, List.any_eq_true, put] at held ⊢
  refine held.imp_right ?_
  rintro ⟨entry, member, below⟩
  by_cases same : entry.1 = place
  · exact ⟨(place, contents), by simp, same ▸ below⟩
  · exact ⟨entry, by simp [member, same], below⟩

/-- A file does not become a directory by being put. -/
theorem no_directory_put
    {files : Files}
    {place : List String}
    (noDirectory : ¬files.isDirectory place = true)
    (contents : Contents) :
    ¬(files.put place contents).isDirectory place = true := by
  intro held
  apply noDirectory
  simp only [isDirectory, Bool.or_eq_true, List.any_eq_true, put] at held ⊢
  refine held.imp_right ?_
  rintro ⟨entry, member, below⟩
  rw [List.mem_append, List.mem_singleton] at member
  rcases member with among | rfl
  · exact ⟨entry, (List.mem_filter.mp among).1, below⟩
  · simp at below

theorem follow_put
    {files : Files}
    (place : List String)
    (contents : Contents)
    (directory names : List String)
    {reached : List String}
    (followed : files.follow directory names = .ok reached) :
    (files.put place contents).follow directory names = .ok reached := by
  fun_induction follow files directory names with
  | case1 directory => exact followed
  | case2 directory rest ih =>
      rw [follow]
      exact ih followed
  | case4 directory name rest notAbove here short last =>
      rw [follow, if_neg short, if_pos last]
      · exact followed
      · exact notAbove
  | case5 directory name rest notAbove here short more held ih =>
      rw [follow, if_neg short, if_neg more, if_pos (is_directory_put held place contents)]
      · exact ih followed
      · exact notAbove
  | case3 | case6 | case7 => cases followed

theorem locate_put
    {files : Files}
    (place : List String)
    (contents : Contents)
    {path : String}
    {reached : List String}
    (found : files.locate path = .ok reached) :
    (files.put place contents).locate path = .ok reached := by
  unfold locate at found ⊢
  split at found
  · cases found
  · rename_i short
    rw [if_neg short]
    split at found
    · rename_i inside
      rw [if_pos inside]
      exact follow_put place contents files.home _ found
    · rename_i outside
      rw [if_neg outside]
      exact follow_put place contents [] _ found

/-- A written file is read back, and it is the only one that is new. -/
theorem read_of_write
    {files written : Files}
    {path text : String}
    (accepted : files.write path text = .ok written) :
    written.read path = .ok (.text text) ∧
      ∃ place, files.locate path = .ok place ∧
        ∀ other, other ≠ place → written.contents? other = files.contents? other := by
  rw [write] at accepted
  split at accepted
  · cases accepted
  · rename_i place reached
    split at accepted
    · cases accepted
    · rename_i noDirectory
      cases accepted
      constructor
      · rw [read, locate_put place (.text text) reached]
        dsimp only
        rw [if_neg (no_directory_put noDirectory (.text text)), contents_put, if_pos rfl]
      · refine ⟨place, reached, ?_⟩
        intro other different
        rw [contents_put, if_neg different]

end Typeset.Files
