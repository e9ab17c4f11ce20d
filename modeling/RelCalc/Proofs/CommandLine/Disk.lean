/-
  `Proofs.CommandLine.Disk`: what a file holds after it is written.

  Writing a file changes no folder, so a path is followed as before, and its last name
  finds the file that was put there.  Reading the path then gives what was written; all
  other files hold what they held.
-/
import RelCalc.CommandLine.Disk

set_option autoImplicit false

namespace RelCalc.CommandLine

/-- A target is a file at a location, or the place for one. -/
inductive Target.IsAt (location : Location) : Target → Prop where
  | file (content : String) : IsAt location (.file location content)
  | vacant : IsAt location (.vacant location)

namespace Disk

variable {disk : Disk} {location other here : Location} {path content : String}
  {names : List String}

/-! ## Files -/

/-- A file is found in the same place after the contents of one location are overwritten. -/
theorem find?_overwrite (files : List (Location × String)) (location other : Location)
    (content : String) :
    (files.map fun entry => if entry.1 = location then (location, content) else entry).find?
        (fun entry => entry.1 = other) =
      (files.find? fun entry => entry.1 = other).map fun entry =>
        if entry.1 = location then (location, content) else entry := by
  rw [List.find?_map]
  congr 2
  funext entry
  show decide ((if entry.1 = location then (location, content) else entry).1 = other) = _
  split
  · rename_i same
    rw [same]
  · rfl

/-- The file holds what was put there. -/
theorem file?_put (disk : Disk) (location : Location) (content : String) :
    (disk.put location content).file? location = some content := by
  unfold put
  split
  · rename_i held
    unfold file? at held ⊢
    rw [Option.isSome_map] at held
    obtain ⟨entry, found⟩ := Option.isSome_iff_exists.mp held
    have same : entry.1 = location := of_decide_eq_true (List.find?_some found :)
    rw [find?_overwrite, found]
    simp [same]
  · rename_i vacant
    rw [Option.not_isSome_iff_eq_none] at vacant
    unfold file? at vacant ⊢
    rw [Option.map_eq_none_iff] at vacant
    rw [List.find?_append, vacant]
    simp

/-- Every other file holds what it held. -/
theorem file?_put_of_ne (different : other ≠ location) :
    (disk.put location content).file? other = disk.file? other := by
  unfold put file?
  split
  · rw [find?_overwrite]
    cases found : disk.files.find? fun entry => entry.1 = other with
    | none => rfl
    | some entry =>
      have same : entry.1 = other := of_decide_eq_true (List.find?_some found :)
      simp [same, different]
  · rw [List.find?_append]
    simp [different.symm]

/-- No folder is made. -/
theorem folders_put : (disk.put location content).folders = disk.folders := by
  unfold put
  split <;> rfl

theorem isFolder_put : (disk.put location content).isFolder here = disk.isFolder here := by
  rw [isFolder, isFolder, folders_put]

/-! ## Paths -/

/-- The last name on a path finds a file that is in its folder. -/
theorem follow_last {name : String} (notHere : name ≠ ".") (notUp : name ≠ "..")
    (short : ¬ maxNameBytes < name.utf8ByteSize) (noFolder : ¬ disk.isFolder (here.below name))
    (held : disk.file? (here.below name) = some content) :
    disk.follow here [name] = .file (here.below name) content := by
  rw [follow.eq_4 disk here name [] notHere notUp, if_neg short, if_neg noFolder, held]
  rfl

/-- Names that lead to a file, or to the place for one, lead to the file that is put there. -/
theorem follow_put (leads : (disk.follow here names).IsAt location) :
    (disk.put location content).follow here names = .file location content := by
  fun_induction disk.follow here names with
  | case1 => cases leads
  | case2 here rest ih => exact ih leads
  | case3 here rest ih => exact ih leads
  | case4 here name rest notHere notUp long => cases leads
  | case5 here name rest notHere notUp there short folder ih =>
    rw [follow.eq_4 _ here name rest notHere notUp, if_neg short, isFolder_put, if_pos folder]
    exact ih leads
  | case6 here name notHere notUp there short noFolder old held =>
    change (Target.file (here.below name) old).IsAt location at leads
    cases leads
    refine follow_last notHere notUp short ?_ (file?_put disk _ content)
    rwa [isFolder_put]
  | case7 => cases leads
  | case8 here name notHere notUp there short noFolder vacant =>
    change (Target.vacant (here.below name)).IsAt location at leads
    cases leads
    refine follow_last notHere notUp short ?_ (file?_put disk _ content)
    rwa [isFolder_put]
  | case9 => cases leads

/-- The place of a file is where its path leads, and the path names no folder. -/
theorem isAt_of_place (placed : disk.place path = .ok location) :
    (disk.target path).IsAt location ∧ endsInSlash path = false := by
  unfold place at placed
  cases target : disk.target path with
  | folder | unreachable => simp [target] at placed
  | file place old =>
    simp only [target] at placed
    split at placed
    · cases placed
    · rename_i slash
      cases placed
      exact ⟨.file old, Bool.eq_false_iff.mpr slash⟩
  | vacant place =>
    simp only [target] at placed
    split at placed
    · cases placed
    · rename_i slash
      cases placed
      exact ⟨.vacant, Bool.eq_false_iff.mpr slash⟩

/-- A path that led to a location leads to the file that is put there. -/
theorem target_put (leads : (disk.target path).IsAt location) :
    (disk.put location content).target path = .file location content := by
  unfold target at leads ⊢
  split at leads
  · cases leads
  · split at leads
    · cases leads
    · rename_i some short
      rw [if_neg some, if_neg short]
      exact follow_put leads

/-- **A file that is written is read back.** -/
theorem read_put (placed : disk.place path = .ok location) :
    (disk.put location content).read path = .ok content := by
  obtain ⟨leads, slash⟩ := isAt_of_place placed
  simp only [read, target_put leads, slash]
  rfl

/-- A single file in the working folder is read. -/
theorem read_ofFiles_single (way : placesOn path = [location])
    (placed : (Disk.mk [] []).place path = .ok location) :
    (ofFiles [(path, content)]).read path = .ok content := by
  have made : ofFiles [(path, content)] = (Disk.mk [] []).put location content := by
    simp only [ofFiles, List.foldl_cons, List.foldl_nil, withFile, withWay, way]
    rfl
  rw [made]
  exact read_put placed

end Disk

end RelCalc.CommandLine
