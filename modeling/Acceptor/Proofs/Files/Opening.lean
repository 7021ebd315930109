import Acceptor.Files.System

/-!
# Laws of opening files

A file can be opened for reading when its path leads to a file that may be read, and for writing
when its path leads to a file that may be written or to a free place in a directory that takes new
files.  Opening for writing changes that one place and no other, so paths lead where they led before
(`KeepsPaths.locate`): on its way a path meets directories, links and aliases, and never
a file.
-/

namespace Acceptor.FileSystem

variable {fs after : FileSystem} {path : Text} {l : Location} {f : File}

/-! ## Files -/

theorem fileAt?_eq_some_iff : fs.fileAt? l = some f ↔ fs.nodeAt l = some (.file f) := by
  rw [fileAt?]
  split
  · next g hnode => rw [hnode, Option.some.injEq, Option.some.injEq, Node.file.injEq]
  · next hnode => exact iff_of_false (by simp) (hnode f)

theorem contentAt_of_file (h : fs.nodeAt l = some (.file f)) : fs.contentAt l = f.content := by
  rw [contentAt, fileAt?_eq_some_iff.2 h, Option.elim_some]

theorem mediumAt_of_file (h : fs.nodeAt l = some (.file f)) : fs.mediumAt l = f.medium := by
  rw [mediumAt, fileAt?_eq_some_iff.2 h, Option.elim_some]

theorem fill_of_file (h : fs.nodeAt l = some (.file f)) (bytes : Bytes) :
    fs.fill l bytes = fs.put l (.file { f with content := f.medium.kept bytes }) := by
  rw [fill, fileAt?_eq_some_iff.2 h]

/-- What is put to one place last stays there. -/
@[simp] theorem put_put (fs : FileSystem) (l : Location) (n m : Node) :
    (fs.put l n).put l m = fs.put l m := by
  have hnodes : (fs.nodes.insert l n).insert l m = fs.nodes.insert l m :=
    SortedMap.ext fun j ↦ by by_cases h : j = l <;> simp [h]
  rw [put, put, put, hnodes]

/-! ## Opening -/

theorem openToRead_eq_ok_iff :
    fs.openToRead path = .ok l ↔
      fs.locate path = .ok l ∧ ∃ f, fs.nodeAt l = some (.file f) ∧ f.readable := by
  rw [openToRead]
  cases hlocate : fs.locate path with
  | error e => simp [bind, Except.bind]
  | ok k =>
      simp only [bind, Except.bind, Except.ok.injEq]
      constructor
      · intro h
        split at h
        · next f hnode =>
            split at h
            · next hreadable =>
                obtain rfl := Except.ok.inj h
                exact ⟨rfl, f, hnode, hreadable⟩
            · cases h
        · cases h
        · cases h
      · rintro ⟨rfl, f, hnode, hreadable⟩
        simp only [hnode, hreadable, if_true]

theorem openToWrite_eq_ok_iff :
    fs.openToWrite path = .ok (l, after) ↔ fs.locate path = .ok l ∧
      ∃ f, fs.fileToWrite l = .ok f ∧ after = fs.put l (.file { f with content := [] }) := by
  rw [openToWrite]
  cases hlocate : fs.locate path with
  | error e => simp [bind, Except.bind]
  | ok k =>
      cases hfile : fs.fileToWrite k with
      | error e =>
          simp only [bind, Except.bind, hfile, Except.ok.injEq]
          refine iff_of_false (by simp) ?_
          rintro ⟨rfl, f, hf, -⟩
          cases hfile.symm.trans hf
      | ok f =>
          simp only [bind, Except.bind, hfile, pure, Except.pure, Except.ok.injEq, Prod.mk.injEq]
          constructor
          · rintro ⟨rfl, rfl⟩
            exact ⟨rfl, f, hfile, rfl⟩
          · rintro ⟨rfl, g, hg, rfl⟩
            obtain rfl := Except.ok.inj (hfile.symm.trans hg)
            exact ⟨rfl, rfl⟩

/-- Nothing but a file is at the place, if anything is. -/
def IsEnd (fs : FileSystem) (l : Location) : Prop :=
  fs.nodeAt l = none ∨ ∃ f, fs.nodeAt l = some (.file f)

theorem isEnd_of_fileToWrite (h : fs.fileToWrite l = .ok f) : fs.IsEnd l := by
  rw [fileToWrite] at h
  split at h
  · next g hnode => exact .inr ⟨g, hnode⟩
  · cases h
  · cases h
  · next hnode => exact .inl hnode

theorem IsEnd.ne_directory (h : fs.IsEnd l) (d : Directory) :
    fs.nodeAt l ≠ some (.directory d) := by
  rcases h with h | ⟨f, h⟩ <;> simp [h]

/-- The root is a directory. -/
theorem IsEnd.ne_nil (h : fs.IsEnd l) : l ≠ [] := by
  rintro rfl
  exact h.ne_directory fs.root rfl

theorem fileToWrite_of_file (h : fs.nodeAt l = some (.file f)) (hwritable : f.writable) :
    fs.fileToWrite l = .ok f := by
  simp only [fileToWrite, h, hwritable, if_true]

/-- A file that is there is the one that is opened. -/
theorem eq_of_fileToWrite {g : File} (hnode : fs.nodeAt l = some (.file f))
    (h : fs.fileToWrite l = .ok g) : f = g := by
  rw [fileToWrite, hnode] at h
  simp only at h
  split at h
  · exact Except.ok.inj h
  · cases h

theorem writable_of_fileToWrite (h : fs.fileToWrite l = .ok f) : f.writable := by
  rw [fileToWrite] at h
  split at h
  · split at h
    · next hwritable =>
        obtain rfl := Except.ok.inj h
        exact hwritable
    · cases h
  · cases h
  · cases h
  · split at h
    · split at h
      · obtain rfl := Except.ok.inj h
        rfl
      · cases h
    · cases h

/-! ## Paths that are none -/

theorem turn_ne_nullInPath (name : Text) : fs.turn l name ≠ .error .nullInPath := by
  rw [turn]
  repeat' split
  all_goals simp

theorem walk_ne_nullInPath {jump : Location → Text → List Text → Except FileError Location}
    (hjump : ∀ l target more, jump l target more ≠ .error .nullInPath) (start : Location)
    (names : List Text) : fs.walk jump start names ≠ .error .nullInPath := by
  induction names generalizing start with
  | nil => simp [walk]
  | cons name more ih =>
      rw [walk]
      split
      · next e hturn =>
          intro he
          exact turn_ne_nullInPath name (hturn.trans (congrArg _ (Except.error.inj he)))
      · exact ih _
      · exact hjump _ _ _

theorem follow_ne_nullInPath (n : Nat) (start : Location) (names : List Text) :
    fs.follow n start names ≠ .error .nullInPath := by
  induction n generalizing start names with
  | zero => exact walk_ne_nullInPath (by simp) start names
  | succ n ih => exact walk_ne_nullInPath (fun _ _ _ ↦ ih _ _) start names

/-- Only a null character makes a path none. -/
theorem mem_of_locate_eq_nullInPath (h : fs.locate path = .error .nullInPath) : '\x00' ∈ path := by
  rw [locate] at h
  split at h
  · assumption
  split at h
  · cases h
  split at h
  · cases h
  · exact absurd h (follow_ne_nullInPath _ _ _)

theorem mem_of_openToRead_eq_nullInPath (h : fs.openToRead path = .error .nullInPath) :
    '\x00' ∈ path := by
  cases hlocate : fs.locate path with
  | error e =>
      rw [openToRead, hlocate] at h
      obtain rfl : e = .nullInPath := Except.error.inj h
      exact mem_of_locate_eq_nullInPath hlocate
  | ok l =>
      simp only [openToRead, hlocate, bind, Except.bind] at h
      split at h
      · split at h <;> cases h
      · split at h <;> cases h
      · cases h

theorem fileToWrite_ne_nullInPath : fs.fileToWrite l ≠ .error .nullInPath := by
  rw [fileToWrite]
  split
  · split <;> simp
  · simp
  · simp
  · split
    · split <;> simp
    · simp

theorem mem_of_openToWrite_eq_nullInPath (h : fs.openToWrite path = .error .nullInPath) :
    '\x00' ∈ path := by
  cases hlocate : fs.locate path with
  | error e =>
      rw [openToWrite, hlocate] at h
      obtain rfl : e = .nullInPath := Except.error.inj h
      exact mem_of_locate_eq_nullInPath hlocate
  | ok l =>
      cases hfile : fs.fileToWrite l with
      | error e =>
          simp only [openToWrite, hlocate, hfile, bind, Except.bind] at h
          obtain rfl : e = .nullInPath := Except.error.inj h
          exact absurd hfile fileToWrite_ne_nullInPath
      | ok f =>
          simp only [openToWrite, hlocate, hfile, bind, Except.bind, pure, Except.pure] at h
          cases h

/-! ## Paths of changed files -/

/-- The two file systems differ at most in files: which there are and what is in them. -/
structure KeepsPaths (fs after : FileSystem) : Prop where
  workingDirectory : after.workingDirectory = fs.workingDirectory
  nodes : ∀ l, after.nodeAt l = fs.nodeAt l ∨ fs.IsEnd l ∧ after.IsEnd l

namespace KeepsPaths

variable {start : Location} {names : List Text}
  {jump jump' : Location → Text → List Text → Except FileError Location}

theorem turn (h : KeepsPaths fs after) {name : Text} {t : Turn}
    (ht : fs.turn start name = .ok t) : after.turn start name = .ok t := by
  rw [FileSystem.turn] at ht ⊢
  rcases h.nodes start with hsame | ⟨hend, -⟩
  · -- only the last match looks at another place
    rw [hsame]
    rcases h.nodes (start ++ [name]) with hnext | ⟨hnode | ⟨f, hnode⟩, hnode' | ⟨f', hnode'⟩⟩
    · rw [hnext]
      exact ht
    all_goals
      rw [hnode] at ht
      rw [hnode']
      exact ht
  · rcases hend with hnode | ⟨f, hnode⟩ <;> simp [hnode] at ht

theorem walk (h : KeepsPaths fs after)
    (hjump : ∀ {k target more}, jump k target more = .ok l → jump' k target more = .ok l)
    (hl : fs.walk jump start names = .ok l) : after.walk jump' start names = .ok l := by
  induction names generalizing start with
  | nil => exact hl
  | cons name more ih =>
      rw [FileSystem.walk] at hl ⊢
      split at hl
      · cases hl
      · next hturn =>
          rw [h.turn hturn]
          exact ih hl
      · next hturn =>
          rw [h.turn hturn]
          exact hjump hl

theorem follow (h : KeepsPaths fs after) (n : Nat) (hl : fs.follow n start names = .ok l) :
    after.follow n start names = .ok l := by
  induction n generalizing start names with
  | zero => exact h.walk (fun hjump ↦ by cases hjump) hl
  | succ n ih => exact h.walk (fun hjump ↦ ih hjump) hl

/-- Paths lead where they led before. -/
theorem locate (h : KeepsPaths fs after) (hl : fs.locate path = .ok l) :
    after.locate path = .ok l := by
  rw [FileSystem.locate] at hl ⊢
  rw [h.workingDirectory]
  split at hl
  · cases hl
  split at hl
  · cases hl
  split at hl
  · cases hl
  · next hnull hempty hlong =>
      rw [if_neg hnull, if_neg hempty, if_neg hlong]
      exact h.follow maxLinks hl

end KeepsPaths

end Acceptor.FileSystem
