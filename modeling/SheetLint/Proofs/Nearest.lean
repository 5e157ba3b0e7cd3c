import SheetLint.Proofs.DataKeys
import SheetLint.Proofs.Loading

/-!
# The nearest project file alone decides

Whatever else there is in a file system, the settings of a project are what its nearest project file
says, or fails to say (`Load.project_of_nearest`). No directory that is passed on the way up to that
file makes a difference, since the file is nearest to all of them (`Files.IsNearest.of_prefix`), and
nothing above it is looked at.
-/

namespace SheetLint

namespace Path

variable {p q : Path}

/-- A path as resolving leaves it: one that can be, without steps to the directory above. -/
structure IsResolved (p : Path) : Prop where
  possible : p.isPossible = true
  ascends : ".." ∉ p

/-- A path with no step up resolves to itself. -/
theorem resolve_of_not_mem : ∀ {p : Path} (done : Path), ".." ∉ p →
    resolve done p = some (done.reverse ++ p)
  | [], done, _ => by simp [resolve]
  | name :: rest, done, h => by
    obtain ⟨hname, hrest⟩ := not_or.mp (List.mem_cons.not.mp h)
    have hstep : resolve done (name :: rest) = resolve (name :: done) rest := by
      cases done <;> rw [resolve] <;> simp [Ne.symm hname]
    rw [hstep, resolve_of_not_mem (name :: done) hrest]
    simp

/-- There is nothing left to resolve. -/
theorem IsResolved.resolve_eq (h : p.IsResolved) : Path.resolve [] p = some p :=
  resolve_of_not_mem [] h.ascends

/-- So it is for the directories above. -/
theorem IsResolved.of_prefix (h : q.IsResolved) (hpq : p <+: q) : p.IsResolved where
  possible := by
    have hq := h.possible
    simp only [isPossible, Bool.not_eq_true', List.any_eq_false] at hq ⊢
    exact fun name hname => hq name (hpq.subset hname)
  ascends hmem := h.ascends (hpq.subset hmem)

end Path

/-- A project file is nearest to every directory between the start and its own. -/
theorem Files.IsNearest.of_prefix {fs : Files} {start dir between : Path} {entry : FileEntry}
    (h : fs.IsNearest start dir entry) (hdir : dir <+: between) (hbetween : between <+: start) :
    fs.IsNearest between dir entry where
  above := hdir
  found := h.found
  first nearer hnearer := h.first nearer (hnearer.trans hbetween)

namespace Load

variable {fs : Files} {start dir : Path} {entry : FileEntry}

/-- What a project file says, or what is logged or at fault if it does not say anything. -/
def readProject (path : Path) : FileEntry → Load (List (Data × Data))
  | .directory => do
    log (.badProject path.text)
    return []
  | .file content => do
    let entries ← orEmpty (.badProject path.text) [] (Toml.parse (← decode content))
    match sectionOf entries with
    | .ok own => return own
    | .error fault => throw fault

/-- A text is read back from its bytes. -/
theorem decode_toUTF8 (text : String) : decode text.toUTF8 = pure text := by
  have hvalid : String.fromUTF8? text.toUTF8 = some (.fromUTF8 text.toUTF8 text.isValidUTF8) :=
    dif_pos text.isValidUTF8
  rw [decode, hvalid]
  rfl

/-- A project's settings are what is said by the nearest project file. -/
theorem project_of_nearest (hstart : start.IsResolved) (h : fs.IsNearest start dir entry) :
    project fs start = readProject (dir ++ [projectFile]) entry := by
  have hfound : (Path.resolve [] start).bind (nearest? fs) =
      some (dir ++ [projectFile], entry) := by
    rw [hstart.resolve_eq]
    exact nearest?_of_isNearest h
  unfold project
  simp only [hstart.possible, if_true, hfound]
  cases entry <;> rfl

/-- Where no directory has a project file nothing is said. -/
theorem project_of_absent (hstart : start.IsResolved)
    (h : ∀ dir, dir <+: start → fs.entry? (dir ++ [projectFile]) = none) :
    perform (project fs start) = (.ok [], []) := by
  have hnone : HasNoProject fs start := .absent hstart.possible hstart.resolve_eq h
  exact (ProjectCount.none hnone).gives.perform_eq

end Load

open Load in
/-- The nearest project file alone decides. Where two file systems have the same entry nearest to a
path, loading the project's settings there gives the same result, messages or fault in both, which
are those of reading the entry alone; and it gives the same in every directory on the way up to the
entry. Where no directory has a project file there are no settings. -/
theorem nearest_project_decides {start : Path} (hstart : start.IsResolved) :
    (∀ (fs fs' : Files) (dir : Path) (entry : FileEntry),
      fs.IsNearest start dir entry → fs'.IsNearest start dir entry →
        perform (project fs start) = perform (project fs' start) ∧
        perform (project fs start) = perform (readProject (dir ++ [projectFile]) entry) ∧
        ∀ between, dir <+: between → between <+: start →
          perform (project fs between) = perform (project fs start)) ∧
    ∀ fs : Files, (∀ dir, dir <+: start → fs.entry? (dir ++ [projectFile]) = none) →
      perform (project fs start) = (.ok [], []) := by
  refine ⟨fun fs fs' dir entry h h' => ?_, fun fs h => project_of_absent hstart h⟩
  have hread := project_of_nearest hstart h
  have hread' := project_of_nearest hstart h'
  refine ⟨?_, ?_, fun between hdir hbetween => ?_⟩
  · rw [hread, hread']
  · rw [hread]
  · have hnearest := h.of_prefix hdir hbetween
    rw [hread, project_of_nearest (hstart.of_prefix hbetween) hnearest]

/-- A project with settings of its own, inside of another one whose file is no text. -/
def nestedProject : Files where
  files := [(["pyproject.toml"], ⟨#[0xff]⟩),
    (["in", "pyproject.toml"], "[tool.scss-lint.linters]\n".toUTF8)]

/-- The inner project without the outer one. -/
def loneProject : Files where
  files := [(["in", "pyproject.toml"], "[tool.scss-lint.linters]\n".toUTF8)]

/-- What is around the inner project makes no difference to a sheet that does not exist in it, nor
to the directory of that sheet. -/
theorem nearest_project_decides_nested : ∃ entry,
    nestedProject.IsNearest ["in", "a", "b.scss"] ["in"] entry ∧
    loneProject.IsNearest ["in", "a", "b.scss"] ["in"] entry ∧
    Load.perform (Load.project nestedProject ["in", "a", "b.scss"]) =
      Load.perform (Load.project loneProject ["in", "a", "b.scss"]) ∧
    Load.perform (Load.project nestedProject ["in", "a"]) =
      Load.perform (Load.project nestedProject ["in", "a", "b.scss"]) ∧
    Load.perform (Load.project nestedProject ["in", "a", "b.scss"]) =
      (.ok [(.text "linters", .table [])], []) := by
  have hresolved : Path.IsResolved ["in", "a", "b.scss"] := ⟨by simp [Path.isPossible], by decide⟩
  have hfirst : ∀ fs : Files,
      (∀ between ∈ Path.upward ["in", "a", "b.scss"], 1 < between.length →
        fs.entry? (between ++ [Load.projectFile]) = none) →
      ∀ between, between <+: ["in", "a", "b.scss"] → 1 < between.length →
        fs.entry? (between ++ [Load.projectFile]) = none :=
    fun fs h between hbetween => h between (Path.mem_upward.mpr hbetween)
  have hnested : nestedProject.IsNearest ["in", "a", "b.scss"] ["in"] _ :=
    ⟨by decide, rfl, hfirst nestedProject (by decide)⟩
  have hlone : loneProject.IsNearest ["in", "a", "b.scss"] ["in"] _ :=
    ⟨by decide, rfl, hfirst loneProject (by decide)⟩
  obtain ⟨hsame, hread, hbetween⟩ :=
    (nearest_project_decides hresolved).1 nestedProject loneProject ["in"] _ hnested hlone
  refine ⟨_, hnested, hlone, hsame, hbetween ["in", "a"] (by decide) (by decide), ?_⟩
  have hparse : Toml.parse "[tool.scss-lint.linters]\n" =
      .ok [(.text "tool",
        .table [(.text "scss-lint", .table [(.text "linters", .table [])])])] := rfl
  have hsection : Load.sectionOf
      [(.text "tool", .table [(.text "scss-lint", .table [(.text "linters", .table [])])])] =
        .ok [(.text "linters", .table [])] := by
    simp [Load.sectionOf, Load.toolKey, Load.sectionKey, Layers.orEmpty, Data.lookup, Entries.get?,
      Data.truthy]
  rw [hread, Load.readProject, Load.decode_toUTF8, pure_bind, hparse]
  simp only [Load.orEmpty, pure_bind, hsection]
  rfl

end SheetLint
