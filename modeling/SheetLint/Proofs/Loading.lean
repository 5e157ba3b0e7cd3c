import Mathlib.Data.List.Basic
import SheetLint.Project.Load
import SheetLint.Proofs.Layering

/-!
# What loading comes to

Whatever is at the two places settings come from, loading them either gives one layer over the other
or stops at a fault, and both are told by what is at these places. A file that is missing, a
directory, or a text that is not well formed counts as empty, and so does a document of the wrong
shape (`DefaultsCount`, `ProjectCount`). What is left are the faults (`DefaultsFault`,
`ProjectFault`): bytes that are no text, what is well formed and stands for nothing, and tools that
are said to be something else than a table.
-/

namespace SheetLint

/-! ## The nearest project file -/

/-- A directory at or above another, with what its project file is, where no directory between the
two has one. -/
structure Files.IsNearest (fs : Files) (start dir : Path) (entry : FileEntry) : Prop where
  above : dir <+: start
  found : fs.entry? (dir ++ [Load.projectFile]) = some entry
  first : ∀ between, between <+: start → dir.length < between.length →
    fs.entry? (between ++ [Load.projectFile]) = none

namespace Path

/-- The directories above another are what it begins with. -/
theorem mem_upward {p dir : Path} : dir ∈ p.upward ↔ dir <+: p := by
  simp only [upward, List.mem_map, List.mem_range]
  constructor
  · rintro ⟨i, _, rfl⟩
    exact List.take_prefix ..
  · intro h
    refine ⟨p.length - dir.length, by omega, ?_⟩
    have hle := h.length_le
    rw [show p.length - (p.length - dir.length) = dir.length by omega]
    exact (List.prefix_iff_eq_take.mp h).symm

/-- They come longest first. -/
theorem upward_longest_first (p : Path) :
    p.upward.Pairwise fun dir dir' : Path => dir'.length < dir.length := by
  refine List.pairwise_map.mpr (List.pairwise_lt_range.imp_of_mem fun {i j} hi hj hij => ?_)
  simp only [List.mem_range] at hi hj
  simp only [List.length_take]
  omega

end Path

namespace Load

variable {α β : Type} {fs : Files} {file : Option Path} {start : Path} {fault : Fault}
  {below above : List (Data × Data)} {ms : List Message}

theorem nearest?_eq_none :
    nearest? fs start = none ↔ ∀ dir, dir <+: start → fs.entry? (dir ++ [projectFile]) = none := by
  simp [nearest?, List.findSome?_eq_none_iff, Path.mem_upward]

/-- What is found is nearest. -/
theorem nearest?_isNearest {path : Path} {entry : FileEntry}
    (h : nearest? fs start = some (path, entry)) :
    ∃ dir, path = dir ++ [projectFile] ∧ fs.IsNearest start dir entry := by
  obtain ⟨nearer, dir, farther, hsplit, hdir, hnearer⟩ := List.findSome?_eq_some_iff.mp h
  obtain ⟨_, hentry, hpair⟩ := Option.map_eq_some_iff.mp hdir
  obtain ⟨rfl, rfl⟩ := Prod.mk.inj hpair
  refine ⟨dir, rfl, Path.mem_upward.mp (by simp [hsplit]), hentry, fun between hbetween hlt => ?_⟩
  have hmem : between ∈ nearer ++ dir :: farther := hsplit ▸ Path.mem_upward.mpr hbetween
  have horder := hsplit ▸ start.upward_longest_first
  obtain ⟨_, hfarther, _⟩ := List.pairwise_append.mp horder
  rcases List.mem_append.mp hmem with hmem | hmem
  · simpa using hnearer between hmem
  · -- a directory that is not passed on the way to `dir` is no longer than it
    rcases List.mem_cons.mp hmem with rfl | hmem
    · omega
    · have := (List.pairwise_cons.mp hfarther).1 between hmem
      omega

/-- There is only one that is nearest. -/
theorem nearest?_of_isNearest {dir : Path} {entry : FileEntry}
    (h : fs.IsNearest start dir entry) :
    nearest? fs start = some (dir ++ [projectFile], entry) := by
  cases hfound : nearest? fs start with
  | none =>
    have hnone := nearest?_eq_none.mp hfound dir h.above
    simp [h.found] at hnone
  | some found =>
    obtain ⟨path', entry'⟩ := found
    obtain ⟨dir', rfl, h'⟩ := nearest?_isNearest hfound
    -- neither of the two is longer, for the other has nothing between it and the start
    have hle : dir'.length ≤ dir.length := by
      by_contra hlt
      have hnone := h.first dir' h'.above (by omega)
      simp [h'.found] at hnone
    have hge : dir.length ≤ dir'.length := by
      by_contra hlt
      have hnone := h'.first dir h.above (by omega)
      simp [h.found] at hnone
    have hdir : dir' = dir :=
      (List.prefix_of_prefix_length_le h'.above h.above hle).eq_of_length (by omega)
    subst hdir
    have hentry : some entry' = some entry := h'.found.symm.trans h.found
    rw [Option.some.inj hentry]

/-! ## What places count as -/

/-- The text of defaults, with the name it is logged under: the packaged text, or a file's. -/
inductive DefaultsText (fs : Files) : Option Path → Yaml.Source → String → Prop where
  | packaged : DefaultsText fs none (Yaml.Source.ofText packagedDefaults) "default.yml"
  | file {path : Path} {content : ByteArray} (found : fs.follow 0 [] path = some (.file content)) :
    DefaultsText fs (some path) (Yaml.Source.ofBytes content) path.text

/-- The entries that defaults count as, and what is logged about them. -/
inductive DefaultsCount (fs : Files) : Option Path → List (Data × Data) → List Message → Prop where
  | missing {path : Path} (found : fs.follow 0 [] path = none) : DefaultsCount fs (some path) [] []
  | directory {path : Path} (found : fs.follow 0 [] path = some .directory) :
    DefaultsCount fs (some path) [] [.badDefaults path.text]
  | malformed {file : Option Path} {source : Yaml.Source} {name : String}
    (text : DefaultsText fs file source name) (read : Yaml.parse source = .error .malformed) :
    DefaultsCount fs file [] [.badDefaults name]
  | noTable {file : Option Path} {source : Yaml.Source} {name : String} {d : Data}
    (text : DefaultsText fs file source name) (read : Yaml.parse source = .ok d)
    (shape : ∀ entries, d ≠ .table entries) : DefaultsCount fs file [] []
  | table {file : Option Path} {source : Yaml.Source} {name : String} {entries : List (Data × Data)}
    (text : DefaultsText fs file source name) (read : Yaml.parse source = .ok (.table entries)) :
    DefaultsCount fs file entries []

/-- What keeps defaults from being read: they are no text, or stand for nothing. -/
inductive DefaultsFault (fs : Files) : Option Path → Fault → Prop where
  | text {file : Option Path} {source : Yaml.Source} {name : String} {fault : Fault}
    (text : DefaultsText fs file source name) (read : Yaml.parse source = .error (.fault fault)) :
    DefaultsFault fs file fault

/-- The table of this tool in the entries of a project file: empty if there is none. -/
inductive OwnEntries (entries : List (Data × Data)) : List (Data × Data) → Prop where
  | noTools (absent : Data.lookup toolKey entries = none) : OwnEntries entries []
  | emptyTools {v : Data} (present : Data.lookup toolKey entries = some v)
    (empty : v.truthy = false) : OwnEntries entries []
  | noOwn {tools : List (Data × Data)} (present : Data.lookup toolKey entries = some (.table tools))
    (shape : ∀ own, Data.lookup sectionKey tools ≠ some (.table own)) : OwnEntries entries []
  | own {tools own : List (Data × Data)}
    (present : Data.lookup toolKey entries = some (.table tools))
    (table : Data.lookup sectionKey tools = some (.table own)) : OwnEntries entries own

/-- A written path leads to a place, and this is the project file nearest to it. -/
inductive HasProject (fs : Files) (start : Path) : Path → FileEntry → Prop where
  | nearest {place dir : Path} {entry : FileEntry} (possible : start.isPossible = true)
    (resolved : Path.resolve [] start = some place) (nearest : fs.IsNearest place dir entry) :
    HasProject fs start (dir ++ [projectFile]) entry

/-- A written path leads out of the base, or to a place that no project file is near. -/
inductive HasNoProject (fs : Files) (start : Path) : Prop where
  | outside (possible : start.isPossible = true) (resolved : Path.resolve [] start = none)
  | absent {place : Path} (possible : start.isPossible = true)
    (resolved : Path.resolve [] start = some place)
    (absent : ∀ dir, dir <+: place → fs.entry? (dir ++ [projectFile]) = none)

/-- The text of the project file nearest to a written path, and the path of the file. -/
inductive ProjectText (fs : Files) (start : Path) : Path → String → Prop where
  | file {path : Path} {content : ByteArray} {text : String}
    (found : HasProject fs start path (.file content))
    (decoded : String.fromUTF8? content = some text) : ProjectText fs start path text

/-- What the project file nearest to a written path says of this tool, and what is logged about the
file. -/
inductive ProjectCount (fs : Files) (start : Path) : List (Data × Data) → List Message → Prop where
  | none (found : HasNoProject fs start) : ProjectCount fs start [] []
  | directory {path : Path} (found : HasProject fs start path .directory) :
    ProjectCount fs start [] [.badProject path.text]
  | malformed {path : Path} {text : String} (found : ProjectText fs start path text)
    (read : Toml.parse text = .error .malformed) : ProjectCount fs start [] [.badProject path.text]
  | own {path : Path} {text : String} {entries own : List (Data × Data)}
    (found : ProjectText fs start path text) (read : Toml.parse text = .ok entries)
    (said : OwnEntries entries own) : ProjectCount fs start own []

/-- What keeps the project's settings from being read: a path that cannot be, a nearest file that is
no text or stands for nothing, or one where the tools are no table. -/
inductive ProjectFault (fs : Files) (start : Path) : Fault → Prop where
  | path (impossible : start.isPossible = false) : ProjectFault fs start .badPath
  | undecodable {path : Path} {content : ByteArray}
    (found : HasProject fs start path (.file content))
    (decoded : String.fromUTF8? content = none) : ProjectFault fs start .undecodable
  | text {path : Path} {text : String} {fault : Fault} (found : ProjectText fs start path text)
    (read : Toml.parse text = .error (.fault fault)) : ProjectFault fs start fault
  | tools {path : Path} {text : String} {entries : List (Data × Data)} {v : Data}
    (found : ProjectText fs start path text) (read : Toml.parse text = .ok entries)
    (present : Data.lookup toolKey entries = some v) (full : v.truthy = true)
    (shape : ∀ tools, v ≠ .table tools) :
    ProjectFault fs start (.missingAttribute v.typeName "get")

/-! ## Outcomes -/

/-- Loading has an outcome, whatever was logged before, and logs these messages. -/
def Gives (l : Load α) (outcome : Except Fault α) (ms : List Message) : Prop :=
  ∀ before, (ExceptT.run l).run before = (outcome, before ++ ms)

theorem Gives.perform_eq {l : Load α} {outcome : Except Fault α} (h : l.Gives outcome ms) :
    l.perform = (outcome, ms) := by
  have hnone := h []
  rwa [List.nil_append] at hnone

@[simp] theorem gives_pure (a : α) : Gives (pure a) (.ok a) [] :=
  fun before => by simp only [List.append_nil]; rfl

@[simp] theorem gives_throw (fault : Fault) : Gives (throw fault : Load α) (.error fault) [] :=
  fun before => by simp only [List.append_nil]; rfl

@[simp] theorem gives_log (m : Message) : Gives (log m) (.ok ()) [m] := fun _ => rfl

theorem Gives.bind {l : Load α} {f : α → Load β} {a : α} {outcome : Except Fault β}
    {ms ms' : List Message} (h : l.Gives (.ok a) ms) (hf : (f a).Gives outcome ms') :
    Gives (l >>= f) outcome (ms ++ ms') := by
  intro before
  rw [ExceptT.run_bind, StateT.run_bind, h before]
  exact (hf (before ++ ms)).trans (by rw [List.append_assoc])

theorem Gives.bind_error {l : Load α} {f : α → Load β} (h : l.Gives (.error fault) ms) :
    Gives (l >>= f) (.error fault) ms := by
  intro before
  rw [ExceptT.run_bind, StateT.run_bind, h before]
  rfl

/-- A text without a flaw is what it is read as. -/
theorem gives_orEmpty_ok (m : Message) (empty a : α) :
    Gives (orEmpty m empty (.ok a)) (.ok a) [] := gives_pure a

/-- A text that is not well formed is logged and counts as empty. -/
theorem gives_orEmpty_malformed (m : Message) (empty : α) :
    Gives (orEmpty m empty (.error .malformed)) (.ok empty) [m] :=
  (gives_log m).bind (gives_pure empty)

theorem gives_orEmpty_fault (m : Message) (empty : α) (fault : Fault) :
    Gives (orEmpty m empty (.error (.fault fault))) (.error fault) [] := gives_throw fault

/-! ## Defaults -/

/-- The defaults are what their text is read as. -/
theorem DefaultsText.defaults_gives {source : Yaml.Source} {name : String}
    {outcome : Except Fault (List (Data × Data))} (h : DefaultsText fs file source name)
    (hd : (defaultsOf source name).Gives outcome ms) : (defaults fs file).Gives outcome ms := by
  cases h with
  | packaged => exact hd
  | file found =>
    unfold defaults
    simp only [found]
    exact hd

/-- Loading defaults comes to what these count as, with the messages about it. -/
theorem DefaultsCount.gives (h : DefaultsCount fs file below ms) :
    (defaults fs file).Gives (.ok below) ms := by
  cases h with
  | missing found =>
    unfold defaults
    simp only [found]
    exact gives_pure []
  | directory found =>
    unfold defaults
    simp only [found]
    exact (gives_log _).bind (gives_pure [])
  | malformed text read =>
    refine text.defaults_gives ?_
    unfold defaultsOf
    rw [read]
    exact (gives_orEmpty_malformed _ _).bind (gives_pure [])
  | @noTable _ _ _ d text read shape =>
    refine text.defaults_gives ?_
    unfold defaultsOf
    rw [read]
    refine (gives_orEmpty_ok _ _ d).bind ?_
    cases d with
    | table entries => exact absurd rfl (shape entries)
    | _ => exact gives_pure []
  | table text read =>
    refine text.defaults_gives ?_
    unfold defaultsOf
    rw [read]
    exact (gives_orEmpty_ok _ _ _).bind (gives_pure below)

theorem DefaultsFault.gives (h : DefaultsFault fs file fault) :
    (defaults fs file).Gives (.error fault) [] := by
  cases h with
  | text text read =>
    refine text.defaults_gives ?_
    unfold defaultsOf
    rw [read]
    exact (gives_orEmpty_fault _ _ fault).bind_error

/-- The table of this tool is found where it is written. -/
theorem OwnEntries.sectionOf_eq {entries own : List (Data × Data)} (h : OwnEntries entries own) :
    sectionOf entries = .ok own := by
  cases h with
  | noTools absent =>
    simp only [sectionOf, Layers.orEmpty, absent]
    rfl
  | emptyTools present empty =>
    simp only [sectionOf, Layers.orEmpty, present, empty, Bool.false_eq_true, ↓reduceIte]
    rfl
  | noOwn present shape => simp only [sectionOf, present, Layers.orEmpty_table]
  | own present table => simp only [sectionOf, present, Layers.orEmpty_table, table]

/-- Tools that are something, and no table, have no entries to look up. -/
theorem sectionOf_of_noTable {entries : List (Data × Data)} {v : Data}
    (present : Data.lookup toolKey entries = some v) (full : v.truthy = true)
    (shape : ∀ tools, v ≠ .table tools) :
    sectionOf entries = .error (.missingAttribute v.typeName "get") := by
  simp only [sectionOf, Layers.orEmpty, present, full, ↓reduceIte]

theorem HasProject.found {path : Path} {entry : FileEntry} (h : HasProject fs start path entry) :
    start.isPossible = true ∧
      (Path.resolve [] start).bind (nearest? fs) = some (path, entry) := by
  cases h with
  | nearest possible resolved nearest =>
    rw [resolved]
    exact ⟨possible, nearest?_of_isNearest nearest⟩

theorem HasNoProject.found (h : HasNoProject fs start) :
    start.isPossible = true ∧ (Path.resolve [] start).bind (nearest? fs) = none := by
  cases h with
  | outside possible resolved => simp [possible, resolved]
  | absent possible resolved absent =>
    rw [resolved]
    exact ⟨possible, nearest?_eq_none.mpr absent⟩

/-- The project's settings are what its text is read as. -/
theorem ProjectText.project_gives {path : Path} {text : String}
    {outcome : Except Fault (List (Data × Data))} (h : ProjectText fs start path text)
    (hread : Gives (do
      let entries ← orEmpty (.badProject path.text) [] (Toml.parse text)
      match sectionOf entries with
      | .ok own => return own
      | .error fault => throw fault) outcome ms) : (project fs start).Gives outcome ms := by
  cases h with
  | @file content _ found decoded =>
    obtain ⟨possible, hfound⟩ := found.found
    unfold project
    simp only [possible, hfound, ↓reduceIte]
    have hdecode : (decode content).Gives (.ok text) [] := by
      unfold decode
      rw [decoded]
      exact gives_pure text
    exact hdecode.bind hread

/-- Loading the settings of a project comes to what these count as, with the messages about it. -/
theorem ProjectCount.gives (h : ProjectCount fs start above ms) :
    (project fs start).Gives (.ok above) ms := by
  cases h with
  | none found =>
    obtain ⟨possible, hfound⟩ := found.found
    unfold project
    simp only [possible, hfound, ↓reduceIte]
    exact gives_pure []
  | directory found =>
    obtain ⟨possible, hfound⟩ := found.found
    unfold project
    simp only [possible, hfound, ↓reduceIte]
    exact (gives_log _).bind (gives_pure [])
  | malformed found read =>
    refine found.project_gives ?_
    rw [read]
    refine (gives_orEmpty_malformed _ _).bind ?_
    rw [(OwnEntries.noTools rfl).sectionOf_eq]
    exact gives_pure []
  | own found read said =>
    refine found.project_gives ?_
    rw [read]
    refine (gives_orEmpty_ok _ _ _).bind ?_
    rw [said.sectionOf_eq]
    exact gives_pure above

/-- Where there is a fault, loading stops at it without a message. -/
theorem ProjectFault.gives (h : ProjectFault fs start fault) :
    (project fs start).Gives (.error fault) [] := by
  cases h with
  | path impossible =>
    unfold project
    simp only [impossible, Bool.false_eq_true, ↓reduceIte]
    exact (gives_throw _).bind_error
  | undecodable found decoded =>
    obtain ⟨possible, hfound⟩ := found.found
    unfold project
    simp only [possible, hfound, ↓reduceIte]
    unfold decode
    rw [decoded]
    exact (gives_throw _).bind_error
  | text found read =>
    refine found.project_gives ?_
    rw [read]
    exact (gives_orEmpty_fault _ _ fault).bind_error
  | tools found read present full shape =>
    refine found.project_gives ?_
    rw [read]
    refine (gives_orEmpty_ok _ _ _).bind ?_
    rw [sectionOf_of_noTable present full shape]
    exact gives_throw _

/-- What loading comes to: the project's settings over the defaults, or the first fault. -/
inductive Outcome (fs : Files) (file : Option Path) (start : Path) :
    Except Fault (List (Data × Data)) → List Message → Prop where
  | layered {below above : List (Data × Data)} {ms ms' : List Message}
    (defaults : DefaultsCount fs file below ms) (project : ProjectCount fs start above ms') :
    Outcome fs file start (.ok (Layers.merge below above)) (ms ++ ms')
  | defaultsFault {fault : Fault} (defaults : DefaultsFault fs file fault) :
    Outcome fs file start (.error fault) []
  | projectFault {below : List (Data × Data)} {ms : List Message} {fault : Fault}
    (defaults : DefaultsCount fs file below ms) (project : ProjectFault fs start fault) :
    Outcome fs file start (.error fault) ms

variable {outcome : Except Fault (List (Data × Data))}

/-- With the defaults at hand, loading goes on with the project's settings. -/
theorem gives_over {ms' : List Message} (hbelow : DefaultsCount fs file below ms)
    (hrest : Gives (do return Layers.merge below (← project fs start)) outcome ms') :
    (all fs file start).Gives outcome (ms ++ ms') :=
  hbelow.gives.bind hrest

/-- Loading comes to the outcome, defaults first and then the project. -/
theorem Outcome.gives (h : Outcome fs file start outcome ms) :
    (all fs file start).Gives outcome ms := by
  cases h with
  | @layered below above ms ms' hbelow habove =>
    refine gives_over hbelow ?_
    have hmerge : Gives (pure (Layers.merge below above)) (.ok (Layers.merge below above)) [] :=
      gives_pure _
    rw [← List.append_nil ms']
    exact habove.gives.bind hmerge
  | defaultsFault hfault => exact hfault.gives.bind_error
  | projectFault hbelow hfault =>
    rw [← List.append_nil ms]
    exact gives_over hbelow hfault.gives.bind_error

end Load

end SheetLint
