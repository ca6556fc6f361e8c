import Slate106.KermitNak
import Slate106.KermitNames
import Slate106.PathWalk

namespace Slate106.Kermit

open CBytes
open PathWalk

/-!
# The paths that reach the file system

`tracing` records the path of every `stat`, `fopen` and `opendir`.  A call of
`kermit()` that makes no call with a path leaves the record alone.
-/

variable {σ : Type}

/-- The outside, with a record of the paths it was asked about. -/
def tracing
    (os : Os σ) : Os (σ × List (List UInt8)) where
  send w bytes :=
    let done := os.send w.1 bytes
    (done.1, done.2, w.2)
  stat w path :=
    let done := os.stat w.1 path
    (done.1, done.2, path :: w.2)
  fopen w path :=
    let done := os.fopen w.1 path
    (done.1, done.2, path :: w.2)
  fread w count :=
    let done := os.fread w.1 count
    (done.1, done.2, w.2)
  getc w :=
    let done := os.getc w.1
    (done.1, done.2, w.2)
  fclose w :=
    let done := os.fclose w.1
    (done.1, done.2, w.2)
  write w bytes :=
    let done := os.write w.1 bytes
    (done.1, done.2, w.2)
  close w :=
    let done := os.close w.1
    (done.1, done.2, w.2)
  unlink w path := (os.unlink w.1 path, w.2)
  readdir w path :=
    let done := os.readdir w.1 path
    (done.1, done.2, path :: w.2)

/-- The path of a call that opens a file. -/
def openedPath : FileCall → Option (List UInt8)
  | .fopen path _ => some path
  | _ => none

/-- Every path handed to `stat`, `fopen` or `opendir` so far. -/
def touched
    (w : Unix (σ × List (List UInt8))) : List (List UInt8) :=
  w.os.2 ++ w.calls.filterMap openedPath

/-- The root of the server, and the directory of its process. -/
structure Place where
  cwd : List (List UInt8)
  root : List UInt8

/-- A path that denotes the root or something below it, if anything. -/
def Place.Holds
    (place : Place)
    (path : List UInt8) : Prop :=
  Under (ch '/') (ch '.') place.cwd place.root path

/-- All the paths so far are under the root. -/
def Confined
    (place : Place)
    (w : Unix (σ × List (List UInt8))) : Prop :=
  ∀ path ∈ touched w, place.Holds path

/-- The directory that the root path leads to. -/
def Place.dir
    (place : Place) : List (List UInt8) :=
  (denotes (ch '/') (ch '.') place.cwd place.root).getD []

/--
A name stays under the root: it is too long for the path buffer, or it
reenters every directory that it leaves.
-/
def Place.Keeps
    (place : Place)
    (name : List UInt8) : Prop :=
  kfilenameMaxsize ≤ name.length + place.root.length ∨
    (reduce (stepsOf (ch '/') (ch '.') name)).Reenters place.dir

instance
    (place : Place)
    (name : List UInt8) :
    Decidable (place.Keeps name) :=
  inferInstanceAs (Decidable (_ ∨ _))

/-- The root path ends with a slash. -/
def Place.Closed
    (place : Place) : Prop :=
  ∃ front, place.root = front ++ [ch '/']

theorem Place.Closed.nonempty
    {place : Place}
    (closed : place.Closed) :
    place.root ≠ [] := by
  obtain ⟨front, root⟩ := closed
  rw [root]
  simp

theorem Place.Closed.rooted
    {place : Place}
    (closed : place.Closed) :
    denotes (ch '/') (ch '.') place.cwd place.root = some place.dir := by
  unfold Place.dir denotes
  rw [if_neg closed.nonempty]
  rfl

/-- `kadd_rootpath()` makes a path under the root of the names that keep it. -/
theorem holds_kaddRootpath_iff
    {place : Place}
    (closed : place.Closed)
    (name : List UInt8) :
    place.Holds (kaddRootpath place.root name) ↔ place.Keeps name := by
  unfold kaddRootpath Place.Keeps
  rw [if_pos closed.nonempty]
  by_cases long : name.length + place.root.length ≥ kfilenameMaxsize
  · rw [if_pos long]
    exact ⟨fun _ => .inl long, fun _ => under_empty _ _ _ _⟩
  · rw [if_neg long]
    refine (under_append_iff closed closed.rooted name).trans ?_
    exact ⟨.inr, fun keeps => keeps.resolve_left long⟩

/-- Names without steps up are kept. -/
theorem keeps_of_noUps
    {place : Place}
    {name : List UInt8}
    (noUps : Step.up ∉ stepsOf (ch '/') (ch '.') name) :
    place.Keeps name :=
  .inr ((prefix_walk_iff _ _).mp (prefix_walk_of_noUps noUps _))

/-! ## The callbacks -/

section Callbacks

variable {os : Os σ}
variable {w w' : Unix (σ × List (List UInt8))}

/-- What is recorded is the same. -/
theorem Confined.same
    {place : Place}
    (confined : Confined place w)
    (os : w'.os.2 = w.os.2)
    (calls : w'.calls.filterMap openedPath = w.calls.filterMap openedPath) :
    Confined place w' := by
  unfold Confined touched at *
  rw [os, calls]
  exact confined

/-- One more path. -/
theorem Confined.asked
    {place : Place}
    (confined : Confined place w)
    {path : List UInt8}
    (holds : place.Holds path)
    (os : w'.os.2 = path :: w.os.2)
    (calls : ∀ other ∈ w'.calls.filterMap openedPath,
      other ∈ w.calls.filterMap openedPath ∨ place.Holds other) :
    Confined place w' := by
  intro other member
  rcases List.mem_append.mp member with asked | opened
  · rw [os] at asked
    rcases List.mem_cons.mp asked with first | earlier
    · rw [first]
      exact holds
    · exact confined other (List.mem_append_left _ earlier)
  · rcases calls other opened with earlier | under
    · exact confined other (List.mem_append_right _ earlier)
    · exact under

theorem kreadText_trace
    (count : Nat)
    (w : σ × List (List UInt8)) :
    (kreadText (tracing os) count w).2.2 = w.2 := by
  induction count using Nat.strong_induction_on generalizing w with
  | _ count inductionHypothesis =>
      cases count with
      | zero =>
          unfold kreadText
          rfl
      | succ count =>
          unfold kreadText
          obtain ⟨next, after⟩ := w
          cases read : (os.getc next).1 with
          | none =>
              simp [tracing, read]
          | some c =>
              simp only [tracing, read]
              split
              · exact inductionHypothesis _ (by omega) _
              · exact inductionHypothesis _ (by omega) _

theorem kreadfile_trace
    (k : KData) :
    (kreadfile (tracing os) w k).2.2.os.2 = w.os.2 ∧
      (kreadfile (tracing os) w k).2.2.calls = w.calls := by
  have read :
      (if k.par.binary ≠ 0 then (tracing os).fread w.os ibufLen
        else kreadText (tracing os) (ibufLen - 2) w.os).2.2 = w.os.2 := by
    split
    · rfl
    · exact kreadText_trace _ _
  unfold kreadfile
  split
  · exact ⟨rfl, rfl⟩
  · split
    · dsimp only
      split
      · exact ⟨read, rfl⟩
      · exact ⟨read, rfl⟩
    · exact ⟨rfl, rfl⟩

theorem kwritePieces_trace
    (pieces : List (List UInt8))
    (rc : Int)
    (w : Unix (σ × List (List UInt8))) :
    (kwritePieces (tracing os) pieces rc w).2.os.2 = w.os.2 ∧
      (kwritePieces (tracing os) pieces rc w).2.calls.filterMap openedPath =
        w.calls.filterMap openedPath := by
  induction pieces generalizing rc w with
  | nil =>
      exact ⟨rfl, rfl⟩
  | cons piece pieces inductionHypothesis =>
      cases piece with
      | nil =>
          exact inductionHypothesis rc w
      | cons byte bytes =>
          exact inductionHypothesis _ _

theorem kwritefile_trace
    (k : KData)
    (bytes : List UInt8) :
    (kwritefile (tracing os) w k bytes).2.os.2 = w.os.2 ∧
      (kwritefile (tracing os) w k bytes).2.calls.filterMap openedPath =
        w.calls.filterMap openedPath := by
  unfold kwritefile
  split
  · exact ⟨rfl, rfl⟩
  · exact kwritePieces_trace _ _ _

theorem kclosefile_trace
    (k : KData)
    (name : List UInt8)
    (c : UInt8)
    (mode : Int) :
    (kclosefile (tracing os) w k name c mode).2.os.2 = w.os.2 ∧
      (kclosefile (tracing os) w k name c mode).2.calls.filterMap
          openedPath =
        w.calls.filterMap openedPath := by
  unfold kclosefile
  dsimp only
  repeat' split
  all_goals exact ⟨rfl, rfl⟩

/-- `kopenfile()` only opens the path of a name to read. -/
theorem Confined.kopenfile
    {place : Place}
    (closed : place.Closed)
    (confined : Confined place w)
    {k : KData}
    (root : k.cfg.rootpath = place.root)
    {name : List UInt8}
    {mode : Int}
    (keeps : mode = 1 → place.Keeps name)
    (filesize : Int) :
    Confined place (kopenfile (tracing os) w k name mode filesize).2.2.2 := by
  unfold Kermit.kopenfile
  dsimp only
  rw [root]
  by_cases reads : mode = 1
  · have holds := (holds_kaddRootpath_iff closed name).mpr (keeps reads)
    rw [if_pos reads]
    split
    · refine confined.asked holds rfl ?_
      intro other member
      rcases List.mem_cons.mp member with first | earlier
      · exact .inr (first ▸ holds)
      · exact .inl earlier
    · refine confined.asked holds rfl ?_
      intro other member
      rcases List.mem_cons.mp member with first | earlier
      · exact .inr (first ▸ holds)
      · exact .inl earlier
  · rw [if_neg reads]
    exact confined

theorem Confined.kaccessfile
    {place : Place}
    (closed : place.Closed)
    (confined : Confined place w)
    {k : KData}
    (root : k.cfg.rootpath = place.root)
    {name : List UInt8}
    (keeps : place.Keeps name) :
    Confined place (kaccessfile (tracing os) w k name).2 := by
  have holds := (holds_kaddRootpath_iff closed name).mpr keeps
  unfold Kermit.kaccessfile
  dsimp only
  rw [root]
  exact confined.asked holds rfl (fun _ => .inl)

/-- `opendir` of no path fails, and the names of files are components. -/
structure Directories
    (os : Os σ) : Prop where
  nothing : ∀ w, (os.readdir w []).1 = none
  names : ∀ w path entries,
    (os.readdir w path).1 = some entries →
      ∀ entry ∈ entries, entry.regular = true →
        ch '/' ∉ entry.name ∧ entry.name ≠ lit ".."

theorem listEntries_paths
    {holds : List UInt8 → Prop}
    {kfilename : List UInt8}
    {entries : List DirEntry}
    (listed : ∀ entry ∈ entries, entry.regular = true →
      holds (kfilename ++ lit "/" ++ entry.name))
    (cnt : Nat)
    (pdf scratch : List UInt8)
    {calls : List FileCall}
    (before : ∀ path ∈ calls.filterMap openedPath, holds path) :
    ∀ path ∈
        (listEntries kfilename entries cnt pdf scratch calls).2.2.filterMap
          openedPath,
      holds path := by
  induction entries generalizing cnt pdf scratch calls with
  | nil =>
      exact before
  | cons entry rest inductionHypothesis =>
      have later := fun other member =>
        listed other (List.mem_cons_of_mem entry member)
      unfold listEntries
      dsimp only
      split
      · exact inductionHypothesis later _ _ _ before
      · rename_i regular
        have opened :
            ∀ path ∈
              (FileCall.fopen (kfilename ++ lit "/" ++ entry.name) "r" ::
                calls).filterMap openedPath, holds path := by
          intro path member
          rcases List.mem_cons.mp member with first | earlier
          · rw [first]
            exact listed entry List.mem_cons_self (by simpa using regular)
          · exact before path earlier
        split
        · exact inductionHypothesis later _ _ _ opened
        · split
          · exact inductionHypothesis later _ _ _ opened
          · split
            · exact opened
            · exact inductionHypothesis later _ _ _ opened

/-- The files that a listing opens are recorded in front of the others. -/
theorem listEntries_calls
    (kfilename : List UInt8)
    (entries : List DirEntry)
    (cnt : Nat)
    (pdf scratch : List UInt8)
    (calls : List FileCall) :
    calls <:+ (listEntries kfilename entries cnt pdf scratch calls).2.2 := by
  induction entries generalizing cnt pdf scratch calls with
  | nil =>
      exact List.suffix_rfl
  | cons entry rest inductionHypothesis =>
      have opened :
          calls <:+
            FileCall.fopen (kfilename ++ lit "/" ++ entry.name) "r" :: calls :=
        List.suffix_cons _ _
      unfold listEntries
      dsimp only
      split
      · exact inductionHypothesis _ _ _ _
      · split
        · exact opened.trans (inductionHypothesis _ _ _ _)
        · split
          · exact opened.trans (inductionHypothesis _ _ _ _)
          · split
            · exact opened
            · exact opened.trans (inductionHypothesis _ _ _ _)

theorem noUps_of_parts
    {path : List UInt8}
    (parts : ∀ name ∈ path.splitOn (ch '/'), name ≠ lit "..") :
    Step.up ∉ stepsOf (ch '/') (ch '.') path := by
  unfold stepsOf
  simp only [List.mem_map, not_exists, not_and]
  exact fun name member => readStep_ne_up (parts name member)

/-- A file in a directory whose name is one character. -/
theorem noUps_entry
    {dirname name : List UInt8}
    (short : dirname.length ≤ 1)
    (noSep : ch '/' ∉ name)
    (notUp : name ≠ lit "..") :
    Step.up ∉ stepsOf (ch '/') (ch '.') dirname ∧
      Step.up ∉ stepsOf (ch '/') (ch '.') (dirname ++ lit "/" ++ name) := by
  have dir : ∀ part ∈ dirname.splitOn (ch '/'), part ≠ lit ".." := by
    match dirname, short with
    | [], _ =>
        simp [List.splitOn_nil]
        decide
    | [c], _ =>
        by_cases sep : c = ch '/'
        · subst sep
          decide
        · rw [List.splitOn_eq_singleton (by simpa using Ne.symm sep)]
          intro part member
          rw [List.mem_singleton.mp member]
          exact fun same => nomatch congrArg List.length same
  refine ⟨noUps_of_parts dir, noUps_of_parts ?_⟩
  have parts : (dirname ++ lit "/" ++ name).splitOn (ch '/') =
      dirname.splitOn (ch '/') ++ [name] := by
    rw [List.append_assoc]
    refine (List.splitOn_append_cons_self dirname name).trans ?_
    rw [List.splitOn_eq_singleton noSep]
  rw [parts]
  intro part member
  rcases List.mem_append.mp member with inDir | last
  · exact dir part inDir
  · rw [List.mem_singleton.mp last]
    exact notUp

/-- `kgetdirdata()` lists a directory under the root. -/
theorem Confined.kgetdirdata
    {place : Place}
    (closed : place.Closed)
    (directories : Directories os)
    (confined : Confined place w)
    {k : KData}
    (root : k.cfg.rootpath = place.root)
    (short : (cstr k.dirname).length ≤ 1) :
    Confined place (kgetdirdata (tracing os) w k).2.2.2 := by
  have under : place.Holds (kaddRootpath place.root (cstr k.dirname)) :=
    (holds_kaddRootpath_iff closed _).mpr
      (keeps_of_noUps
        (@noUps_entry _ [] short List.not_mem_nil (by decide)).1)
  unfold Kermit.kgetdirdata
  rw [root]
  dsimp only
  split
  · exact confined.asked under rfl (fun _ => .inl)
  · rename_i entries listing
    have opened : (os.readdir w.os.1
        (kaddRootpath place.root (cstr k.dirname))).1 = some entries :=
      listing
    have path : kaddRootpath place.root (cstr k.dirname) =
        place.root ++ cstr k.dirname := by
      unfold kaddRootpath at opened ⊢
      rw [if_pos closed.nonempty] at opened ⊢
      split
      · rename_i long
        rw [if_pos long, directories.nothing] at opened
        exact nomatch opened
      · rfl
    refine confined.asked under rfl ?_
    have names := directories.names _ _ _ opened
    refine listEntries_paths ?_ _ _ _ (fun _ => .inl)
    intro entry member regular
    obtain ⟨noSep, notUp⟩ := names entry member regular
    refine .inr ?_
    rw [path, List.append_assoc, List.append_assoc,
      ← List.append_assoc _ (lit "/")]
    refine (under_append_iff closed closed.rooted _).mpr ?_
    exact (prefix_walk_iff _ _).mp
      (prefix_walk_of_noUps (noUps_entry short noSep notUp).2 _)

/-! ## What has been touched stays touched -/

theorem touched_mono
    (os : w.os.2 ⊆ w'.os.2)
    (calls :
      w.calls.filterMap openedPath ⊆ w'.calls.filterMap openedPath) :
    touched w ⊆ touched w' := by
  intro path member
  rcases List.mem_append.mp member with asked | opened
  · exact List.mem_append_left _ (os asked)
  · exact List.mem_append_right _ (calls opened)

/-- A call that hands on no path. -/
theorem touched_same
    (os : w'.os.2 = w.os.2)
    (calls : w'.calls.filterMap openedPath = w.calls.filterMap openedPath) :
    touched w ⊆ touched w' := by
  unfold touched
  rw [os, calls]
  exact List.Subset.refl _

theorem touched_kopenfile
    (k : KData)
    (name : List UInt8)
    (mode filesize : Int) :
    touched w ⊆
      touched (kopenfile (tracing os) w k name mode filesize).2.2.2 := by
  unfold kopenfile
  dsimp only
  split
  · split
    · exact touched_mono (List.subset_cons_self _ _)
        (List.subset_cons_self _ _)
    · exact touched_mono (List.subset_cons_self _ _)
        (List.subset_cons_self _ _)
  · exact List.Subset.refl _

theorem touched_kgetdirdata
    (k : KData) :
    touched w ⊆ touched (kgetdirdata (tracing os) w k).2.2.2 := by
  unfold kgetdirdata
  dsimp only
  split
  · exact touched_mono (List.subset_cons_self _ _) (List.Subset.refl _)
  · refine touched_mono (List.subset_cons_self _ _) ?_
    exact ((listEntries_calls _ _ _ _ _ _).filterMap openedPath).subset

/-- `kaccessfile()` hands the path of the name to `stat`. -/
theorem kaccessfile_touches
    (k : KData)
    (name : List UInt8) :
    kaddRootpath k.cfg.rootpath name ∈
      touched (kaccessfile (tracing os) w k name).2 :=
  List.mem_append_left _ List.mem_cons_self

/-- `kopenfile()` hands the path of a name to read to `fopen`. -/
theorem kopenfile_touches
    (k : KData)
    (name : List UInt8)
    (filesize : Int) :
    kaddRootpath k.cfg.rootpath name ∈
      touched (kopenfile (tracing os) w k name 1 filesize).2.2.2 := by
  unfold kopenfile
  dsimp only
  rw [if_pos rfl]
  split
  · exact List.mem_append_left _ List.mem_cons_self
  · exact List.mem_append_left _ List.mem_cons_self

end Callbacks

end Slate106.Kermit
