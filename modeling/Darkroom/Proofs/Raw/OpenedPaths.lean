import Darkroom.Proofs.Command.Extraction
import Darkroom.Proofs.Files.Frames
import Darkroom.Proofs.Raw.Refusals

/-!
# Paths of Opened Files

Of which file it is told what the camera says, when a file has been opened from a path.

The library is handed a path with its home directory in place. What the camera says is looked for at
the path as it was given, for that is what an open file remembers. The two are one path unless the
given path begins with a tilde. Then the tilde is taken for the name of an entry of the current
directory: mostly there is no such entry, and nothing is said about a picture whose file says a lot;
and where there is one, what is said is about the file that stands there. Both paths go on from a
directory with the same names, so they lead to the same place only if they set out from the same
one, unless their names lead up again.

## Main definitions

* `Path.IsHomePath`: A path that begins with a tilde.
* `Path.placeFrom`: The place that a path spells.
* `RawFile.Reports`: What a file tells of the camera, whenever its metadata are asked for.

## Theorems

* `Path.expandHome_of_not_isHomePath`, `Path.of_expandHome`: What stays of a path.
* `not_isHomePath_of_userPath`: Commands open no such paths.
* `Tree.placeFrom_of_locate`: A path leads to the place that it spells, if anywhere.
* `RawFile.reports_of_ofSource`: What an opened file tells of the camera.
* `RawFile.exif_of_opened_path`: Of which file that is.
-/

namespace Darkroom

namespace Path

variable {homes : List (String × Path)} {directory p opened home : Path} {name : String}
  {rest : List String}

/-- A path that begins with a tilde, and so with the name of a home directory. -/
def IsHomePath (p : Path) : Prop :=
  p.slashes = 0 ∧ ∃ name rest, p.parts = name :: rest ∧ name.toList.head? = some '~'

/-- A text that begins with a tilde is such a path. -/
theorem isHomePath_ofText {text : String} (h : text.toList.head? = some '~') :
    (ofText text).IsHomePath := by
  rcases List.head?_eq_some_iff.mp h with ⟨cs, hcs⟩
  have hsplit : ∃ first more, ('~' :: cs).splitOn '/' = ('~' :: first) :: more := by
    rw [List.splitOn_cons_eq_if_modifyHead, if_neg (by decide)]
    cases hpieces : cs.splitOn '/' with
    | nil => exact (List.splitOn_ne_nil _ _ hpieces).elim
    | cons first more => exact ⟨first, more, rfl⟩
  rcases hsplit with ⟨first, more, hsplit⟩
  have hname {s : String} (hs : s.toList.head? ≠ some '~') : String.ofList ('~' :: first) ≠ s := by
    rintro rfl
    rw [String.toList_ofList] at hs
    exact hs rfl
  have hkept :
      (String.ofList ('~' :: first) ≠ "" && String.ofList ('~' :: first) ≠ ".") = true := by
    rw [decide_eq_true (hname (s := "") (by decide)), decide_eq_true (hname (s := ".") (by decide))]
    rfl
  refine ⟨?_, String.ofList ('~' :: first),
    (more.map String.ofList).filter fun part => part ≠ "" && part ≠ ".", ?_, ?_⟩
  · unfold ofText
    rw [hcs]
    rfl
  · unfold ofText
    simp only [hcs, hsplit, List.map_cons]
    exact List.filter_cons_of_pos hkept
  · rw [String.toList_ofList]
    rfl

/-- No other path has a home directory to be looked up. -/
theorem expandHome_of_not_isHomePath (h : ¬p.IsHomePath) : p.expandHome homes = .ok p := by
  unfold expandHome
  split
  · next name rest hparts =>
    refine if_pos ?_
    by_contra hother
    simp only [isAbsolute, ne_eq, Bool.or_eq_true, decide_eq_true_eq, not_or, not_not] at hother
    exact h ⟨hother.1, name, rest, hparts, hother.2⟩
  · rfl

/-- The home directory stands in for the first name of a path. -/
theorem of_expandHome (h : p.IsHomePath) (hopened : p.expandHome homes = .ok opened) :
    ∃ name rest home, p = ⟨0, name :: rest⟩ ∧ name.toList.head? = some '~' ∧
      homes.lookup name = some home ∧ opened = home.join ⟨0, rest⟩ := by
  cases p with
  | mk slashes parts =>
    rcases h with ⟨rfl, name, rest, rfl, htilde⟩
    unfold expandHome at hopened
    simp only [isAbsolute, htilde, ne_eq, not_true, decide_false, Bool.or_self, Bool.false_eq_true,
      if_false] at hopened
    split at hopened
    · cases hopened
    · split at hopened
      · cases hopened
      · split at hopened
        · next home hhome => exact ⟨name, rest, home, rfl, htilde, hhome, by cases hopened; rfl⟩
        · cases hopened

/-- The place that a path spells, seen from a directory. -/
def placeFrom (directory p : Path) : Place := climb (directory.join p).parts

theorem climbFrom_append (place : Place) (names more : List String) :
    climbFrom place (names ++ more) = climbFrom (climbFrom place names) more :=
  List.foldl_append

/-- Names that never lead up are gone down one after the other. -/
theorem climbFrom_of_not_mem {names : List String} (h : ".." ∉ names) (place : Place) :
    climbFrom place names = place ++ names := by
  induction names generalizing place with
  | nil => exact (List.append_nil place).symm
  | cons name names ih =>
    rw [List.mem_cons, not_or] at h
    show climbFrom (if name = ".." then place.dropLast else place ++ [name]) names = _
    rw [if_neg fun hup => h.1 hup.symm, ih h.2, List.append_assoc, List.singleton_append]

/-- A path inside another goes on from the place of the other. -/
theorem placeFrom_join (directory base : Path) (names : List String) :
    placeFrom directory (base.join ⟨0, names⟩) = climbFrom (placeFrom directory base) names := by
  have hparts : (directory.join (base.join ⟨0, names⟩)).parts =
      (directory.join base).parts ++ names := by
    cases base with
    | mk slashes parts =>
      unfold join isAbsolute
      by_cases habsolute : slashes = 0
      · simp [habsolute]
      · simp [habsolute]
  unfold placeFrom
  rw [hparts]
  exact climbFrom_append [] _ _

end Path

/-- The paths of commands have their home directories in place already. -/
theorem not_isHomePath_of_userPath {env : Environment} {text : String} {p : Path}
    (h : env.userPath text = .ok p) : ¬p.IsHomePath :=
  fun hhome => slashes_of_userPath h hhome.1

/-- A path that leads to a place leads to the one that it spells. -/
theorem Tree.placeFrom_of_locate {α : Type} {t : Tree α} {directory p : Path} {q : Place}
    (h : t.locate directory p = .ok q) : q = Path.placeFrom directory p := by
  rcases ok_bind_iff.mp h with ⟨names, hnames, hfollow⟩
  rw [names_eq_ok hnames] at hfollow
  exact follow_eq hfollow

/-- What is read is there. -/
theorem Tree.holds_of_read {α : Type} {t : Tree α} {directory p : Path} {content : α}
    (h : t.read directory p = .ok content) : t.holds directory p = .ok true := by
  rcases Tree.read_eq_ok.mp h with ⟨place, hplace, hentry⟩
  unfold holds
  rw [hplace]
  show Except.ok (t.entry? place).isSome = _
  rw [hentry]
  rfl

namespace RawFile

variable {env : Environment} {files : Tree Content} {f : RawFile} {p : Path}
  {settings : DecodeSettings Given}

/-- What an open file tells of the camera, whenever its metadata are asked for: they are made with
    what is said, and fail if that cannot be read. -/
def Reports (env : Environment) (files : Tree Content) (f : RawFile)
    (said : Except Failure Exif) : Prop :=
  ∀ (calls : List Call) (n : ℕ), calls[n]? = some .metadata →
    ((session env files calls).run f).1[n]? = some (.known <$> (said >>= f.metadataWith))

/-- The metadata hold what is said. -/
theorem exif_of_metadataWith {exif : Exif} {known : RawMetadata}
    (h : f.metadataWith exif = .ok known) : known.exif = exif := by
  unfold metadataWith at h
  simp only [ok_bind_iff] at h
  rcases h with ⟨_, -, _, -, _, -, _, -, _, -, _, -, _, -, _, -, _, -, _, -, _, -, _, -, _, -, _, -,
    _, -, h⟩
  cases h
  rfl

/-- A file that shows its sizes, and remembers what it would read, tells what it would read. -/
theorem run_metadata {sizes : Sizes} (hsizes : f.handle.sizes = .ok sizes)
    (hf : f.Remembers env files) :
    ((metadata env files).run f).1 = f.readExif env files >>= f.metadataWith := by
  have hrun : (metadata env files).run f = (exifData env files >>= fun exif => do
      (← get).metadataWith exif : Request RawMetadata).run f := by
    show (liftM f.handle.sizes >>= _ : Request RawMetadata).run f = _
    rw [hsizes, liftExcept_ok_bind]
  rw [hrun, run_bind, run_exifData hf]
  cases f.readExif env files <;> rfl

/-- A file that has been opened tells what it reads, whatever else is asked of it. -/
theorem reports_of_ofSource {source : Source} (h : ofSource env settings source = .ok f) :
    f.Reports env files (f.readExif env files) := by
  intro calls n hcall
  have hafresh := afresh_of_ofSource h
  have hf : f.Remembers env files := by
    rw [← hafresh]
    exact f.remembers_afresh
  rcases run_session calls hf with ⟨after, hrun, -⟩
  rcases sizes_of_ofSource h with ⟨sizes, hsizes⟩
  rw [hrun, hafresh, List.getElem?_map, hcall, Option.map_some, ← run_metadata hsizes hf]
  show some ((do return .known (← metadata env files) : Request Answer).run f).1 = _
  rw [run_bind]
  rcases (metadata env files).run f with ⟨_ | _, _⟩ <;> rfl

/-- The library is handed the path with its home directory in place. What is read is what is said
    at the path as it was given: nothing, where nothing stands. -/
theorem of_ofSource_path (h : ofSource env settings (.path p) = .ok f) :
    ∃ opened, target env (.path p) = .ok (.path opened) ∧ p.expandHome env.homes = .ok opened ∧
      ∀ (files : Tree Content) (there : Bool), files.holds env.directory p = .ok there →
        f.readExif env files = if there then env.exifOfFile files p else .ok .empty := by
  rcases of_ofSource h with ⟨_, handle, _, htarget, -, -, rfl⟩
  rcases ok_bind_iff.mp htarget with ⟨opened, hopened, heq⟩
  cases heq
  refine ⟨opened, htarget, hopened, ?_⟩
  intro files there hthere
  unfold readExif ofHandle
  simp only
  rw [hthere]
  rfl

/-- Where nothing stands at the path, it is told that nothing is known. -/
theorem reports_of_not_holds (h : ofSource env settings (.path p) = .ok f)
    (hholds : files.holds env.directory p = .ok false) : f.Reports env files (.ok .empty) := by
  rcases of_ofSource_path h with ⟨_, -, -, hexif⟩
  have hreports : f.Reports env files _ := reports_of_ofSource h
  rwa [hexif files false hholds, if_neg Bool.false_ne_true] at hreports

/-- Where a file stands at the path, it is told what is said about that file. -/
theorem reports_of_read {content : Content} (h : ofSource env settings (.path p) = .ok f)
    (hread : files.read env.directory p = .ok content) :
    f.Reports env files (env.exifOfFile files p) := by
  rcases of_ofSource_path h with ⟨_, -, -, hexif⟩
  have hreports : f.Reports env files _ := reports_of_ofSource h
  rwa [hexif files true (Tree.holds_of_read hread), if_pos rfl] at hreports

/-- An opened file tells of the camera what is said about the file that the library was handed,
    unless its path begins with a tilde. Then the library was handed the path in the home directory,
    but what is told is what is said at the path as it stands, seen from the current directory: that
    nothing is known, if nothing stands there, and else about what stands there. Where both paths
    lead to a place and do not lead up, it is the same place just if the home directory is the entry
    of that name in the current directory. -/
theorem exif_of_opened_path (hopen : ofSource env settings (.path p) = .ok f) :
    ∃ opened, target env (.path p) = .ok (.path opened) ∧
      (∀ exif known, f.metadataWith exif = .ok known → known.exif = exif) ∧
      (¬p.IsHomePath → opened = p ∧ ∀ files content,
        files.read env.directory opened = .ok content →
          f.Reports env files (env.exifOfFile files opened)) ∧
      (p.IsHomePath → ∃ name rest home, p = ⟨0, name :: rest⟩ ∧
        env.homes.lookup name = some home ∧ opened = home.join ⟨0, rest⟩ ∧
        (∀ files : Tree Content, files.holds env.directory p = .ok false →
          f.Reports env files (.ok .empty)) ∧
        (∀ files content, files.read env.directory p = .ok content →
          f.Reports env files (env.exifOfFile files p)) ∧
        (".." ∉ rest → ∀ (files : Tree Content) place place',
          files.locate env.directory p = .ok place →
          files.locate env.directory opened = .ok place' →
            (place = place' ↔
              Path.placeFrom env.directory home = Path.placeFrom env.directory ⟨0, [name]⟩))) := by
  rcases of_ofSource_path hopen with ⟨opened, htarget, hexpand, -⟩
  refine ⟨opened, htarget, fun _ _ => exif_of_metadataWith, ?_, ?_⟩
  · intro hhome
    obtain rfl : p = opened := Except.ok.inj
      ((Path.expandHome_of_not_isHomePath hhome).symm.trans hexpand)
    exact ⟨rfl, fun _ _ => reports_of_read hopen⟩
  · intro hhome
    rcases Path.of_expandHome hhome hexpand with ⟨name, rest, home, rfl, -, hlookup, rfl⟩
    refine ⟨name, rest, home, rfl, hlookup, rfl, fun _ => reports_of_not_holds hopen,
      fun _ _ => reports_of_read hopen, ?_⟩
    -- Both paths go on with the same names, one in the home directory and one in that entry.
    intro hup files place place' hplace hplace'
    have hgiven : (⟨0, name :: rest⟩ : Path) = Path.join ⟨0, [name]⟩ ⟨0, rest⟩ := rfl
    rw [Tree.placeFrom_of_locate hplace, Tree.placeFrom_of_locate hplace', hgiven,
      Path.placeFrom_join, Path.placeFrom_join, Path.climbFrom_of_not_mem hup,
      Path.climbFrom_of_not_mem hup, List.append_left_inj, eq_comm]

/-! A tagged file in the home directory, opened from another directory by two of its paths. -/

/-- A file with a tag for the maker of the camera. -/
def taggedBytes : ByteArray := ⟨#[
  0x49, 0x49, 0x2A, 0x00, 0x08, 0x00, 0x00, 0x00, 0x01, 0x00,
  0x0F, 0x01, 0x02, 0x00, 0x03, 0x00, 0x00, 0x00, 0x41, 0x42, 0x00, 0x00,
  0x00, 0x00, 0x00, 0x00]⟩

/-- What its tag says. -/
def taggedExif : Exif := { Exif.empty with make := some "AB" }

def homeSurroundings : Environment :=
  { plainSurroundings with
    libraries := { plainSurroundings.libraries with tags := true }
    directory := ⟨1, ["w"]⟩
    homes := [("~", ⟨1, ["root"]⟩)] }

def homeFiles : Tree Content :=
  ⟨[(["w"], .directory), (["root"], .directory),
    (["root", "a.dng"], .file (.data taggedBytes))]⟩

def homeFile (p : Path) : RawFile :=
  .ofHandle plainHandle Configuration.standard.decode.toGiven (some (.path p))

theorem read_homeFiles :
    homeFiles.read homeSurroundings.directory ⟨1, ["root", "a.dng"]⟩ = .ok (.data taggedBytes) := by
  have hnames : Tree.names homeSurroundings.directory ⟨1, ["root", "a.dng"]⟩ =
      .ok ["root", "a.dng"] :=
    Tree.names_of_plain (by decide) (by simp [Path.text, Path.hasNul]) (by decide)
  exact Tree.read_eq_ok.mpr ⟨["root", "a.dng"], ok_bind_iff.mpr ⟨_, hnames, rfl⟩, rfl⟩

theorem exifOfFile_homeFiles :
    homeSurroundings.exifOfFile homeFiles ⟨1, ["root", "a.dng"]⟩ = .ok taggedExif := by
  have htagged : Environment.taggedEndings.contains
      (lowerCase (Path.suffix ⟨1, ["root", "a.dng"]⟩)) = true := by decide
  have hexif : homeSurroundings.exifOfBytes taggedBytes = .ok taggedExif := by
    with_unfolding_all rfl
  unfold Environment.exifOfFile
  rw [if_pos htagged, read_homeFiles]
  show (homeSurroundings.exifOfBytes taggedBytes >>= _) = _
  rw [hexif]
  rfl

theorem holds_homeFiles :
    homeFiles.holds homeSurroundings.directory ⟨0, ["~", "a.dng"]⟩ = .ok false := by
  have hnames : Tree.names homeSurroundings.directory ⟨0, ["~", "a.dng"]⟩ =
      .ok ["w", "~", "a.dng"] :=
    Tree.names_of_plain (by decide) (by simp [Path.text, Path.hasNul]) (by decide)
  unfold Tree.holds Tree.locate
  rw [hnames]
  rfl

theorem ofSource_homeFile {opened : Path} (h : p.expandHome homeSurroundings.homes = .ok opened) :
    ofSource homeSurroundings Configuration.standard.decode.toGiven (.path p) =
      .ok (homeFile p) := by
  have htarget : target homeSurroundings (.path p) = .ok (.path opened) :=
    ok_bind_iff.mpr ⟨opened, h, rfl⟩
  unfold ofSource openingLabel
  rw [htarget]
  rfl

/-- By its path from the top, the tag is told. -/
theorem exif_of_opened_path_top :
    ofSource homeSurroundings Configuration.standard.decode.toGiven
        (.path ⟨1, ["root", "a.dng"]⟩) = .ok (homeFile ⟨1, ["root", "a.dng"]⟩) ∧
      (homeFile ⟨1, ["root", "a.dng"]⟩).Reports homeSurroundings homeFiles (.ok taggedExif) := by
  have hopen := ofSource_homeFile (p := ⟨1, ["root", "a.dng"]⟩) rfl
  refine ⟨hopen, ?_⟩
  rcases exif_of_opened_path hopen with ⟨opened, -, -, htold, -⟩
  have htop : ¬Path.IsHomePath ⟨1, ["root", "a.dng"]⟩ := fun h => by cases h.1
  rcases htold htop with ⟨rfl, hreports⟩
  rw [← exifOfFile_homeFiles]
  exact hreports homeFiles _ read_homeFiles

/-- By its path in the home directory, it is not: the library is handed the same file, but nothing
    is known of the camera. -/
theorem exif_of_home_path_missing :
    (Path.ofText "~/a.dng").IsHomePath ∧
      ofSource homeSurroundings Configuration.standard.decode.toGiven (.path (.ofText "~/a.dng")) =
        .ok (homeFile (.ofText "~/a.dng")) ∧
      target homeSurroundings (.path (.ofText "~/a.dng")) = .ok (.path ⟨1, ["root", "a.dng"]⟩) ∧
      homeSurroundings.exifOfFile homeFiles ⟨1, ["root", "a.dng"]⟩ =
        .ok { Exif.empty with make := some "AB" } ∧
      ∃ known, ((metadata homeSurroundings homeFiles).run (homeFile (.ofText "~/a.dng"))).1 =
          .ok known ∧ known.exif = .empty := by
  have hpath : Path.ofText "~/a.dng" = ⟨0, ["~", "a.dng"]⟩ := by decide
  rw [hpath]
  have hexpand : Path.expandHome homeSurroundings.homes ⟨0, ["~", "a.dng"]⟩ =
      .ok ⟨1, ["root", "a.dng"]⟩ := by
    have hnul : Path.hasNul "~" = false := by simp [Path.hasNul]
    unfold Path.expandHome
    simp only [hnul]
    rfl
  refine ⟨hpath ▸ Path.isHomePath_ofText (by decide), ofSource_homeFile hexpand,
    ok_bind_iff.mpr ⟨_, hexpand, rfl⟩, exifOfFile_homeFiles, ?_⟩
  have hremembers : (homeFile ⟨0, ["~", "a.dng"]⟩).Remembers homeSurroundings homeFiles :=
    remembers_afresh (homeFile ⟨0, ["~", "a.dng"]⟩)
  rcases of_ofSource_path (ofSource_homeFile hexpand) with ⟨_, -, -, hexif⟩
  rw [run_metadata rfl hremembers, hexif homeFiles false holds_homeFiles]
  have hknown : ∃ known, (homeFile ⟨0, ["~", "a.dng"]⟩).metadataWith .empty = .ok known :=
    ⟨_, by with_unfolding_all rfl⟩
  rcases hknown with ⟨known, hknown⟩
  exact ⟨known, hknown, exif_of_metadataWith hknown⟩

end RawFile

end Darkroom
