import Darkroom.Proofs.Files.Steps

/-!
# Laws of Trees

What writing files and making directories leaves of a tree.

Both only add to a tree, except that a file that is written replaces the file that stood there. A
directory always stays one. So a path that could be followed can still be followed, to the same
place, and what stands at another place is still there.

## Main definitions

* `Tree.Extends`: A tree has all that another one has.
* `Tree.KeepsDirectories`: A tree has all directories of another one.

## Theorems

* `Tree.entry_put`: What stands at a place after something is put somewhere.
* `Tree.follow_of_keepsDirectories`: Paths that can still be followed.
* `Tree.extends_of_makeDirectory`: Making directories only adds.
* `Tree.write_eq_ok`: Writing a file.
* `Tree.getLast?_of_follow`: The last name of a path is the last name of its place.
-/

namespace Darkroom

namespace Tree

variable {α : Type} {t u v : Tree α}

theorem lookup_filter_ne {β : Type} (entries : List (Place × β)) {p q : Place} (h : q ≠ p) :
    (entries.filter (·.1 ≠ p)).lookup q = entries.lookup q := by
  induction entries with
  | nil => rfl
  | cons entry rest ih =>
    rcases entry with ⟨place, value⟩
    by_cases hp : place = p
    · subst hp
      rw [List.filter_cons_of_neg (by simp), ih, List.lookup_cons, beq_eq_false_iff_ne.mpr h]
    · -- An entry that is kept is met by both, and the rest is the same.
      rw [List.filter_cons_of_pos (by simpa using hp), List.lookup_cons, List.lookup_cons, ih]

/-- What stands at a place after something is put at one that is not the top. -/
theorem entry_put {p : Place} (hp : p ≠ []) (entry : TreeEntry α) (q : Place) :
    entry? (t.put p entry) q = if q = p then some entry else t.entry? q := by
  unfold entry? put
  by_cases hq : q = p
  · subst hq
    simp [hp]
  · by_cases htop : q = []
    · subst htop
      simp [hq]
    · simp only [List.isEmpty_iff, htop, if_false, if_neg hq]
      rw [List.lookup_cons, beq_eq_false_iff_ne.mpr hq]
      exact lookup_filter_ne t.entries hq

/-- A tree has all that another one has. -/
def Extends (t u : Tree α) : Prop := ∀ p entry, t.entry? p = some entry → u.entry? p = some entry

/-- A tree has all directories of another one. -/
def KeepsDirectories (t u : Tree α) : Prop :=
  ∀ p, t.entry? p = some .directory → u.entry? p = some .directory

theorem Extends.refl (t : Tree α) : t.Extends t := fun _ _ h => h

theorem Extends.trans (h1 : t.Extends u) (h2 : u.Extends v) : t.Extends v :=
  fun p entry h => h2 p entry (h1 p entry h)

theorem Extends.keepsDirectories (h : t.Extends u) : t.KeepsDirectories u := fun p => h p .directory

/-- A name is followed from a directory. -/
theorem follow_cons {name : String} {rest : List String} {p q : Place} :
    t.follow p (name :: rest) = .ok q ↔
      t.entry? p = some .directory ∧ checkName name = .ok () ∧
        t.follow (if name = ".." then p.dropLast else p ++ [name]) rest = .ok q := by
  rw [follow]
  cases t.entry? p with
  | none => simp
  | some entry =>
    cases entry with
    | file content => simp
    | directory => cases checkName name <;> simp [bind, Except.bind]

/-- Names that lead to a place still lead there while all directories stay. -/
theorem follow_of_keepsDirectories (h : t.KeepsDirectories u) {names : List String} {p q : Place}
    (hfollow : t.follow p names = .ok q) : u.follow p names = .ok q := by
  induction names generalizing p with
  | nil => exact hfollow
  | cons name rest ih =>
    rcases follow_cons.mp hfollow with ⟨hentry, hname, hrest⟩
    exact follow_cons.mpr ⟨h p hentry, hname, ih hrest⟩

theorem locate_of_keepsDirectories (h : t.KeepsDirectories u) {directory path : Path} {p : Place}
    (hlocate : t.locate directory path = .ok p) : u.locate directory path = .ok p := by
  rcases ok_bind_iff.mp hlocate with ⟨ns, hnames, hfollow⟩
  exact ok_bind_iff.mpr ⟨ns, hnames, follow_of_keepsDirectories h hfollow⟩

/-- Something new is put where nothing stood. -/
theorem extends_put {p : Place} (hp : t.entry? p = none) (entry : TreeEntry α) :
    t.Extends (t.put p entry) := by
  -- At the top there is always a directory.
  have htop : p ≠ [] := by
    rintro rfl
    cases hp
  intro q e hq
  rw [entry_put htop]
  by_cases hqp : q = p
  · subst hqp
    rw [hp] at hq
    cases hq
  · rwa [if_neg hqp]

/-- A file takes no directory away when there is none at its place. -/
theorem keepsDirectories_put {p : Place} (hp : t.entry? p ≠ some .directory) (entry : TreeEntry α) :
    t.KeepsDirectories (t.put p entry) := by
  have htop : p ≠ [] := by
    rintro rfl
    exact hp rfl
  intro q hq
  rw [entry_put htop]
  by_cases hqp : q = p
  · subst hqp
    exact absurd hq hp
  · rwa [if_neg hqp]

theorem extends_of_makeWay (names : List String) :
    ∀ {t u : Tree α} {p : Place}, t.makeWay p names = .ok u → t.Extends u := by
  induction names with
  | nil =>
    intro t u p h
    cases h
    exact Extends.refl t
  | cons name rest ih =>
    intro t u p h
    unfold makeWay at h
    by_cases hup : name = ".."
    · rw [if_pos hup] at h
      exact ih h
    · rw [if_neg hup] at h
      rcases ok_bind_iff.mp h with ⟨_, -, hway⟩
      -- A directory is put only where nothing stood.
      cases hentry : t.entry? (p ++ [name]) with
      | none =>
        simp only [hentry] at hway
        exact (extends_put hentry _).trans (ih hway)
      | some entry =>
        simp only [hentry] at hway
        cases entry with
        | directory => exact ih hway
        | file content => cases hway

/-- Making directories only adds. -/
theorem extends_of_makeDirectory {directory path : Path}
    (h : t.makeDirectory directory path = .ok u) : t.Extends u := by
  rcases ok_bind_iff.mp h with ⟨ns, -, hway⟩
  exact extends_of_makeWay ns hway

/-- Writing a file puts it at the place that its path leads to, where no directory may stand. -/
theorem write_eq_ok {directory path : Path} {content : α} :
    t.write directory path content = .ok u ↔
      ∃ p, t.locate directory path = .ok p ∧ t.entry? p ≠ some .directory ∧
        u = t.put p (.file content) := by
  refine ok_bind_iff.trans (exists_congr fun p => and_congr_right fun _ => ?_)
  split
  · rename_i hdirectory
    simp [hdirectory]
  · rename_i hother
    refine ⟨fun h => ?_, fun h => congrArg Except.ok h.2.symm⟩
    cases h
    exact ⟨hother, rfl⟩

/-- What is read at a path is the file at its place. -/
theorem read_eq_ok {directory path : Path} {content : α} :
    t.read directory path = .ok content ↔
      ∃ p, t.locate directory path = .ok p ∧ t.entry? p = some (.file content) := by
  refine ok_bind_iff.trans (exists_congr fun p => and_congr_right fun _ => ?_)
  split
  · rename_i found hfile
    simp [hfile, pure, Except.pure]
  · rename_i hdirectory
    simp [hdirectory]
  · rename_i hnone
    simp [hnone]

/-- A file that has just been written can be read. -/
theorem read_of_write {directory path : Path} {content : α}
    (h : t.write directory path content = .ok u) : u.read directory path = .ok content := by
  rcases write_eq_ok.mp h with ⟨p, hlocate, hfree, rfl⟩
  have htop : p ≠ [] := by
    rintro rfl
    exact hfree rfl
  refine read_eq_ok.mpr ⟨p, locate_of_keepsDirectories (keepsDirectories_put hfree _) hlocate, ?_⟩
  rw [entry_put htop, if_pos rfl]

/-- A file can still be read after more has been added. -/
theorem read_of_extends (h : t.Extends u) {directory path : Path} {content : α}
    (hread : t.read directory path = .ok content) : u.read directory path = .ok content := by
  rcases read_eq_ok.mp hread with ⟨p, hlocate, hfile⟩
  exact read_eq_ok.mpr ⟨p, locate_of_keepsDirectories h.keepsDirectories hlocate, h p _ hfile⟩

/-- A file can still be read after another one has been written at another place. -/
theorem read_of_write_other {directory path other : Path} {content written : α} {p q : Place}
    (hread : t.read directory path = .ok content) (hwrite : t.write directory other written = .ok u)
    (hp : t.locate directory path = .ok p) (hq : t.locate directory other = .ok q) (hne : p ≠ q) :
    u.read directory path = .ok content := by
  rcases write_eq_ok.mp hwrite with ⟨q', hq', hfree, rfl⟩
  rcases read_eq_ok.mp hread with ⟨p', hp', hfile⟩
  -- Each path leads to one place.
  cases hp.symm.trans hp'
  cases hq.symm.trans hq'
  have htop : q ≠ [] := by
    rintro rfl
    exact hfree rfl
  refine read_eq_ok.mpr ⟨p, locate_of_keepsDirectories (keepsDirectories_put hfree _) hp, ?_⟩
  rw [entry_put htop, if_neg hne]
  exact hfile

/-- The last name on a way is the last name of the place that it leads to, unless it leads up. -/
theorem getLast?_of_follow {names : List String} {name : String} {p q : Place} (hup : name ≠ "..")
    (h : t.follow p (names ++ [name]) = .ok q) : q.getLast? = some name := by
  induction names generalizing p with
  | nil =>
    rcases follow_cons.mp h with ⟨-, -, hq⟩
    rw [if_neg hup] at hq
    cases hq
    exact List.getLast?_concat
  | cons first rest ih => exact ih (follow_cons.mp h).2.2

/-- A path of plain characters that is not too long has names. -/
theorem names_of_plain {directory path : Path} (hhalf : Path.hasHalf path.text = false)
    (hnul : Path.hasNul path.text = false) (hlong : path.text.utf8ByteSize ≤ pathLimit) :
    names directory path = .ok (directory.join path).parts := by
  unfold names
  rw [hhalf, hnul, if_neg Bool.false_ne_true, if_neg Bool.false_ne_true,
    if_neg (Nat.not_lt.mpr hlong)]

theorem names_eq_ok {directory path : Path} {ns : List String}
    (h : names directory path = .ok ns) : ns = (directory.join path).parts := by
  unfold names at h
  split at h
  · cases h
  · split at h
    · cases h
    · split at h
      · cases h
      · cases h
        rfl

/-- The last name of a path from the top is the last name of its place, unless it leads up. -/
theorem getLast?_of_locate {directory path : Path} (habsolute : path.slashes ≠ 0)
    {front : List String} {name : String} (hparts : path.parts = front ++ [name])
    (hup : name ≠ "..") {p : Place} (h : t.locate directory path = .ok p) :
    p.getLast? = some name := by
  have hjoin : directory.join path = path := by
    unfold Path.join Path.isAbsolute
    rw [if_pos (by simpa using habsolute)]
  rcases ok_bind_iff.mp h with ⟨ns, hnames, hfollow⟩
  rw [names_eq_ok hnames, hjoin, hparts] at hfollow
  exact getLast?_of_follow hup hfollow

end Tree

end Darkroom
