import Darkroom.Proofs.Files.Steps

/-!
# Last Names

The last name of the paths that an extraction writes to.

A path from the top that is written down and read again keeps the characters at its end, so an
archive that gets the ending `.npz` has it at the end of its last name; and one whose text ends so
already has it there as well, because an ending without slashes does not reach beyond the last name.
A record's name ends in `.json`. So the two are never one.

## Theorems

* `Path.exists_last_of_ofText`: The last name of a path that is read from a text.
* `TensorArchive.exists_last_of_path`: The last name of an archive.
* `TensorArchive.path_eq_self_iff`: When an archive keeps the name that it was given.
* `Path.exists_last_of_withSuffix`: The last name of a path with another ending.
-/

namespace Darkroom

/-- An ending without slashes lies within what follows the last slash. -/
theorem suffix_of_suffix_append {ending front name : List Char} (hslash : '/' ∉ ending)
    (h : ending <:+ (front ++ ['/']) ++ name) : ending <:+ name := by
  rcases h with ⟨rest, hrest⟩
  -- Either the ending starts before the name, and the slash is in it, or it starts within.
  rcases List.append_eq_append_iff.mp hrest with ⟨extra, hextra, rfl⟩ | ⟨extra, -, rfl⟩
  · rcases List.eq_nil_or_concat extra with rfl | ⟨init, last, rfl⟩
    · exact List.suffix_refl _
    · rw [List.concat_eq_append, ← List.append_assoc] at hextra
      have hlast : '/' = last := by
        have := (List.append_inj' hextra rfl).2
        simpa using this
      subst hlast
      exact absurd (by simp) hslash
  · exact List.suffix_append _ _

/-- Characters without slashes at the end stand in the last piece between slashes. -/
theorem exists_splitOn_append (front ending : List Char) (hslash : '/' ∉ ending) :
    ∃ pieces last, (front ++ ending).splitOn '/' = pieces ++ [last ++ ending] := by
  induction front with
  | nil => exact ⟨[], [], by simp [List.splitOn_eq_singleton hslash]⟩
  | cons c rest ih =>
    rcases ih with ⟨pieces, last, hsplit⟩
    rw [List.cons_append, List.splitOn_cons_eq_if_modifyHead, hsplit]
    -- A slash begins a piece of its own; any other character goes to the first one.
    by_cases hc : (c == '/') = true
    · rw [if_pos hc]
      exact ⟨[] :: pieces, last, rfl⟩
    · rw [if_neg hc]
      cases pieces with
      | nil => exact ⟨[], c :: last, rfl⟩
      | cons first more => exact ⟨(c :: first) :: more, last, rfl⟩

namespace Path

/-- The last name of a path that is read from a text with a longer ending without slashes. -/
theorem exists_last_of_ofText (text ending : String) (hslash : '/' ∉ ending.toList)
    (hlong : 2 ≤ ending.toList.length) :
    ∃ front name, (ofText (text ++ ending)).parts = front ++ [name] ∧
      ending.toList <:+ name.toList := by
  rcases exists_splitOn_append text.toList ending.toList hslash with ⟨pieces, last, hsplit⟩
  have hlength : 2 ≤ (last ++ ending.toList).length := by
    rw [List.length_append]
    omega
  -- Empty names and single points are left out; the last one is too long to be either.
  have hname (s : String) (hs : s.toList.length < 2) :
      String.ofList (last ++ ending.toList) ≠ s := by
    rintro rfl
    rw [String.toList_ofList] at hs
    omega
  refine ⟨(pieces.map String.ofList).filter fun part => part ≠ "" && part ≠ ".",
    String.ofList (last ++ ending.toList), ?_, by simp⟩
  have hkept : (String.ofList (last ++ ending.toList) ≠ "" &&
      String.ofList (last ++ ending.toList) ≠ ".") = true := by
    rw [decide_eq_true (hname "" (by decide)), decide_eq_true (hname "." (by decide))]
    rfl
  unfold ofText
  simp only [String.toList_append, hsplit, List.map_append, List.map_cons, List.map_nil,
    List.filter_append]
  congr 1
  exact List.filter_cons_of_pos hkept

/-- A text that begins with a slash is a path from the top. -/
theorem slashes_ofText_ne_zero {text : String} {rest : List Char} (h : text.toList = '/' :: rest) :
    (ofText text).slashes ≠ 0 := by
  unfold ofText
  simp only [h, List.takeWhile_cons, decide_true, if_true, List.length_cons]
  split <;> omega

theorem text_of_slashes_ne_zero {p : Path} (h : p.slashes ≠ 0) :
    p.text = String.ofList (List.replicate p.slashes '/') ++ "/".intercalate p.parts := by
  unfold text
  rw [if_neg (by simp [h])]

/-- Before the last name of a path from the top there is a slash. -/
theorem toList_text_of_last {p : Path} (h : p.slashes ≠ 0) {front : List String} {name : String}
    (hparts : p.parts = front ++ [name]) :
    ∃ before, p.text.toList = (before ++ ['/']) ++ name.toList := by
  rw [text_of_slashes_ne_zero h, hparts]
  by_cases hfront : front = []
  · subst hfront
    refine ⟨List.replicate (p.slashes - 1) '/', ?_⟩
    have hslashes : p.slashes = p.slashes - 1 + 1 := by omega
    rw [← List.replicate_succ', ← hslashes]
    simp
  · rw [String.intercalate_append_of_ne_nil hfront (by simp), String.intercalate_singleton]
    refine ⟨List.replicate p.slashes '/' ++ ("/".intercalate front).toList, ?_⟩
    simp

/-- When the text of a path from the top ends in characters without slashes, its last name does. -/
theorem exists_last_of_text {p : Path} {ending : List Char} (h : p.slashes ≠ 0)
    (hslash : '/' ∉ ending) (hne : ending ≠ []) (htext : ending <:+ p.text.toList) :
    ∃ front name, p.parts = front ++ [name] ∧ ending <:+ name.toList := by
  rcases List.eq_nil_or_concat p.parts with hparts | ⟨front, name, hparts⟩
  · -- Without names the text is all slashes.
    rw [text_of_slashes_ne_zero h, hparts, String.intercalate_nil, String.append_empty,
      String.toList_ofList] at htext
    cases ending with
    | nil => exact absurd rfl hne
    | cons c rest =>
      have hc := List.eq_of_mem_replicate (htext.subset List.mem_cons_self)
      subst hc
      exact absurd List.mem_cons_self hslash
  · rw [List.concat_eq_append] at hparts
    rcases toList_text_of_last h hparts with ⟨before, hbefore⟩
    rw [hbefore] at htext
    exact ⟨front, name, hparts, suffix_of_suffix_append hslash htext⟩

/-- A path without two points starts at the top. -/
theorem slashes_of_resolve {directory p q : Path} (h : p.resolve directory = .ok q) :
    q.slashes = 1 := by
  unfold resolve at h
  rcases ok_bind_iff.mp h with ⟨_, -, hq⟩
  cases hq
  rfl

/-- Names of plain characters are never refused. -/
theorem resolve_of_plain {directory p : Path}
    (h : ∀ name ∈ p.parts, hasHalf name = false ∧ hasNul name = false) :
    directory.resolve p = .ok ⟨1, climb (directory.join p).parts⟩ := by
  unfold resolve
  refine ok_bind_iff.mpr ⟨⟨⟩, ?_, rfl⟩
  generalize p.parts = names at h
  induction names with
  | nil => rfl
  | cons name rest ih =>
    rcases h name List.mem_cons_self with ⟨hhalf, hnul⟩
    rw [List.forIn_cons, hhalf, hnul]
    exact ih fun other hother => h other (List.mem_cons_of_mem name hother)

/-- A path with another ending. -/
theorem exists_last_of_withSuffix {p q : Path} {ending : String} (h : p.withSuffix ending = .ok q) :
    q.slashes = p.slashes ∧
      ∃ front name, q.parts = front ++ [name] ∧ ending.toList <:+ name.toList := by
  unfold withSuffix at h
  split at h
  · cases h
  · cases h
    exact ⟨rfl, _, _, rfl, by simp⟩

/-- A path with a name has it as its last part. -/
theorem exists_parts_of_name {p : Path} (h : p.name ≠ "") :
    ∃ front, p.parts = front ++ [p.name] := by
  unfold name at h ⊢
  rcases List.eq_nil_or_concat p.parts with hparts | ⟨front, last, hparts⟩
  · rw [hparts] at h
    exact absurd rfl h
  · rw [List.concat_eq_append] at hparts
    rw [hparts, List.getLast?_concat, Option.getD_some]
    exact ⟨front, rfl⟩

/-- A path with another ending has a name, and is in the same directory. -/
theorem withName_of_withSuffix {p q : Path} {ending : String} (h : p.withSuffix ending = .ok q) :
    p.name ≠ "" ∧ q.withName p.name = p := by
  unfold withSuffix at h
  split at h
  · cases h
  · rename_i hempty
    cases h
    have hname : p.name ≠ "" := by
      intro hnone
      rw [hnone] at hempty
      exact hempty rfl
    rcases exists_parts_of_name hname with ⟨front, hparts⟩
    refine ⟨hname, ?_⟩
    have hsame : p.parts.dropLast ++ [p.name] = p.parts := by
      have hfront : p.parts.dropLast = front := by rw [hparts, List.dropLast_concat]
      rw [hfront, ← hparts]
    unfold withName
    rw [List.dropLast_concat, hsame]

end Path

namespace TensorArchive

theorem endsIn_iff {ending cs : List Char} : endsIn ending cs = true ↔ ending <:+ cs :=
  List.isPrefixOf_iff_prefix.trans List.reverse_prefix

/-- An archive's last name ends in the ending of archives. -/
theorem exists_last_of_path {target : Path} (h : target.slashes ≠ 0) :
    (TensorArchive.path target).slashes ≠ 0 ∧
      ∃ front name, (TensorArchive.path target).parts = front ++ [name] ∧
        TensorArchive.ending.toList <:+ name.toList := by
  unfold TensorArchive.path
  by_cases hend : endsIn ending.toList target.text.toList = true
  · rw [if_pos hend]
    exact ⟨h, Path.exists_last_of_text h (by decide) (by decide) (endsIn_iff.mp hend)⟩
  · -- The text gets the ending and is read again.
    rw [if_neg hend]
    refine ⟨?_, Path.exists_last_of_ofText target.text ending (by decide) (by decide)⟩
    have hslashes : target.slashes = target.slashes - 1 + 1 := by omega
    have hfirst : (target.text ++ ending).toList = '/' ::
        (List.replicate (target.slashes - 1) '/' ++
          ("/".intercalate target.parts ++ ending).toList) := by
      rw [Path.text_of_slashes_ne_zero h, hslashes, List.replicate_succ]
      simp
    exact Path.slashes_ofText_ne_zero hfirst

/-- An archive is kept where it is to go just when the name there has the ending already. -/
theorem path_eq_self_iff {target : Path} (h : target.slashes ≠ 0) (hname : target.name ≠ "") :
    TensorArchive.path target = target ↔
      endsIn TensorArchive.ending.toList target.name.toList = true := by
  rw [endsIn_iff]
  constructor
  · intro hpath
    rcases exists_last_of_path h with ⟨-, front, name, hparts, hending⟩
    rw [hpath] at hparts
    rwa [Path.name, hparts, List.getLast?_concat, Option.getD_some]
  · intro hending
    rcases Path.exists_parts_of_name hname with ⟨front, hparts⟩
    rcases Path.toList_text_of_last h hparts with ⟨before, htext⟩
    -- The text ends as the last name does.
    unfold TensorArchive.path
    rw [if_pos]
    rw [endsIn_iff, htext]
    exact hending.trans (List.suffix_append _ _)

end TensorArchive

end Darkroom
