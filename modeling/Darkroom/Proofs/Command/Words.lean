import Darkroom.Command.Arguments
import Darkroom.Proofs.Files.Steps
import Mathlib.Tactic.SplitIfs

/-!
# Words of a Command Line

How words are taken, and what they tell, when they are put together from parts.

Words are taken one by one until two hyphens stand alone, and used in order, each on top of what was
told before it. So words that are used up by themselves can be followed by others, and what these
tell does not depend on what was told before; it only comes on top of it.

## Main definitions

* `Told.withOptions`: What is told, with other options.
* `OptionKind.Takes`, `Told.Sound`: Options that have been told values of their kinds.

## Theorems

* `useWords_withOptions`: Words tell the same on top of whatever was told.
* `useWords_append`: Words after words that are used up.
* `useWords_sound`: Words tell their options values of the right kinds.
* `classify_append`: Words are taken apart from each other.
-/

namespace Darkroom

namespace Told

/-- What is told, with other options. -/
def withOptions (t : Told) (options : List (String × ToldValue)) : Told := { t with options }

theorem options_take (t : Told) (takesInput : Bool) (text : String) :
    (t.take takesInput text).options = t.options := by
  unfold take
  split_ifs <;> rfl

theorem take_withOptions (t : Told) (options : List (String × ToldValue)) (takesInput : Bool)
    (text : String) :
    (t.withOptions options).take takesInput text = (t.take takesInput text).withOptions options := by
  unfold take withOptions
  split_ifs <;> rfl

/-- What is told with one more option. -/
def tell (t : Told) (option : OptionName) (value : ToldValue) : Told :=
  { t with options := (option.name, value) :: t.options }

end Told

/-- A value of a kind. -/
def OptionKind.Takes : OptionKind → ToldValue → Prop
  | .switch, .nothing => True
  | .text, .text _ => True
  | .real, .real _ => True
  | .depth, .whole _ => True
  | _, _ => False

/-- Every option has been told a value of its kind. -/
def Told.Sound (options : List OptionName) (t : Told) : Prop :=
  ∀ entry ∈ t.options, ∃ o ∈ options, o.name = entry.1 ∧ o.kind.Takes entry.2

theorem takes_toldValue {kind : OptionKind} {text : String} {value : ToldValue}
    (h : toldValue kind text = .ok value) : kind.Takes value := by
  cases kind with
  | text =>
    cases h
    exact trivial
  | real =>
    unfold toldValue at h
    simp only at h
    split at h <;> cases h
    exact trivial
  | depth =>
    unfold toldValue at h
    simp only at h
    split at h
    · split_ifs at h
      cases h
      exact trivial
    · cases h
  | _ => cases h

section

variable {takesInput : Bool} {options : List OptionName} {t told : Told} {words : List Word}
  {option : OptionName} {text : String} {value : ToldValue}

theorem useWords_switch (hkind : option.kind = .switch) :
    useWords takesInput t (.chosen option none :: words) =
      useWords takesInput (t.tell option .nothing) words := by
  rcases option with ⟨name, kind⟩
  cases hkind
  rfl

theorem useWords_joined : useWords takesInput t (.chosen option (some text) :: words) =
    toldValue option.kind text >>= fun value =>
      useWords takesInput (t.tell option value) words := by
  rcases option with ⟨name, kind⟩
  cases kind <;> rfl

/-- Only an option that takes a value can be told one. -/
theorem useWords_apart (htold : toldValue option.kind text = .ok value) :
    useWords takesInput t (.chosen option none :: .plain text :: words) =
      useWords takesInput (t.tell option value) words := by
  rcases option with ⟨name, kind⟩
  have hwords : useWords takesInput t (.chosen ⟨name, kind⟩ none :: .plain text :: words) =
      toldValue kind text >>= fun value =>
        useWords takesInput (t.tell ⟨name, kind⟩ value) words := by
    cases kind with
    | help | switch => cases htold
    | _ => rfl
  rw [hwords]
  exact congrArg (· >>= _) htold

/-- Words put what they tell on top of what has been told, whatever that is. -/
theorem useWords_withOptions (h : useWords takesInput t words = .ok told) :
    ∃ later, told.options = later ++ t.options ∧ ∀ earlier,
      useWords takesInput (t.withOptions earlier) words = .ok (told.withOptions (later ++ earlier)) := by
  -- Only options add to what comes on top; a file and what is left over are noted beside them.
  fun_induction useWords takesInput t words generalizing told with
  | case1 t =>
    cases h
    exact ⟨[], rfl, fun _ => rfl⟩
  | case2 t rest ih => exact ih h
  | case3 t text rest ih =>
    rcases ih h with ⟨later, hlater, hover⟩
    refine ⟨later, hlater.trans (by rw [Told.options_take]), fun earlier => ?_⟩
    rw [useWords, Told.take_withOptions]
    exact hover earlier
  | case4 t rest hplain ih =>
    rcases ih h with ⟨later, hlater, hover⟩
    refine ⟨later, hlater, fun earlier => ?_⟩
    rw [useWords]
    · exact hover earlier
    · exact hplain
  | case5 t text rest after =>
    rename_i ih
    rcases ih h with ⟨later, hlater, hover⟩
    refine ⟨later, hlater.trans (by rw [Told.options_take]), fun earlier => ?_⟩
    rw [useWords, Told.take_withOptions]
    exact hover earlier
  | case6 t text rest hseparator ih =>
    rcases ih h with ⟨later, hlater, hover⟩
    refine ⟨later, hlater.trans (by rw [Told.options_take]), fun earlier => ?_⟩
    rw [useWords, Told.take_withOptions]
    · exact hover earlier
    · exact hseparator
  | case8 t option tell rest hkind =>
    rename_i ih
    rcases ih h with ⟨later, hlater, hover⟩
    refine ⟨later ++ [(option.name, .nothing)], by simp [hlater, tell], fun earlier => ?_⟩
    rw [useWords_switch hkind, List.append_assoc]
    exact hover _
  | case10 t option tell text rest hhelp hswitch =>
    rename_i ih
    rcases ok_bind_iff.mp h with ⟨value, hvalue, hrest⟩
    rcases ih value hrest with ⟨later, hlater, hover⟩
    refine ⟨later ++ [(option.name, value)], by simp [hlater, tell], fun earlier => ?_⟩
    rw [useWords_joined, hvalue, List.append_assoc]
    exact hover _
  | case11 t option tell text rest hhelp hswitch =>
    rename_i ih
    rcases ok_bind_iff.mp h with ⟨value, hvalue, hrest⟩
    rcases ih value hrest with ⟨later, hlater, hover⟩
    refine ⟨later ++ [(option.name, value)], by simp [hlater, tell], fun earlier => ?_⟩
    rw [useWords_apart hvalue, List.append_assoc]
    exact hover _
  | case7 | case9 | case12 => cases h

/-- Words that are used up, with others after them. Two hyphens would belong to the file that is
    last among them. -/
theorem useWords_append {rest : List Word} (hseparator : .separator ∉ words)
    (hrest : words = [] ∨ rest.head? ≠ some .separator)
    (h : useWords takesInput t words = .ok told) :
    useWords takesInput t (words ++ rest) = useWords takesInput told rest := by
  fun_induction useWords takesInput t words generalizing told with
  | case1 t =>
    cases h
    rfl
  | case2 t more ih =>
    have hnext := hrest.resolve_left (by simp)
    rw [List.cons_append, useWords]
    exact ih (fun hmem => hseparator (List.mem_cons_of_mem _ hmem)) (Or.inr hnext) h
  | case3 | case4 | case5 => simp at hseparator
  | case6 t text more hfirst ih =>
    have hnext := hrest.resolve_left (by simp)
    rw [List.cons_append, useWords]
    · exact ih (fun hmem => hseparator (List.mem_cons_of_mem _ hmem)) (Or.inr hnext) h
    · -- The next word is one of the words, or the first one after them.
      intro words hwords
      cases more with
      | nil => exact hnext (by rw [← List.nil_append rest, hwords, List.head?_cons])
      | cons word more => exact hfirst more (congrArg (· :: more) (List.cons.inj hwords).1)
  | case8 t option tell more hkind =>
    rename_i ih
    have hnext := hrest.resolve_left (by simp)
    rw [List.cons_append, useWords_switch hkind]
    exact ih (fun hmem => hseparator (List.mem_cons_of_mem _ hmem)) (Or.inr hnext) h
  | case10 t option tell text more hhelp hswitch =>
    rename_i ih
    have hnext := hrest.resolve_left (by simp)
    rcases ok_bind_iff.mp h with ⟨value, hvalue, hmore⟩
    rw [List.cons_append, useWords_joined, hvalue]
    exact ih value (fun hmem => hseparator (List.mem_cons_of_mem _ hmem)) (Or.inr hnext) hmore
  | case11 t option tell text more hhelp hswitch =>
    rename_i ih
    have hnext := hrest.resolve_left (by simp)
    rcases ok_bind_iff.mp h with ⟨value, hvalue, hmore⟩
    rw [List.cons_append, List.cons_append, useWords_apart hvalue]
    refine ih value (fun hmem => hseparator ?_) (Or.inr hnext) hmore
    exact List.mem_cons_of_mem _ (List.mem_cons_of_mem _ hmem)
  | case7 | case9 | case12 => cases h

theorem Told.Sound.tell (ht : t.Sound options) (hoption : option ∈ options)
    (hvalue : option.kind.Takes value) : (t.tell option value).Sound options := by
  intro entry hentry
  rcases List.mem_cons.mp hentry with rfl | hentry
  · exact ⟨option, hoption, rfl, hvalue⟩
  · exact ht entry hentry

theorem Told.Sound.take (ht : t.Sound options) : (t.take takesInput text).Sound options := by
  unfold Told.take
  split_ifs <;> exact ht

/-- Words tell their options values of the right kinds. -/
theorem useWords_sound (hwords : ∀ o value, .chosen o value ∈ words → o ∈ options)
    (ht : t.Sound options) (h : useWords takesInput t words = .ok told) : told.Sound options := by
  fun_induction useWords takesInput t words generalizing told with
  | case1 t =>
    cases h
    exact ht
  | case2 t rest ih => exact ih (fun o v hv => hwords o v (List.mem_cons_of_mem _ hv)) ht h
  | case3 t text rest ih =>
    refine ih (fun o v hv => hwords o v ?_) ht.take h
    exact List.mem_cons_of_mem _ (List.mem_cons_of_mem _ hv)
  | case4 t rest hplain ih => exact ih (fun o v hv => hwords o v (List.mem_cons_of_mem _ hv)) ht h
  | case5 t text rest after =>
    rename_i ih
    refine ih (fun o v hv => hwords o v ?_) ht.take h
    exact List.mem_cons_of_mem _ (List.mem_cons_of_mem _ hv)
  | case6 t text rest hseparator ih =>
    exact ih (fun o v hv => hwords o v (List.mem_cons_of_mem _ hv)) ht.take h
  | case8 t option tell rest hkind =>
    rename_i ih
    refine ih (fun o v hv => hwords o v (List.mem_cons_of_mem _ hv)) ?_ h
    refine ht.tell (hwords option none List.mem_cons_self) ?_
    rw [hkind]
    exact trivial
  | case10 t option tell text rest hhelp hswitch =>
    rename_i ih
    rcases ok_bind_iff.mp h with ⟨value, hvalue, hrest⟩
    refine ih value (fun o v hv => hwords o v (List.mem_cons_of_mem _ hv)) ?_ hrest
    exact ht.tell (hwords option (some text) List.mem_cons_self) (takes_toldValue hvalue)
  | case11 t option tell text rest hhelp hswitch =>
    rename_i ih
    rcases ok_bind_iff.mp h with ⟨value, hvalue, hrest⟩
    refine ih value (fun o v hv => hwords o v ?_) ?_ hrest
    · exact List.mem_cons_of_mem _ (List.mem_cons_of_mem _ hv)
    · exact ht.tell (hwords option none List.mem_cons_self) (takes_toldValue hvalue)
  | case7 | case9 | case12 => cases h

end

/-! How words are taken. -/

section

variable {options : List OptionName} {word : String} {taken : Word} {words : List String}
  {ws : List Word}

/-- By one letter nothing but help is asked for. -/
theorem exists_shortHelp (rest : List Char) :
    ∃ value, shortHelp rest = .chosen helpOption value := by
  induction rest with
  | nil => exact ⟨none, rfl⟩
  | cons c rest ih =>
    unfold shortHelp
    split
    · next heq =>
      cases heq
      exact ih
    all_goals exact ⟨_, rfl⟩

/-- What a word is taken as is an option that there is. -/
theorem mem_of_wordOf (hhelp : helpOption ∈ options) {o : OptionName} {value : Option String}
    (h : wordOf options word = .ok (.chosen o value)) : o ∈ options := by
  unfold wordOf at h
  split at h
  · unfold longWord at h
    simp only at h
    split at h
    · next hexact =>
      cases h
      exact List.mem_of_find?_eq_some hexact
    · next hjoined =>
      cases h
      rcases Option.bind_eq_some_iff.mp hjoined with ⟨⟨name, text⟩, -, hname⟩
      rcases Option.map_eq_some_iff.mp hname with ⟨o', ho', heq⟩
      cases heq
      exact List.mem_of_find?_eq_some ho'
    · split at h
      · split at h <;> cases h
      · next habbreviated =>
        cases h
        have hmem : (o, value) ∈ abbreviated options word := by simp [habbreviated]
        unfold abbreviated at hmem
        rcases List.mem_map.mp hmem with ⟨o', ho', heq⟩
        cases heq
        exact (List.mem_filter.mp ho').1
      · cases h
  · unfold shortWord at h
    split at h
    · next rest _ =>
      rcases exists_shortHelp rest with ⟨value', hvalue⟩
      rw [hvalue] at h
      cases h
      exact hhelp
    · split at h <;> cases h
  · cases h

/-- A word that is not two hyphens is taken by itself. -/
theorem classify_cons_eq_ok (hword : word ≠ "--") :
    classify options (word :: words) = .ok ws ↔ ∃ taken, wordOf options word = .ok taken ∧
      ∃ more, classify options words = .ok more ∧ ws = taken :: more := by
  rw [classify, if_neg hword]
  simp only [ok_bind_iff]
  refine exists_congr fun taken => and_congr_right fun _ => ?_
  refine exists_congr fun more => and_congr_right fun _ => ?_
  exact ⟨fun h => (Except.ok.inj h).symm, fun h => congrArg Except.ok h.symm⟩

theorem mem_of_classify (hhelp : helpOption ∈ options) (h : classify options words = .ok ws) :
    ∀ o value, .chosen o value ∈ ws → o ∈ options := by
  induction words generalizing ws with
  | nil =>
    cases h
    nofun
  | cons word rest ih =>
    by_cases hword : word = "--"
    · rw [hword, classify, if_pos rfl] at h
      cases h
      intro o value hmem
      simp at hmem
    · rcases (classify_cons_eq_ok hword).mp h with ⟨taken, htaken, more, hmore, rfl⟩
      intro o value hmem
      rcases List.mem_cons.mp hmem with rfl | hmem
      · exact mem_of_wordOf hhelp htaken
      · exact ih hmore o value hmem

theorem helpOption_mem (name : CommandName) : helpOption ∈ name.options := List.mem_cons_self

/-- Two hyphens alone are no option: every option begins with them. -/
theorem ne_hyphens_of_wordOf {name : CommandName} (h : wordOf name.options word = .ok taken) :
    word ≠ "--" := by
  rintro rfl
  cases name <;> cases h

theorem classify_cons {name : CommandName} (hword : wordOf name.options word = .ok taken)
    (hwords : classify name.options words = .ok ws) :
    classify name.options (word :: words) = .ok (taken :: ws) :=
  (classify_cons_eq_ok (ne_hyphens_of_wordOf hword)).mpr ⟨taken, hword, ws, hwords, rfl⟩

theorem separator_ne_of_wordOf (h : wordOf options word = .ok taken) : taken ≠ .separator := by
  rintro rfl
  unfold wordOf at h
  split at h
  · unfold longWord at h
    simp only at h
    split at h
    · cases h
    · cases h
    · split at h
      · split at h <;> cases h
      · cases h
      · cases h
  · unfold shortWord at h
    split at h
    · next rest _ =>
      rcases exists_shortHelp rest with ⟨value, hvalue⟩
      rw [hvalue] at h
      cases h
    · split at h <;> cases h
  · cases h

/-- Words before two hyphens are taken one by one. -/
theorem classify_append {rest : List String} {more : List Word} (hwords : "--" ∉ words)
    (h : classify options words = .ok ws) (hrest : classify options rest = .ok more) :
    classify options (words ++ rest) = .ok (ws ++ more) := by
  induction words generalizing ws with
  | nil =>
    cases h
    exact hrest
  | cons word words ih =>
    have hword : word ≠ "--" := (List.ne_of_not_mem_cons hwords).symm
    rcases (classify_cons_eq_ok hword).mp h with ⟨taken, htaken, next, hnext, rfl⟩
    refine (classify_cons_eq_ok hword).mpr ⟨taken, htaken, next ++ more, ?_, rfl⟩
    exact ih (List.not_mem_of_not_mem_cons hwords) hnext

/-- What can be taken together can be taken apart, before two hyphens. -/
theorem exists_classify_of_append {rest : List String} (hwords : "--" ∉ words)
    (h : classify options (words ++ rest) = .ok ws) :
    ∃ more, classify options rest = .ok more := by
  induction words generalizing ws with
  | nil => exact ⟨ws, h⟩
  | cons word words ih =>
    have hword : word ≠ "--" := (List.ne_of_not_mem_cons hwords).symm
    rcases (classify_cons_eq_ok hword).mp h with ⟨-, -, next, hnext, -⟩
    exact ih (List.not_mem_of_not_mem_cons hwords) hnext

theorem separator_notMem_of_classify (hwords : "--" ∉ words)
    (h : classify options words = .ok ws) : .separator ∉ ws := by
  induction words generalizing ws with
  | nil =>
    cases h
    exact List.not_mem_nil
  | cons word words ih =>
    have hword : word ≠ "--" := (List.ne_of_not_mem_cons hwords).symm
    rcases (classify_cons_eq_ok hword).mp h with ⟨taken, htaken, next, hnext, rfl⟩
    intro hmem
    rcases List.mem_cons.mp hmem with heq | hmem
    · exact separator_ne_of_wordOf htaken heq.symm
    · exact ih (List.not_mem_of_not_mem_cons hwords) hnext hmem

theorem head?_ne_separator_of_classify (hwords : words.head? ≠ some "--")
    (h : classify options words = .ok ws) : ws.head? ≠ some .separator := by
  cases words with
  | nil =>
    cases h
    nofun
  | cons word words =>
    have hword : word ≠ "--" := fun heq => hwords (congrArg some heq)
    rcases (classify_cons_eq_ok hword).mp h with ⟨taken, htaken, next, -, rfl⟩
    intro heq
    exact separator_ne_of_wordOf htaken (Option.some.inj heq)

end

end Darkroom
