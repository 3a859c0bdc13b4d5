import Darkroom.Proofs.Json.Tables
import Darkroom.Proofs.Settings.Casting

/-!
# Names and Values of Sections

What is needed of a section of settings: that its names are known, and that every value can be cast
to what its name stands for.

Names come first. A section is looked at by its parts, whatever it is, and only what has no part
that is unknown has to be a table. The values are cast by their kinds, so what is needed of a value
is said once for each kind, and a section has what is needed when all of its entries do.

## Main definitions

* `Value.HasOnly`: Sections all of whose names are known.
* `Value.IsRegular`: Sections whose names are texts, and whose values are of shapes that are made
  for casting if all names are known.
* `Value.MayBe`, `Value.IsWorth`: The values that casts to a kind are made for, and that they
  accept.

## Theorems

* `checkKeys_eq_ok_iff`, `checkKeys_fails`: The check of names.
* `Value.HasOnly.sectionEntries_fails`: What is no table.
* `Section.exists_whole_iff`, `Section.exists_option_iff`, `Section.exists_pair_iff`: When the casts
  of an entry accept it.
-/

namespace Darkroom

open Failure

/-! Names. -/

/-- A text. -/
def Value.IsName (value : Value) : Prop := ∃ name, value = .text name

/-- One of some texts. -/
def Value.IsNameIn (allowed : List String) (value : Value) : Prop :=
  ∃ name ∈ allowed, value = .text name

/-- A value whose parts have a property. -/
def Value.PartsAre (P : Value → Prop) (raw : Value) : Prop :=
  ∃ parts, raw.elements? = some parts ∧ ∀ part ∈ parts, P part

/-- A section all of whose names are known. -/
abbrev Value.HasOnly (allowed : List String) (raw : Value) : Prop :=
  raw.PartsAre (Value.IsNameIn allowed)

/-- A section whose names are texts. If all of them are known, it is a table, and its entries have a
    property. -/
def Value.IsRegular (allowed : List String) (fits : Section → Prop) (raw : Value) : Prop :=
  raw.PartsAre Value.IsName ∧
    (raw.HasOnly allowed → ∃ entries, raw.opened = .table entries ∧ fits entries)

theorem allTexts?_eq_some {values : List Value} {names : List String} :
    allTexts? values = some names ↔ values = names.map .text := by
  unfold allTexts?
  induction values generalizing names with
  | nil => cases names <;> simp
  | cons value rest ih =>
    rw [List.mapM_cons]
    cases value with
    | text s =>
      cases hrest : List.mapM (m := Option) _ rest with
      | none =>
        refine iff_of_false (by simp) ?_
        intro h
        cases names with
        | nil => cases h
        | cons name more =>
          rw [List.map_cons, List.cons.injEq] at h
          rw [ih.mpr h.2] at hrest
          cases hrest
      | some more =>
        have hmore := ih.mp hrest
        subst hmore
        cases names with
        | nil => simp
        | cons name others =>
          simp [List.map_inj_right fun a b => Value.text.inj]
    | _ =>
      refine iff_of_false (by simp) ?_
      intro h
      cases names <;> cases h

theorem exists_allTexts? {values : List Value} (h : ∀ value ∈ values, value.IsName) :
    ∃ names, allTexts? values = some names := by
  induction values with
  | nil => exact ⟨[], rfl⟩
  | cons value rest ih =>
    rcases h value List.mem_cons_self with ⟨name, rfl⟩
    rcases ih fun v hv => h v (List.mem_cons_of_mem _ hv) with ⟨names, hnames⟩
    refine ⟨name :: names, allTexts?_eq_some.mpr ?_⟩
    rw [List.map_cons, allTexts?_eq_some.mp hnames]

/-- The parts of a section that are no names that it has. -/
def unknownParts (allowed : List String) (parts : List Value) : List Value :=
  parts.filter fun key => match key with
    | .text s => !allowed.contains s
    | _ => true

theorem mem_unknownParts {allowed : List String} {parts : List Value} {part : Value} :
    part ∈ unknownParts allowed parts ↔ part ∈ parts ∧ ¬part.IsNameIn allowed := by
  unfold unknownParts Value.IsNameIn
  rw [List.mem_filter]
  refine and_congr_right fun _ => ?_
  cases part with
  | text s => simp
  | _ => simp

/-- The check of names passes when all of them are known. -/
theorem checkKeys_eq_ok_iff {section_ : String} {allowed : List String} {raw : Value} :
    checkKeys section_ allowed raw = .ok () ↔ raw.HasOnly allowed := by
  unfold checkKeys
  rw [ok_bind_iff]
  refine exists_congr fun parts => ?_
  rw [Value.toElements_eq_ok]
  refine and_congr_right fun _ => ?_
  constructor
  · intro h part hpart
    split at h
    · cases h
    · simp only at h
      split at h
      · cases h
      · next hfound =>
        have hnone : unknownParts allowed parts = [] := allTexts?_eq_some.mp hfound
        by_contra hpart'
        exact absurd (mem_unknownParts.mpr ⟨hpart, hpart'⟩) (by rw [hnone]; exact List.not_mem_nil)
      · cases h
  · intro h
    have hkeys : parts.all isKey = true := by
      rw [List.all_eq_true]
      intro part hpart
      rcases h part hpart with ⟨name, -, rfl⟩
      rfl
    have hnone : unknownParts allowed parts = [] := by
      rw [List.eq_nil_iff_forall_not_mem]
      intro part hpart
      exact (mem_unknownParts.mp hpart).2 (h part (mem_unknownParts.mp hpart).1)
    have htexts : allTexts? (unknownParts allowed parts) = some [] := by
      rw [hnone]
      rfl
    rw [hkeys, if_neg (by simp)]
    simp only
    -- No name is found to be unknown, so two of the outcomes are none.
    split
    · next hfound => cases hfound.symm.trans htexts
    · rfl
    · next hsome hfound =>
      cases hfound.symm.trans htexts
      exact absurd rfl hsome

/-- Names are refused as unknown, unless they are no names. -/
theorem checkKeys_fails {section_ : String} {allowed : List String} {raw : Value} :
    FailsOnly (BadUnless (raw.PartsAre Value.IsName)) (checkKeys section_ allowed raw) := by
  unfold checkKeys
  refine (raw.toElements_fails.mono (BadUnless.mono ?_)).bind fun parts hparts => ?_
  · rintro ⟨parts, hparts, -⟩
    exact ⟨parts, hparts⟩
  · have hparts := Value.toElements_eq_ok.mp hparts
    have hnames : raw.PartsAre Value.IsName → ∀ part ∈ parts, part.IsName := by
      rintro ⟨_, hparts', h⟩
      cases hparts.symm.trans hparts'
      exact h
    split
    · next hkeys =>
      refine failsOnly_error (badUnless_wrongType fun h => ?_)
      rw [Bool.not_eq_true', ← Bool.not_eq_true, List.all_eq_true] at hkeys
      refine hkeys fun part hpart => ?_
      rcases hnames h part hpart with ⟨name, rfl⟩
      rfl
    · simp only
      split
      · next hnone =>
        refine failsOnly_error (badUnless_wrongType fun h => ?_)
        have hunknown : ∀ part ∈ unknownParts allowed parts, part.IsName :=
          fun part hpart => hnames h part (mem_unknownParts.mp hpart).1
        rcases exists_allTexts? hunknown with ⟨names, hsome⟩
        cases hnone.symm.trans hsome
      · exact failsOnly_ok ()
      · exact failsOnly_error (Or.inl (Or.inl rfl))

theorem sectionEntries_eq_ok {raw : Value} {entries : Section} :
    sectionEntries raw = .ok entries ↔ raw.opened = .table entries := by
  unfold sectionEntries
  cases raw.opened <;> simp

namespace Value

variable {allowed : List String} {fits : Section → Prop} {raw : Value} {entries : Section}

/-- What has only known names and is no table is refused. -/
theorem HasOnly.sectionEntries_fails (h : raw.HasOnly allowed) :
    FailsOnly (BadUnless (raw.IsRegular allowed fits)) (sectionEntries raw) := by
  intro failure hfailure
  have hattribute : failure = wrongAttribute := by
    unfold sectionEntries at hfailure
    split at hfailure <;> cases hfailure
    rfl
  rw [hattribute]
  refine badUnless_wrongAttribute fun hregular => ?_
  rcases hregular.2 h with ⟨entries, hentries, -⟩
  cases (sectionEntries_eq_ok.mpr hentries).symm.trans hfailure

theorem IsRegular.entriesFit (h : raw.IsRegular allowed fits) (hnames : raw.HasOnly allowed)
    (hentries : sectionEntries raw = .ok entries) : fits entries := by
  rcases h.2 hnames with ⟨_, hentries', hfits⟩
  cases (sectionEntries_eq_ok.mp hentries).symm.trans hentries'
  exact hfits

theorem isRegular_of_hasOnly (h : raw.HasOnly allowed) (hentries : raw.opened = .table entries)
    (hfits : fits entries) : raw.IsRegular allowed fits := by
  refine ⟨?_, fun _ => ⟨entries, hentries, hfits⟩⟩
  rcases h with ⟨parts, hparts, h⟩
  refine ⟨parts, hparts, fun part hpart => ?_⟩
  rcases h part hpart with ⟨name, -, hname⟩
  exact ⟨name, hname⟩

/-! Kinds. -/

/-- The values that a cast to a kind is made for. -/
def MayBe : SettingKind → Value → Prop
  | .flag, _ | .text, _ => True
  | .whole, value => value.MayBeWhole
  | .real, value => value.MayBeReal
  | .wholeOption, value => value ≠ .null → value.MayBeWhole
  | .realOption, value => value ≠ .null → value.MayBeReal
  | .pairOption, value => value.MayBeReals 2
  | .quadOption, value => value.MayBeReals 4

/-- Nothing, or as many parts as asked for, each worth a real number. -/
def IsReals (count : Nat) (value : Value) : Prop :=
  value = .null ∨ ∃ parts, value.elements? = some parts ∧ parts.length = count ∧
    ∀ part ∈ parts, ∃ x, part.toReal = .ok x

/-- The values that a cast to a kind accepts. -/
def IsWorth : SettingKind → Value → Prop
  | .flag, _ => True
  | .text, value => ∃ s, value.asText = .ok s
  | .whole, value => ∃ n, value.toWhole = .ok n
  | .real, value => ∃ x, value.toReal = .ok x
  | .wholeOption, value => value ≠ .null → ∃ n, value.toWhole = .ok n
  | .realOption, value => value ≠ .null → ∃ x, value.toReal = .ok x
  | .pairOption, value => value.IsReals 2
  | .quadOption, value => value.IsReals 4

theorem IsReals.mayBe {count : Nat} {value : Value} (h : value.IsReals count) :
    value.MayBeReals count := by
  rcases h with hnull | ⟨parts, hparts, -, hreal⟩
  · exact Or.inl hnull
  · refine Or.inr ⟨parts, hparts, fun _ part hpart => ?_⟩
    rcases hreal part hpart with ⟨x, hx⟩
    exact MayBeReal.of_toReal hx

theorem IsWorth.mayBe {kind : SettingKind} {value : Value} (h : IsWorth kind value) :
    MayBe kind value := by
  cases kind with
  | flag | text => exact trivial
  | whole =>
    rcases h with ⟨n, hn⟩
    exact MayBeWhole.of_toWhole hn
  | real =>
    rcases h with ⟨x, hx⟩
    exact MayBeReal.of_toReal hx
  | wholeOption =>
    intro hnull
    rcases h hnull with ⟨n, hn⟩
    exact MayBeWhole.of_toWhole hn
  | realOption =>
    intro hnull
    rcases h hnull with ⟨x, hx⟩
    exact MayBeReal.of_toReal hx
  | pairOption | quadOption => exact IsReals.mayBe h

end Value

namespace Section

variable {entries : Section} {key label : String} {default : Value} {count : Nat}

/-- What is said under some names has a property of the kinds that the names have. -/
def AllAre (names : SettingKind → List String) (is : SettingKind → Value → Prop)
    (entries : Section) : Prop := ∀ kind, ∀ name ∈ names kind, entries.Says name (is kind)

theorem AllAre.mayBe {names : SettingKind → List String}
    (h : entries.AllAre names Value.IsWorth) : entries.AllAre names Value.MayBe :=
  fun kind name hname => (h kind name hname).mono fun _ => Value.IsWorth.mayBe

/-! What an entry is cast to depends on nothing but what is said under its name. -/

section

variable {other : Section} (h : Value.lookup key entries = Value.lookup key other)

include h

theorem get_congr : get entries key default = get other key default := by
  unfold get
  rw [h]

theorem flag_congr (default : Bool) : flag entries key default = flag other key default :=
  congrArg Value.isTrue (get_congr h)

theorem text_congr (default : String) :
    Section.text entries key default = Section.text other key default :=
  congrArg Value.asText (get_congr h)

theorem whole_congr (default : Int) :
    Section.whole entries key default = Section.whole other key default :=
  congrArg Value.toWhole (get_congr h)

theorem real_congr (default : Double) :
    Section.real entries key default = Section.real other key default :=
  congrArg Value.toReal (get_congr h)

theorem option_congr {α : Type} (cast : Value → Except Failure α) :
    Section.option entries cast key = Section.option other cast key := by
  unfold Section.option
  rw [get_congr h]

theorem pair_congr (label : String) (default : Value) :
    pair entries label key default = pair other label key default := by
  unfold pair
  rw [get_congr h]

theorem quad_congr (label : String) (default : Value) :
    quad entries label key default = quad other label key default := by
  unfold quad
  rw [get_congr h]

end

/-! How the casts of an entry fail, in a section that may be anything. -/

section

variable {names : SettingKind → List String}

theorem text_fails {default : String} {P : Failure → Prop} (h : ∀ e : Failure, e.IsBadValue → P e) :
    FailsOnly P (Section.text entries key default) := (Value.asText_fails _).mono h

theorem whole_fails {default : Int} (hname : key ∈ names .whole) :
    FailsOnly (BadUnless (entries.AllAre names Value.MayBe)) (Section.whole entries key default) :=
  (Value.toWhole_fails _).mono (BadUnless.mono fun h => (h .whole key hname).get trivial)

theorem real_fails {default : Double} (hname : key ∈ names .real) :
    FailsOnly (BadUnless (entries.AllAre names Value.MayBe)) (Section.real entries key default) :=
  (Value.toReal_fails _).mono (BadUnless.mono fun h => (h .real key hname).get trivial)

theorem wholeOption_fails (hname : key ∈ names .wholeOption) :
    FailsOnly (BadUnless (entries.AllAre names Value.MayBe))
      (Section.option entries Value.toWhole key) :=
  option_fails fun value hfound hnull =>
    value.toWhole_fails.mono (BadUnless.mono fun h => h .wholeOption key hname value hfound hnull)

theorem realOption_fails (hname : key ∈ names .realOption) :
    FailsOnly (BadUnless (entries.AllAre names Value.MayBe))
      (Section.option entries Value.toReal key) :=
  option_fails fun value hfound hnull =>
    value.toReal_fails.mono (BadUnless.mono fun h => h .realOption key hname value hfound hnull)

theorem pairOption_fails (hname : key ∈ names .pairOption) (hdefault : default.MayBeReals 2) :
    FailsOnly (BadUnless (entries.AllAre names Value.MayBe)) (pair entries label key default) :=
  pair_fails.mono (BadUnless.mono fun h => (h .pairOption key hname).get hdefault)

theorem quadOption_fails (hname : key ∈ names .quadOption) (hdefault : default.MayBeReals 4) :
    FailsOnly (BadUnless (entries.AllAre names Value.MayBe)) (quad entries label key default) :=
  quad_fails.mono (BadUnless.mono fun h => (h .quadOption key hname).get hdefault)

end

/-! When they accept it. -/

/-- A value is cast, or its default is. -/
theorem exists_get_iff {α : Type} (cast : Value → Except Failure α)
    (hdefault : ∃ a, cast default = .ok a) :
    (∃ a, cast (get entries key default) = .ok a) ↔
      entries.Says key fun value => ∃ a, cast value = .ok a :=
  ⟨fun h => says_of_get _ h, fun h => h.get hdefault⟩

theorem exists_text_iff {default : String} :
    (∃ s, Section.text entries key default = .ok s) ↔ entries.Says key (Value.IsWorth .text) :=
  exists_get_iff Value.asText ⟨default, rfl⟩

theorem exists_whole_iff {default : Int} :
    (∃ n, Section.whole entries key default = .ok n) ↔ entries.Says key (Value.IsWorth .whole) :=
  exists_get_iff Value.toWhole ⟨default, rfl⟩

theorem exists_real_iff {default : Double} :
    (∃ x, Section.real entries key default = .ok x) ↔ entries.Says key (Value.IsWorth .real) :=
  exists_get_iff Value.toReal ⟨default, rfl⟩

theorem exists_option_iff {α : Type} {cast : Value → Except Failure α} :
    (∃ found, Section.option entries cast key = .ok found) ↔
      entries.Says key fun value => value ≠ .null → ∃ a, cast value = .ok a := by
  have hget : entries.Says key (fun value => value ≠ .null → ∃ a, cast value = .ok a) ↔
      (get entries key .null ≠ .null → ∃ a, cast (get entries key .null) = .ok a) :=
    ⟨fun h => h.get fun hnull => absurd rfl hnull, fun h => says_of_get _ h⟩
  rw [hget]
  unfold Section.option
  generalize get entries key .null = value
  split
  · exact iff_of_true ⟨none, rfl⟩ fun h => absurd rfl h
  · next hnull =>
    rw [imp_iff_right hnull]
    cases cast value with
    | error failure => exact iff_of_false (not_exists_ok _) (not_exists_ok _)
    | ok a => exact iff_of_true ⟨some a, rfl⟩ ⟨a, rfl⟩

theorem exists_reals_iff (count : Nat) (label : String) (value : Value) :
    (∃ found, reals count label value = .ok found) ↔ value.IsReals count := by
  unfold reals Value.IsReals
  split
  · exact iff_of_true ⟨none, rfl⟩ (Or.inl rfl)
  · next hnull =>
    rw [or_iff_right hnull]
    simp only [ok_bind_iff, Value.toElements_eq_ok]
    constructor
    · rintro ⟨found, parts, hparts, h⟩
      split at h
      · cases h
      · next hcount =>
        refine ⟨parts, hparts, not_not.mp hcount, exists_mapM_iff.mp ?_⟩
        cases hreals : parts.mapM Value.toReal with
        | error failure =>
          rw [hreals] at h
          cases h
        | ok results => exact ⟨results, rfl⟩
    · rintro ⟨parts, hparts, hcount, hreals⟩
      rcases exists_mapM_iff.mpr hreals with ⟨results, hresults⟩
      refine ⟨some results, parts, hparts, ?_⟩
      rw [if_neg (not_not.mpr hcount), hresults]
      rfl

/-! Numbers that were read are only put together. -/

theorem exists_pair_iff (hdefault : default.IsReals 2) :
    (∃ found, pair entries label key default = .ok found) ↔
      entries.Says key (Value.IsReals 2) := by
  refine (exists_bind_iff fun found => ?_).trans ((exists_reals_iff 2 label _).trans
    ⟨fun h => says_of_get _ h, fun h => h.get hdefault⟩)
  split <;> exact ⟨_, rfl⟩

theorem exists_quad_iff (hdefault : default.IsReals 4) :
    (∃ found, quad entries label key default = .ok found) ↔
      entries.Says key (Value.IsReals 4) := by
  refine (exists_bind_iff fun found => ?_).trans ((exists_reals_iff 4 label _).trans
    ⟨fun h => says_of_get _ h, fun h => h.get hdefault⟩)
  split <;> exact ⟨_, rfl⟩

/-- What a value is worth has a property, said of the entry. -/
theorem says_worth_iff {α : Type} {cast : Value → Except Failure α} {P : α → Prop} {a : α}
    (h : cast (get entries key default) = .ok a) (hdefault : ∀ a, cast default = .ok a → P a) :
    (entries.Says key fun value => ∀ a, cast value = .ok a → P a) ↔ P a := by
  constructor
  · intro hsays
    exact hsays.get hdefault a h
  · intro ha
    refine says_of_get default (show ∀ b, cast (get entries key default) = .ok b → P b from ?_)
    intro b hb
    cases h.symm.trans hb
    exact ha

end Section

end Darkroom
