import Darkroom.Proofs.Command.Words

/-!
# Flags

What a command line tells with flags that it gets in addition.

Some flags stand for keys of the configuration: they can be told on the command line or written
into a document. What is told last counts. So a flag may stand anywhere between words that tell
nothing else in its place, and leaves everything as it was that it does not tell itself.

## Main definitions

* `KeyedFlag`: A flag that stands for a key, with what it tells.
* `KeyedFlag.Spells`: The words that tell a flag.
* `Command.tell`, `Command.tellAll`: A command that is told flags, where it is told nothing else.
* `CommandLine.WithFlags`: Words with flags put among them.

## Theorems

* `KeyedFlag.Spells.exists_front`: The words of a flag tell just the flag.
* `CommandName.command?_adds`: A command that is told a flag in addition.
* `CommandLine.parse_withFlags`: A command line with flags among its words.
-/

namespace Darkroom

/-- A flag that stands for a key of the configuration, with what it tells. -/
inductive KeyedFlag where
  | saturation (x : Double)
  | vibrance (x : Double)
  | outputDepth (bits : Int)
  | halfSize
  | subtractBlack
  | withRgb
  deriving DecidableEq

namespace KeyedFlag

/-- The command that takes a flag. -/
def command : KeyedFlag → CommandName
  | saturation _ | vibrance _ | outputDepth _ | halfSize => .render
  | subtractBlack | withRgb => .extract

def option : KeyedFlag → OptionName
  | saturation _ => ⟨"--saturation", .real⟩
  | vibrance _ => ⟨"--vibrance", .real⟩
  | outputDepth _ => ⟨"--output-bps", .depth⟩
  | halfSize => ⟨"--half-size", .switch⟩
  | subtractBlack => ⟨"--subtract-black", .switch⟩
  | withRgb => ⟨"--with-rgb", .switch⟩

/-- The value that the option is told. -/
def told : KeyedFlag → ToldValue
  | saturation x | vibrance x => .real x
  | outputDepth bits => .whole bits
  | halfSize | subtractBlack | withRgb => .nothing

/-- Some options are no such flags. -/
theorem ne_name (f : KeyedFlag) {name : String} (h : name ∈ ["--out", "--config", "--debug"]) :
    name ≠ f.option.name := by
  simp only [List.mem_cons, List.not_mem_nil, or_false] at h
  rcases h with rfl | rfl | rfl <;> cases f <;> simp [option]

/-- The words that tell a flag, where some options are known: a switch alone, or an option with a
    value, which an equals sign joins to it or which follows as a plain word. -/
inductive Spells (options : List OptionName) (f : KeyedFlag) : List String → Prop
  | alone {word} (hword : wordOf options word = .ok (.chosen f.option none))
      (hkind : f.option.kind = .switch) : Spells options f [word]
  | joined {word text} (hword : wordOf options word = .ok (.chosen f.option (some text)))
      (htold : toldValue f.option.kind text = .ok f.told) : Spells options f [word]
  | apart {word text} (hword : wordOf options word = .ok (.chosen f.option none))
      (htext : wordOf options text = .ok (.plain text))
      (htold : toldValue f.option.kind text = .ok f.told) : Spells options f [word, text]

end KeyedFlag

namespace Command

/-- The name of a command. -/
def name : Command → CommandName
  | info .. => .info
  | render .. => .render
  | extract .. => .extract
  | thumbnail .. => .thumbnail
  | version .. => .version

/-- A command that is told a flag, where it is told nothing else. -/
def tell (f : KeyedFlag) : Command → Command
  | render input output saturation vibrance halfSize outputDepth =>
    match f with
    | .saturation x => render input output (saturation.or (some x)) vibrance halfSize outputDepth
    | .vibrance x => render input output saturation (vibrance.or (some x)) halfSize outputDepth
    | .outputDepth n => render input output saturation vibrance halfSize (outputDepth.or (some n))
    | .halfSize => render input output saturation vibrance true outputDepth
    | _ => render input output saturation vibrance halfSize outputDepth
  | extract input output subtractBlack withRgb json =>
    match f with
    | .subtractBlack => extract input output true withRgb json
    | .withRgb => extract input output subtractBlack true json
    | _ => extract input output subtractBlack withRgb json
  | command => command

/-- A command that is told several flags. The last of them counts. -/
def tellAll (flags : List KeyedFlag) (command : Command) : Command := flags.foldr tell command

theorem name_tell (f : KeyedFlag) (command : Command) : (command.tell f).name = command.name := by
  cases command <;> cases f <;> rfl

theorem name_tellAll (flags : List KeyedFlag) (command : Command) :
    (command.tellAll flags).name = command.name := by
  induction flags with
  | nil => rfl
  | cons f flags ih => exact (name_tell f _).trans ih

end Command

/-- The words of a flag tell just the flag. -/
theorem KeyedFlag.Spells.exists_front {name : CommandName} {f : KeyedFlag}
    {spelled words : List String} {ws : List Word} (h : f.Spells name.options spelled)
    (hwords : classify name.options words = .ok ws) :
    ∃ front, classify name.options (spelled ++ words) = .ok (front ++ ws) ∧
      (front ++ ws).head? ≠ some .separator ∧
      ∀ takesInput t, useWords takesInput t (front ++ ws) =
        useWords takesInput (t.tell f.option f.told) ws := by
  cases h with
  | alone hword hkind =>
    refine ⟨[.chosen f.option none], classify_cons hword hwords, nofun, fun takesInput t => ?_⟩
    have htold : f.told = .nothing := by cases f <;> first | rfl | cases hkind
    rw [htold]
    exact useWords_switch hkind
  | @joined _ text hword htold =>
    refine ⟨[.chosen f.option (some text)], classify_cons hword hwords, nofun,
      fun takesInput t => ?_⟩
    refine useWords_joined.trans ?_
    rw [htold]
    rfl
  | @apart _ text hword htext htold =>
    exact ⟨[.chosen f.option none, .plain text], classify_cons hword (classify_cons htext hwords),
      nofun, fun takesInput t => useWords_apart htold⟩

/-! What commands are told. -/

/-- The real number that an option is told. -/
def ToldValue.real? : ToldValue → Option Double
  | .real x => some x
  | _ => none

/-- The whole number that an option is told. -/
def ToldValue.whole? : ToldValue → Option Int
  | .whole n => some n
  | _ => none

namespace Told

variable {options : List OptionName} {t more : Told} {f : KeyedFlag} {name : String}

/-- What is told with a flag in addition, which counts where nothing else is told. -/
structure Adds (t : Told) (f : KeyedFlag) (more : Told) : Prop where
  input : more.input = t.input
  leftOver : more.leftOver = t.leftOver
  lookup : ∀ name, more.options.lookup name =
    (t.options.lookup name).or (if name = f.option.name then some f.told else none)

theorem Sound.takes_of_lookup (ht : t.Sound options) {kind : OptionKind}
    (hkind : ∀ o ∈ options, o.name = name → o.kind = kind) {value : ToldValue}
    (h : t.options.lookup name = some value) : kind.Takes value := by
  rcases List.lookup_eq_some_iff.mp h with ⟨later, earlier, hoptions, -⟩
  have hmem : (name, value) ∈ t.options := by
    rw [hoptions]
    exact List.mem_append_right later List.mem_cons_self
  rcases ht (name, value) hmem with ⟨o, ho, hname, htakes⟩
  rwa [hkind o ho hname] at htakes

theorem Adds.text? (hadds : t.Adds f more) (h : name ≠ f.option.name) :
    more.text? name = t.text? name := by
  unfold Told.text?
  rw [hadds.lookup, if_neg h, Option.or_none]

theorem Adds.has (hadds : t.Adds f more) :
    more.has name = (t.has name || decide (name = f.option.name)) := by
  unfold Told.has
  rw [hadds.lookup, Option.isSome_or]
  by_cases h : name = f.option.name <;> simp [h]

/-- What is told under a name counts, unless nothing is told there: then the flag does. -/
theorem Adds.lookup_bind {α : Type} {kind : OptionKind} {pick : ToldValue → Option α}
    (hadds : t.Adds f more) (ht : t.Sound options)
    (hkind : ∀ o ∈ options, o.name = name → o.kind = kind)
    (hpick : ∀ value, kind.Takes value → (pick value).isSome) :
    (more.options.lookup name).bind pick = ((t.options.lookup name).bind pick).or
      (if name = f.option.name then pick f.told else none) := by
  rw [hadds.lookup]
  cases hlookup : t.options.lookup name with
  | some value =>
    rcases Option.isSome_iff_exists.mp (hpick value (ht.takes_of_lookup hkind hlookup)) with ⟨a, ha⟩
    rw [Option.some_or, Option.bind_some, ha, Option.some_or]
  | none =>
    rw [Option.none_or, Option.bind_none, Option.none_or]
    split_ifs <;> rfl

theorem real?_eq : t.real? name = (t.options.lookup name).bind ToldValue.real? := by
  unfold Told.real?
  rcases t.options.lookup name with _ | value
  · rfl
  · cases value <;> rfl

theorem whole?_eq : t.whole? name = (t.options.lookup name).bind ToldValue.whole? := by
  unfold Told.whole?
  rcases t.options.lookup name with _ | value
  · rfl
  · cases value <;> rfl

theorem Adds.real? (hadds : t.Adds f more) (ht : t.Sound options)
    (hkind : ∀ o ∈ options, o.name = name → o.kind = .real) :
    more.real? name = (t.real? name).or (if name = f.option.name then f.told.real? else none) := by
  rw [real?_eq, real?_eq]
  refine hadds.lookup_bind ht hkind fun value hvalue => ?_
  cases value <;> first | rfl | cases hvalue

theorem Adds.whole? (hadds : t.Adds f more) (ht : t.Sound options)
    (hkind : ∀ o ∈ options, o.name = name → o.kind = .depth) :
    more.whole? name =
      (t.whole? name).or (if name = f.option.name then f.told.whole? else none) := by
  rw [whole?_eq, whole?_eq]
  refine hadds.lookup_bind ht hkind fun value hvalue => ?_
  cases value <;> first | rfl | cases hvalue

end Told

namespace CommandName

variable {t more : Told} {f : KeyedFlag} {command : Command}

theorem command?_render : render.command? t = some command ↔ ∃ input, t.input = some input ∧
    ∃ output, t.text? "--out" = some output ∧
      command = .render input output (t.real? "--saturation") (t.real? "--vibrance")
        (t.has "--half-size") (t.whole? "--output-bps") := by
  unfold command?
  simp only [Option.bind_eq_bind, Option.bind_eq_some_iff, Option.pure_def, Option.some.injEq]
  simp only [eq_comm]

theorem command?_extract : extract.command? t = some command ↔ ∃ input, t.input = some input ∧
    ∃ output, t.text? "--out" = some output ∧
      command = .extract input output (t.has "--subtract-black") (t.has "--with-rgb")
        (t.has "--json") := by
  unfold command?
  simp only [Option.bind_eq_bind, Option.bind_eq_some_iff, Option.pure_def, Option.some.injEq]
  simp only [eq_comm]

/-- A command that is told a flag in addition. -/
theorem command?_adds {name : CommandName} (hadds : t.Adds f more) (ht : t.Sound name.options)
    (hf : f.command = name) (h : name.command? t = some command) :
    name.command? more = some (command.tell f) := by
  have hout : more.text? "--out" = t.text? "--out" := hadds.text? (f.ne_name (by simp))
  cases name with
  | render =>
    rcases command?_render.mp h with ⟨input, hinput, output, houtput, rfl⟩
    refine command?_render.mpr
      ⟨input, hadds.input.trans hinput, output, hout.trans houtput, ?_⟩
    rw [hadds.real? ht (by decide), hadds.real? ht (by decide), hadds.has,
      hadds.whole? ht (by decide)]
    cases f with
    | subtractBlack | withRgb => cases hf
    | _ => simp [Command.tell, ToldValue.real?, ToldValue.whole?, KeyedFlag.told, KeyedFlag.option]
  | extract =>
    rcases command?_extract.mp h with ⟨input, hinput, output, houtput, rfl⟩
    refine command?_extract.mpr
      ⟨input, hadds.input.trans hinput, output, hout.trans houtput, ?_⟩
    rw [hadds.has, hadds.has, hadds.has]
    cases f with
    | subtractBlack | withRgb => simp [Command.tell, KeyedFlag.option]
    | _ => cases hf
  | _ => cases f <;> cases hf

/-- The name of a command, as it is written. -/
def text : CommandName → String
  | info => "info"
  | render => "render"
  | extract => "extract"
  | thumbnail => "thumbnail"
  | version => "version"

end CommandName

namespace CommandLine

variable {name : CommandName} {words : List String} {line : CommandLine}

/-- A command line that begins with the name of a command. -/
theorem parse_text (name : CommandName) (words : List String) :
    parse (name.text :: words) = ofWords name words := by
  cases name <;> rfl

theorem ofWords_eq_ok : ofWords name words = .ok line ↔ ∃ ws told,
    classify name.options words = .ok ws ∧
      useWords name.takesInput ⟨none, [], false⟩ ws = .ok told ∧
      name.command? told = some line.command ∧ told.leftOver = false ∧
      line.config = told.text? "--config" ∧ line.debug = told.has "--debug" := by
  unfold ofWords
  simp only [ok_bind_iff]
  constructor
  · rintro ⟨ws, hws, told, htold, h⟩
    refine ⟨ws, told, hws, htold, ?_⟩
    split at h
    · next hcommand =>
      split_ifs at h with hleft
      cases h
      exact ⟨hcommand, by simpa using hleft, rfl, rfl⟩
    · cases h
  · rintro ⟨ws, told, hws, htold, hcommand, hleft, hconfig, hdebug⟩
    refine ⟨ws, hws, told, htold, ?_⟩
    rw [hcommand]
    show (if told.leftOver = true then Except.error Refusal.misuse
      else .ok ⟨told.text? "--config", told.has "--debug", line.command⟩) = .ok line
    rw [hleft, ← hconfig, ← hdebug]
    rfl

/-- A place between words for a flag: the words before it are used up and do not tell the flag, and
    two hyphens neither stand among them nor follow them. -/
structure IsPlaceFor (f : KeyedFlag) (name : CommandName) (before after : List String) : Prop where
  beforeHyphens : "--" ∉ before
  notHyphens : before = [] ∨ after.head? ≠ some "--"
  usedUp : ∃ ws t, classify name.options before = .ok ws ∧
    useWords name.takesInput ⟨none, [], false⟩ ws = .ok t ∧ t.options.lookup f.option.name = none

/-- Words with flags put among them. -/
inductive WithFlags (name : CommandName) (words : List String) :
    List KeyedFlag → List String → Prop
  | none : WithFlags name words [] words
  | more {f flags before after spelled} (h : WithFlags name words flags (before ++ after))
      (hplace : IsPlaceFor f name before after) (hspelled : f.Spells name.options spelled) :
      WithFlags name words (f :: flags) (before ++ (spelled ++ after))

/-- What words tell with a flag among them. -/
theorem IsPlaceFor.exists_adds {f : KeyedFlag} {before after spelled : List String}
    {ws : List Word} {told : Told} (h : IsPlaceFor f name before after)
    (hspelled : f.Spells name.options spelled)
    (hws : classify name.options (before ++ after) = .ok ws)
    (htold : useWords name.takesInput ⟨none, [], false⟩ ws = .ok told) :
    ∃ ws' told', classify name.options (before ++ (spelled ++ after)) = .ok ws' ∧
      useWords name.takesInput ⟨none, [], false⟩ ws' = .ok told' ∧ told.Adds f told' := by
  rcases h.usedUp with ⟨first, t, hfirst, ht, hnew⟩
  rcases exists_classify_of_append h.beforeHyphens hws with ⟨last, hlast⟩
  cases hws.symm.trans (classify_append h.beforeHyphens hfirst hlast)
  have hseparator := separator_notMem_of_classify h.beforeHyphens hfirst
  have hnext : first = [] ∨ last.head? ≠ some .separator := by
    rcases h.notHyphens with rfl | hafter
    · exact Or.inl (Except.ok.inj hfirst).symm
    · exact Or.inr (head?_ne_separator_of_classify hafter hlast)
  rw [useWords_append hseparator hnext ht] at htold
  rcases useWords_withOptions htold with ⟨later, hlater, hover⟩
  rcases hspelled.exists_front hlast with ⟨front, hfront, hhead, huse⟩
  refine ⟨first ++ (front ++ last), told.withOptions (later ++ (f.option.name, f.told) :: t.options),
    classify_append h.beforeHyphens hfirst hfront, ?_, rfl, rfl, fun name => ?_⟩
  · rw [useWords_append hseparator (Or.inr hhead) ht, huse]
    exact hover _
  · show (later ++ (f.option.name, f.told) :: t.options).lookup name = _
    rw [hlater, List.lookup_append, List.lookup_append, List.lookup_cons]
    by_cases hname : name = f.option.name
    · rw [if_pos hname, hname, beq_self_eq_true, hnew, Option.or_none]
    · rw [if_neg hname, beq_false_of_ne hname, Option.or_none]

theorem ofWords_flag {f : KeyedFlag} {before after spelled : List String} (hf : f.command = name)
    (hplace : IsPlaceFor f name before after) (hspelled : f.Spells name.options spelled)
    (h : ofWords name (before ++ after) = .ok line) :
    ofWords name (before ++ (spelled ++ after)) =
      .ok { line with command := line.command.tell f } := by
  rcases ofWords_eq_ok.mp h with ⟨ws, told, hws, htold, hcommand, hleft, hconfig, hdebug⟩
  rcases hplace.exists_adds hspelled hws htold with ⟨ws', told', hws', htold', hadds⟩
  have hnothing : Told.Sound name.options ⟨none, [], false⟩ := List.forall_mem_nil _
  have hsound := useWords_sound (mem_of_classify (helpOption_mem name) hws) hnothing htold
  refine ofWords_eq_ok.mpr ⟨ws', told', hws', htold',
    CommandName.command?_adds hadds hsound hf hcommand, hadds.leftOver.trans hleft, ?_, ?_⟩
  · rw [hadds.text? (f.ne_name (by simp))]
    exact hconfig
  · rw [hadds.has, decide_eq_false (f.ne_name (by simp)), Bool.or_false]
    exact hdebug

/-- A command line with flags among its words. -/
theorem parse_withFlags {flags : List KeyedFlag} {more : List String}
    (hflags : ∀ f ∈ flags, f.command = name) (hmore : WithFlags name words flags more)
    (h : parse (name.text :: words) = .ok line) :
    parse (name.text :: more) = .ok { line with command := line.command.tellAll flags } := by
  rw [parse_text] at h ⊢
  induction hmore with
  | none => exact h
  | @more f flags _ _ _ _ hplace hspelled ih =>
    exact ofWords_flag (hflags f List.mem_cons_self) hplace hspelled
      (ih fun g hg => hflags g (List.mem_cons_of_mem f hg))

end CommandLine

end Darkroom
