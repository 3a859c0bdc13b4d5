import Darkroom.Command.Run
import Darkroom.Proofs.Command.Flags

/-!
# Keys

A flag does what its key does in the configuration.

A flag changes what a command does in one place, and so does its key. So a command that is told a
flag does what it does with the flag's value in its configuration. Whether flags and keys can stand
for each other is then a question about configurations: two that differ at some keys only are one
when these keys are given the same values. A configuration is taken apart for that into what it
holds under the keys that flags stand for and everything else.

## Main definitions

* `FlagKey`: The keys that flags stand for.
* `Configuration.valueAt`, `Configuration.rest`: The two parts of a configuration.
* `Configuration.tell`, `Configuration.tellAll`: A configuration with what flags tell.

## Theorems

* `Configuration.tellAll_eq`: When configurations become one.
* `Command.run_tell`, `Command.run_tellAll`: A flag does what its key does.
-/

namespace Darkroom

/-- The keys of a configuration that flags stand for. -/
inductive FlagKey where
  | saturation
  | vibrance
  | outputDepth
  | halfSize
  | subtractBlack
  | includeRgb
  deriving DecidableEq

namespace FlagKey

/-- The section of a key, and its name there. -/
def place : FlagKey → String × String
  | saturation => ("adjust", "saturation")
  | vibrance => ("adjust", "vibrance")
  | outputDepth => ("decode", "output_bps")
  | halfSize => ("decode", "half_size")
  | subtractBlack => ("extract", "subtract_black")
  | includeRgb => ("extract", "include_rgb")

/-- What is kept of a value under a key. -/
def cast (value : Value) : FlagKey → Except Failure Value
  | saturation | vibrance => .real <$> value.toReal
  | outputDepth => .whole <$> value.toWhole
  | halfSize | subtractBlack | includeRgb => .ok (.flag value.isTrue)

/-- The value of a key that is not there. -/
def default : FlagKey → Value
  | saturation | vibrance => .real 0
  | outputDepth => .whole 8
  | halfSize | subtractBlack | includeRgb => .flag false

end FlagKey

namespace KeyedFlag

/-- The key that a flag stands for. -/
def key : KeyedFlag → FlagKey
  | saturation _ => .saturation
  | vibrance _ => .vibrance
  | outputDepth _ => .outputDepth
  | halfSize => .halfSize
  | subtractBlack => .subtractBlack
  | withRgb => .includeRgb

/-- What a flag tells, as a value under its key. -/
def value : KeyedFlag → Value
  | saturation x | vibrance x => .real x
  | outputDepth bits => .whole bits
  | halfSize | subtractBlack | withRgb => .flag true

/-- A value that says what a flag tells: a number that is worth the same, or for a switch whatever
    counts as set. -/
def IsSaidBy (value : Value) : KeyedFlag → Prop
  | saturation x | vibrance x => value.toReal = .ok x
  | outputDepth bits => value.toWhole = .ok bits
  | halfSize | subtractBlack | withRgb => value.isTrue = true

theorem IsSaidBy.cast_eq {value : Value} {f : KeyedFlag} (h : IsSaidBy value f) :
    f.key.cast value = .ok f.value := by
  cases f with
  | saturation x | vibrance x =>
    show Value.real <$> value.toReal = _
    rw [show value.toReal = .ok x from h]
    rfl
  | outputDepth n =>
    show Value.whole <$> value.toWhole = _
    rw [show value.toWhole = .ok n from h]
    rfl
  | halfSize | subtractBlack | withRgb => exact congrArg (fun b => Except.ok (Value.flag b)) h

end KeyedFlag

namespace Configuration

variable {c d : Configuration} {f : KeyedFlag} {flags kept : List KeyedFlag} {key : FlagKey}

/-! The two parts of a configuration. -/

/-- What a configuration holds under a key. -/
def valueAt (c : Configuration) : FlagKey → Value
  | .saturation => .real c.adjust.saturation
  | .vibrance => .real c.adjust.vibrance
  | .outputDepth => .whole c.decode.outputBps
  | .halfSize => .flag c.decode.halfSize
  | .subtractBlack => .flag c.extract.subtractBlack
  | .includeRgb => .flag c.extract.includeRgb

/-- A configuration with other values under the keys that flags stand for. -/
def withValues (c : Configuration) (saturation vibrance : Double) (bits : Int)
    (halfSize subtractBlack includeRgb : Bool) : Configuration :=
  { c with
    adjust := { c.adjust with saturation, vibrance }
    decode := { c.decode with halfSize := (halfSize : Bool), outputBps := (bits : Int) }
    extract := ⟨subtractBlack, includeRgb⟩ }

/-- What a configuration holds elsewhere. -/
def rest (c : Configuration) : Configuration := c.withValues 0 0 8 false false false

/-- The two parts are all of a configuration. -/
theorem eq_of_rest_of_valueAt (hrest : c.rest = d.rest)
    (hat : ∀ key, c.valueAt key = d.valueAt key) : c = d := by
  have hdepth : (c.decode.outputBps : Int) = d.decode.outputBps :=
    Value.whole.inj (hat .outputDepth)
  have hhalf : (c.decode.halfSize : Bool) = d.decode.halfSize := Value.flag.inj (hat .halfSize)
  calc c = c.rest.withValues c.adjust.saturation c.adjust.vibrance c.decode.outputBps
          c.decode.halfSize c.extract.subtractBlack c.extract.includeRgb := rfl
    _ = d.rest.withValues d.adjust.saturation d.adjust.vibrance d.decode.outputBps
          d.decode.halfSize d.extract.subtractBlack d.extract.includeRgb := by
        rw [hrest, Value.real.inj (hat .saturation), Value.real.inj (hat .vibrance), hdepth, hhalf,
          Value.flag.inj (hat .subtractBlack), Value.flag.inj (hat .includeRgb)]
    _ = d := rfl

/-- A configuration with what a flag tells. -/
def tell (c : Configuration) : KeyedFlag → Configuration
  | .saturation x => { c with adjust := { c.adjust with saturation := x } }
  | .vibrance x => { c with adjust := { c.adjust with vibrance := x } }
  | .outputDepth bits => { c with decode := { c.decode with outputBps := (bits : Int) } }
  | .halfSize => { c with decode := { c.decode with halfSize := true } }
  | .subtractBlack => { c with extract := { c.extract with subtractBlack := true } }
  | .withRgb => { c with extract := { c.extract with includeRgb := true } }

/-- A configuration with what several flags tell. The last of them counts. -/
def tellAll (c : Configuration) (flags : List KeyedFlag) : Configuration := flags.foldl tell c

theorem rest_tell : (c.tell f).rest = c.rest := by cases f <;> rfl

theorem valueAt_tell : (c.tell f).valueAt key = if key = f.key then f.value else c.valueAt key := by
  cases f <;> cases key <;> rfl

theorem rest_tellAll : (c.tellAll flags).rest = c.rest := by
  unfold tellAll
  induction flags generalizing c with
  | nil => rfl
  | cons f flags ih => exact ih.trans rest_tell

/-- What no flag tells stays. -/
theorem valueAt_tellAll_of_forall_ne (h : ∀ f ∈ flags, f.key ≠ key) :
    (c.tellAll flags).valueAt key = c.valueAt key := by
  unfold tellAll
  induction flags generalizing c with
  | nil => rfl
  | cons f flags ih =>
    refine (ih fun g hg => h g (List.mem_cons_of_mem f hg)).trans ?_
    rw [valueAt_tell, if_neg (h f List.mem_cons_self).symm]

/-- What a flag tells counts, unless another one tells something else. -/
theorem valueAt_tellAll_of_mem (hflags : ∀ g ∈ flags, g.key = f.key → g = f) (hf : f ∈ flags) :
    (c.tellAll flags).valueAt f.key = f.value := by
  unfold tellAll
  induction flags generalizing c with
  | nil => cases hf
  | cons g flags ih =>
    have hrest : ∀ g ∈ flags, g.key = f.key → g = f :=
      fun g' hg' => hflags g' (List.mem_cons_of_mem g hg')
    by_cases hmem : f ∈ flags
    · exact ih hrest hmem
    · have hfg : f = g := (List.mem_cons.mp hf).resolve_right hmem
      subst hfg
      have hstays : ((c.tell f).tellAll flags).valueAt f.key = (c.tell f).valueAt f.key :=
        valueAt_tellAll_of_forall_ne fun g hg hkey => hmem (hrest g hg hkey ▸ hg)
      refine hstays.trans ?_
      rw [valueAt_tell, if_pos rfl]

/-- Configurations that differ only where flags are told become one, and a flag need not be told
    where its value is held already. -/
theorem tellAll_eq (hflags : ∀ f ∈ flags, ∀ g ∈ flags, g.key = f.key → g = f)
    (hkept : ∀ f ∈ kept, f ∈ flags) (hrest : c.rest = d.rest)
    (hat : ∀ key, (∀ f ∈ flags, f.key ≠ key) → c.valueAt key = d.valueAt key)
    (hheld : ∀ f ∈ flags, f ∉ kept → d.valueAt f.key = f.value) :
    c.tellAll flags = d.tellAll kept := by
  refine eq_of_rest_of_valueAt ?_ fun key => ?_
  · rw [rest_tellAll, rest_tellAll, hrest]
  · by_cases hkey : ∃ f ∈ flags, f.key = key
    · rcases hkey with ⟨f, hf, rfl⟩
      rw [valueAt_tellAll_of_mem (hflags f hf) hf]
      by_cases hmem : f ∈ kept
      · exact (valueAt_tellAll_of_mem (fun g hg => hflags f hf g (hkept g hg)) hmem).symm
      · rw [valueAt_tellAll_of_forall_ne, hheld f hf hmem]
        intro g hg hgkey
        exact hmem (hflags f hf g (hkept g hg) hgkey ▸ hg)
    · have hnone : ∀ f ∈ flags, f.key ≠ key := fun f hf hfkey => hkey ⟨f, hf, hfkey⟩
      rw [valueAt_tellAll_of_forall_ne hnone,
        valueAt_tellAll_of_forall_ne fun f hf => hnone f (hkept f hf), hat key hnone]

end Configuration

namespace Command

variable {env : Environment} {config : Configuration} {f : KeyedFlag}

theorem renderSettings_tell_halfSize (halfSize : Bool) (outputDepth : Option Int) :
    renderSettings config true outputDepth =
      renderSettings (config.tell .halfSize) halfSize outputDepth :=
  congrArg (fun half : Bool => ({ config.decode with
    halfSize := half
    outputBps := (outputDepth.getD config.decode.outputBps : Int) } : DecodeSettings Declared))
    (Bool.or_true config.decode.halfSize)

/-- A flag does what its key does. -/
theorem run_tell {command : Command} (hf : f.command = command.name) :
    (command.tell f).run env config = command.run env (config.tell f) := by
  cases command with
  | render input output saturation vibrance halfSize outputDepth =>
    cases f with
    | saturation x => cases saturation <;> rfl
    | vibrance x => cases vibrance <;> rfl
    | outputDepth n => cases outputDepth <;> rfl
    | halfSize =>
      show (do
          runRender env config input output saturation vibrance true outputDepth
          return true) = (do
          runRender env (config.tell .halfSize) input output saturation vibrance halfSize
            outputDepth
          return true : Work Bool)
      unfold runRender
      rw [renderSettings_tell_halfSize halfSize outputDepth]
      rfl
    | subtractBlack | withRgb => cases hf
  | extract input output subtractBlack withRgb json =>
    cases f with
    | subtractBlack =>
      show (do runExtract env config input output true withRgb json; return true) =
        (do
          runExtract env (config.tell .subtractBlack) input output subtractBlack withRgb json
          return true : Work Bool)
      have hblack : (subtractBlack || (config.tell .subtractBlack).extract.subtractBlack) = true :=
        Bool.or_true subtractBlack
      unfold runExtract
      rw [hblack]
      rfl
    | withRgb =>
      show (do runExtract env config input output subtractBlack true json; return true) =
        (do
          runExtract env (config.tell .withRgb) input output subtractBlack withRgb json
          return true : Work Bool)
      have hrgb : (withRgb || (config.tell .withRgb).extract.includeRgb) = true :=
        Bool.or_true withRgb
      unfold runExtract
      rw [hrgb]
      rfl
    | _ => cases hf
  | _ => cases f <;> cases hf

theorem run_tellAll {command : Command} {flags : List KeyedFlag}
    (hflags : ∀ f ∈ flags, f.command = command.name) :
    (command.tellAll flags).run env config = command.run env (config.tellAll flags) := by
  induction flags generalizing config with
  | nil => rfl
  | cons f flags ih =>
    have hrest : ∀ f ∈ flags, f.command = command.name :=
      fun g hg => hflags g (List.mem_cons_of_mem f hg)
    have hf : f.command = (command.tellAll flags).name :=
      (hflags f List.mem_cons_self).trans (name_tellAll flags command).symm
    exact (run_tell hf).trans (ih hrest)

end Command

end Darkroom
