import Darkroom.Proofs.Raw.Requests

/-!
# Sessions

What an open file answers when one thing is asked of it after the other.

A file that has been asked something is no longer the file that was opened: it may have read what
the camera says, and pictures that were developed are noted. What it answers is the same, though, as
if nothing had been asked before. Only one answer rests on an earlier one, that about the camera,
and this is kept only when it was read without failure. So what a file remembers of the camera is
what it would read. That is the invariant: every request keeps it, whether it succeeds or fails, and
as long as it holds a request answers as the file that was just opened does.

Settings that a request brings along go to the library and nowhere else. Those of the linear picture
are made of the file's own each time, so the file's own are what the next picture is developed with.

## Main definitions

* `RawFile.afresh`: An open file as if nothing had been asked of it.
* `RawFile.Remembers`: What is remembered of the camera is what would be read.
* `Steady`: A request that answers as if nothing had been asked before.
* `Call`, `Call.request`: What may be asked of a file.
* `Call.options?`: The options that a call has the library develop a picture with.
* `session`: Calls one after the other.

## Theorems

* `Steady.bind`, `steady_get_bind`: Requests made of steady ones.
* `steady_request`: All calls are steady.
* `run_session`: What a session answers and leaves, from any state of a file.
* `session_answers_afresh`: A session answers every call as if it were the first.
-/

namespace Darkroom

variable {env : Environment} {files : Tree Content}

namespace RawFile

/-- An open file as if nothing had been asked of it. -/
def afresh (f : RawFile) : RawFile := { f with exif := none, developments := [] }

/-- What a file remembers of what the camera says is what it would read. -/
def Remembers (env : Environment) (files : Tree Content) (f : RawFile) : Prop :=
  ∀ exif, f.exif = some exif → f.readExif env files = .ok exif

theorem remembers_afresh (f : RawFile) : f.afresh.Remembers env files := by
  intro exif hexif
  cases hexif

theorem readExif_afresh (f : RawFile) : f.afresh.readExif env files = f.readExif env files := rfl

end RawFile

open RawFile

/-- A request that answers as if nothing had been asked before, and leaves the file as good as it
    was. It has the library develop pictures with the options `noted`. -/
structure Steady {α : Type} (env : Environment) (files : Tree Content) (request : Request α)
    (noted : RawFile → List Options) : Prop where
  answer_eq : ∀ {f : RawFile}, f.Remembers env files →
    (request.run f).1 = (request.run f.afresh).1
  afresh_eq : ∀ {f : RawFile}, f.Remembers env files → (request.run f).2.afresh = f.afresh
  remembers : ∀ {f : RawFile}, f.Remembers env files → (request.run f).2.Remembers env files
  developments_eq : ∀ {f : RawFile}, f.Remembers env files →
    (request.run f).2.developments = f.developments ++ noted f.afresh

/-- The options of a request that has no pictures developed. -/
def nothingNoted : RawFile → List Options := fun _ => []

/-- The options of a sequence: those of its first part, and those of the second part if the first
    has not failed. -/
def notedInTurn {α : Type} (first : Request α) (noted : RawFile → List Options)
    (notedNext : α → RawFile → List Options) (f : RawFile) : List Options :=
  noted f ++ match (first.run f).1 with
    | .ok a => notedNext a f
    | .error _ => []

section

variable {α β : Type}

/-- An answer that is known, or a failure, leaves everything as it is. -/
theorem steady_of_run_eq {request : Request α} (answer : Except Failure α)
    (h : ∀ f, request.run f = (answer, f)) : Steady env files request nothingNoted where
  answer_eq := by
    intro f _
    rw [h f, h f.afresh]
  afresh_eq := by
    intro f _
    rw [h f]
  remembers := by
    intro f hf
    rw [h f]
    exact hf
  developments_eq := by
    intro f _
    rw [h f]
    exact (List.append_nil _).symm

theorem steady_pure (a : α) : Steady env files (pure a : Request α) nothingNoted :=
  steady_of_run_eq (.ok a) fun _ => rfl

theorem steady_throw (failure : Failure) :
    Steady env files (throw failure : Request α) nothingNoted :=
  steady_of_run_eq (.error failure) fun _ => rfl

theorem steady_liftExcept (e : Except Failure α) :
    Steady env files (liftM e : Request α) nothingNoted :=
  steady_of_run_eq e fun _ => rfl

/-- A known answer is handed on. -/
theorem liftExcept_ok_bind (a : α) (next : α → Request β) :
    (liftM (.ok a : Except Failure α) : Request α) >>= next = next a := rfl

/-- Nothing follows a failure. -/
theorem steady_throw_bind (failure : Failure) (next : α → Request β) :
    Steady env files (throw failure >>= next) nothingNoted :=
  steady_of_run_eq (.error failure) fun _ => rfl

/-- A sequence of steady requests is steady. -/
theorem Steady.bind {first : Request α} {next : α → Request β} {noted : RawFile → List Options}
    {notedNext : α → RawFile → List Options} (hfirst : Steady env files first noted)
    (hnext : ∀ a, Steady env files (next a) (notedNext a)) :
    Steady env files (first >>= next) (notedInTurn first noted notedNext) := by
  -- From every state the second part starts where the first has left a state as good as before.
  have hrun : ∀ {f : RawFile}, f.Remembers env files → ∃ u, u.Remembers env files ∧
      u.afresh = f.afresh ∧ u.developments = f.developments ++ noted f.afresh ∧
      (first >>= next).run f = match (first.run f.afresh).1 with
        | .ok a => (next a).run u
        | .error e => (.error e, u) := by
    intro f hf
    refine ⟨(first.run f).2, hfirst.remembers hf, hfirst.afresh_eq hf,
      hfirst.developments_eq hf, ?_⟩
    rw [run_bind, ← hfirst.answer_eq hf]
    rcases first.run f with ⟨_ | _, _⟩ <;> rfl
  refine ⟨?_, ?_, ?_, ?_⟩
  · -- Where the second part starts is the same but for what is remembered, so it answers the same.
    intro f hf
    rcases hrun hf with ⟨u, hu, huf, -, hrunf⟩
    rcases hrun (remembers_afresh f) with ⟨v, hv, hvf, -, hrunv⟩
    rw [hrunf, hrunv]
    show (match (first.run f.afresh).1 with
      | .ok a => (next a).run u
      | .error e => (.error e, u)).1 = (match (first.run f.afresh).1 with
      | .ok a => (next a).run v
      | .error e => (.error e, v)).1
    cases (first.run f.afresh).1 with
    | error e => rfl
    | ok a =>
      have huv : u.afresh = v.afresh := huf.trans hvf.symm
      simp only
      rw [(hnext a).answer_eq hu, (hnext a).answer_eq hv, huv]
  · intro f hf
    rcases hrun hf with ⟨u, hu, huf, -, hrunf⟩
    rw [hrunf]
    cases (first.run f.afresh).1 with
    | error e => exact huf
    | ok a => exact ((hnext a).afresh_eq hu).trans huf
  · intro f hf
    rcases hrun hf with ⟨u, hu, -, -, hrunf⟩
    rw [hrunf]
    cases (first.run f.afresh).1 with
    | error e => exact hu
    | ok a => exact (hnext a).remembers hu
  · intro f hf
    rcases hrun hf with ⟨u, hu, huf, hnoted, hrunf⟩
    rw [hrunf]
    unfold notedInTurn
    cases (first.run f.afresh).1 with
    | error e => rw [List.append_nil]; exact hnoted
    | ok a =>
      simp only
      rw [(hnext a).developments_eq hu, hnoted, huf, List.append_assoc]

/-- What follows a request without having pictures developed adds no options. -/
theorem Steady.bind_silent {first : Request α} {next : α → Request β}
    {noted : RawFile → List Options} (hfirst : Steady env files first noted)
    (hnext : ∀ a, Steady env files (next a) nothingNoted) :
    Steady env files (first >>= next) noted := by
  have hnoted : notedInTurn first noted (fun _ => nothingNoted) = noted := by
    funext f
    unfold notedInTurn nothingNoted
    cases (first.run f).1 <;> exact List.append_nil _
  rw [← hnoted]
  exact hfirst.bind hnext

/-- A request that looks at the file, but not at what has been read and noted. -/
theorem steady_get_bind {next : RawFile → Request α} (noted : RawFile → RawFile → List Options)
    (hafresh : ∀ f, next f = next f.afresh) (hnext : ∀ f, Steady env files (next f) (noted f)) :
    Steady env files (get >>= next) (fun f => noted f f) := by
  have hrun : ∀ f : RawFile, (get >>= next : Request α).run f = (next f.afresh).run f := by
    intro f
    rw [run_bind, ← hafresh f]
    rfl
  refine ⟨?_, ?_, ?_, ?_⟩
  · intro f hf
    rw [hrun, hrun]
    exact (hnext f.afresh).answer_eq hf
  · intro f hf
    rw [hrun]
    exact (hnext f.afresh).afresh_eq hf
  · intro f hf
    rw [hrun]
    exact (hnext f.afresh).remembers hf
  · intro f hf
    rw [hrun]
    exact (hnext f.afresh).developments_eq hf

end

/-! The requests. -/

namespace RawFile

/-- What is remembered would be read again, so both ways lead to one answer. -/
theorem run_exifData {f : RawFile} (hf : f.Remembers env files) :
    (exifData env files).run f = match f.readExif env files with
      | .ok exif => (.ok exif, { f with exif := some exif })
      | .error e => (.error e, f) := by
  have hget : (get : Request RawFile).run f = (.ok f, f) := rfl
  unfold exifData
  rw [run_bind, hget]
  dsimp only
  cases hexif : f.exif with
  | some exif =>
    -- Nothing is read, and nothing changes.
    have hfile : { f with exif := some exif } = f := by rw [← hexif]
    rw [hf exif hexif]
    simp only [hfile]
    rfl
  | none =>
    cases f.readExif env files with
    | error e => rfl
    | ok exif => rfl

theorem steady_exifData : Steady env files (exifData env files) nothingNoted := by
  refine ⟨?_, ?_, ?_, ?_⟩
  · intro f hf
    rw [run_exifData hf, run_exifData (remembers_afresh f), readExif_afresh]
    cases f.readExif env files <;> rfl
  · intro f hf
    rw [run_exifData hf]
    cases f.readExif env files <;> rfl
  · intro f hf
    rw [run_exifData hf]
    cases hread : f.readExif env files with
    | error e =>
      -- A failure is not remembered, so the camera is asked again next time.
      exact hf
    | ok exif =>
      intro exif' hexif'
      cases hexif'
      exact hread
  · intro f hf
    rw [run_exifData hf]
    cases f.readExif env files <;> exact (List.append_nil _).symm

theorem steady_metadata : Steady env files (metadata env files) nothingNoted := by
  refine steady_get_bind (fun _ => nothingNoted) (fun _ => rfl) fun f => ?_
  refine (steady_liftExcept f.handle.sizes).bind_silent fun _ => ?_
  refine steady_exifData.bind_silent fun exif => ?_
  exact steady_get_bind (fun _ => nothingNoted) (fun _ => rfl) fun f =>
    steady_liftExcept (f.metadataWith exif)

theorem steady_processingInfo : Steady env files (processingInfo env files) nothingNoted :=
  steady_metadata.bind_silent fun known => steady_pure known.summary

theorem steady_mosaic : Steady env files mosaic nothingNoted :=
  steady_get_bind (fun _ => nothingNoted) (fun _ => rfl) fun f =>
    steady_liftExcept f.mosaicOf

theorem steady_mosaicChannels : Steady env files mosaicChannels nothingNoted :=
  steady_mosaic.bind_silent fun m => steady_liftExcept (m.plane.splitChannels m.pattern)

theorem steady_thumbnail : Steady env files (thumbnail env) nothingNoted := by
  unfold thumbnail
  by_cases hraw : env.libraries.raw.isNone = true
  · rw [if_pos hraw]
    exact steady_throw_bind .wrongAttribute _
  · rw [if_neg hraw]
    refine steady_get_bind (fun _ => nothingNoted) (fun _ => rfl) fun f => ?_
    cases f.handle.preview with
    | absent => exact steady_pure none
    | failure reason => exact steady_throw (.library reason)
    | jpeg data =>
      simp only
      by_cases hother : env.libraries.pictures.other = true
      · rw [if_pos hother]
        exact (steady_liftExcept _).bind_silent fun size => steady_pure _
      · rw [if_neg hother]
        exact (steady_pure none).bind_silent fun size => steady_pure _
    | bitmap samples =>
      simp only
      split
      · exact steady_pure _
      · exact steady_throw .wrongIndex

/-- The options that settings come to, if there is a library to take them. -/
def developedWith? (env : Environment) (settings : DecodeSettings Given) : Option Options :=
  if env.libraries.raw.isNone then none else settings.options.toOption

/-- A picture is noted before it is known whether the library succeeds. -/
theorem steady_develop (settings : DecodeSettings Given) :
    Steady env files (develop env settings) fun _ => (developedWith? env settings).toList := by
  unfold develop developedWith?
  by_cases hraw : env.libraries.raw.isNone = true
  · rw [if_pos hraw, if_pos hraw]
    exact steady_throw_bind .wrongAttribute _
  · rw [if_neg hraw, if_neg hraw]
    cases settings.options with
    | error e => exact steady_of_run_eq (.error e) fun _ => rfl
    | ok options =>
      simp only [liftExcept_ok_bind]
      have hnote : Steady env files (modify fun f : RawFile =>
          { f with developments := f.developments ++ [options] } : Request PUnit)
          fun _ => [options] :=
        ⟨fun _ => rfl, fun _ => rfl, fun hf => hf, fun _ => rfl⟩
      refine hnote.bind_silent fun _ => ?_
      refine steady_get_bind (fun _ => nothingNoted) (fun _ => rfl) fun f => ?_
      cases f.handle.development options with
      | failure reason => exact steady_throw _
      | picture samples => exact steady_liftExcept _

theorem steady_render (settings : Option (DecodeSettings Given)) (adjustment : Option Adjustment)
    (rows : Option Number) : Steady env files (render env settings adjustment rows)
      fun f => (developedWith? env (settings.getD f.settings)).toList := by
  refine steady_get_bind (fun f _ => (developedWith? env (settings.getD f.settings)).toList)
    (fun _ => rfl) fun f => (steady_develop _).bind_silent fun picture => ?_
  cases adjustment with
  | none => exact steady_pure picture
  | some a =>
    simp only
    by_cases hidentity : a.isIdentity = true
    · rw [if_pos hidentity]
      exact steady_pure picture
    · rw [if_neg hidentity]
      exact steady_liftExcept _

/-- The options of the linear picture: the file's settings with its own changes, if these still meet
    all constraints. -/
def linearOptions? (env : Environment) (settings : DecodeSettings Given) : Option Options :=
  match (linearSettings settings).check with
  | .ok _ => developedWith? env (linearSettings settings)
  | .error _ => none

theorem steady_linearPicture : Steady env files (linearPicture env)
    fun f => (linearOptions? env f.settings).toList := by
  refine steady_get_bind (fun f _ => (linearOptions? env f.settings).toList)
    (fun _ => rfl) fun f => ?_
  show Steady env files (liftM (linearSettings f.settings).check >>= fun _ =>
    develop env (linearSettings f.settings) >>= fun picture => pure (channelPlanes picture)) _
  unfold linearOptions?
  cases (linearSettings f.settings).check with
  | error e => exact steady_of_run_eq (.error e) fun _ => rfl
  | ok _ =>
    rw [liftExcept_ok_bind]
    exact (steady_develop _).bind_silent fun picture => steady_pure _

end RawFile

/-- What may be asked of an open file. -/
inductive Call where
  | metadata
  | processingInfo
  | mosaic
  | mosaicChannels
  | linearPicture
  | thumbnail
  | render (settings : Option (DecodeSettings Given)) (adjustment : Option Adjustment)
    (rows : Option Number)

/-- What an open file answers. -/
inductive Answer where
  | known (metadata : RawMetadata)
  | summary (value : Value)
  | mosaic (m : RawMosaic)
  | samples (a : Samples)
  | preview (thumbnail : Option Thumbnail)
  | picture (buffer : PixelBuffer)

namespace Call

/-- The request that a call makes. -/
def request (env : Environment) (files : Tree Content) : Call → Request Answer
  | metadata => do return .known (← RawFile.metadata env files)
  | processingInfo => do return .summary (← RawFile.processingInfo env files)
  | mosaic => do return .mosaic (← RawFile.mosaic)
  | mosaicChannels => do return .samples (← RawFile.mosaicChannels)
  | linearPicture => do return .samples (← RawFile.linearPicture env)
  | thumbnail => do return .preview (← RawFile.thumbnail env)
  | render settings adjustment rows => do
    return .picture (← RawFile.render env settings adjustment rows)

/-- The options that a call has the library develop a picture with, for a file with the settings
    `own`. A call for a picture may bring settings, and the linear picture changes the file's. -/
def options? (env : Environment) (own : DecodeSettings Given) : Call → Option Options
  | render settings _ _ => developedWith? env (settings.getD own)
  | linearPicture => linearOptions? env own
  | _ => none

end Call

/-- A call answers as if it were the first one, and all that stays of it is what the camera says and
    the options of its picture. -/
theorem steady_request (call : Call) : Steady env files (call.request env files)
    fun f => (call.options? env f.settings).toList := by
  cases call with
  | metadata => exact steady_metadata.bind_silent fun _ => steady_pure _
  | processingInfo => exact steady_processingInfo.bind_silent fun _ => steady_pure _
  | mosaic => exact steady_mosaic.bind_silent fun _ => steady_pure _
  | mosaicChannels => exact steady_mosaicChannels.bind_silent fun _ => steady_pure _
  | linearPicture => exact steady_linearPicture.bind_silent fun _ => steady_pure _
  | thumbnail => exact steady_thumbnail.bind_silent fun _ => steady_pure _
  | render settings adjustment rows =>
    exact (steady_render settings adjustment rows).bind_silent fun _ => steady_pure _

/-- Calls one after the other. A call that fails does not keep the next one from being asked. -/
def session (env : Environment) (files : Tree Content) (calls : List Call) :
    StateM RawFile (List (Except Failure Answer)) :=
  calls.mapM fun call => (call.request env files).run

theorem run_session_cons (call : Call) (rest : List Call) (f : RawFile) :
    (session env files (call :: rest)).run f =
      (((call.request env files).run f).1 ::
          ((session env files rest).run ((call.request env files).run f).2).1,
        ((session env files rest).run ((call.request env files).run f).2).2) := by
  unfold session
  rw [List.mapM_cons]
  rfl

/-- A session answers from any state of a file what the calls answer from the first one, each on its
    own, and notes the options of their pictures in order. -/
theorem run_session (calls : List Call) {f : RawFile} (hf : f.Remembers env files) :
    ∃ after, (session env files calls).run f =
        (calls.map fun call => ((call.request env files).run f.afresh).1, after) ∧
      after.afresh = f.afresh ∧
      after.developments = f.developments ++ calls.filterMap (Call.options? env f.settings) := by
  induction calls generalizing f with
  | nil => exact ⟨f, rfl, rfl, (List.append_nil _).symm⟩
  | cons call rest ih =>
    -- The first call leaves a file that is as before when seen afresh, and the rest only sees that.
    have hsteady : Steady env files (call.request env files) _ := steady_request call
    have hafresh := hsteady.afresh_eq hf
    rcases ih (hsteady.remembers hf) with ⟨after, hrun, hafter, hnoted⟩
    have hsettings : ((call.request env files).run f).2.afresh.settings = f.afresh.settings := by
      rw [hafresh]
    refine ⟨after, ?_, hafter.trans hafresh, ?_⟩
    · rw [run_session_cons, hrun, hafresh, hsteady.answer_eq hf, List.map_cons]
    · rw [hnoted, hsteady.developments_eq hf, List.append_assoc, List.filterMap_cons]
      show f.developments ++ ((call.options? env f.settings).toList ++
        rest.filterMap (Call.options? env ((call.request env files).run f).2.afresh.settings)) = _
      rw [hsettings]
      show f.developments ++ ((call.options? env f.settings).toList ++
        rest.filterMap (Call.options? env f.settings)) = _
      cases call.options? env f.settings <;> rfl

/-- Whatever is asked of an open file, in whatever order, each call is answered as a file answers it
    that has just been opened, and the library has been asked for exactly the pictures that the
    calls want, in their order. The file shows the same handle and has the same settings as
    before. -/
theorem session_answers_afresh (handle : Handle) (settings : DecodeSettings Given)
    (source : Option Source) (calls : List Call) :
    ∃ after, (session env files calls).run (ofHandle handle settings source) =
        (calls.map fun call =>
          ((call.request env files).run (ofHandle handle settings source)).1, after) ∧
      after.developments = calls.filterMap (Call.options? env settings) ∧
      after.handle = handle ∧ after.settings = settings ∧ after.source = source := by
  have hopen : (ofHandle handle settings source).Remembers env files :=
    remembers_afresh (ofHandle handle settings source)
  rcases run_session calls hopen with ⟨after, hrun, hafter, hnoted⟩
  refine ⟨after, hrun, hnoted, ?_, ?_, ?_⟩
  · exact congrArg RawFile.handle hafter
  · exact congrArg RawFile.settings hafter
  · exact congrArg RawFile.source hafter

end Darkroom
