import Darkroom.Files.Filing

/-!
# Steps that End Well

What is known about steps that change a state and may fail, when they do not fail.

Commands, actions on files and requests to an open file are all steps of this kind. A sequence of
them ends well exactly when each of its steps does, each from the state that the one before has
left. So what has ended well can be taken apart step by step, and what consists of such steps can be
put together.

## Main definitions

* `EndsWell`: A step ends with a result and leaves a state.

## Theorems

* `ok_bind_iff`, `endsWell_bind`: A sequence of steps, without and with a state.
* `endsWell_liftExcept_bind`, `endsWell_get_bind`, `endsWell_modify_bind`: How sequences begin.
* `Filing.endsWell_storeArchive`, `Filing.endsWell_storeRecord`: What commands write.
-/

namespace Darkroom

/-- What may fail and is followed by something else succeeds when both parts do. -/
theorem ok_bind_iff {ε α β : Type} {first : Except ε α} {next : α → Except ε β} {b : β} :
    first >>= next = .ok b ↔ ∃ a, first = .ok a ∧ next a = .ok b := by
  rcases first with e | a
  · refine iff_of_false (fun h => by cases h) ?_
    rintro ⟨a, h, -⟩
    cases h
  · refine ⟨fun h => ⟨a, rfl, h⟩, ?_⟩
    rintro ⟨_, h, hnext⟩
    cases h
    exact hnext

/-- What may fail and is followed by something else fails when one of both parts does. -/
theorem error_bind_iff {ε α β : Type} {first : Except ε α} {next : α → Except ε β} {e : ε} :
    first >>= next = .error e ↔ first = .error e ∨ ∃ a, first = .ok a ∧ next a = .error e := by
  rcases first with e' | a
  · refine ⟨fun h => Or.inl (by cases h; rfl), ?_⟩
    rintro (h | ⟨a, h, -⟩)
    · cases h
      rfl
    · cases h
  · refine ⟨fun h => Or.inr ⟨a, rfl, h⟩, ?_⟩
    rintro (h | ⟨_, h, hnext⟩)
    · cases h
    · cases h
      exact hnext

/-- Equal results give equal values. -/
theorem ok_unique {ε α : Type} {result result' : Except ε α} {a b : α} (h : result = result')
    (ha : result = .ok a) (hb : result' = .ok b) : a = b :=
  Except.ok.inj (ha.symm.trans (h.trans hb))

/-- A failure gives nothing. -/
theorem not_exists_ok {ε α : Type} (e : ε) : ¬∃ a : α, (Except.error e : Except ε α) = .ok a := by
  rintro ⟨a, h⟩
  cases h

section

variable {ε σ α β : Type}

/-- From the state `s`, a step ends with the result `a` and leaves the state `t`. -/
def EndsWell (step : ExceptT ε (StateM σ) α) (s : σ) (a : α) (t : σ) : Prop :=
  step.run s = (.ok a, t)

theorem endsWell_pure {a b : α} {s t : σ} :
    EndsWell (pure a : ExceptT ε (StateM σ) α) s b t ↔ a = b ∧ s = t := by
  unfold EndsWell
  constructor
  · intro h
    cases h
    exact ⟨rfl, rfl⟩
  · rintro ⟨rfl, rfl⟩
    rfl

/-- A sequence goes on from the state that its first part has left, unless that has failed. -/
theorem run_bind {step : ExceptT ε (StateM σ) α} {next : α → ExceptT ε (StateM σ) β} (s : σ) :
    (step >>= next).run s =
      match step.run s with
      | (.ok a, u) => (next a).run u
      | (.error e, u) => (.error e, u) := by
  show (match step s with
    | (result, u) => ExceptT.bindCont next result u) = _
  unfold ExceptT.run
  rcases step s with ⟨result, u⟩
  cases result <;> rfl

/-- A sequence ends well when both of its parts do. -/
theorem endsWell_bind {step : ExceptT ε (StateM σ) α} {next : α → ExceptT ε (StateM σ) β} {s t : σ}
    {b : β} :
    EndsWell (step >>= next) s b t ↔ ∃ a u, EndsWell step s a u ∧ EndsWell (next a) u b t := by
  unfold EndsWell
  rw [run_bind]
  rcases step.run s with ⟨e | a, u⟩
  · -- A failure of the first part is one of the whole.
    constructor
    · intro h
      cases h
    · rintro ⟨a, u', h, -⟩
      cases h
  · constructor
    · intro h
      exact ⟨a, u, rfl, h⟩
    · rintro ⟨a', u', h, hnext⟩
      cases h
      exact hnext

theorem endsWell_liftExcept {e : Except ε α} {s t : σ} {a : α} :
    EndsWell (liftM e : ExceptT ε (StateM σ) α) s a t ↔ e = .ok a ∧ s = t := by
  unfold EndsWell
  constructor
  · intro h
    cases h
    exact ⟨rfl, rfl⟩
  · rintro ⟨rfl, rfl⟩
    rfl

/-! The beginnings of a sequence. -/

variable {b : β} {s t : σ}

theorem endsWell_liftExcept_bind {e : Except ε α} {next : α → ExceptT ε (StateM σ) β} :
    EndsWell ((liftM e : ExceptT ε (StateM σ) α) >>= next) s b t ↔
      ∃ a, e = .ok a ∧ EndsWell (next a) s b t := by
  rw [endsWell_bind]
  constructor
  · rintro ⟨a, u, h, hnext⟩
    rcases endsWell_liftExcept.mp h with ⟨he, rfl⟩
    exact ⟨a, he, hnext⟩
  · rintro ⟨a, he, hnext⟩
    exact ⟨a, s, endsWell_liftExcept.mpr ⟨he, rfl⟩, hnext⟩

theorem endsWell_get_bind {next : σ → ExceptT ε (StateM σ) β} :
    EndsWell (get >>= next) s b t ↔ EndsWell (next s) s b t := by
  unfold EndsWell
  rw [run_bind]
  rfl

theorem endsWell_set_bind {u : σ} {next : PUnit → ExceptT ε (StateM σ) β} :
    EndsWell (set u >>= next) s b t ↔ EndsWell (next ⟨⟩) u b t := by
  unfold EndsWell
  rw [run_bind]
  rfl

theorem endsWell_modify_bind {f : σ → σ} {next : PUnit → ExceptT ε (StateM σ) β} :
    EndsWell (modify f >>= next) s b t ↔ EndsWell (next ⟨⟩) (f s) b t := by
  unfold EndsWell
  rw [run_bind]
  rfl

theorem endsWell_modify {f : σ → σ} {a : PUnit} :
    EndsWell (modify f : ExceptT ε (StateM σ) PUnit) s a t ↔ t = f s := by
  unfold EndsWell
  constructor
  · intro h
    cases h
    rfl
  · rintro rfl
    rfl

theorem endsWell_set {u : σ} {a : PUnit} :
    EndsWell (set u : ExceptT ε (StateM σ) PUnit) s a t ↔ t = u := by
  unfold EndsWell
  constructor
  · intro h
    cases h
    rfl
  · rintro rfl
    rfl

end

namespace Filing

variable {env : Environment} {path : Path} {files after : Tree Content}

theorem endsWell_makeDirectory {a : Unit} :
    EndsWell (makeDirectory env path) files a after ↔
      files.makeDirectory env.directory path = .ok after := by
  unfold makeDirectory
  rw [endsWell_get_bind]
  cases hmade : files.makeDirectory env.directory path with
  | ok made =>
    rw [endsWell_set, Except.ok.injEq]
    exact eq_comm
  | error failure =>
    -- What was begun is kept, but the action fails.
    refine iff_of_false (fun h => ?_) (fun h => by cases h)
    rw [endsWell_set_bind] at h
    cases h

theorem endsWell_write {content : Content} {a : Unit} :
    EndsWell (write env path content) files a after ↔
      files.write env.directory path content = .ok after := by
  unfold write
  rw [endsWell_get_bind, endsWell_liftExcept_bind]
  simp only [endsWell_set]
  constructor
  · rintro ⟨_, h, rfl⟩
    exact h
  · intro h
    exact ⟨_, h, rfl⟩

/-- An archive is written beside its directory's other files. -/
theorem endsWell_storeArchive {archive : TensorArchive} {a : Unit} :
    EndsWell (storeArchive env path archive) files a after ↔
      ∃ made, files.makeDirectory env.directory path.parent = .ok made ∧
        made.write env.directory (TensorArchive.path path) (.archive archive) = .ok after := by
  unfold storeArchive
  simp only [endsWell_bind, endsWell_makeDirectory, endsWell_write]
  constructor
  · rintro ⟨_, made, hmade, hwrite⟩
    exact ⟨made, hmade, hwrite⟩
  · rintro ⟨made, hmade, hwrite⟩
    exact ⟨⟨⟩, made, hmade, hwrite⟩

/-- A record is written as its text. -/
theorem endsWell_storeRecord {record : Record} {a : Unit} :
    EndsWell (storeRecord env path record) files a after ↔
      ∃ made text, files.makeDirectory env.directory path.parent = .ok made ∧
        record.text = .ok text ∧ made.write env.directory path (.text text) = .ok after := by
  unfold storeRecord storeEntries
  simp only [endsWell_bind, endsWell_makeDirectory, endsWell_liftExcept, endsWell_write]
  constructor
  · rintro ⟨_, made, hmade, text, _, ⟨htext, rfl⟩, hwrite⟩
    exact ⟨made, text, hmade, htext, hwrite⟩
  · rintro ⟨made, text, hmade, htext, hwrite⟩
    exact ⟨⟨⟩, made, hmade, text, made, ⟨htext, rfl⟩, hwrite⟩

end Filing

end Darkroom
