/-!
# Results and actions that may fail

A result is a value or an error. An action on a state leaves a state behind in both cases, so what
an action ensures is said about both. The rules put together what the parts of an action ensure.
-/

namespace SwiftTree

section Results

variable {ε ε' α β : Type} {result : Except ε α}

theorem exists_of_isOk (h : result.isOk) : ∃ a, result = .ok a := by
  cases result with
  | error error => cases h
  | ok a => exact ⟨a, rfl⟩

theorem eq_ok_of_toOption {a : α} (h : result.toOption = some a) : result = .ok a := by
  cases result with
  | error error => cases h
  | ok value => exact congrArg Except.ok (Option.some.inj h)

theorem exists_of_map_eq_ok {f : α → β} {value : β} (h : result.map f = .ok value) :
    ∃ a, result = .ok a ∧ f a = value := by
  cases result with
  | error error => cases h
  | ok a => exact ⟨a, rfl, Except.ok.inj h⟩

theorem mapError_ok (f : ε → ε') (a : α) : (.ok a : Except ε α).mapError f = .ok a := rfl

theorem mapError_eq_ok_iff {f : ε → ε'} {a : α} : result.mapError f = .ok a ↔ result = .ok a := by
  constructor
  · intro h
    cases result with
    | error error => cases h
    | ok value => exact congrArg Except.ok (Except.ok.inj h)
  · rintro rfl
    exact mapError_ok f a

theorem throw_eq_error (error : ε) : (throw error : Except ε α) = .error error := rfl

theorem error_bind (error : ε) (f : α → Except ε β) :
    (.error error : Except ε α) >>= f = .error error := rfl

theorem ok_bind (a : α) (f : α → Except ε β) : (.ok a : Except ε α) >>= f = f a := rfl

theorem bind_eq_ok_iff {f : α → Except ε β} {b : β} :
    result >>= f = .ok b ↔ ∃ a, result = .ok a ∧ f a = .ok b := by
  cases result with
  | error error => simp [error_bind]
  | ok a => simp [ok_bind]

end Results

section Actions

variable {σ ε ε' α β : Type} {s after : σ} {a : α} {error : ε}

theorem run_bind (action : StateM σ α) (next : α → StateM σ β) (s : σ) :
    (action >>= next) s = next (action s).1 (action s).2 := rfl

theorem run_map (f : α → β) (action : StateM σ α) (s : σ) :
    (f <$> action) s = (f (action s).1, (action s).2) := rfl

/-- What an action is sure to lead to from a state: the one if it succeeds, the other if it
fails. -/
structure Ensures (action : ExceptT ε (StateM σ) α) (s : σ) (done : α → σ → Prop)
    (failed : ε → σ → Prop) : Prop where
  of_ok : ∀ a after, action.run s = (.ok a, after) → done a after
  of_error : ∀ error after, action.run s = (.error error, after) → failed error after

namespace Ensures

variable {action : ExceptT ε (StateM σ) α} {done done' : α → σ → Prop} {failed failed' : ε → σ → Prop}

theorem run_cases (action : ExceptT ε (StateM σ) α) (s : σ) :
    (∃ a after, action.run s = (.ok a, after)) ∨
      ∃ error after, action.run s = (.error error, after) := by
  cases run : action.run s with
  | mk result after =>
    cases result with
    | ok a => exact .inl ⟨a, after, rfl⟩
    | error error => exact .inr ⟨error, after, rfl⟩

/-- An action that runs like another one ensures the same. -/
theorem of_run_eq {other : ExceptT ε (StateM σ) α} {t : σ} (run : action.run s = other.run t)
    (h : Ensures other t done failed) : Ensures action s done failed where
  of_ok a after same := h.of_ok a after (run ▸ same)
  of_error error after same := h.of_error error after (run ▸ same)

theorem of_run_eq_ok (run : action.run s = (.ok a, after)) (h : done a after) :
    Ensures action s done failed where
  of_ok b later same := by
    rw [run, Prod.mk.injEq, Except.ok.injEq] at same
    exact same.1 ▸ same.2 ▸ h
  of_error error later same := by
    rw [run] at same
    cases same

theorem of_run_eq_error (run : action.run s = (.error error, after)) (h : failed error after) :
    Ensures action s done failed where
  of_ok b later same := by
    rw [run] at same
    cases same
  of_error error later same := by
    rw [run, Prod.mk.injEq, Except.error.injEq] at same
    exact same.1 ▸ same.2 ▸ h

theorem pure (h : done a s) : Ensures (Pure.pure a) s done failed :=
  of_run_eq_ok rfl h

theorem throw (h : failed error s) : Ensures (MonadExcept.throw error) s done failed :=
  of_run_eq_error rfl h

theorem mono (h : Ensures action s done failed)
    (weakerDone : ∀ a after, done a after → done' a after)
    (weakerFailed : ∀ error after, failed error after → failed' error after) :
    Ensures action s done' failed' where
  of_ok a after run := weakerDone a after (h.of_ok a after run)
  of_error error after run := weakerFailed error after (h.of_error error after run)

/-- The run itself may be used for what comes next. -/
theorem traced (h : Ensures action s done failed) :
    Ensures action s (fun a after => action.run s = (.ok a, after) ∧ done a after) failed where
  of_ok a after run := ⟨run, h.of_ok a after run⟩
  of_error := h.of_error

theorem bind {next : α → ExceptT ε (StateM σ) β} {done' : β → σ → Prop}
    (first : Ensures action s done failed)
    (second : ∀ a after, done a after → Ensures (next a) after done' failed) :
    Ensures (action >>= next) s done' failed := by
  obtain ⟨a, after, run⟩ | ⟨error, after, run⟩ := run_cases action s
  · refine of_run_eq ?_ (second a after (first.of_ok a after run))
    rw [ExceptT.run_bind, run_bind, run]
  · refine of_run_eq_error ?_ (first.of_error error after run)
    rw [ExceptT.run_bind, run_bind, run]
    rfl

theorem bind_result {result : Except ε α} {next : α → ExceptT ε (StateM σ) β} {done : β → σ → Prop}
    (ok : ∀ a, result = .ok a → Ensures (next a) s done failed)
    (error : ∀ error, result = .error error → failed error s) :
    Ensures (liftM result >>= next) s done failed := by
  cases result with
  | ok a => exact of_run_eq rfl (ok a rfl)
  | error cause => exact of_run_eq_error rfl (error cause rfl)

theorem tryCatch {handler : ε → ExceptT ε (StateM σ) α} (first : Ensures action s done failed)
    (handled : ∀ error after, failed error after → Ensures (handler error) after done failed') :
    Ensures (MonadExcept.tryCatch action handler) s done failed' := by
  obtain ⟨a, after, run⟩ | ⟨error, after, run⟩ := run_cases action s
  · refine of_run_eq_ok ?_ (first.of_ok a after run)
    rw [ExceptT.run_tryCatch, run_bind, run]
    rfl
  · refine of_run_eq ?_ (handled error after (first.of_error error after run))
    rw [ExceptT.run_tryCatch, run_bind, run]

theorem adapt {f : ε → ε'} {failed' : ε' → σ → Prop}
    (h : Ensures action s done fun error after => failed' (f error) after) :
    Ensures (action.adapt f) s done failed' := by
  obtain ⟨a, after, run⟩ | ⟨error, after, run⟩ := run_cases action s
  · refine of_run_eq_ok ?_ (h.of_ok a after run)
    rw [ExceptT.run_adapt, run_map, run]
    rfl
  · refine of_run_eq_error ?_ (h.of_error error after run)
    rw [ExceptT.run_adapt, run_map, run]
    rfl

end Ensures

end Actions

end SwiftTree
