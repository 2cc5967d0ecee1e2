import PromptDraw.Diagnostic
import PromptDraw.Failure

/-!
Steps of a run: what a step logs, what it writes, and what it results in. When a
step fails the steps after it do not take place, but what was logged and written
before the failure stays.
-/

namespace PromptDraw

structure Run (α : Type) where
  log : List Diagnostic
  output : Text
  result : Except Failure α

namespace Run

variable {α β : Type}

protected def pure (a : α) : Run α :=
  ⟨[], [], .ok a⟩

protected def bind (step : Run α) (next : α → Run β) : Run β :=
  match step.result with
  | .error failure => ⟨step.log, step.output, .error failure⟩
  | .ok a => ⟨step.log ++ (next a).log, step.output ++ (next a).output, (next a).result⟩

instance : Monad Run where
  pure := Run.pure
  bind := Run.bind

def fail (failure : Failure) : Run α :=
  ⟨[], [], .error failure⟩

/-- Goes on with a result that may be a failure. -/
def lift (result : Except Failure α) : Run α :=
  ⟨[], [], result⟩

def record (entries : List Diagnostic) : Run Unit :=
  ⟨entries, [], .ok ()⟩

def put (text : Text) : Run Unit :=
  ⟨[], text, .ok ()⟩

@[simp] theorem pure_eq (a : α) : (pure a : Run α) = ⟨[], [], .ok a⟩ := rfl

theorem bind_of_ok {step : Run α} {a : α} (h : step.result = .ok a) (next : α → Run β) :
    (step >>= next) =
      ⟨step.log ++ (next a).log, step.output ++ (next a).output, (next a).result⟩ := by
  change Run.bind step next = _
  rw [Run.bind, h]

theorem bind_of_error {step : Run α} {failure : Failure} (h : step.result = .error failure)
    (next : α → Run β) : (step >>= next) = ⟨step.log, step.output, .error failure⟩ := by
  change Run.bind step next = _
  rw [Run.bind, h]

end Run

end PromptDraw
