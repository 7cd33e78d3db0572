import Mathlib.Control.Monad.Basic

/-! Python exceptions, as far as some handler of the program tells them apart. -/

namespace Lobbyboy

/-- The classes that are raised; each stands below `Exception`. -/
inductive ExcKind where
  | exception | typeError | attributeError | keyError | valueError | osError | fileNotFoundError
  | fileExistsError | overflowError | zeroDivisionError | jsonDecodeError | calledProcessError
  | sshException | apiError
  | invalidConfigException | timeStrParseTypeException | unsupportedPrivateKeyTypeException
  | userCancelException
  | providerException | noAvailableNameException | noProviderException | noTTYException
  | vagrantProviderException | cantEnsureBytesException
  | footlooseException | igniteException | multipassException
  deriving DecidableEq, Repr

/-- `isinstance(e, ProviderException)`. -/
def ExcKind.isProviderException : ExcKind → Bool
  | .providerException | .noAvailableNameException | .noProviderException | .noTTYException
  | .vagrantProviderException | .cantEnsureBytesException
  | .footlooseException | .igniteException | .multipassException => true
  | _ => false

/-- An exception with the text `str(e)` shows. -/
structure PyExc where
  kind : ExcKind
  msg : String := ""
  deriving DecidableEq, Repr

/-- A sequence returns when both of its parts do. -/
theorem bind_eq_ok {ε α β : Type} {x : Except ε α} {f : α → Except ε β} {b : β} :
    x >>= f = .ok b ↔ ∃ a, x = .ok a ∧ f a = .ok b := by
  cases x <;> simp [bind, Except.bind]

theorem bind_returns_iff {ε α β : Type} {x : Except ε α} {f : α → Except ε β} :
    (∃ b, x >>= f = .ok b) ↔ ∃ a, x = .ok a ∧ ∃ b, f a = .ok b := by
  cases x <;> simp [bind, Except.bind]

@[simp] theorem ok_bind {ε α β : Type} (a : α) (f : α → Except ε β) :
    (Except.ok a : Except ε α) >>= f = f a := rfl

end Lobbyboy
