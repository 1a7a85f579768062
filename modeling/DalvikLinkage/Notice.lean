import DalvikLinkage.ClassPath.Error

/-!
# Notices

Things worth telling a user that do not stop the work. A `Logged` computation has an outcome and the
notices given on the way; they are kept when the outcome is a failure.
-/
namespace DalvikLinkage

/-- A remark that does not stop the work. -/
inductive Notice
  /-- The class data of a class could not be read and is left out. -/
  | classDataSkipped (type : UInt32) (fault : Fault)
  /-- An image is of a version that the API level does not support. -/
  | versionTooNew (name : String) (version : Nat) (apiLevel : Int)
  /-- The input file could not be asked for its boot class path. -/
  | inputNotInspected (path : Path) (error : ClassPath.Error)
  | keyValueStoreMissing
  deriving DecidableEq, Repr

def Notice.message : Notice → String
  | .classDataSkipped type fault =>
    s!"Skipping unreadable class_data_item of type #{type.toNat}: {fault.message}"
  | .versionTooNew name version apiLevel =>
    s!"{name} is dex version {Number.decimal 3 version}, newer than API level {apiLevel} supports"
  | .inputNotInspected path error =>
    s!"cannot inspect {path.text} for a boot classpath: {error.message}"
  | .keyValueStoreMissing => "oat header carries no readable key/value store"

/-- An outcome and the notices given on the way to it, in order. -/
structure Logged (ε α : Type) where
  notices : List Notice
  outcome : Except ε α
  deriving Repr

namespace Logged

variable {ε ε' α β : Type}

/-- An outcome without notices. -/
def of (outcome : Except ε α) : Logged ε α :=
  ⟨[], outcome⟩

def value (a : α) : Logged ε α :=
  of (.ok a)

def fail (e : ε) : Logged ε α :=
  of (.error e)

/-- A notice on the way. -/
def note (notices : List Notice) : Logged ε Unit :=
  ⟨notices, .ok ()⟩

/-- Goes on with the value; a failure ends the computation and keeps the notices so far. -/
def andThen (x : Logged ε α) (next : α → Logged ε β) : Logged ε β :=
  match x.outcome with
  | .ok a =>
    let rest := next a
    ⟨x.notices ++ rest.notices, rest.outcome⟩
  | .error e => ⟨x.notices, .error e⟩

instance : Monad (Logged ε) where
  pure := value
  bind := andThen

def mapError (f : ε → ε') (x : Logged ε α) : Logged ε' α :=
  ⟨x.notices, x.outcome.mapError f⟩

@[simp]
theorem outcome_pure (a : α) : (pure a : Logged ε α).outcome = .ok a := rfl

@[simp]
theorem outcome_of (outcome : Except ε α) : (of outcome).outcome = outcome := rfl

@[simp]
theorem outcome_fail (e : ε) : (fail e : Logged ε α).outcome = .error e := rfl

@[simp]
theorem outcome_mapError_eq_ok_iff {f : ε → ε'} {x : Logged ε α} {a : α} :
    (x.mapError f).outcome = .ok a ↔ x.outcome = .ok a := by
  change x.outcome.mapError f = .ok a ↔ _
  cases x.outcome with
  | ok b =>
    change Except.ok b = .ok a ↔ Except.ok b = Except.ok a
    simp
  | error e =>
    change Except.error (f e) = .ok a ↔ Except.error e = .ok a
    simp

/-- Work in steps succeeds if each step does, with the value of the one before. -/
theorem outcome_bind_eq_ok_iff {x : Logged ε α} {next : α → Logged ε β} {b : β} :
    (x >>= next).outcome = .ok b ↔ ∃ a, x.outcome = .ok a ∧ (next a).outcome = .ok b := by
  change (andThen x next).outcome = .ok b ↔ _
  cases h : x.outcome <;> simp [andThen, h]

end Logged
end DalvikLinkage
