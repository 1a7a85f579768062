/-!
# Runs

A machine makes a new state out of a state and a step, and says which steps a state admits: those
that can be asked for there at all, such as steps that name only handles given out before. A step
that is admitted may still be refused; the state is then what the refusal leaves.

Results:
* `run_inv`: what every admitted step keeps, every admitted run keeps;
* `run_sim`: two machines that stay related over one admitted step stay related over a run.
-/
namespace DalvikLinkage

structure Machine (σ ε : Type) where
  Admits : σ → ε → Prop
  step : σ → ε → σ

namespace Machine

variable {σ τ ε : Type} (M : Machine σ ε)

/-- The state that a run ends in. -/
def run (s : σ) (es : List ε) : σ :=
  es.foldl M.step s

/-- Every step of a run is admitted where it is taken. -/
def AdmitsRun : σ → List ε → Prop
  | _, [] => True
  | s, e :: es => M.Admits s e ∧ AdmitsRun (M.step s e) es

instance decidableAdmitsRun [∀ s e, Decidable (M.Admits s e)] :
    ∀ s es, Decidable (M.AdmitsRun s es)
  | _, [] => isTrue trivial
  | s, e :: es =>
    have := decidableAdmitsRun (M.step s e) es
    inferInstanceAs (Decidable (M.Admits s e ∧ M.AdmitsRun (M.step s e) es))

/-- An invariant of the steps is an invariant of the runs. -/
theorem run_inv {P : σ → Prop} (hstep : ∀ s e, P s → M.Admits s e → P (M.step s e)) :
    ∀ (es : List ε) (s : σ), P s → M.AdmitsRun s es → P (M.run s es)
  | [], _, hs, _ => hs
  | e :: es, s, hs, h => run_inv hstep es (M.step s e) (hstep s e hs h.1) h.2

/-- A relation that one step of both machines keeps is kept by every run of both. -/
theorem run_sim (N : Machine τ ε) {R : σ → τ → Prop}
    (hstep : ∀ s t e, R s t → M.Admits s e → R (M.step s e) (N.step t e)) :
    ∀ (es : List ε) (s : σ) (t : τ), R s t → M.AdmitsRun s es → R (M.run s es) (N.run t es)
  | [], _, _, hr, _ => hr
  | e :: es, s, t, hr, h =>
    run_sim N hstep es (M.step s e) (N.step t e) (hstep s t e hr h.1) h.2

end Machine
end DalvikLinkage
