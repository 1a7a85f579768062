import DalvikLinkage.Repository.Hierarchy
import Mathlib.Logic.Relation

/-!
# What a walk reaches

`Reaches` goes up from a class through any number of direct supertypes that are defined. A walk is
one list that is cut short by what it has seen, so that it reaches anything is shown from outside:
it stays within what is reachable, and what it visits is closed under going on, up to the classes it
was told to pass over.

Results:
* `exists_of_mem_walk`: whatever is visited is reached from the types to visit;
* `mem_walk_of_todo`, `mem_walk_of_step`: the types to visit, and those after a visited class, are
  visited or were seen before.
-/
namespace DalvikLinkage.Repository

open Relation

variable {r : Repository} {next : ClassDef → List String} {todo seen : List String}
  {c d x : ClassDef} {t : String}

/-- One of the types that `next` names after `c` is defined by `d`. -/
def Step (r : Repository) (next : ClassDef → List String) (c d : ClassDef) : Prop :=
  ∃ t ∈ next c, r.find? t = some d

/-- A direct supertype of `c` is defined by `d`. -/
def Above (r : Repository) : ClassDef → ClassDef → Prop :=
  r.Step ClassDef.supertypes

/-- Supertypes lead from `c` up to `d`, in any number of steps and none included. -/
def Reaches (r : Repository) : ClassDef → ClassDef → Prop :=
  ReflTransGen r.Above

theorem find?_self (h : r.find? t = some c) : r.find? c.descriptor = some c := by
  rwa [find?_descriptor h]

/-- Two classes of the repository with one descriptor are the same. -/
theorem eq_of_descriptor (hc : r.find? c.descriptor = some c)
    (hd : r.find? d.descriptor = some d) (h : d.descriptor = c.descriptor) : d = c := by
  rw [h, hc] at hd
  exact (Option.some.inj hd).symm

theorem Step.find?_self (h : r.Step next c d) : r.find? d.descriptor = some d := by
  obtain ⟨t, -, ht⟩ := h
  exact Repository.find?_self ht

/-- The order in which types are named does not matter to what is reached. -/
theorem step_congr {next' : ClassDef → List String} (h : ∀ c t, t ∈ next c ↔ t ∈ next' c) :
    r.Step next = r.Step next' := by
  funext c d
  exact propext (exists_congr fun t => and_congr_left' (h c t))

theorem Reaches.find?_self (hc : r.find? c.descriptor = some c) (h : r.Reaches c d) :
    r.find? d.descriptor = some d := by
  cases h with
  | refl => exact hc
  | tail _ hd => exact hd.find?_self

/-- What is closed under going up has everything above what it has. -/
theorem Reaches.mem_of_closed {S : ClassDef → Prop} (h : r.Reaches c d) (hc : S c)
    (hS : ∀ x y, S x → r.Above x y → S y) : S d := by
  induction h with
  | refl => exact hc
  | tail _ hxy ih => exact hS _ _ ih hxy

/-! ## Walks -/

theorem exists_of_mem_walk (h : x ∈ r.walk next todo seen) :
    ∃ t ∈ todo, ∃ c, r.find? t = some c ∧ ReflTransGen (r.Step next) c x := by
  fun_induction walk r next todo seen with
  | case1 => cases h
  | case2 seen t rest hc ih =>
    obtain ⟨s, hs, hx⟩ := ih h
    exact ⟨s, List.mem_cons_of_mem t hs, hx⟩
  | case3 seen t rest c hc ht ih =>
    obtain ⟨s, hs, hx⟩ := ih h
    exact ⟨s, List.mem_cons_of_mem t hs, hx⟩
  | case4 seen t rest c hc ht _ ih =>
    rcases List.mem_cons.1 h with rfl | h
    · exact ⟨t, List.mem_cons_self, x, hc, .refl⟩
    obtain ⟨s, hs, d, hd, hx⟩ := ih h
    rcases List.mem_append.1 hs with hs | hs
    · exact ⟨t, List.mem_cons_self, c, hc, .head ⟨s, hs, hd⟩ hx⟩
    · exact ⟨s, List.mem_cons_of_mem t hs, d, hd, hx⟩

/-- What has been visited or seen, when the class that was just visited counts as seen, is visited
or seen when it does not. -/
theorem mem_cons_or_mem {visited : List ClassDef} {s : String} (hc : r.find? t = some c)
    (hd : r.find? s = some d) (h : d ∈ visited ∨ s ∈ t :: seen) :
    d ∈ c :: visited ∨ s ∈ seen := by
  rcases h with h | h
  · exact .inl (List.mem_cons_of_mem c h)
  rcases List.mem_cons.1 h with rfl | h
  · obtain rfl : c = d := Option.some.inj (hc.symm.trans hd)
    exact .inl List.mem_cons_self
  · exact .inr h

theorem mem_walk_of_todo (ht : t ∈ todo) (hd : r.find? t = some d) :
    d ∈ r.walk next todo seen ∨ t ∈ seen := by
  fun_induction walk r next todo seen with
  | case1 => cases ht
  | case2 seen s rest hs ih =>
    rcases List.mem_cons.1 ht with rfl | ht
    · rw [hs] at hd; cases hd
    · exact ih ht
  | case3 seen s rest c hs hseen ih =>
    rcases List.mem_cons.1 ht with rfl | ht
    · exact .inr (by simpa using hseen)
    · exact ih ht
  | case4 seen s rest c hs hseen _ ih =>
    rcases List.mem_cons.1 ht with rfl | ht
    · obtain rfl : c = d := Option.some.inj (hs.symm.trans hd)
      exact .inl List.mem_cons_self
    exact mem_cons_or_mem hs hd (ih (List.mem_append_right _ ht))

theorem mem_walk_of_step (hx : x ∈ r.walk next todo seen) (hd : r.Step next x d) :
    d ∈ r.walk next todo seen ∨ d.descriptor ∈ seen := by
  fun_induction walk r next todo seen with
  | case1 => cases hx
  | case2 seen t rest hc ih => exact ih hx
  | case3 seen t rest c hc ht ih => exact ih hx
  | case4 seen t rest c hc ht _ ih =>
    refine mem_cons_or_mem hc hd.find?_self ?_
    rcases List.mem_cons.1 hx with rfl | hx
    · obtain ⟨s, hs, hsd⟩ := hd
      rw [find?_descriptor hsd]
      exact mem_walk_of_todo (List.mem_append_left _ hs) hsd
    · exact ih hx

end DalvikLinkage.Repository
