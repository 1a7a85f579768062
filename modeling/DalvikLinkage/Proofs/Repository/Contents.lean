import DalvikLinkage.Repository.Basic
import Mathlib.Data.List.Forall2

/-!
# What images put into a repository

An image is added key by key and class by class, until something cannot be read. Whether that
happens has nothing to do with what the repository holds already: it is a matter of the image alone,
and an image of which all can be read adds its `Contents`, always the same. So a class path is
accepted if each of its images has contents, and then the repository is made of these, one after the
other.

Results:
* `addImage_eq_ok_iff`: when an image is added, and what that does;
* `outcome_ofProviders_eq_ok_iff`: when a class path is accepted, and as which repository;
* `find?_ofContents`, `fieldReferences_ofContents`, `methodReferences_ofContents`,
  `nodup_ofContents`: what that repository is.
-/
namespace DalvikLinkage

/-- The values before the first error are all values if there is no error. -/
theorem valuesUntilError_eq_ok_iff {ε α : Type} {l : List (Except ε α)} {values : List α} :
    valuesUntilError l = (values, .ok ()) ↔ l = values.map .ok := by
  induction l generalizing values with
  | nil => cases values <;> simp [valuesUntilError]
  | cons x rest ih =>
    cases x with
    | error e => cases values <;> simp [valuesUntilError]
    | ok a =>
      unfold valuesUntilError
      cases values with
      | nil => simp
      | cons v values =>
        rw [List.map_cons, List.cons.injEq, Except.ok.injEq, ← ih]
        simp only [Prod.mk.injEq, List.cons.injEq]
        constructor
        · intro ⟨⟨ha, hvalues⟩, hended⟩
          exact ⟨ha, Prod.ext hvalues hended⟩
        · intro ⟨ha, hrest⟩
          rw [hrest]
          exact ⟨⟨ha, rfl⟩, rfl⟩

/-- What an image puts into a repository. -/
structure Contents where
  fields : List FieldKey
  methods : List MethodKey
  classes : List ClassDef

namespace Contents

open Repository

/-- All keys and classes of the image can be read, and they are these. -/
structure Of (image : Image) (c : Contents) : Prop where
  fields : fieldKeys image = c.fields.map .ok
  methods : methodKeys image = c.methods.map .ok
  classes : classDefs image = c.classes.map .ok

/-- The provider has an image with these contents. -/
def From (p : Provider) (c : Contents) : Prop :=
  ∃ image, p.image.outcome = .ok image ∧ c.Of image

end Contents

namespace Repository

variable {r s : Repository} {image : Image} {p : Provider} {ps : List Provider}
  {cs : List Contents} {defs : List ClassDef} {c : ClassDef} {t : String}

/-! ## Adding -/

def addContents (r : Repository) (c : Contents) : Repository :=
  c.classes.foldl addClass ((r.addFieldReferences c.fields).addMethodReferences c.methods)

/-- The repository that these contents make, one after the other. -/
def ofContents (cs : List Contents) : Repository :=
  cs.foldl addContents empty

/-- An image is added without a fault if and only if it has contents, and then it adds these. -/
theorem addImage_eq_ok_iff :
    r.addImage image = (s, .ok ()) ↔ ∃ c : Contents, c.Of image ∧ s = r.addContents c := by
  constructor
  · intro h
    unfold addImage at h
    rcases hf : valuesUntilError (fieldKeys image) with ⟨fields, fieldsEnded⟩
    rcases hm : valuesUntilError (methodKeys image) with ⟨methods, methodsEnded⟩
    rcases hc : valuesUntilError (classDefs image) with ⟨classes, classesEnded⟩
    simp only [hf, hm, hc] at h
    cases fieldsEnded with
    | error fault => cases h
    | ok =>
      cases methodsEnded with
      | error fault => cases h
      | ok =>
        cases h
        exact ⟨⟨fields, methods, classes⟩, ⟨valuesUntilError_eq_ok_iff.1 hf,
          valuesUntilError_eq_ok_iff.1 hm, valuesUntilError_eq_ok_iff.1 hc⟩, rfl⟩
  · intro ⟨c, hc, hs⟩
    subst hs
    unfold addImage
    simp only [valuesUntilError_eq_ok_iff.2 hc.fields, valuesUntilError_eq_ok_iff.2 hc.methods,
      valuesUntilError_eq_ok_iff.2 hc.classes]
    rfl

theorem outcome_addProvider_eq_ok_iff :
    (r.addProvider p).outcome = .ok s ↔ ∃ c : Contents, c.From p ∧ s = r.addContents c := by
  unfold addProvider
  rw [Logged.outcome_bind_eq_ok_iff]
  constructor
  · intro ⟨image, himage, h⟩
    rcases hadd : r.addImage image with ⟨q, ended⟩
    rw [hadd] at h
    cases ended with
    | error fault => cases h
    | ok =>
      cases h
      obtain ⟨c, hc, hs⟩ := addImage_eq_ok_iff.1 hadd
      exact ⟨c, ⟨image, himage, hc⟩, hs⟩
  · intro ⟨c, ⟨image, himage, hc⟩, hs⟩
    refine ⟨image, himage, ?_⟩
    rw [addImage_eq_ok_iff.2 ⟨c, hc, hs⟩]
    rfl

theorem outcome_foldlM_addProvider_eq_ok_iff :
    (ps.foldlM addProvider r).outcome = .ok s ↔
      ∃ cs, List.Forall₂ Contents.From ps cs ∧ s = cs.foldl addContents r := by
  induction ps generalizing r with
  | nil =>
    rw [List.foldlM_nil, Logged.outcome_pure]
    constructor
    · intro h
      cases h
      exact ⟨[], .nil, rfl⟩
    · intro ⟨cs, hcs, hs⟩
      cases hcs
      rw [hs]
      rfl
  | cons p ps ih =>
    rw [List.foldlM_cons, Logged.outcome_bind_eq_ok_iff]
    simp only [outcome_addProvider_eq_ok_iff, ih]
    constructor
    · rintro ⟨q, ⟨c, hc, rfl⟩, cs, hcs, rfl⟩
      exact ⟨c :: cs, .cons hc hcs, rfl⟩
    · rintro ⟨cs, hcs, rfl⟩
      cases hcs with
      | cons hc hcs => exact ⟨_, ⟨_, hc, rfl⟩, _, hcs, rfl⟩

/-- A class path is accepted if and only if each of its providers has an image with contents, and
then the repository is made of these in order. -/
theorem outcome_ofProviders_eq_ok_iff :
    (ofProviders ps).outcome = .ok r ↔
      ∃ cs, List.Forall₂ Contents.From ps cs ∧ r = ofContents cs :=
  outcome_foldlM_addProvider_eq_ok_iff

/-! ## Classes -/

theorem find?_addClass :
    (r.addClass c).find? t = (r.find? t).or (if c.descriptor == t then some c else none) := by
  unfold addClass
  split
  · next h =>
    -- The type is defined already, so that the new definition is not looked at.
    by_cases ht : c.descriptor = t
    · subst ht
      unfold defines at h
      rw [Option.or_of_isSome h]
    · simp [ht]
  · next h =>
    unfold find?
    rw [List.find?_append, List.find?_cons]
    cases c.descriptor == t <;> rfl

theorem find?_foldl_addClass :
    (defs.foldl addClass r).find? t =
      (r.find? t).or (defs.find? fun c => c.descriptor == t) := by
  induction defs generalizing r with
  | nil => simp
  | cons c defs ih =>
    rw [List.foldl_cons, ih, find?_addClass, Option.or_assoc, List.find?_cons]
    cases c.descriptor == t <;> simp

/-- Classes leave the references alone. -/
theorem references_foldl_addClass :
    (defs.foldl addClass r).fieldReferences = r.fieldReferences ∧
      (defs.foldl addClass r).methodReferences = r.methodReferences := by
  induction defs generalizing r with
  | nil => exact ⟨rfl, rfl⟩
  | cons c defs ih =>
    obtain ⟨hf, hm⟩ := ih (r := r.addClass c)
    rw [List.foldl_cons, hf, hm]
    unfold addClass
    split <;> exact ⟨rfl, rfl⟩

theorem find?_eq_none_iff : r.find? t = none ↔ t ∉ r.classes.map (·.descriptor) := by
  unfold find?
  simp

/-- No type is defined twice. -/
theorem nodup_addClass (h : (r.classes.map (·.descriptor)).Nodup) :
    ((r.addClass c).classes.map (·.descriptor)).Nodup := by
  unfold addClass
  split
  · exact h
  · next hnew =>
    have hnone : r.find? c.descriptor = none := by simpa [defines] using hnew
    rw [List.map_append, List.nodup_append]
    refine ⟨h, by simp, ?_⟩
    intro t ht u hu heq
    obtain rfl : u = c.descriptor := by simpa using hu
    subst heq
    exact find?_eq_none_iff.1 hnone ht

theorem nodup_foldl_addClass (h : (r.classes.map (·.descriptor)).Nodup) :
    ((defs.foldl addClass r).classes.map (·.descriptor)).Nodup := by
  induction defs generalizing r with
  | nil => exact h
  | cons c defs ih => exact ih (nodup_addClass h)

/-! ## Repositories of contents -/

theorem find?_foldl_addContents :
    (cs.foldl addContents r).find? t =
      (r.find? t).or ((cs.flatMap (·.classes)).find? fun c => c.descriptor == t) := by
  induction cs generalizing r with
  | nil => simp
  | cons c cs ih =>
    rw [List.foldl_cons, ih, List.flatMap_cons, List.find?_append, ← Option.or_assoc]
    congr 1
    exact find?_foldl_addClass

theorem references_foldl_addContents :
    (cs.foldl addContents r).fieldReferences = r.fieldReferences ++ cs.flatMap (·.fields) ∧
      (cs.foldl addContents r).methodReferences =
        r.methodReferences ++ cs.flatMap (·.methods) := by
  induction cs generalizing r with
  | nil => simp
  | cons c cs ih =>
    obtain ⟨hf, hm⟩ := ih (r := r.addContents c)
    obtain ⟨hf', hm'⟩ : (r.addContents c).fieldReferences = r.fieldReferences ++ c.fields ∧
        (r.addContents c).methodReferences = r.methodReferences ++ c.methods :=
      references_foldl_addClass
    rw [List.foldl_cons, hf, hm, hf', hm', List.append_assoc, List.append_assoc]
    exact ⟨rfl, rfl⟩

theorem nodup_foldl_addContents (h : (r.classes.map (·.descriptor)).Nodup) :
    ((cs.foldl addContents r).classes.map (·.descriptor)).Nodup := by
  induction cs generalizing r with
  | nil => exact h
  | cons c cs ih => exact ih (nodup_foldl_addClass h)

theorem find?_ofContents :
    (ofContents cs).find? t = (cs.flatMap (·.classes)).find? fun c => c.descriptor == t :=
  find?_foldl_addContents

theorem fieldReferences_ofContents :
    (ofContents cs).fieldReferences = cs.flatMap (·.fields) :=
  references_foldl_addContents.1

theorem methodReferences_ofContents :
    (ofContents cs).methodReferences = cs.flatMap (·.methods) :=
  references_foldl_addContents.2

theorem nodup_ofContents : ((ofContents cs).classes.map (·.descriptor)).Nodup :=
  nodup_foldl_addContents List.nodup_nil

end Repository
end DalvikLinkage
