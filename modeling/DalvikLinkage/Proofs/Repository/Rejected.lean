import DalvikLinkage.Proofs.Outcome
import DalvikLinkage.Proofs.Repository.Contents

/-!
# What a rejected image leaves behind

An image goes into a repository entry by entry: the keys of its field table, those of its method
table, then its classes. Nothing is looked at before it is its turn, and nothing is taken back. So
an image with an entry that cannot be read leaves what stands before that entry, `Contents.Before`,
and this is added as if it were all that the image has. What was in the repository stays as it is,
and the repository is the same as before only if there was nothing new before the entry.

A class path with such an image gets no repository at all, so that only someone who adds images one
by one comes to see what is left.

Results:
* `valuesUntilError_eq_error_iff`: values before an error;
* `addImage_eq_error_iff`: when an image is rejected, and what that does;
* `addContents_eq_self_iff`: which contents change nothing;
* `addImage_leaves`: what a repository holds after it has rejected an image.
-/
namespace DalvikLinkage

theorem valuesUntilError_eq_error_iff {ε α : Type} {l : List (Except ε α)} {values : List α}
    {e : ε} :
    valuesUntilError l = (values, .error e) ↔ ∃ after, l = values.map .ok ++ .error e :: after := by
  induction l generalizing values with
  | nil => simp [valuesUntilError]
  | cons x rest ih =>
    cases x with
    | error e' => cases values <;> simp [valuesUntilError, eq_comm]
    | ok a =>
      cases values with
      | nil => simp [valuesUntilError]
      | cons v values =>
        simp only [valuesUntilError, List.cons.injEq, List.map_cons,
          List.cons_append, Except.ok.injEq, exists_and_left, ← ih, Prod.ext_iff, and_assoc]

namespace Contents

open Repository

/-- All that stands before the first entry of the image that cannot be read, and what is wrong with
this entry. -/
inductive Before (image : Image) (fault : Fault) : Contents → Prop
  | field {fields : List FieldKey} {after : List (Except Fault FieldKey)}
    (hfields : fieldKeys image = fields.map .ok ++ .error fault :: after) :
    Before image fault ⟨fields, [], []⟩
  | method {fields : List FieldKey} {methods : List MethodKey}
    {after : List (Except Fault MethodKey)} (hfields : fieldKeys image = fields.map .ok)
    (hmethods : methodKeys image = methods.map .ok ++ .error fault :: after) :
    Before image fault ⟨fields, methods, []⟩
  | classDef {fields : List FieldKey} {methods : List MethodKey} {classes : List ClassDef}
    {after : List (Except Fault ClassDef)} (hfields : fieldKeys image = fields.map .ok)
    (hmethods : methodKeys image = methods.map .ok)
    (hclasses : classDefs image = classes.map .ok ++ .error fault :: after) :
    Before image fault ⟨fields, methods, classes⟩

end Contents

namespace Repository

variable {r s : Repository} {image : Image} {fault : Fault} {c : Contents} {d : ClassDef}
  {defs : List ClassDef} {t : String}

/-! ## Being rejected -/

/-- An image is rejected for the first of its entries that cannot be read, whatever the repository
holds, and what stands before this entry is added. -/
theorem addImage_eq_error_iff :
    r.addImage image = (s, .error fault) ↔
      ∃ c : Contents, c.Before image fault ∧ s = r.addContents c := by
  constructor
  · intro h
    unfold addImage at h
    rcases hf : valuesUntilError (fieldKeys image) with ⟨fields, fieldsEnded⟩
    rcases hm : valuesUntilError (methodKeys image) with ⟨methods, methodsEnded⟩
    rcases hc : valuesUntilError (classDefs image) with ⟨classes, classesEnded⟩
    simp only [hf, hm, hc] at h
    cases fieldsEnded with
    | error =>
      cases h
      obtain ⟨_, hfields⟩ := valuesUntilError_eq_error_iff.1 hf
      exact ⟨_, .field hfields, by simp [addContents, addMethodReferences]⟩
    | ok =>
      have hfields := valuesUntilError_eq_ok_iff.1 hf
      cases methodsEnded with
      | error =>
        cases h
        obtain ⟨_, hmethods⟩ := valuesUntilError_eq_error_iff.1 hm
        exact ⟨_, .method hfields hmethods, rfl⟩
      | ok =>
        cases h
        obtain ⟨_, hclasses⟩ := valuesUntilError_eq_error_iff.1 hc
        exact ⟨_, .classDef hfields (valuesUntilError_eq_ok_iff.1 hm) hclasses, rfl⟩
  · rintro ⟨c, hc, rfl⟩
    unfold addImage
    cases hc with
    | field hfields =>
      rw [valuesUntilError_eq_error_iff.2 ⟨_, hfields⟩]
      simp [addContents, addMethodReferences]
    | method hfields hmethods =>
      rw [valuesUntilError_eq_ok_iff.2 hfields, valuesUntilError_eq_error_iff.2 ⟨_, hmethods⟩]
      rfl
    | classDef hfields hmethods hclasses =>
      rw [valuesUntilError_eq_ok_iff.2 hfields, valuesUntilError_eq_ok_iff.2 hmethods,
        valuesUntilError_eq_error_iff.2 ⟨_, hclasses⟩]
      rfl

/-! ## What is added -/

theorem prefix_classes_foldl_addClass : r.classes <+: (defs.foldl addClass r).classes := by
  induction defs generalizing r with
  | nil => exact List.prefix_rfl
  | cons d defs ih =>
    refine List.IsPrefix.trans ?_ (ih (r := r.addClass d))
    unfold addClass
    split
    · exact List.prefix_rfl
    · exact List.prefix_append _ _

/-- Classes change nothing if and only if the type of each is defined already. -/
theorem foldl_addClass_eq_self_iff :
    defs.foldl addClass r = r ↔ ∀ d ∈ defs, r.defines d.descriptor := by
  constructor
  · intro h d hd
    have hfind : (defs.foldl addClass r).find? d.descriptor = _ := find?_foldl_addClass
    rw [h] at hfind
    have hsome : (defs.find? fun c => c.descriptor == d.descriptor).isSome :=
      List.find?_isSome.2 ⟨d, hd, beq_self_eq_true _⟩
    rw [defines, hfind, Option.isSome_or, hsome, Bool.or_true]
  · intro h
    induction defs with
    | nil => rfl
    | cons d defs ih =>
      have hd : r.addClass d = r := if_pos (h d List.mem_cons_self)
      rw [List.foldl_cons, hd]
      exact ih fun x hx => h x (List.mem_cons_of_mem d hx)

theorem references_addContents :
    (r.addContents c).fieldReferences = r.fieldReferences ++ c.fields ∧
      (r.addContents c).methodReferences = r.methodReferences ++ c.methods :=
  references_foldl_addClass

/-- Contents change nothing if they have no references, and no class of a type that is not defined
already. -/
theorem addContents_eq_self_iff :
    r.addContents c = r ↔
      c.fields = [] ∧ c.methods = [] ∧ ∀ d ∈ c.classes, r.defines d.descriptor := by
  have hnone (hf : c.fields = []) (hm : c.methods = []) :
      (r.addFieldReferences c.fields).addMethodReferences c.methods = r := by
    simp [addFieldReferences, addMethodReferences, hf, hm]
  constructor
  · intro h
    obtain ⟨hf, hm⟩ := references_addContents (r := r) (c := c)
    rw [h, List.self_eq_append_right] at hf hm
    rw [addContents, hnone hf hm] at h
    exact ⟨hf, hm, foldl_addClass_eq_self_iff.1 h⟩
  · intro ⟨hf, hm, hclasses⟩
    rw [addContents, hnone hf hm]
    exact foldl_addClass_eq_self_iff.2 hclasses

/-- **A rejected image leaves what stands before its first entry that cannot be read.** All that the
repository held is still there, in the same order. Behind it come the references that stand before
this entry, and for each type that was not defined the first class before it; the other classes of
these types are shadowed. Only if there are no such references and classes is the repository the
same as before. -/
theorem addImage_leaves (r s : Repository) (image : Image) (fault : Fault)
    (h : r.addImage image = (s, .error fault)) :
    ∃ c : Contents, c.Before image fault ∧
      s.fieldReferences = r.fieldReferences ++ c.fields ∧
      s.methodReferences = r.methodReferences ++ c.methods ∧
      r.classes <+: s.classes ∧
      (∀ t, s.find? t = (r.find? t).or (c.classes.find? fun d => d.descriptor == t)) ∧
      (s = r ↔ c.fields = [] ∧ c.methods = [] ∧ ∀ d ∈ c.classes, r.defines d.descriptor) := by
  obtain ⟨c, hc, rfl⟩ := addImage_eq_error_iff.1 h
  obtain ⟨hfields, hmethods⟩ := references_addContents (r := r) (c := c)
  refine ⟨c, hc, hfields, hmethods, ?_, fun t => find?_foldl_addClass, addContents_eq_self_iff⟩
  exact prefix_classes_foldl_addClass
    (r := (r.addFieldReferences c.fields).addMethodReferences c.methods)

/-- An image with one field, one method and two class records, the second of which is for a type
that is not in the type table. -/
def secondUnnamed : Bytes :=
  ([0x64, 0x65, 0x78, 0x0a, 0x30, 0x33, 0x35, 0] ++ List.replicate 32 0 ++
    Bytes.fourOf 0x12345678 ++ List.replicate 12 0 ++
    Bytes.fourOf 1 ++ Bytes.fourOf 112 ++ Bytes.fourOf 1 ++ Bytes.fourOf 116 ++
    Bytes.fourOf 1 ++ Bytes.fourOf 120 ++ Bytes.fourOf 1 ++ Bytes.fourOf 132 ++
    Bytes.fourOf 1 ++ Bytes.fourOf 140 ++ Bytes.fourOf 2 ++ Bytes.fourOf 148 ++
    List.replicate 8 0 ++
    Bytes.fourOf 212 ++ Bytes.fourOf 0 ++ List.replicate 12 0 ++ List.replicate 8 0 ++
    List.replicate 8 0 ++
    Bytes.fourOf 0 ++ Bytes.fourOf 1 ++ Bytes.fourOf 0xffffffff ++ List.replicate 20 0 ++
    Bytes.fourOf 7 ++ Bytes.fourOf 1 ++ Bytes.fourOf 0xffffffff ++ List.replicate 20 0 ++
    [3, 0x4c, 0x41, 0x3b, 0]).toArray

/-- The entries of the image that can be read. -/
def firstNamed : Contents where
  fields := [⟨"LA;", "LA;", "LA;"⟩]
  methods := [⟨"LA;", "LA;", "()LA;"⟩]
  classes := [{ descriptor := "LA;" }]

theorem exists_image_secondUnnamed :
    ∃ image, (Image.ofBytes secondUnnamed).outcome = .ok image ∧
      firstNamed.Before image ⟨.indexOutOfRange .type 7 1, [.classDef 1]⟩ := by
  obtain ⟨image, himage⟩ : ∃ image, (Image.ofBytes secondUnnamed).outcome = .ok image :=
    exists_of_isSome_toOption (by decide +kernel)
  have hentries : ((Image.ofBytes secondUnnamed).outcome.toOption.map fun image =>
      (fieldKeys image, methodKeys image, classDefs image)) =
      some ([.ok ⟨"LA;", "LA;", "LA;"⟩], [.ok ⟨"LA;", "LA;", "()LA;"⟩],
        [.ok { descriptor := "LA;" },
          .error ⟨.indexOutOfRange .type 7 1, [.classDef 1]⟩]) := by
    decide +kernel
  rw [himage] at hentries
  simp only [Except.toOption, Option.map_some, Option.some.injEq, Prod.mk.injEq] at hentries
  obtain ⟨hfields, hmethods, hclasses⟩ := hentries
  have hsplit : classDefs image = firstNamed.classes.map .ok ++
      .error ⟨.indexOutOfRange .type 7 1, [.classDef 1]⟩ :: [] := hclasses
  exact ⟨image, himage, .classDef hfields hmethods hsplit⟩

/-- A repository in which the type of the first record is defined already. -/
def defined : Repository where
  classes := [{ descriptor := "LA;", flags := ⟨0x11⟩ }]

theorem addImage_leaves_shadowed :
    ∃ image s fault, (Image.ofBytes secondUnnamed).outcome = .ok image ∧
      defined.addImage image = (s, .error fault) ∧
      (∃ c : Contents, c.Before image fault ∧ s.fieldReferences = c.fields) ∧
      s.find? "LA;" = some { descriptor := "LA;", flags := ⟨0x11⟩ } := by
  obtain ⟨image, himage, hbefore⟩ := exists_image_secondUnnamed
  have hadd := (addImage_eq_error_iff (r := defined)).2 ⟨_, hbefore, rfl⟩
  obtain ⟨c, hc, hfields, -, -, hfind, -⟩ := addImage_leaves defined _ image _ hadd
  exact ⟨image, _, _, himage, hadd, ⟨c, hc, hfields⟩, (hfind "LA;").trans rfl⟩

/-- A repository without anything in it does not stay so: each of its lists keeps what was read. -/
theorem addImage_ne_empty_secondUnnamed :
    ∃ image s fault, (Image.ofBytes secondUnnamed).outcome = .ok image ∧
      empty.addImage image = (s, .error fault) ∧ s.fieldReferences = firstNamed.fields ∧
      s.methodReferences = firstNamed.methods ∧ s.classes = firstNamed.classes ∧ s ≠ empty := by
  obtain ⟨image, himage, hbefore⟩ := exists_image_secondUnnamed
  have hadd := (addImage_eq_error_iff (r := empty)).2 ⟨_, hbefore, rfl⟩
  refine ⟨image, _, _, himage, hadd, rfl, rfl, rfl, fun h => ?_⟩
  exact List.cons_ne_nil _ _ (addContents_eq_self_iff.1 h).1

end Repository
end DalvikLinkage
