import DalvikLinkage.Proofs.Outcome
import DalvikLinkage.Proofs.Repository.Answers
import DalvikLinkage.Proofs.Repository.Contents
import DalvikLinkage.Proofs.Repository.Definitions
import Mathlib.Data.Finset.Card

/-!
# Shadowing along a class path

Several images may define one type. The first class record for it counts, in the order of the class
path and of the records of each image, and all later ones are shadowed. Shadowing is the only way in
which the order of a class path matters: references are gathered from all images, and where no type
is defined twice there is one definition to find, wherever it stands.

Results:
* `forall₂_imagesOf`: an accepted class path by its images and their contents;
* `report_of_perm`: order matters only where a type is defined twice;
* `ofProviders_firstDefinition`: what an accepted class path is as a repository, and that an image
  that is there already adds nothing.
-/
namespace DalvikLinkage

section Lists

variable {α β γ : Type} {f : α → Option β} {g : α → Option γ} {key : β → γ} {xs : List α}
  {ys zs : List β}

/-- If each entry gives a value and its key, the keys can be read off the entries. -/
theorem filterMap_eq_of_map_eq (h : xs.map f = ys.map some)
    (hkey : ∀ x y, f x = some y → g x = some (key y)) : xs.filterMap g = ys.map key := by
  induction xs generalizing ys with
  | nil => cases ys <;> simp_all
  | cons x xs ih =>
    cases ys with
    | nil => simp at h
    | cons y ys =>
      rw [List.map_cons, List.map_cons, List.cons.injEq] at h
      rw [List.filterMap_cons_some (hkey x y h.1), ih h.2, List.map_cons]

theorem flatMap_eq_of_forall₂ {R : α → β → Prop} {f : α → List γ} {g : β → List γ}
    (h : List.Forall₂ R xs ys) (hR : ∀ x y, R x y → f x = g y) : xs.flatMap f = ys.flatMap g := by
  induction h with
  | nil => rfl
  | cons hxy _ ih => rw [List.flatMap_cons, List.flatMap_cons, hR _ _ hxy, ih]

variable [DecidableEq γ]

/-- Taking the value of the first entry with a key is looking for the first value with that key. -/
theorem find?_bind_eq_of_map_eq (h : xs.map f = ys.map some)
    (hkey : ∀ x y, f x = some y → g x = some (key y)) (k : γ) :
    (xs.find? fun x => g x == some k).bind f = ys.find? fun y => key y == k := by
  induction xs generalizing ys with
  | nil => cases ys <;> simp_all
  | cons x xs ih =>
    cases ys with
    | nil => simp at h
    | cons y ys =>
      rw [List.map_cons, List.map_cons, List.cons.injEq] at h
      have hx : (g x == some k) = (key y == k) := by
        rw [hkey x y h.1]
        rfl
      rw [List.find?_cons, List.find?_cons, hx]
      cases key y == k with
      | true => exact h.1
      | false => exact ih h.2

/-- Among values with different keys the order does not matter to a look-up. -/
theorem find?_eq_of_perm (hperm : ys.Perm zs) (hn : (ys.map key).Nodup) (k : γ) :
    (ys.find? fun y => key y == k) = zs.find? fun y => key y == k := by
  induction hperm with
  | nil => rfl
  | cons x _ ih =>
    rw [List.map_cons, List.nodup_cons] at hn
    rw [List.find?_cons, List.find?_cons, ih hn.2]
  | swap x y l =>
    have hne : key y ≠ key x := by
      intro he
      simp [he] at hn
    by_cases hx : key x = k
    · have hy : key y ≠ k := hx ▸ hne
      simp [hx, hy]
    · by_cases hy : key y = k <;> simp [hx, hy]
  | trans h _ ih ih' => exact (ih hn).trans (ih' ((h.map key).nodup_iff.1 hn))

/-- Values that are there already do not change what is found first. -/
theorem find?_append_of_subset {p : β → Bool} (h : zs ⊆ ys) : (ys ++ zs).find? p = ys.find? p := by
  rw [List.find?_append]
  cases hfind : ys.find? p with
  | some y => rfl
  | none =>
    have hzs : zs.find? p = none := by
      rw [List.find?_eq_none] at hfind ⊢
      intro z hz
      exact hfind z (h hz)
    rw [hzs]
    rfl

end Lists

/-! ## Images and their contents -/

namespace Contents

open Repository

variable {image : Image} {c : Contents} {images : List Image} {cs : List Contents}

/-- The index of a record only matters to a fault. -/
theorem Of.map_ofRecord (h : c.Of image) :
    image.classes.map (fun record => (ClassDef.ofRecord image record).toOption) =
      c.classes.map some := by
  have hoption := congrArg (List.map Except.toOption) h.classes
  unfold classDefs at hoption
  rw [List.map_map, List.map_map] at hoption
  refine Eq.trans ?_ hoption
  conv_lhs => rw [← List.zipIdx_map_fst 0 image.classes, List.map_map]
  refine List.map_congr_left fun entry _ => ?_
  show _ = ((ClassDef.ofRecord image entry.1).mapError _).toOption
  cases hr : ClassDef.ofRecord image entry.1 <;> simp [hr, Except.mapError, Except.toOption]

theorem Of.definedTypes_eq (h : c.Of image) :
    image.definedTypes = c.classes.map (·.descriptor) :=
  filterMap_eq_of_map_eq h.map_ofRecord fun _ _ => Image.typeOf?_of_ofRecord

theorem Of.definition?_eq (h : c.Of image) (t : String) :
    image.definition? t = c.classes.find? fun d => d.descriptor == t :=
  find?_bind_eq_of_map_eq h.map_ofRecord (fun _ _ => Image.typeOf?_of_ofRecord) t

theorem flatMap_definedTypes (h : List.Forall₂ Of images cs) :
    images.flatMap Image.definedTypes = (cs.flatMap (·.classes)).map (·.descriptor) := by
  rw [List.map_flatMap]
  exact flatMap_eq_of_forall₂ h fun _ _ hc => hc.definedTypes_eq

theorem flatMap_fieldKeys (h : List.Forall₂ Of images cs) :
    images.flatMap fieldKeys = (cs.flatMap (·.fields)).map .ok := by
  rw [List.map_flatMap]
  exact flatMap_eq_of_forall₂ h fun _ _ hc => hc.fields

theorem flatMap_methodKeys (h : List.Forall₂ Of images cs) :
    images.flatMap methodKeys = (cs.flatMap (·.methods)).map .ok := by
  rw [List.map_flatMap]
  exact flatMap_eq_of_forall₂ h fun _ _ hc => hc.methods

theorem findSome?_definition? (h : List.Forall₂ Of images cs) (t : String) :
    images.findSome? (·.definition? t) =
      (cs.flatMap (·.classes)).find? fun d => d.descriptor == t := by
  induction h with
  | nil => rfl
  | @cons image c _ _ h _ ih =>
    rw [List.findSome?_cons, List.flatMap_cons, List.find?_append, h.definition?_eq, ih]
    cases c.classes.find? fun d => d.descriptor == t <;> rfl

end Contents

/-! ## Class paths -/

namespace Repository

variable {r : Repository} {ps qs : List Provider} {cs : List Contents}

/-- The images of those providers whose image can be read, in order. -/
def imagesOf (ps : List Provider) : List Image :=
  ps.filterMap fun p => p.image.outcome.toOption

theorem imagesOf_cons {p : Provider} {image : Image} (h : p.image.outcome = .ok image) :
    imagesOf (p :: ps) = image :: imagesOf ps := by
  unfold imagesOf
  rw [List.filterMap_cons, h]
  rfl

/-- The images of an accepted class path are those of all its providers. -/
theorem forall₂_imagesOf (h : List.Forall₂ Contents.From ps cs) :
    ps.map (·.image.outcome) = (imagesOf ps).map .ok ∧
      List.Forall₂ Contents.Of (imagesOf ps) cs := by
  induction h with
  | nil => exact ⟨rfl, .nil⟩
  | cons h _ ih =>
    obtain ⟨image, himage, hc⟩ := h
    rw [imagesOf_cons himage, List.map_cons, List.map_cons, himage, ih.1]
    exact ⟨rfl, .cons hc ih.2⟩

/-- **The order of a class path matters only where a type is defined twice.** If a class path is
accepted, so is any other with the same providers. If no type has two class records, in one image or
in two, all of these have the same report. -/
theorem report_of_perm (ps qs : List Provider) (r : Repository)
    (h : (ofProviders ps).outcome = .ok r) (hperm : qs.Perm ps) :
    ∃ s, (ofProviders qs).outcome = .ok s ∧
      (((imagesOf ps).flatMap Image.definedTypes).Nodup → s.report = r.report) := by
  obtain ⟨cs, hcs, rfl⟩ := outcome_ofProviders_eq_ok_iff.1 h
  obtain ⟨ds, hds, hdscs⟩ := List.perm_comp_forall₂ hperm hcs
  refine ⟨ofContents ds, outcome_ofProviders_eq_ok_iff.2 ⟨ds, hds, rfl⟩, fun hn => ?_⟩
  rw [Contents.flatMap_definedTypes (forall₂_imagesOf hcs).2] at hn
  apply report_congr
  · intro t
    rw [find?_ofContents, find?_ofContents]
    exact (find?_eq_of_perm (hdscs.symm.flatMap_right _) hn t).symm
  · intro key
    rw [fieldReferences_ofContents, fieldReferences_ofContents]
    exact (hdscs.flatMap_right _).mem_iff
  · intro key
    rw [methodReferences_ofContents, methodReferences_ofContents]
    exact (hdscs.flatMap_right _).mem_iff

theorem exists_contents_of_mem {image : Image} {images : List Image}
    (h : List.Forall₂ Contents.Of images cs) (himage : image ∈ images) :
    ∃ c ∈ cs, c.Of image := by
  induction h with
  | nil => cases himage
  | cons hc _ ih =>
    rcases List.mem_cons.1 himage with rfl | hrest
    · exact ⟨_, List.mem_cons_self, hc⟩
    · obtain ⟨c, hmem, hof⟩ := ih hrest
      exact ⟨c, List.mem_cons_of_mem _ hmem, hof⟩

/-- Contents that are there already change neither a definition nor the report. -/
theorem ofContents_append_of_mem {c : Contents} (h : c ∈ cs) :
    (∀ t, (ofContents (cs ++ [c])).find? t = (ofContents cs).find? t) ∧
      (ofContents (cs ++ [c])).report = (ofContents cs).report := by
  have hfind : ∀ t, (ofContents (cs ++ [c])).find? t = (ofContents cs).find? t := by
    intro t
    rw [find?_ofContents, find?_ofContents, List.flatMap_append, List.flatMap_singleton]
    exact find?_append_of_subset fun d hd => List.mem_flatMap_of_mem h hd
  refine ⟨hfind, report_congr hfind ?_ ?_⟩
  · intro key
    rw [fieldReferences_ofContents, fieldReferences_ofContents, List.flatMap_append,
      List.flatMap_singleton, List.mem_append]
    exact or_iff_left_of_imp fun hkey => List.mem_flatMap_of_mem h hkey
  · intro key
    rw [methodReferences_ofContents, methodReferences_ofContents, List.flatMap_append,
      List.flatMap_singleton, List.mem_append]
    exact or_iff_left_of_imp fun hkey => List.mem_flatMap_of_mem h hkey

theorem find?_ofContents_eq_none_iff {t : String} :
    (ofContents cs).find? t = none ↔ t ∉ (cs.flatMap (·.classes)).map (·.descriptor) := by
  rw [find?_ofContents]
  simp only [List.find?_eq_none, List.mem_map, beq_iff_eq, not_exists, not_and]

/-- As many classes as there are different types. -/
theorem length_classes_ofContents :
    (ofContents cs).classes.length =
      ((cs.flatMap (·.classes)).map (·.descriptor)).toFinset.card := by
  rw [← List.length_map (·.descriptor), ← List.toFinset_card_of_nodup nodup_ofContents]
  congr 1
  ext t
  rw [List.mem_toFinset, List.mem_toFinset, ← not_iff_not, ← find?_eq_none_iff,
    find?_ofContents_eq_none_iff]

/-- An image with one class record, for the type `L` + that letter + `;` and with those flags, and a
field table with a reference to the field `x` of that type, which is not declared. -/
def oneClass (letter flags : UInt8) : Bytes :=
  ([0x64, 0x65, 0x78, 0x0a, 0x30, 0x33, 0x35, 0] ++ List.replicate 32 0 ++
    Bytes.fourOf 0x12345678 ++ List.replicate 12 0 ++
    Bytes.fourOf 3 ++ Bytes.fourOf 112 ++ Bytes.fourOf 2 ++ Bytes.fourOf 124 ++
    List.replicate 8 0 ++ Bytes.fourOf 1 ++ Bytes.fourOf 132 ++
    List.replicate 8 0 ++ Bytes.fourOf 1 ++ Bytes.fourOf 140 ++ List.replicate 8 0 ++
    Bytes.fourOf 172 ++ Bytes.fourOf 175 ++ Bytes.fourOf 180 ++
    Bytes.fourOf 0 ++ Bytes.fourOf 1 ++ [1, 0, 0, 0] ++ Bytes.fourOf 2 ++
    Bytes.fourOf 1 ++ [flags, 0, 0, 0] ++ Bytes.fourOf 0xffffffff ++ Bytes.fourOf 0 ++
    Bytes.fourOf 0xffffffff ++ List.replicate 12 0 ++
    [1, 0x49, 0, 3, 0x4c, letter, 0x3b, 0, 1, 0x78, 0]).toArray

def oneClassIn (path : String) (letter flags : UInt8) : Provider :=
  ⟨⟨path⟩, "classes.dex", oneClass letter flags⟩

theorem report_of_perm_twoImages :
    let a := oneClassIn "a.apk" 0x41 1
    let b := oneClassIn "b.apk" 0x42 1
    (imagesOf [a, b]).flatMap Image.definedTypes = ["LA;", "LB;"] ∧
    ∃ r s, (ofProviders [a, b]).outcome = .ok r ∧ (ofProviders [b, a]).outcome = .ok s ∧
      s.report = r.report := by
  intro a b
  have htypes : (imagesOf [a, b]).flatMap Image.definedTypes = ["LA;", "LB;"] := by decide +kernel
  obtain ⟨r, hr⟩ : ∃ r, (ofProviders [a, b]).outcome = .ok r :=
    exists_of_isSome_toOption (by decide +kernel)
  obtain ⟨s, hs, hreport⟩ := report_of_perm [a, b] [b, a] r hr (.swap a b [])
  exact ⟨htypes, r, s, hr, hs, hreport (by rw [htypes]; decide)⟩

/-- An image with one class record, for `LA;`, which has all that a class can have: it is final,
below `LB;` and `LC;`, and declares a static and another field and a direct and a virtual method. -/
def fullClass : Bytes :=
  ([0x64, 0x65, 0x78, 0x0a, 0x30, 0x33, 0x35, 0] ++ List.replicate 32 0 ++
    Bytes.fourOf 0x12345678 ++ List.replicate 12 0 ++
    Bytes.fourOf 9 ++ Bytes.fourOf 112 ++ Bytes.fourOf 5 ++ Bytes.fourOf 148 ++
    Bytes.fourOf 1 ++ Bytes.fourOf 168 ++ Bytes.fourOf 2 ++ Bytes.fourOf 180 ++
    Bytes.fourOf 2 ++ Bytes.fourOf 196 ++ Bytes.fourOf 1 ++ Bytes.fourOf 212 ++
    List.replicate 8 0 ++
    [264, 267, 272, 277, 282, 285, 288, 291, 294].flatMap Bytes.fourOf ++
    [0, 1, 2, 3, 4].flatMap Bytes.fourOf ++
    [4, 4, 0].flatMap Bytes.fourOf ++
    [1, 0, 0, 0] ++ Bytes.fourOf 8 ++ [1, 0, 0, 0] ++ Bytes.fourOf 7 ++
    [1, 0, 0, 0] ++ Bytes.fourOf 6 ++ [1, 0, 0, 0] ++ Bytes.fourOf 5 ++
    [1, 0x11, 2, 244, 0xffffffff, 0, 250, 0].flatMap Bytes.fourOf ++
    Bytes.fourOf 1 ++ [3, 0] ++
    [1, 1, 1, 1, 1, 0x0a, 0, 1, 1, 2, 0, 0, 1, 0] ++
    [1, 0x49, 0, 3, 0x4c, 0x41, 0x3b, 0, 3, 0x4c, 0x42, 0x3b, 0, 3, 0x4c, 0x43, 0x3b, 0,
      1, 0x56, 0, 1, 0x6d, 0, 1, 0x6e, 0, 1, 0x78, 0, 1, 0x79, 0]).toArray

def fullClassIn (path : String) : Provider :=
  ⟨⟨path⟩, "classes.dex", fullClass⟩

/-- **The first definition wins.** In an accepted class path every provider has an image, and every
type is defined by the first class record for it in the first image that has one: with the flags,
supertypes and members of that record, as they stand in the tables of its image. A type without a
class record is not defined. There are as many classes as types with a class record, each under its
own descriptor, and the references are those of all field and method tables in order. So one more
provider of an image that is there already changes no definition and leaves the report as it is. -/
theorem ofProviders_firstDefinition (ps : List Provider) (r : Repository)
    (h : (ofProviders ps).outcome = .ok r) :
    ps.map (·.image.outcome) = (imagesOf ps).map .ok ∧
    (∀ image ∈ imagesOf ps, ∀ t, image.definition? t = none ↔ t ∉ image.definedTypes) ∧
    (∀ image ∈ imagesOf ps, ∀ t c, image.definition? t = some c ↔
      ∃ record, image.FirstFor t record ∧ record.Defines image c) ∧
    (∀ t, r.find? t = (imagesOf ps).findSome? (·.definition? t)) ∧
    (∀ t, r.find? t = none ↔ t ∉ (imagesOf ps).flatMap Image.definedTypes) ∧
    (∀ t c, r.find? t = some c → c.descriptor = t) ∧
    r.classes.length = ((imagesOf ps).flatMap Image.definedTypes).toFinset.card ∧
    r.fieldReferences.map .ok = (imagesOf ps).flatMap fieldKeys ∧
    r.methodReferences.map .ok = (imagesOf ps).flatMap methodKeys ∧
    ∀ p image, p.image.outcome = .ok image → image ∈ imagesOf ps →
      ∃ s, (ofProviders (ps ++ [p])).outcome = .ok s ∧
        (∀ t, s.find? t = r.find? t) ∧ s.report = r.report := by
  obtain ⟨cs, hcs, rfl⟩ := outcome_ofProviders_eq_ok_iff.1 h
  obtain ⟨hread, hof⟩ := forall₂_imagesOf hcs
  rw [Contents.flatMap_definedTypes hof, Contents.flatMap_fieldKeys hof,
    Contents.flatMap_methodKeys hof, fieldReferences_ofContents, methodReferences_ofContents]
  refine ⟨hread, ?_, fun _ _ _ _ => Image.definition?_eq_some_iff, ?_,
    fun _ => find?_ofContents_eq_none_iff, fun _ _ => find?_descriptor,
    length_classes_ofContents, rfl, rfl, ?_⟩
  · intro image himage t
    obtain ⟨c, -, hc⟩ := exists_contents_of_mem hof himage
    rw [hc.definition?_eq, hc.definedTypes_eq]
    simp
  · intro t
    rw [find?_ofContents, Contents.findSome?_definition? hof]
  · intro p image hp himage
    obtain ⟨c, hmem, hc⟩ := exists_contents_of_mem hof himage
    have happend : List.Forall₂ Contents.From (ps ++ [p]) (cs ++ [c]) :=
      List.rel_append hcs (.cons ⟨image, hp, hc⟩ .nil)
    exact ⟨_, outcome_ofProviders_eq_ok_iff.2 ⟨_, happend, rfl⟩, ofContents_append_of_mem hmem⟩

/-- The second image defines the type of the first again, as a class without supertypes and members,
and the image that is put behind them is the first one in another file. The fields and methods are
in the order of the class data, the references in that of the tables. -/
theorem ofProviders_firstDefinition_shadowed :
    let a := fullClassIn "a.apk"
    let b := oneClassIn "b.apk" 0x41 1
    let c : ClassDef := {
      descriptor := "LA;", flags := ⟨0x11⟩, superclass := some "LB;", interfaces := ["LC;"]
      fields := [(⟨"LA;", "x", "I"⟩, ⟨0xa⟩), (⟨"LA;", "y", "I"⟩, ⟨1⟩)]
      methods := [(⟨"LA;", "m", "()V"⟩, ⟨2⟩), (⟨"LA;", "n", "()V"⟩, ⟨1⟩)] }
    ∃ r, (ofProviders [a, b]).outcome = .ok r ∧ r.classes.length = 1 ∧ r.find? "LA;" = some c ∧
      r.fieldReferences = [⟨"LA;", "y", "I"⟩, ⟨"LA;", "x", "I"⟩, ⟨"LA;", "x", "I"⟩] ∧
      ∃ s, (ofProviders [a, b, fullClassIn "c.apk"]).outcome = .ok s ∧ s.report = r.report := by
  intro a b c
  obtain ⟨r, hr⟩ : ∃ r, (ofProviders [a, b]).outcome = .ok r :=
    exists_of_isSome_toOption (by decide +kernel)
  -- Each image is read once, and all that is needed of it is asked then.
  obtain ⟨full, hfull, hasked⟩ : ∃ image, a.entry.image.outcome = .ok image ∧
      (image.definition? "LA;", image.definedTypes, fieldKeys image) =
        (some c, ["LA;"], [⟨"LA;", "y", "I"⟩, ⟨"LA;", "x", "I"⟩].map .ok) :=
    exists_of_map_toOption (by decide +kernel)
  obtain ⟨bare, hbare, hasked'⟩ : ∃ image, b.image.outcome = .ok image ∧
      (image.definedTypes, fieldKeys image) = (["LA;"], [⟨"LA;", "x", "I"⟩].map .ok) :=
    exists_of_map_toOption (by decide +kernel)
  simp only [Prod.mk.injEq] at hasked hasked'
  obtain ⟨hclass, htypes, hkeys⟩ := hasked
  obtain ⟨htypes', hkeys'⟩ := hasked'
  have hread (path : String) : (fullClassIn path).image.outcome = .ok full :=
    Logged.outcome_mapError_eq_ok_iff.2 hfull
  have himages : imagesOf [a, b] = [full, bare] := by
    rw [imagesOf_cons (hread "a.apk"), imagesOf_cons hbare]
    rfl
  obtain ⟨-, -, -, hfind, -, -, hcount, hfields, -, hagain⟩ :=
    ofProviders_firstDefinition [a, b] r hr
  obtain ⟨s, hs, -, hreport⟩ := hagain (fullClassIn "c.apk") full (hread "c.apk")
    (by rw [himages]; exact List.mem_cons_self)
  refine ⟨r, hr, ?_, ?_, ?_, s, hs, hreport⟩
  · rw [hcount, himages, List.flatMap_cons, List.flatMap_singleton, htypes, htypes']
    decide
  · rw [hfind, himages, List.findSome?_cons, hclass]
  · rw [himages, List.flatMap_cons, List.flatMap_singleton, hkeys, hkeys'] at hfields
    exact List.map_injective_iff.2 (fun _ _ => Except.ok.inj) hfields

end Repository
end DalvikLinkage
