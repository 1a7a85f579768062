import DalvikLinkage.Proofs.Outcome
import DalvikLinkage.Repository.ClassDef

/-!
# What an image defines

A class record gives the type it is for, its supertypes and the members it declares by their places
in the tables of its image. The class that it defines is the record with all of these looked up:
each of them has to be there, and nothing else goes into the class. A record without class data, or
with class data that could not be read, declares no members.

An image can have several records for one type. The first one counts.

Results:
* `ofRecord_eq_ok_iff`: the class of a record, part by part;
* `definition?_eq_some_iff`: the class of a type, by its first record.
-/
namespace DalvikLinkage

variable {image : Image} {record : ClassRecord} {c : ClassDef} {t : String}

/-! ## The class of a record -/

namespace ClassRecord

/-- The fields that the record declares, static ones first. -/
def declaredFields (record : ClassRecord) : List DeclaredField :=
  match record.data with
  | .present data => data.staticFields ++ data.instanceFields
  | _ => []

/-- The methods that the record declares, direct ones first. -/
def declaredMethods (record : ClassRecord) : List DeclaredMethod :=
  match record.data with
  | .present data => data.directMethods ++ data.virtualMethods
  | _ => []

/-- The record of the image says this of the class: everything that the record gives by its place in
a table is what stands there, in the same order, and the flags are those of the record. -/
structure Defines (image : Image) (record : ClassRecord) (c : ClassDef) : Prop where
  descriptor : image.typeDescriptor record.type.toNat = .ok c.descriptor
  flags : c.flags = record.flags
  superclass : Option.Rel (fun t d => image.typeDescriptor t.toNat = .ok d)
    record.superclass c.superclass
  interfaces : List.Forall₂ (fun t d => image.typeDescriptor t.toNat = .ok d)
    record.interfaces c.interfaces
  fields : List.Forall₂ (fun f entry => image.fieldKey f.index.toNat = .ok entry.1 ∧
    entry.2 = f.flags) record.declaredFields c.fields
  methods : List.Forall₂ (fun m entry => image.methodKey m.index.toNat = .ok entry.1 ∧
    entry.2 = m.flags) record.declaredMethods c.methods

end ClassRecord

namespace ClassDef

/-- Whether there is class data makes no difference but for the members. -/
theorem ofRecord_eq (image : Image) (record : ClassRecord) : ofRecord image record = (do
    let descriptor ← image.typeDescriptor record.type.toNat
    let superclass ← record.superclass.mapM fun t => image.typeDescriptor t.toNat
    let interfaces ← record.interfaces.mapM fun t => image.typeDescriptor t.toNat
    let fields ← record.declaredFields.mapM fun f =>
      return (← image.fieldKey f.index.toNat, f.flags)
    let methods ← record.declaredMethods.mapM fun m =>
      return (← image.methodKey m.index.toNat, m.flags)
    return { descriptor, flags := record.flags, superclass, interfaces, fields, methods }) := by
  unfold ofRecord ClassRecord.declaredFields ClassRecord.declaredMethods
  cases record.data with
  | absent => rfl
  | present data => rfl
  | unreadable fault => rfl

/-- A record has a class if all that it refers to can be looked up, and the class is that. -/
theorem ofRecord_eq_ok_iff : ofRecord image record = .ok c ↔ record.Defines image c := by
  rw [ofRecord_eq]
  -- A member's key and flags are looked up as one pair, which must not be taken apart before.
  simp only [↓except_pair_eq_ok_iff, except_bind_eq_ok_iff, mapM_eq_ok_iff, option_mapM_eq_ok_iff]
  constructor
  · intro ⟨descriptor, hd, superclass, hs, interfaces, hi, fields, hf, methods, hm, h⟩
    cases h
    exact ⟨hd, rfl, hs, hi, hf, hm⟩
  · intro ⟨hd, hflags, hs, hi, hf, hm⟩
    refine ⟨_, hd, _, hs, _, hi, _, hf, _, hm, ?_⟩
    rw [← hflags]
    rfl

end ClassDef

/-! ## The class of a type -/

namespace Image

/-- The type that a class record is for, if its descriptor can be read. -/
def typeOf? (image : Image) (record : ClassRecord) : Option String :=
  (image.typeDescriptor record.type.toNat).toOption

/-- The types that the class records of the image are for, in order. -/
def definedTypes (image : Image) : List String :=
  image.classes.filterMap image.typeOf?

/-- The class that the first class record for the type gives. -/
def definition? (image : Image) (type : String) : Option ClassDef :=
  (image.classes.find? fun record => image.typeOf? record == some type).bind fun record =>
    (ClassDef.ofRecord image record).toOption

/-- The record is the first one in the image that is for the type. -/
structure FirstFor (image : Image) (t : String) (record : ClassRecord) : Prop where
  type : image.typeDescriptor record.type.toNat = .ok t
  first : ∃ before after, image.classes = before ++ record :: after ∧
    ∀ earlier ∈ before, image.typeDescriptor earlier.type.toNat ≠ .ok t

theorem typeOf?_eq_some_iff :
    image.typeOf? record = some t ↔ image.typeDescriptor record.type.toNat = .ok t :=
  except_toOption_eq_some_iff

theorem find?_eq_some_iff_firstFor :
    (image.classes.find? fun record => image.typeOf? record == some t) = some record ↔
      image.FirstFor t record := by
  rw [List.find?_eq_some_iff_append]
  simp only [beq_iff_eq, Bool.not_eq_true', beq_eq_false_iff_ne, ne_eq, typeOf?_eq_some_iff]
  exact ⟨fun ⟨htype, hfirst⟩ => ⟨htype, hfirst⟩, fun ⟨htype, hfirst⟩ => ⟨htype, hfirst⟩⟩

theorem typeOf?_of_ofRecord (h : (ClassDef.ofRecord image record).toOption = some c) :
    image.typeOf? record = some c.descriptor := by
  rw [except_toOption_eq_some_iff, ClassDef.ofRecord_eq_ok_iff] at h
  exact typeOf?_eq_some_iff.2 h.descriptor

/-- A type has the class that the first record for it defines. -/
theorem definition?_eq_some_iff :
    image.definition? t = some c ↔ ∃ record, image.FirstFor t record ∧ record.Defines image c := by
  unfold definition?
  rw [Option.bind_eq_some_iff]
  simp only [find?_eq_some_iff_firstFor, except_toOption_eq_some_iff, ClassDef.ofRecord_eq_ok_iff]

end Image
end DalvikLinkage
