import DalvikLinkage.Image

/-!
# Classes

A class as the repository keeps it: its supertypes by their descriptors and its members by their
keys. A member is declared if some entry has its name and type; of several such entries the first
one gives the flags.
-/
namespace DalvikLinkage

structure ClassDef where
  descriptor : String
  flags : AccessFlags := .isPublic
  superclass : Option String := none
  interfaces : List String := []
  fields : List (FieldKey × AccessFlags) := []
  methods : List (MethodKey × AccessFlags) := []
  deriving DecidableEq, Repr

section Entries

variable {κ : Type} (same : κ → Bool) {entries : List (κ × AccessFlags)} {flags : AccessFlags}

/-- The flags come from an entry that is asked for, with no such entry before it. -/
theorem find?_map_snd_eq_some_iff :
    (entries.find? fun e => same e.1).map (·.2) = some flags ↔
      ∃ before k after, entries = before ++ (k, flags) :: after ∧ same k = true ∧
        ∀ e ∈ before, ¬ same e.1 = true := by
  rw [Option.map_eq_some_iff]
  constructor
  · intro h
    obtain ⟨⟨k, _⟩, hfind, rfl⟩ := h
    obtain ⟨hk, before, after, hentries, hbefore⟩ := List.find?_eq_some_iff_append.1 hfind
    exact ⟨before, k, after, hentries, hk, by simpa using hbefore⟩
  · intro ⟨before, k, after, hentries, hk, hbefore⟩
    refine ⟨(k, flags), List.find?_eq_some_iff_append.2 ⟨hk, before, after, hentries, ?_⟩, rfl⟩
    simpa using hbefore

theorem find?_map_snd_eq_none_iff :
    (entries.find? fun e => same e.1).map (·.2) = none ↔ ∀ e ∈ entries, ¬ same e.1 = true := by
  rw [Option.map_eq_none_iff, List.find?_eq_none]

end Entries

namespace ClassDef

variable {c : ClassDef} {flags : AccessFlags}

/-- The flags of the field, if the class declares it. -/
def fieldFlags? (c : ClassDef) (key : FieldKey) : Option AccessFlags :=
  (c.fields.find? fun f => f.1.sameMember key).map (·.2)

/-- The flags of the method, if the class declares it. -/
def methodFlags? (c : ClassDef) (key : MethodKey) : Option AccessFlags :=
  (c.methods.find? fun m => m.1.sameMember key).map (·.2)

/-- The first entry with the name and type of the field gives its flags. -/
theorem fieldFlags?_eq_some_iff {key : FieldKey} :
    c.fieldFlags? key = some flags ↔
      ∃ before k after, c.fields = before ++ (k, flags) :: after ∧
        (k.name = key.name ∧ k.fieldType = key.fieldType) ∧
        ∀ e ∈ before, ¬ (e.1.name = key.name ∧ e.1.fieldType = key.fieldType) := by
  simp only [← FieldKey.sameMember_iff]
  exact find?_map_snd_eq_some_iff (FieldKey.sameMember · key)

/-- A field is not declared if no entry has its name and type. -/
theorem fieldFlags?_eq_none_iff {key : FieldKey} :
    c.fieldFlags? key = none ↔
      ∀ e ∈ c.fields, ¬ (e.1.name = key.name ∧ e.1.fieldType = key.fieldType) := by
  simp only [← FieldKey.sameMember_iff]
  exact find?_map_snd_eq_none_iff (FieldKey.sameMember · key)

/-- The first entry with the name and prototype of the method gives its flags. -/
theorem methodFlags?_eq_some_iff {key : MethodKey} :
    c.methodFlags? key = some flags ↔
      ∃ before k after, c.methods = before ++ (k, flags) :: after ∧
        (k.name = key.name ∧ k.prototype = key.prototype) ∧
        ∀ e ∈ before, ¬ (e.1.name = key.name ∧ e.1.prototype = key.prototype) := by
  simp only [← MethodKey.sameMember_iff]
  exact find?_map_snd_eq_some_iff (MethodKey.sameMember · key)

/-- A method is not declared if no entry has its name and prototype. -/
theorem methodFlags?_eq_none_iff {key : MethodKey} :
    c.methodFlags? key = none ↔
      ∀ e ∈ c.methods, ¬ (e.1.name = key.name ∧ e.1.prototype = key.prototype) := by
  simp only [← MethodKey.sameMember_iff]
  exact find?_map_snd_eq_none_iff (MethodKey.sameMember · key)

/-- The direct supertypes, superclass first. -/
def supertypes (c : ClassDef) : List String :=
  c.superclass.toList ++ c.interfaces

/-- The class that a record of an image defines. -/
def ofRecord (image : Image) (record : ClassRecord) : Except Fault ClassDef := do
  let descriptor ← image.typeDescriptor record.type.toNat
  let superclass ← record.superclass.mapM fun t => image.typeDescriptor t.toNat
  let interfaces ← record.interfaces.mapM fun t => image.typeDescriptor t.toNat
  match record.data.data? with
  | none => return { descriptor, flags := record.flags, superclass, interfaces }
  | some data =>
    let fields ← data.fields.mapM fun f => do return (← image.fieldKey f.index.toNat, f.flags)
    let methods ← data.methods.mapM fun m => do return (← image.methodKey m.index.toNat, m.flags)
    return { descriptor, flags := record.flags, superclass, interfaces, fields, methods }

end ClassDef
end DalvikLinkage
