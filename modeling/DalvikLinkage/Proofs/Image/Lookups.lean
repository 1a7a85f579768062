import DalvikLinkage.Proofs.Image.Layout
import DalvikLinkage.Proofs.Outcome

/-!
# Looking things up in an image

Reading an image checks one kind of reference only: a type has to name a string that is text. The
indices in all other tables are kept as they are and followed when something is looked up, for a
method's key through five tables. What can go wrong then is said here by the tables alone: an index
that is out of range, or the name of a member that is no text. A type that is in range is never the
reason.

Results:
* `string_eq_ok_iff`, `typeDescriptor_eq_ok_iff`, `protoDescriptor_eq_ok_iff`,
  `fieldKey_eq_ok_iff`, `methodKey_eq_ok_iff`: what each lookup gives, in any image;
* `counted_ofHeader`, `typesNamed_ofHeader`: what reading an image makes sure of;
* `ofBytes_lookups`: which lookups succeed in an image that was read.
-/
namespace DalvikLinkage

/-- The descriptor of a prototype is that of its parameters in parentheses, then the result's. -/
theorem Descriptor.prototype_eq (parameters : List String) (result : String) :
    prototype parameters result = "(" ++ String.join parameters ++ ")" ++ result := by
  apply String.toList_inj.1
  simp [prototype, Prototype.chars, List.flatMap_def]

namespace Image

variable {image : Image} {table : Table} {index : Nat} {text : String}

/-- The string at the index is that text. -/
def HasText (image : Image) (index : Nat) (text : String) : Prop :=
  image.strings[index]? = some (.decoded text)

/-- Every type names a string that is text. -/
def TypesNamed (image : Image) : Prop :=
  ∀ (t : Nat) name, image.types[t]? = some name → ∃ text, image.HasText name.toNat text

/-- The tables have as many entries as the header says. -/
structure Counted (image : Image) : Prop where
  strings : image.strings.size = image.header.strings.size.toNat
  types : image.types.size = image.header.types.size.toNat
  protos : image.protos.size = image.header.protos.size.toNat
  fields : image.fields.size = image.header.fields.size.toNat
  methods : image.methods.size = image.header.methods.size.toNat
  classes : image.classes.length = image.header.classes.size.toNat

/-! ## What lookups give -/

theorem entry_eq_ok_iff {α : Type} {entries : Array α} {a : α} :
    entry table entries index = .ok a ↔ entries[index]? = some a := by
  unfold entry
  cases entries[index]? <;> simp

theorem string_eq_ok_iff : image.string index = .ok text ↔ image.HasText index text := by
  unfold string HasText
  rw [except_bind_eq_ok_iff]
  simp only [entry_eq_ok_iff]
  constructor
  · rintro ⟨item, hitem, htext⟩
    cases item with
    | decoded s =>
      cases htext
      exact hitem
    | raw units bytes => cases htext
  · intro h
    exact ⟨_, h, rfl⟩

theorem typeDescriptor_eq_ok_iff :
    image.typeDescriptor index = .ok text ↔
      ∃ name, image.types[index]? = some name ∧ image.HasText name.toNat text := by
  unfold typeDescriptor
  simp only [except_bind_eq_ok_iff, entry_eq_ok_iff, string_eq_ok_iff]

/-- A prototype's descriptor is there if those of its parts are. -/
theorem protoDescriptor_eq_ok_iff :
    image.protoDescriptor index = .ok text ↔
      ∃ proto parameters result, image.protos[index]? = some proto ∧
        List.Forall₂ (fun (t : UInt16) d => image.typeDescriptor t.toNat = .ok d) proto.parameters
          parameters ∧
        image.typeDescriptor proto.result.toNat = .ok result ∧
        text = "(" ++ String.join parameters ++ ")" ++ result := by
  unfold protoDescriptor
  simp only [except_bind_eq_ok_iff, entry_eq_ok_iff, mapM_eq_ok_iff, ← Descriptor.prototype_eq]
  constructor
  · rintro ⟨proto, hproto, parameters, hparameters, result, hresult, h⟩
    cases h
    exact ⟨proto, parameters, result, hproto, hparameters, hresult, rfl⟩
  · rintro ⟨proto, parameters, result, hproto, hparameters, hresult, rfl⟩
    exact ⟨proto, hproto, parameters, hparameters, result, hresult, rfl⟩

theorem fieldKey_eq_ok_iff {key : FieldKey} :
    image.fieldKey index = .ok key ↔
      ∃ field, image.fields[index]? = some field ∧
        image.typeDescriptor field.owner.toNat = .ok key.definingClass ∧
        image.HasText field.name.toNat key.name ∧
        image.typeDescriptor field.type.toNat = .ok key.fieldType := by
  unfold fieldKey
  simp only [except_bind_eq_ok_iff, entry_eq_ok_iff, string_eq_ok_iff]
  constructor
  · rintro ⟨field, hfield, owner, howner, name, hname, type, htype, h⟩
    cases h
    exact ⟨field, hfield, howner, hname, htype⟩
  · rintro ⟨field, hfield, howner, hname, htype⟩
    exact ⟨field, hfield, _, howner, _, hname, _, htype, rfl⟩

theorem methodKey_eq_ok_iff {key : MethodKey} :
    image.methodKey index = .ok key ↔
      ∃ method, image.methods[index]? = some method ∧
        image.typeDescriptor method.owner.toNat = .ok key.definingClass ∧
        image.HasText method.name.toNat key.name ∧
        image.protoDescriptor method.proto.toNat = .ok key.prototype := by
  unfold methodKey
  simp only [except_bind_eq_ok_iff, entry_eq_ok_iff, string_eq_ok_iff]
  constructor
  · rintro ⟨method, hmethod, owner, howner, name, hname, proto, hproto, h⟩
    cases h
    exact ⟨method, hmethod, howner, hname, hproto⟩
  · rintro ⟨method, hmethod, howner, hname, hproto⟩
    exact ⟨method, hmethod, _, howner, _, hname, _, hproto, rfl⟩

/-! ## Which lookups succeed -/

namespace TypesNamed

variable (h : image.TypesNamed)

include h

/-- A type in range always has a descriptor. -/
theorem exists_typeDescriptor_iff :
    (∃ text, image.typeDescriptor index = .ok text) ↔ index < image.types.size := by
  simp only [typeDescriptor_eq_ok_iff]
  constructor
  · rintro ⟨text, name, hname, -⟩
    exact (Array.getElem?_eq_some_iff.1 hname).1
  · intro hindex
    obtain ⟨text, htext⟩ := h index _ (Array.getElem?_eq_getElem hindex)
    exact ⟨text, _, Array.getElem?_eq_getElem hindex, htext⟩

theorem exists_protoDescriptor_iff :
    (∃ text, image.protoDescriptor index = .ok text) ↔
      ∃ proto, image.protos[index]? = some proto ∧ proto.result.toNat < image.types.size ∧
        ∀ t ∈ proto.parameters, t.toNat < image.types.size := by
  simp only [protoDescriptor_eq_ok_iff, ← h.exists_typeDescriptor_iff, ← exists_forall₂_iff]
  constructor
  · rintro ⟨text, proto, parameters, result, hproto, hparameters, hresult, -⟩
    exact ⟨proto, hproto, ⟨result, hresult⟩, parameters, hparameters⟩
  · rintro ⟨proto, hproto, ⟨result, hresult⟩, parameters, hparameters⟩
    exact ⟨_, proto, parameters, result, hproto, hparameters, hresult, rfl⟩

theorem exists_fieldKey_iff :
    (∃ key, image.fieldKey index = .ok key) ↔
      ∃ field, image.fields[index]? = some field ∧ field.owner.toNat < image.types.size ∧
        field.type.toNat < image.types.size ∧ ∃ name, image.HasText field.name.toNat name := by
  simp only [fieldKey_eq_ok_iff, ← h.exists_typeDescriptor_iff]
  constructor
  · rintro ⟨key, field, hfield, howner, hname, htype⟩
    exact ⟨field, hfield, ⟨_, howner⟩, ⟨_, htype⟩, _, hname⟩
  · rintro ⟨field, hfield, ⟨owner, howner⟩, ⟨type, htype⟩, name, hname⟩
    exact ⟨⟨owner, name, type⟩, field, hfield, howner, hname, htype⟩

theorem exists_methodKey_iff :
    (∃ key, image.methodKey index = .ok key) ↔
      ∃ method, image.methods[index]? = some method ∧ method.owner.toNat < image.types.size ∧
        (∃ name, image.HasText method.name.toNat name) ∧
        ∃ text, image.protoDescriptor method.proto.toNat = .ok text := by
  simp only [methodKey_eq_ok_iff, ← h.exists_typeDescriptor_iff]
  constructor
  · rintro ⟨key, method, hmethod, howner, hname, hproto⟩
    exact ⟨method, hmethod, ⟨_, howner⟩, ⟨_, hname⟩, _, hproto⟩
  · rintro ⟨method, hmethod, ⟨owner, howner⟩, ⟨name, hname⟩, text, hproto⟩
    exact ⟨⟨owner, name, text⟩, method, hmethod, howner, hname, hproto⟩

end TypesNamed

/-! ## Images that were read -/

variable {bytes : Bytes} {header : Header}

theorem counted_ofHeader (bytes : Bytes) (header : Header) : (ofHeader bytes header).Counted := by
  constructor <;> simp [ofHeader, Extent.table]

theorem typesNamed_ofHeader (h : header.types.Each 4 (TypeStandsAt bytes header.strings)) :
    (ofHeader bytes header).TypesNamed := by
  intro t name hname
  obtain ⟨ht, rfl⟩ := getElem?_table_eq_some_iff.1 hname
  obtain ⟨-, hlt, text, htext⟩ := h t ht
  exact ⟨text, getElem?_table_eq_some_iff.2 ⟨hlt, htext⟩⟩

/-- An image that was read is made from a header whose types were checked. -/
theorem exists_header_of_ofBytes (h : (ofBytes bytes).outcome = .ok image) :
    ∃ header, image = ofHeader bytes header ∧
      header.types.Each 4 (TypeStandsAt bytes header.strings) := by
  unfold ofBytes at h
  simp only [Logged.outcome_bind_eq_ok_iff, Logged.outcome_of, Logged.outcome_pure,
    outcome_readClasses_eq_ok_iff, Except.ok.injEq] at h
  obtain ⟨tables, htables, classes, ⟨-, rfl⟩, rfl⟩ := h
  obtain ⟨⟨-, -, htypes, -⟩, rfl⟩ := (gives_readTables rfl tables).1 htables
  exact ⟨_, rfl, htypes⟩

/-- **In an image that was read, a lookup fails only where an index leads nowhere.** The tables have
the sizes that the header announces, and every type has a descriptor. A prototype has one if its
types are in range, and it is made of theirs. A field's key is there if its types are in range and
its name is text, and a method's if its class is, its name is text and its prototype has a
descriptor. -/
theorem ofBytes_lookups (bytes : Bytes) (image : Image)
    (h : (ofBytes bytes).outcome = .ok image) :
    image.Counted ∧ image.TypesNamed ∧
    (∀ t, (∃ text, image.typeDescriptor t = .ok text) ↔ t < image.types.size) ∧
    (∀ p, (∃ text, image.protoDescriptor p = .ok text) ↔
      ∃ proto, image.protos[p]? = some proto ∧ proto.result.toNat < image.types.size ∧
        ∀ t ∈ proto.parameters, t.toNat < image.types.size) ∧
    (∀ p text, image.protoDescriptor p = .ok text ↔
      ∃ proto parameters result, image.protos[p]? = some proto ∧
        List.Forall₂ (fun (t : UInt16) d => image.typeDescriptor t.toNat = .ok d) proto.parameters
          parameters ∧
        image.typeDescriptor proto.result.toNat = .ok result ∧
        text = "(" ++ String.join parameters ++ ")" ++ result) ∧
    (∀ f, (∃ key, image.fieldKey f = .ok key) ↔
      ∃ field, image.fields[f]? = some field ∧ field.owner.toNat < image.types.size ∧
        field.type.toNat < image.types.size ∧ ∃ name, image.HasText field.name.toNat name) ∧
    ∀ m, (∃ key, image.methodKey m = .ok key) ↔
      ∃ method, image.methods[m]? = some method ∧ method.owner.toNat < image.types.size ∧
        (∃ name, image.HasText method.name.toNat name) ∧
        ∃ text, image.protoDescriptor method.proto.toNat = .ok text := by
  obtain ⟨header, rfl, htypes⟩ := exists_header_of_ofBytes h
  have hnamed := typesNamed_ofHeader htypes
  exact ⟨counted_ofHeader bytes header, hnamed, fun _ => hnamed.exists_typeDescriptor_iff,
    fun _ => hnamed.exists_protoDescriptor_iff, fun _ _ => protoDescriptor_eq_ok_iff,
    fun _ => hnamed.exists_fieldKey_iff, fun _ => hnamed.exists_methodKey_iff⟩

/-- An image of the type `I` with a prototype `(I)I`, a field `x` and another one of a type that is
not in the table. -/
def danglingField : Bytes :=
  ([0x64, 0x65, 0x78, 0x0a, 0x30, 0x33, 0x35, 0] ++ List.replicate 32 0 ++
    Bytes.fourOf 0x12345678 ++ List.replicate 12 0 ++ Bytes.fourOf 2 ++ Bytes.fourOf 112 ++
    Bytes.fourOf 1 ++ Bytes.fourOf 120 ++ Bytes.fourOf 1 ++ Bytes.fourOf 124 ++ Bytes.fourOf 2 ++
    Bytes.fourOf 136 ++ List.replicate 24 0 ++
    Bytes.fourOf 158 ++ Bytes.fourOf 161 ++ Bytes.fourOf 0 ++
    Bytes.fourOf 0 ++ Bytes.fourOf 0 ++ Bytes.fourOf 152 ++
    [0, 0, 0, 0] ++ Bytes.fourOf 1 ++ [0, 0, 7, 0] ++ Bytes.fourOf 1 ++
    Bytes.fourOf 1 ++ [0, 0] ++ [1, 0x49, 0] ++ [1, 0x78, 0]).toArray

theorem ofBytes_lookups_danglingField :
    ∃ image, (ofBytes danglingField).outcome = .ok image ∧ image.protoDescriptor 0 = .ok "(I)I" ∧
      (∃ key, image.fieldKey 0 = .ok key) ∧ ¬∃ key, image.fieldKey 1 = .ok key := by
  obtain ⟨image, himage⟩ : ∃ image, (ofBytes danglingField).outcome = .ok image :=
    exists_of_isSome_toOption (by decide +kernel)
  have htables : ((ofBytes danglingField).outcome.toOption.map fun i =>
      ((i.strings, i.types), i.protos, i.fields)) =
      some ((#[.decoded "I", .decoded "x"], #[0]), #[⟨0, 0, [0]⟩], #[⟨0, 0, 1⟩, ⟨0, 7, 1⟩]) := by
    decide +kernel
  rw [himage] at htables
  obtain ⟨⟨hstrings, htypes⟩, hprotos, hfields⟩ :
      (image.strings = _ ∧ image.types = _) ∧ image.protos = _ ∧ image.fields = _ := by
    simpa [Except.toOption] using htables
  obtain ⟨-, -, -, -, hproto, hfield, -⟩ := ofBytes_lookups _ image himage
  have hx : image.HasText 1 "x" := by rw [HasText, hstrings]; rfl
  have hI : image.typeDescriptor 0 = .ok "I" :=
    typeDescriptor_eq_ok_iff.2 ⟨0, by rw [htypes]; rfl, by rw [HasText, hstrings]; rfl⟩
  refine ⟨image, himage, (hproto 0 _).2 ⟨⟨0, 0, [0]⟩, ["I"], "I", by rw [hprotos]; rfl,
    .cons hI .nil, hI, rfl⟩, (hfield 0).2 ⟨⟨0, 0, 1⟩, by rw [hfields]; rfl, ?_, ?_, "x", hx⟩,
    fun h => ?_⟩
  · rw [htypes]
    decide
  · rw [htypes]
    decide
  · obtain ⟨field, hentry, -, htype, -⟩ := (hfield 1).1 h
    rw [hfields] at hentry
    cases hentry
    rw [htypes] at htype
    exact absurd htype (by decide)

end Image
end DalvikLinkage
