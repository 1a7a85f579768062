import DalvikLinkage.Proofs.Symbol.Descriptors
import DalvikLinkage.Proofs.Text.Reading

/-!
# The written form of member keys

A key is read from a text by cutting it into a class, a name and a type or prototype. The class is a
descriptor, which no other descriptor starts, so it ends at one place, however many arrows and
colons there are in the name of the class. The name goes up to the first colon, or for a method up
to the first parenthesis, and may be empty or hold arrows itself. What is left has to be one
descriptor or one prototype.

So there is at most one way to cut a text, and reading undoes writing for just the keys whose parts
have these forms (`Readable`).

Results:
* `splitClass?_eq_some_iff`: the class of a member and what stands behind the arrow;
* `parse?_iff_fieldText`, `parse?_iff_methodText`: the texts that are read, as which key, and that
  each text has one key and each readable key its text.
-/
namespace DalvikLinkage

open Descriptor

theorem splitClass?_eq_some_iff {cs owner rest : List Char} :
    splitClass? cs = some (owner, rest) ↔ IsType owner ∧ cs = owner ++ '-' :: '>' :: rest := by
  simp only [splitClass?, bind, Option.bind_eq_some_iff, pure, Option.some.injEq, Prod.mk.injEq,
    Prod.exists, split?_eq_some_iff, Text.withoutStart?_eq_some_iff]
  constructor
  · rintro ⟨d, after, ⟨hd, rfl⟩, tail, rfl, rfl, rfl⟩
    exact ⟨hd, rfl⟩
  · rintro ⟨hd, rfl⟩
    exact ⟨owner, _, ⟨hd, rfl⟩, rest, rfl, rfl, rfl⟩

/-! ## Fields -/

namespace FieldKey

variable {s : String} {key other : FieldKey}

/-- The class and the type of the key are descriptors, and its name has no colon. -/
structure Readable (key : FieldKey) : Prop where
  definingClass : IsType key.definingClass.toList
  name : ':' ∉ key.name.toList
  fieldType : IsType key.fieldType.toList

theorem toList_text : key.text.toList =
    key.definingClass.toList ++ '-' :: '>' :: (key.name.toList ++ ':' :: key.fieldType.toList) := by
  simp [text]

/-- A text is read as the key whose written form it is, if that key is readable. -/
theorem parse?_eq_some_iff : parse? s = some key ↔ key.Readable ∧ s = key.text := by
  constructor
  · intro h
    obtain ⟨⟨owner, rest⟩, hclass, hbehind⟩ := Option.bind_eq_some_iff.1 h
    obtain ⟨howner, hs⟩ := splitClass?_eq_some_iff.1 hclass
    dsimp only at hbehind
    split at hbehind
    · cases hbehind
    next colon typeText hrest =>
    obtain ⟨hname, hcut⟩ := cut_of_dropWhile hrest
    obtain ⟨⟨type, after⟩, hsplit, hkey⟩ := Option.bind_eq_some_iff.1 hbehind
    obtain ⟨htype, rfl⟩ := split?_eq_some_iff.1 hsplit
    dsimp only at hkey
    split at hkey
    · next hafter =>
      obtain rfl := Option.some.inj hkey
      obtain rfl := List.isEmpty_iff.1 hafter
      refine ⟨⟨?_, ?_, ?_⟩, String.toList_inj.1 ?_⟩
      · rwa [String.toList_ofList]
      · rwa [String.toList_ofList]
      · rwa [String.toList_ofList]
      · simp only [toList_text, String.toList_ofList]
        rw [List.append_nil] at hcut
        rw [hs, ← hcut]
    · cases hkey
  · rintro ⟨hkey, rfl⟩
    have hclass := splitClass?_eq_some_iff.2 ⟨hkey.definingClass, toList_text⟩
    have htype := hkey.fieldType.split?_append []
    rw [List.append_nil] at htype
    simp [parse?, hclass, takeWhile_append_cons hkey.name, dropWhile_append_cons hkey.name,
      htype]

/-- **Fields are read from just their written forms.** A text is read as a field if and only if it
is a descriptor, an arrow, a name without a colon, a colon and a descriptor, and these are then the
parts of its key. No text has two such readings. The key that is read is written as that text, and
every key that has such parts is read back from its text. -/
theorem parse?_iff_fieldText (s : String) (key : FieldKey) :
    (parse? s = some key ↔
      key.Readable ∧ s = key.definingClass ++ "->" ++ key.name ++ ":" ++ key.fieldType) ∧
    (∀ other : FieldKey, key.Readable → other.Readable → key.text = other.text → key = other) ∧
    (parse? s = some key → key.text = s) ∧
    (key.Readable → parse? key.text = some key) := by
  refine ⟨parse?_eq_some_iff, fun other hkey hother heq => ?_, fun h => ?_, fun h => ?_⟩
  · have hread := parse?_eq_some_iff.2 ⟨hkey, rfl⟩
    rw [heq, parse?_eq_some_iff.2 ⟨hother, rfl⟩] at hread
    exact (Option.some.inj hread).symm
  · exact (parse?_eq_some_iff.1 h).2.symm
  · exact parse?_eq_some_iff.2 ⟨h, rfl⟩

/-- The name of the class holds the arrow and the colon, and the name of the field is an arrow. -/
theorem parse?_iff_fieldText_arrows :
    let key : FieldKey := ⟨"[LA->b:I;", "->", "[LB:;"⟩
    key.Readable ∧ key.text = "[LA->b:I;->->:[LB:;" ∧
      parse? "[LA->b:I;->->:[LB:;" = some key := by
  intro key
  have hclass : key.definingClass.toList = '[' :: ('L' :: "A->b:I".toList ++ [';']) := by decide
  have htype : key.fieldType.toList = '[' :: ('L' :: "B:".toList ++ [';']) := by decide
  have hkey : key.Readable :=
    { definingClass := hclass ▸ .array (.className (by decide) (by decide))
      name := by decide
      fieldType := htype ▸ .array (.className (by decide) (by decide)) }
  have htext : key.text = "[LA->b:I;->->:[LB:;" := by decide
  exact ⟨hkey, htext, ((parse?_iff_fieldText _ key).1).2 ⟨hkey, htext.symm⟩⟩

end FieldKey

/-! ## Methods -/

namespace MethodKey

variable {s : String} {key other : MethodKey}

/-- The class of the key is a descriptor, its name has no opening parenthesis, and the prototype is
one. -/
structure Readable (key : MethodKey) : Prop where
  definingClass : IsType key.definingClass.toList
  name : '(' ∉ key.name.toList
  prototype : IsPrototype key.prototype.toList

theorem toList_text : key.text.toList =
    key.definingClass.toList ++ '-' :: '>' :: (key.name.toList ++ key.prototype.toList) := by
  simp [text]

/-- A text is read as the key whose written form it is, if that key is readable. -/
theorem parse?_eq_some_iff : parse? s = some key ↔ key.Readable ∧ s = key.text := by
  constructor
  · intro h
    obtain ⟨⟨owner, rest⟩, hclass, hbehind⟩ := Option.bind_eq_some_iff.1 h
    obtain ⟨howner, hs⟩ := splitClass?_eq_some_iff.1 hclass
    obtain ⟨⟨prototype, after⟩, hsplit, hkey⟩ := Option.bind_eq_some_iff.1 hbehind
    obtain ⟨htyped, hrest⟩ := splitPrototype?_eq_some_iff.1 hsplit
    obtain ⟨hname, hcut⟩ := cut_of_dropWhile hrest
    dsimp only at hkey
    split at hkey
    · next hafter =>
      obtain rfl := Option.some.inj hkey
      obtain rfl := List.isEmpty_iff.1 hafter
      refine ⟨⟨?_, ?_, ?_⟩, String.toList_inj.1 ?_⟩
      · rwa [String.toList_ofList]
      · rwa [String.toList_ofList]
      · rw [String.toList_ofList]
        exact isPrototype_iff.2 ⟨prototype, htyped, rfl⟩
      · simp only [toList_text, String.toList_ofList]
        rw [List.append_nil] at hrest
        rw [hs, ← hrest, List.takeWhile_append_dropWhile]
    · cases hkey
  · rintro ⟨hkey, rfl⟩
    have hclass := splitClass?_eq_some_iff.2 ⟨hkey.definingClass, toList_text⟩
    obtain ⟨prototype, htyped, hchars⟩ := isPrototype_iff.1 hkey.prototype
    have hsplit := splitPrototype?_eq_some_iff.2 ⟨htyped, (List.append_nil _).symm⟩
    rw [hchars, Prototype.chars_eq] at hclass
    rw [Prototype.chars_eq] at hsplit
    have hprototype : String.ofList prototype.chars = key.prototype := by
      rw [← hchars, String.ofList_toList]
    simp [parse?, hclass, takeWhile_append_cons hkey.name, dropWhile_append_cons hkey.name, hsplit,
      hprototype]

/-- **Methods are read from just their written forms.** A text is read as a method if and only if it
is a descriptor, an arrow, a name without an opening parenthesis and a prototype, and these are then
the parts of its key. No text has two such readings. The key that is read is written as that text,
and every key that has such parts is read back from its text. -/
theorem parse?_iff_methodText (s : String) (key : MethodKey) :
    (parse? s = some key ↔
      key.Readable ∧ s = key.definingClass ++ "->" ++ key.name ++ key.prototype) ∧
    (∀ other : MethodKey, key.Readable → other.Readable → key.text = other.text → key = other) ∧
    (parse? s = some key → key.text = s) ∧
    (key.Readable → parse? key.text = some key) := by
  refine ⟨parse?_eq_some_iff, fun other hkey hother heq => ?_, fun h => ?_, fun h => ?_⟩
  · have hread := parse?_eq_some_iff.2 ⟨hkey, rfl⟩
    rw [heq, parse?_eq_some_iff.2 ⟨hother, rfl⟩] at hread
    exact (Option.some.inj hread).symm
  · exact (parse?_eq_some_iff.1 h).2.symm
  · exact parse?_eq_some_iff.2 ⟨h, rfl⟩

/-- A class of which the name is a prototype, as the class of a method without a name and among its
parameters. -/
theorem parse?_iff_methodText_nested :
    let key : MethodKey := ⟨"L(I)V;", "", "(L(I)V;[[J)[L->;"⟩
    key.Readable ∧ key.text = "L(I)V;->(L(I)V;[[J)[L->;" ∧
      parse? "L(I)V;->(L(I)V;[[J)[L->;" = some key := by
  intro key
  have hclass : key.definingClass.toList = 'L' :: "(I)V".toList ++ [';'] := by decide
  have hresult : "[L->;".toList = '[' :: ('L' :: "->".toList ++ [';']) := by decide
  have hnested : IsType "L(I)V;".toList := hclass ▸ .className (by decide) (by decide)
  have hkey : key.Readable :=
    { definingClass := hnested
      name := by decide
      prototype := by
        refine ⟨["L(I)V;".toList, "[[J".toList], "[L->;".toList, ?_, ?_, by decide⟩
        · have harray : IsType "[[J".toList := .array (.array (.primitive (by decide)))
          exact List.forall_mem_cons.2 ⟨hnested, List.forall_mem_singleton.2 harray⟩
        · exact hresult ▸ .array (.className (by decide) (by decide)) }
  have htext : key.text = "L(I)V;->(L(I)V;[[J)[L->;" := by decide
  exact ⟨hkey, htext, ((parse?_iff_methodText _ key).1).2 ⟨hkey, htext.symm⟩⟩

end MethodKey
end DalvikLinkage
