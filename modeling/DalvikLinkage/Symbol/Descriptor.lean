/-!
# Type descriptors

A type descriptor is any number of `[` and then a primitive, one of `ZBCSIJFDV`, or a class: `L`,
one or more characters other than `;`, and `;`. A prototype is a parenthesised run of descriptors
and the descriptor of the result. Both are cut off the start of a text.

Results:
* `split?_eq_append`: what is cut off and what is left make up the text.
* `split?_ne_nil`: something is cut off.
-/
namespace DalvikLinkage.Descriptor

/-- The letters of the primitive types, `void` included. -/
def isPrimitive (c : Char) : Bool :=
  ['Z', 'B', 'C', 'S', 'I', 'J', 'F', 'D', 'V'].contains c

/-- Cuts a primitive or a class off the start of a text. -/
def splitElement? : List Char → Option (List Char × List Char)
  | [] => none
  | 'L' :: rest =>
    match rest.takeWhile (· != ';'), rest.dropWhile (· != ';') with
    | c :: name, ';' :: after => some ('L' :: c :: name ++ [';'], after)
    | _, _ => none
  | c :: rest => if isPrimitive c then some ([c], rest) else none

/-- Cuts a type descriptor off the start of a text. -/
def split? : List Char → Option (List Char × List Char)
  | '[' :: rest => (split? rest).map fun (element, after) => ('[' :: element, after)
  | cs => splitElement? cs

theorem splitElement?_eq_append {cs d after : List Char}
    (h : splitElement? cs = some (d, after)) : cs = d ++ after ∧ d ≠ [] := by
  unfold splitElement? at h
  split at h
  · simp at h
  · rename_i rest
    split at h
    · rename_i c name after' h1 h2
      have hr := List.takeWhile_append_dropWhile (p := (· != ';')) (l := rest)
      simp only [Option.some.injEq, Prod.mk.injEq] at h
      obtain ⟨rfl, rfl⟩ := h
      rw [← hr, h1, h2]
      simp
    · simp at h
  · split at h
    · simp only [Option.some.injEq, Prod.mk.injEq] at h
      obtain ⟨rfl, rfl⟩ := h
      simp
    · simp at h

theorem split?_append_and_ne_nil {cs d after : List Char} (h : split? cs = some (d, after)) :
    cs = d ++ after ∧ d ≠ [] := by
  fun_induction split? cs generalizing d after with
  | case1 rest ih =>
    obtain ⟨⟨e, a⟩, he, hp⟩ := Option.map_eq_some_iff.1 h
    simp only [Prod.mk.injEq] at hp
    obtain ⟨rfl, rfl⟩ := hp
    simp [(ih he).1]
  | case2 => exact splitElement?_eq_append h

theorem split?_eq_append {cs d after : List Char} (h : split? cs = some (d, after)) :
    cs = d ++ after :=
  (split?_append_and_ne_nil h).1

theorem split?_ne_nil {cs d after : List Char} (h : split? cs = some (d, after)) : d ≠ [] :=
  (split?_append_and_ne_nil h).2

theorem length_lt_of_split? {cs d after : List Char} (h : split? cs = some (d, after)) :
    after.length < cs.length := by
  have := List.length_pos_iff.2 (split?_ne_nil h)
  rw [split?_eq_append h, List.length_append]
  omega

/-- Cuts off as many type descriptors as there are. -/
def splitAll (cs : List Char) : List (List Char) × List Char :=
  match h : split? cs with
  | none => ([], cs)
  | some (d, after) =>
    have := length_lt_of_split? h
    let (ds, rest) := splitAll after
    (d :: ds, rest)
termination_by cs.length

/-- The types of a method's parameters and of its result. -/
structure Prototype where
  parameters : List (List Char)
  result : List Char
  deriving DecidableEq, Repr

/-- The descriptor of a prototype. -/
def Prototype.chars (p : Prototype) : List Char :=
  '(' :: p.parameters.flatten ++ ')' :: p.result

/-- Cuts a prototype off the start of a text. -/
def splitPrototype? : List Char → Option (Prototype × List Char)
  | '(' :: cs =>
    let (parameters, after) := splitAll cs
    match after with
    | ')' :: after => (split? after).map fun (result, rest) => (⟨parameters, result⟩, rest)
    | _ => none
  | _ => none

/-- The descriptor of a prototype from the descriptors of its parts. -/
def prototype (parameters : List String) (result : String) : String :=
  String.ofList (Prototype.chars ⟨parameters.map String.toList, result.toList⟩)

end DalvikLinkage.Descriptor
