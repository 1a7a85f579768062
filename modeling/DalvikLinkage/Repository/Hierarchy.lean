import DalvikLinkage.Repository.Basic

/-!
# Walking the class hierarchy

The hierarchy is a graph of descriptors; it may have cycles, diamonds and supertypes that no class
defines. A walk visits every class at most once. Searches for fields and for methods are walks with
different orders, and the first visited class that declares the member decides.

Results:
* `unseen_cons_lt`: visiting a class leaves fewer classes to visit, so walks end.
-/
namespace DalvikLinkage.Repository

theorem find?_descriptor {r : Repository} {t : String} {c : ClassDef} (h : r.find? t = some c) :
    c.descriptor = t := by
  simpa using List.find?_some h

theorem mem_of_find? {r : Repository} {t : String} {c : ClassDef} (h : r.find? t = some c) :
    c ∈ r.classes :=
  List.mem_of_find?_eq_some h

/-- How many classes have not been seen. -/
def unseen (r : Repository) (seen : List String) : Nat :=
  r.classes.countP fun c => !seen.contains c.descriptor

theorem countP_lt_of_imp {α : Type} {p q : α → Bool} {l : List α} {a : α} (ha : a ∈ l)
    (hp : p a = false) (hq : q a = true) (h : ∀ x, p x = true → q x = true) :
    l.countP p < l.countP q := by
  induction l with
  | nil => cases ha
  | cons x rest ih =>
    have hle : rest.countP p ≤ rest.countP q := List.countP_mono_left fun y _ => h y
    rw [List.countP_cons, List.countP_cons]
    rcases List.mem_cons.1 ha with rfl | ha
    · rw [hp, hq, if_neg Bool.false_ne_true, if_pos rfl]
      omega
    · have hlt := ih ha
      have hx := h x
      grind

theorem unseen_cons_lt {r : Repository} {t : String} {c : ClassDef} {seen : List String}
    (hc : r.find? t = some c) (ht : seen.contains t = false) :
    r.unseen (t :: seen) < r.unseen seen := by
  have hd := find?_descriptor hc
  refine countP_lt_of_imp (mem_of_find? hc) ?_ ?_ ?_
  · simp [hd]
  · rw [hd, ht]; rfl
  · intro x hx
    simp only [List.contains_cons, Bool.not_or, Bool.and_eq_true] at hx
    exact hx.2

/-- Visits the classes of `todo` in order, and after each class what `next` names, before the rest
of `todo`. Classes in `seen` and those visited before are passed over, and so are types that no
class defines. -/
def walk (r : Repository) (next : ClassDef → List String) (todo seen : List String) :
    List ClassDef :=
  match todo with
  | [] => []
  | t :: rest =>
    match hc : r.find? t with
    | none => walk r next rest seen
    | some c =>
      if ht : seen.contains t = true then walk r next rest seen
      else
        have := unseen_cons_lt hc (by simpa using ht)
        c :: walk r next (next c ++ rest) (t :: seen)
termination_by (r.unseen seen, todo.length)

/-- The class and its superclasses, until one is not defined or was there before. -/
def superclassesFrom (r : Repository) (c : ClassDef) (seen : List String) : List ClassDef :=
  match c.superclass with
  | none => [c]
  | some t =>
    match hs : r.find? t with
    | none => [c]
    | some s =>
      if ht : seen.contains t = true then [c]
      else
        have := unseen_cons_lt hs (by simpa using ht)
        c :: superclassesFrom r s (t :: seen)
termination_by r.unseen seen

/-- The chain of superclasses of a class, the class itself first. -/
def superclassChain (r : Repository) (c : ClassDef) : List ClassDef :=
  r.superclassesFrom c [c.descriptor]

/-! ## Orders of search -/

/-- After a class, a search for a field goes to its interfaces and then to its superclass. -/
def nextForField (c : ClassDef) : List String :=
  c.interfaces ++ c.superclass.toList

/-- The classes above `c` in the order in which a search for a field comes to them. -/
def fieldOrder (r : Repository) (c : ClassDef) : List ClassDef :=
  r.walk nextForField c.supertypes [c.descriptor]

/-- After an interface, a search for a method goes to its last supertype first. -/
def nextForMethod (c : ClassDef) : List String :=
  c.supertypes.reverse

/-- The classes that a search for a method from `c` looks at, in order: the chain of superclasses,
then the interfaces above it. -/
def methodOrder (r : Repository) (c : ClassDef) : List ClassDef :=
  let chain := r.superclassChain c
  chain ++ r.walk nextForMethod (chain.flatMap (·.interfaces)).reverse (chain.map (·.descriptor))

/-- The flags of the field where a search from `c` upwards first finds it. -/
def inheritedFieldFlags? (r : Repository) (c : ClassDef) (key : FieldKey) : Option AccessFlags :=
  (r.fieldOrder c).findSome? (·.fieldFlags? key)

/-- The flags of the method where a search from `c` first finds it. -/
def findMethod? (r : Repository) (c : ClassDef) (key : MethodKey) : Option AccessFlags :=
  (r.methodOrder c).findSome? (·.methodFlags? key)

/-- The flags of the method where the searches from the direct supertypes of `c` first find it. -/
def inheritedMethodFlags? (r : Repository) (c : ClassDef) (key : MethodKey) :
    Option AccessFlags :=
  (c.supertypes.filterMap r.find?).findSome? (r.findMethod? · key)

/-! ## Exposure -/

/-- A reference to the field through the class reaches a field: one that the class declares, or an
inherited one that is not private. -/
def hasField (r : Repository) (c : ClassDef) (key : FieldKey) : Bool :=
  (c.fieldFlags? key).isSome ||
    ((r.inheritedFieldFlags? c key).map fun flags => !flags.isPrivate).getD false

/-- The method is one that no class inherits: a constructor or a static initializer. -/
def isSpecial (key : MethodKey) : Bool :=
  key.name.toList.head? == some '<'

/-- A reference to the method through the class reaches a method: one that the class declares, or an
inherited one that is not private. -/
def hasMethod (r : Repository) (c : ClassDef) (key : MethodKey) : Bool :=
  (c.methodFlags? key).isSome ||
    (!isSpecial key &&
      ((r.inheritedMethodFlags? c key).map fun flags => !flags.isPrivate).getD false)

end DalvikLinkage.Repository
