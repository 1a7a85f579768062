import DalvikLinkage.Symbol.Key

/-!
# The grammar of descriptors

`IsType` says which texts are type descriptors, without a reader: any number of `[` and then a
primitive or a class. No descriptor starts another one. A primitive ends with its letter and a class
with its first `;`, so a reader that takes one descriptor off a text has no choice, and what follows
does not matter. Descriptors can then be written one after the other with nothing between them, as
in a prototype, although the name of a class may hold brackets, parentheses and arrows.

Results:
* `split?_eq_some_iff`: what is cut off a text is the descriptor that it starts with;
* `IsType.append_inj`: no descriptor starts another one;
* `splitAll_eq_iff`: as many descriptors are cut off as there are;
* `splitPrototype?_eq_some_iff`: a prototype is cut off where the grammar says that it ends;
* `signature_iff_prototype`: the types that a method's prototype is split into are those that it was
  built from.
-/
namespace DalvikLinkage

namespace Descriptor

variable {cs d d' e after name tail : List Char} {ds : List (List Char)}

/-- The text is the descriptor of a type. -/
inductive IsType : List Char → Prop
  | primitive {c : Char} (h : isPrimitive c = true) : IsType [c]
  | className {name : List Char} (hne : name ≠ []) (h : ';' ∉ name) :
    IsType ('L' :: name ++ [';'])
  | array {element : List Char} (h : IsType element) : IsType ('[' :: element)

/-- All parts of the prototype are descriptors of types. -/
structure Prototype.Typed (p : Prototype) : Prop where
  parameters : ∀ d ∈ p.parameters, IsType d
  result : IsType p.result

/-- The text is a prototype: any number of descriptors in parentheses and one descriptor after them.
-/
def IsPrototype (cs : List Char) : Prop :=
  ∃ (parameters : List (List Char)) (result : List Char),
    (∀ d ∈ parameters, IsType d) ∧ IsType result ∧
      cs = '(' :: parameters.flatten ++ ')' :: result

/-! ## Cutting at a character -/

theorem takeWhile_append_cons {x : Char} (h : x ∉ name) (tail : List Char) :
    (name ++ x :: tail).takeWhile (· != x) = name := by
  have hall : ∀ c ∈ name, (c != x) = true := by
    intro c hc
    exact bne_iff_ne.2 fun hcx => h (hcx ▸ hc)
  rw [List.takeWhile_append_of_pos hall]
  simp

theorem dropWhile_append_cons {x : Char} (h : x ∉ name) (tail : List Char) :
    (name ++ x :: tail).dropWhile (· != x) = x :: tail := by
  have hall : ∀ c ∈ name, (c != x) = true := by
    intro c hc
    exact bne_iff_ne.2 fun hcx => h (hcx ▸ hc)
  rw [List.dropWhile_append_of_pos hall]
  simp

/-- Where a text is cut at the first `x`, there is none before. -/
theorem cut_of_dropWhile {x c : Char} (h : cs.dropWhile (· != x) = c :: tail) :
    x ∉ cs.takeWhile (· != x) ∧ cs = cs.takeWhile (· != x) ++ x :: tail := by
  have hall := List.all_eq_true.1 (List.all_takeWhile (p := (· != x)) (l := cs))
  have hne : cs.dropWhile (· != x) ≠ [] := h ▸ List.cons_ne_nil c tail
  have hhead := List.head_dropWhile_not (· != x) hne
  obtain rfl : c = x := by simpa [h] using hhead
  refine ⟨fun hc => bne_iff_ne.1 (hall c hc) rfl, ?_⟩
  rw [← h, List.takeWhile_append_dropWhile]

/-! ## One descriptor -/

theorem splitElement?_primitive {c : Char} (h : isPrimitive c = true) :
    splitElement? (c :: tail) = some ([c], tail) := by
  unfold splitElement?
  split
  · next hn => cases hn
  · next hL =>
    obtain ⟨rfl, -⟩ := List.cons.inj hL
    exact absurd h (by decide)
  · next hcons =>
    obtain ⟨rfl, rfl⟩ := List.cons.inj hcons
    rw [if_pos h]

theorem splitElement?_className (hne : name ≠ []) (h : ';' ∉ name) :
    splitElement? ('L' :: name ++ ';' :: tail) = some ('L' :: name ++ [';'], tail) := by
  obtain ⟨c, rest, rfl⟩ := List.exists_cons_of_ne_nil hne
  rw [List.cons_append, splitElement?, takeWhile_append_cons h, dropWhile_append_cons h]
  rfl

theorem split?_of_ne {c : Char} (h : c ≠ '[') : split? (c :: tail) = splitElement? (c :: tail) := by
  unfold split?
  split
  · next hcons => exact absurd (List.cons.inj hcons).1 h
  · rfl

/-- A descriptor is cut off whatever follows it. -/
theorem IsType.split?_append (h : IsType d) (tail : List Char) :
    split? (d ++ tail) = some (d, tail) := by
  induction h with
  | @primitive c h =>
    have hne : c ≠ '[' := fun hc => absurd (hc ▸ h) (by decide)
    rw [List.singleton_append, split?_of_ne hne, splitElement?_primitive h]
  | className hne h =>
    rw [List.append_assoc, List.cons_append, split?_of_ne (by decide)]
    exact splitElement?_className hne h
  | array _ ih => rw [List.cons_append, split?, ih]; rfl

theorem isType_of_splitElement? (h : splitElement? cs = some (d, after)) : IsType d := by
  unfold splitElement? at h
  split at h
  · cases h
  · next rest =>
    split at h
    · next c name tail hname htail =>
      obtain ⟨rfl, -⟩ := Prod.mk.inj (Option.some.inj h)
      have hno := (cut_of_dropWhile htail).1
      rw [hname] at hno
      exact .className (List.cons_ne_nil c name) hno
    · cases h
  · next c rest _ =>
    split at h
    · next hc =>
      obtain ⟨rfl, -⟩ := Prod.mk.inj (Option.some.inj h)
      exact .primitive hc
    · cases h

theorem isType_of_split? (h : split? cs = some (d, after)) : IsType d := by
  fun_induction split? cs generalizing d after with
  | case1 rest ih =>
    obtain ⟨⟨e, a⟩, he, hp⟩ := Option.map_eq_some_iff.1 h
    obtain ⟨rfl, -⟩ := Prod.mk.inj hp
    exact .array (ih he)
  | case2 => exact isType_of_splitElement? h

/-- What is cut off a text is the descriptor that the text starts with. -/
theorem split?_eq_some_iff : split? cs = some (d, after) ↔ IsType d ∧ cs = d ++ after := by
  constructor
  · intro h
    exact ⟨isType_of_split? h, split?_eq_append h⟩
  · rintro ⟨hd, rfl⟩
    exact hd.split?_append after

/-- No descriptor is the start of another one. -/
theorem IsType.append_inj (hd : IsType d) (hd' : IsType d') (h : d ++ after = d' ++ tail) :
    d = d' ∧ after = tail := by
  have heq : some (d, after) = some (d', tail) := by
    rw [← hd.split?_append, h, hd'.split?_append]
  exact Prod.mk.inj (Option.some.inj heq)

theorem split?_close : split? (')' :: tail) = none := by
  rw [split?_of_ne (by decide)]
  rfl

/-! ## Rows of descriptors -/

theorem splitAll_of_none (h : split? cs = none) : splitAll cs = ([], cs) := by
  rw [splitAll]
  split
  · rfl
  · next hs => rw [h] at hs; cases hs

theorem splitAll_of_some (h : split? cs = some (d, after)) :
    splitAll cs = (d :: (splitAll after).1, (splitAll after).2) := by
  rw [splitAll]
  split
  · next hn => rw [h] at hn; cases hn
  · next hs =>
    obtain ⟨rfl, rfl⟩ := Prod.mk.inj (Option.some.inj (h.symm.trans hs))
    rfl

/-- As many descriptors are cut off as there are: the rest does not start with one. -/
theorem splitAll_eq_iff :
    splitAll cs = (ds, tail) ↔
      (∀ d ∈ ds, IsType d) ∧ cs = ds.flatten ++ tail ∧ split? tail = none := by
  constructor
  · intro h
    fun_induction splitAll cs generalizing ds with
    | case1 cs hn =>
      obtain ⟨rfl, rfl⟩ := Prod.mk.inj h
      exact ⟨fun d hd => (List.not_mem_nil hd).elim, rfl, hn⟩
    | case2 cs d after hs hlt rest last hrest ih =>
      obtain ⟨rfl, rfl⟩ := Prod.mk.inj h
      obtain ⟨htypes, hafter, hend⟩ := ih hrest
      obtain ⟨hd, hcs⟩ := split?_eq_some_iff.1 hs
      refine ⟨List.forall_mem_cons.2 ⟨hd, htypes⟩, ?_, hend⟩
      rw [hcs, hafter, List.flatten_cons, List.append_assoc]
  · rintro ⟨htypes, rfl, hend⟩
    induction ds with
    | nil => exact splitAll_of_none hend
    | cons d ds ih =>
      obtain ⟨hd, hds⟩ := List.forall_mem_cons.1 htypes
      rw [List.flatten_cons, List.append_assoc, splitAll_of_some (hd.split?_append _), ih hds]

/-! ## Prototypes -/

theorem Prototype.chars_eq (p : Prototype) :
    p.chars = '(' :: (p.parameters.flatten ++ ')' :: p.result) := rfl

/-- A prototype is cut off where its grammar says that it ends. -/
theorem splitPrototype?_eq_some_iff {p : Prototype} :
    splitPrototype? cs = some (p, tail) ↔ p.Typed ∧ cs = p.chars ++ tail := by
  constructor
  · intro h
    unfold splitPrototype? at h
    split at h
    · next rest =>
      split at h
      next parameters after hall =>
      split at h
      · next after =>
        obtain ⟨⟨result, last⟩, hresult, hp⟩ := Option.map_eq_some_iff.1 h
        obtain ⟨rfl, rfl⟩ := Prod.mk.inj hp
        obtain ⟨htypes, hrest, -⟩ := splitAll_eq_iff.1 hall
        obtain ⟨hr, rfl⟩ := split?_eq_some_iff.1 hresult
        refine ⟨⟨htypes, hr⟩, ?_⟩
        rw [hrest, Prototype.chars_eq, List.cons_append, List.append_assoc, List.cons_append]
      · cases h
    · cases h
  · rintro ⟨⟨htypes, hresult⟩, rfl⟩
    have hparameters : splitAll (p.parameters.flatten ++ ')' :: (p.result ++ tail)) =
        (p.parameters, ')' :: (p.result ++ tail)) :=
      splitAll_eq_iff.2 ⟨htypes, rfl, split?_close⟩
    rw [Prototype.chars_eq, List.cons_append, List.append_assoc, List.cons_append, splitPrototype?,
      hparameters]
    simp only [hresult.split?_append, Option.map_some]

/-- What is cut off makes up a prototype, and a text that is a prototype is cut off as a whole. -/
theorem isPrototype_iff : IsPrototype cs ↔ ∃ p : Prototype, p.Typed ∧ cs = p.chars := by
  constructor
  · rintro ⟨parameters, result, hparameters, hresult, rfl⟩
    exact ⟨⟨parameters, result⟩, ⟨hparameters, hresult⟩, rfl⟩
  · rintro ⟨p, hp, rfl⟩
    exact ⟨p.parameters, p.result, hp.parameters, hp.result, rfl⟩

end Descriptor

/-! ## The prototype of a method -/

namespace MethodKey

open Descriptor

variable {k : MethodKey}

theorem signature?_eq_some_iff {p : Prototype} :
    k.signature? = some p ↔ p.Typed ∧ ∃ tail, k.prototype.toList = p.chars ++ tail := by
  unfold signature?
  rw [Option.map_eq_some_iff]
  constructor
  · rintro ⟨⟨q, tail⟩, hq, rfl⟩
    obtain ⟨htyped, htext⟩ := splitPrototype?_eq_some_iff.1 hq
    exact ⟨htyped, tail, htext⟩
  · rintro ⟨htyped, tail, htext⟩
    exact ⟨(p, tail), splitPrototype?_eq_some_iff.2 ⟨htyped, htext⟩, rfl⟩

/-- The types of a method, in the two forms in which they are kept. -/
theorem types_eq_iff {parameters : List String} {result : String} :
    k.parameterTypes = parameters ∧ k.returnType? = some result ↔
      k.signature? = some ⟨parameters.map String.toList, result.toList⟩ := by
  unfold parameterTypes returnType?
  cases k.signature? with
  | none => simp
  | some p =>
    obtain ⟨ds, r⟩ := p
    have hparameters : ds.map String.ofList = parameters ↔ ds = parameters.map String.toList := by
      constructor
      · rintro rfl
        simp [List.map_map, Function.comp_def]
      · rintro rfl
        simp [List.map_map, Function.comp_def]
    have hresult : String.ofList r = result ↔ r = result.toList := by
      constructor
      · rintro rfl
        exact (String.toList_ofList).symm
      · rintro rfl
        exact String.ofList_toList
    simp [hparameters, hresult]

/-- The text of a method's prototype starts with the prototype that is built from these types. -/
theorem prototype_eq_append_iff {parameters : List String} {result : String} :
    (∃ tail, k.prototype = Descriptor.prototype parameters result ++ tail) ↔
      ∃ tail, k.prototype.toList =
        Prototype.chars ⟨parameters.map String.toList, result.toList⟩ ++ tail := by
  constructor
  · rintro ⟨tail, h⟩
    refine ⟨tail.toList, ?_⟩
    rw [h, String.toList_append, Descriptor.prototype, String.toList_ofList]
  · rintro ⟨tail, h⟩
    refine ⟨String.ofList tail, String.toList_inj.1 ?_⟩
    rw [h, String.toList_append, Descriptor.prototype, String.toList_ofList, String.toList_ofList]

/-- **Prototypes decode uniquely.** The parameters and the result of a method are those of which its
prototype was built, whatever text follows. Conversely a prototype that gives parameters and a
result starts with the prototype that is built from them, and they are descriptors; one that gives
no result gives no parameters. -/
theorem signature_iff_prototype (k : MethodKey) :
    (∀ parameters result,
      k.parameterTypes = parameters ∧ k.returnType? = some result ↔
        ((∀ d ∈ parameters, IsType d.toList) ∧ IsType result.toList) ∧
          ∃ tail, k.prototype = Descriptor.prototype parameters result ++ tail) ∧
    (k.returnType? = none → k.parameterTypes = []) := by
  constructor
  · intro parameters result
    have htyped : Prototype.Typed ⟨parameters.map String.toList, result.toList⟩ ↔
        (∀ d ∈ parameters, IsType d.toList) ∧ IsType result.toList :=
      ⟨fun h => ⟨List.forall_mem_map.1 h.parameters, h.result⟩,
        fun h => ⟨List.forall_mem_map.2 h.1, h.2⟩⟩
    rw [types_eq_iff, signature?_eq_some_iff, htyped, prototype_eq_append_iff]
  · intro hnone
    have hsignature : k.signature? = none := Option.map_eq_none_iff.1 hnone
    rw [parameterTypes, hsignature]
    rfl

/-- The name of a class in the prototype holds parentheses and an arrow. -/
example :
    let k : MethodKey := ⟨"LA;", "run", "([[IL)->(;Z)[L[;V"⟩
    k.parameterTypes = ["[[I", "L)->(;", "Z"] ∧ k.returnType? = some "[L[;" := by
  cbv

end MethodKey
end DalvikLinkage
