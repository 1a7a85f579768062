import DalvikLinkage.Container.Entry
import DalvikLinkage.Repository.ClassDef

/-!
# Repositories

The classes that a class path defines and the members that its images refer to. Of several
definitions of one type the first is kept: a later image is shadowed by an earlier one. Images are
added reference by reference and class by class, and what was added before a fault stays.
-/
namespace DalvikLinkage

structure Repository where
  /-- The classes in the order of their definition, one for each type. -/
  classes : List ClassDef := []
  fieldReferences : List FieldKey := []
  methodReferences : List MethodKey := []
  deriving Repr

/-- The values before the first error, and that error. -/
def valuesUntilError {ε α : Type} : List (Except ε α) → List α × Except ε Unit
  | [] => ([], .ok ())
  | .error e :: _ => ([], .error e)
  | .ok a :: rest =>
    let (values, ended) := valuesUntilError rest
    (a :: values, ended)

namespace Repository

/-- A repository without classes and references. -/
def empty : Repository := {}

/-- The class that a type is defined by. -/
def find? (r : Repository) (descriptor : String) : Option ClassDef :=
  r.classes.find? fun c => c.descriptor == descriptor

/-- The type is defined. -/
def defines (r : Repository) (descriptor : String) : Bool :=
  (r.find? descriptor).isSome

/-- Adds a class unless its type is defined already. -/
def addClass (r : Repository) (c : ClassDef) : Repository :=
  if r.defines c.descriptor then r else { r with classes := r.classes ++ [c] }

def addFieldReferences (r : Repository) (keys : List FieldKey) : Repository :=
  { r with fieldReferences := r.fieldReferences ++ keys }

def addMethodReferences (r : Repository) (keys : List MethodKey) : Repository :=
  { r with methodReferences := r.methodReferences ++ keys }

/-- The keys of an image's field table. -/
def fieldKeys (image : Image) : List (Except Fault FieldKey) :=
  (List.range image.fields.size).map image.fieldKey

/-- The keys of an image's method table. -/
def methodKeys (image : Image) : List (Except Fault MethodKey) :=
  (List.range image.methods.size).map image.methodKey

/-- The classes of an image. -/
def classDefs (image : Image) : List (Except Fault ClassDef) :=
  image.classes.zipIdx.map fun (record, index) =>
    (ClassDef.ofRecord image record).mapError (·.within (.classDef index))

/-- Adds the references and classes of an image, up to the first fault. -/
def addImage (r : Repository) (image : Image) : Repository × Except Fault Unit :=
  let (fields, fieldsEnded) := valuesUntilError (fieldKeys image)
  let r := r.addFieldReferences fields
  match fieldsEnded with
  | .error fault => (r, .error fault)
  | .ok () =>
    let (methods, methodsEnded) := valuesUntilError (methodKeys image)
    let r := r.addMethodReferences methods
    match methodsEnded with
    | .error fault => (r, .error fault)
    | .ok () =>
      let (classes, classesEnded) := valuesUntilError (classDefs image)
      (classes.foldl addClass r, classesEnded)

/-- Adds the image of a provider; none is added if it has a fault. -/
def addProvider (r : Repository) (p : Provider) : Logged Fault Repository := do
  let image ← p.image
  match r.addImage image with
  | (r, .ok ()) => return r
  | (_, .error fault) => Logged.fail (fault.within (.provider p.entry.name p.container))

/-- The repository of a class path. -/
def ofProviders (providers : List Provider) : Logged Fault Repository :=
  providers.foldlM addProvider empty

end Repository
end DalvikLinkage
