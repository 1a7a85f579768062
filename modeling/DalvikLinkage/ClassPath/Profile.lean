/-!
# Profiles

A profile says which API level, and for images of the runtime which of its versions, files are read
for. It decides which versions of dex images are supported.
-/
namespace DalvikLinkage

/-- The value of the first step whose bound `n` does not exceed, and `last` past all of them. -/
def stepValue {α : Type} (steps : List (Int × α)) (last : α) (n : Int) : α :=
  match steps.find? fun step => n ≤ step.1 with
  | some step => step.2
  | none => last

/-- An API level and a version of the runtime. -/
structure Profile where
  apiLevel : Int
  artVersion : Int
  deriving DecidableEq, Repr

namespace Profile

/-- The version that stands for none. -/
def noArtVersion : Int := -1

def defaultApiLevel : Int := 33

/-- The profile of an API level. -/
def ofApi (apiLevel : Int) : Profile :=
  ⟨apiLevel, noArtVersion⟩

/-- The API level that came with a version of the runtime. -/
def apiOfArtVersion : Int → Int :=
  stepValue
    [(38, 19), (44, 21), (63, 22), (78, 23), (123, 24), (130, 26), (137, 27), (169, 28), (182, 29)]
    30

/-- The profile of a version of the runtime. -/
def ofArtVersion (artVersion : Int) : Profile :=
  ⟨apiOfArtVersion artVersion, artVersion⟩

instance : Inhabited Profile where
  default := ofApi defaultApiLevel

def isArt (p : Profile) : Bool :=
  p.artVersion != noArtVersion

/-- The newest version of dex images that the API level loads. -/
def maxDexVersion (p : Profile) : Nat :=
  stepValue [(23, 35), (25, 37), (27, 38), (29, 39)] 41 p.apiLevel

def supportsDexVersion (p : Profile) (version : Nat) : Bool :=
  version ≤ p.maxDexVersion

end Profile
end DalvikLinkage
