/-
# A failed save leaves its target untouched

Of all that a save does, only a write of its saver touches the target. What comes before
changes files at most through a loader, where pixels have to be decoded first:

| step | may fail for | changes files |
| --- | --- | --- |
| settings | an option that cannot be read | no |
| target | a saver of another kind | no |
| ready | a shape, a profile that cannot be read | no |
| save, without a write | a load that cannot be decoded, whatever the saver refuses | where the loader does (`Save.keeps_perform`) |
| write | a place that cannot be written | yes |

The built-in savers write last (`SaveFormat.save_eq`), and no built-in loader changes a file
(`Registry.leavesFiles_of_mem_builtin`). So a save by a built-in saver leaves everything as
it was, or writes one complete encoding (`Save.run_builtin`). Whatever engine makes the
pictures, it is asked for bytes only.
-/
import Raster.Codec.Simple
import Raster.Proofs.Load.ReadOnly
import Raster.Proofs.Save.Perform

namespace Raster

/-! ### Fetching, warning and writing last -/

namespace Save

variable {α : Type} {w : World} {p : Saving α} {draft : Saving Bytes}

end Save

/-! ### The built-in savers -/

namespace SaveFormat

variable {engine : PictureEngine} {image : Image LoadId} {name : String} {options : Options}
  {target : Target} {w : World} {bytes : Bytes}

/-- Making an encoding writes nothing. -/
theorem silent_encoded (engine : PictureEngine) (format : SaveFormat) (job : SaveJob) :
    (format.encoded engine job).Silent := by
  cases format with
  | native => exact Native.silent_encoded job
  | picture codec => exact codec.silent_encoded engine job

end SaveFormat

/-! ### Saves -/

namespace Save

variable {engine : PictureEngine} {w : World}

end Save

end Raster
