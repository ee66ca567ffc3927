/-
# What a saver does with its target

A saver fetches and warns as it likes, and it is its own affair when it writes. Those
that never write leave the target alone (`Saving.Silent`). The savers here write in one
go at the very end (`Saver.WritesLast`):

| saver | before it writes |
| --- | --- |
| containers | warns, fetches all pixels, warns |
| pictures | looks at the samples, fetches all pixels, reads options, encodes, warns |
| scripted | fails, or fetches all pixels |

What one step after another does to image, target and world is put together by
`Save.perform_bind`. Of twins it does the same (`Save.perform_same`).
-/
import Raster.Codec.Handler
import Raster.Handler.Scripted
import Raster.Native.Handler
import Raster.Proofs.Save.Twins
import Raster.Save.Basic

namespace Raster

namespace Saving

variable {α β : Type} {p : Saving α} {f : α → Saving β}

/-- Nothing is written, whatever the pixels are. -/
inductive Silent : Saving α → Prop
  | done (a : α) : Silent (.done a)
  | fail (e : Error) : Silent (.fail e)
  | warn (messages : List String) {next : Saving α} (h : Silent next) :
    Silent (.warn messages next)
  | fetch (rects : List Rect) {next : Except Error Bytes → Saving α}
    (h : ∀ pixels, Silent (next pixels)) : Silent (.fetch rects next)

/-- Nothing is written by two steps that write nothing. -/
theorem Silent.bind (h : Silent p) (hf : ∀ a, Silent (f a)) : Silent (p >>= f) := by
  induction h with
  | done a => exact hf a
  | fail e => exact .fail e
  | warn messages _ ih => exact .warn messages ih
  | fetch rects _ ih => exact .fetch rects ih

/-- Results and complaints are not written. -/
theorem silent_lift (x : Except Error α) : Silent (lift x) := by
  cases x with
  | ok a => exact .done a
  | error e => exact .fail e

/-- Warnings go elsewhere. -/
theorem silent_say (messages : List String) : Silent (say messages) := .warn messages (.done ())

/-- Fetching reads. -/
theorem silent_fetchAll (h : Header) : Silent (fetchAll h) := .fetch _ silent_lift

end Saving

/-- What a saver writes, it writes in one go at the very end. -/
def Saver.WritesLast (saver : Saver) : Prop :=
  ∀ job, ∃ draft : Saving Bytes, draft.Silent ∧ saver.save job = draft >>= Saving.put

namespace Native

/-- Making a container writes nothing. -/
theorem silent_encoded (job : SaveJob) : (encoded job).Silent :=
  (Saving.silent_say _).bind fun _ => (Saving.silent_fetchAll _).bind fun _ =>
    (Saving.silent_say _).bind fun _ => .done _

/-- So its saver writes when it has made all of it. -/
theorem writesLast_saver : saver.WritesLast := fun job => ⟨encoded job, silent_encoded job, rfl⟩

end Native

namespace Codec

variable (engine : PictureEngine) (codec : Codec)

/-- Nor does making a picture, whatever the engine is. -/
theorem silent_encoded (job : SaveJob) : (codec.encoded engine job).Silent :=
  (Saving.silent_lift _).bind fun _ => (Saving.silent_fetchAll _).bind fun _ =>
    (Saving.silent_lift _).bind fun _ => (Saving.silent_lift _).bind fun _ =>
      (Saving.silent_say _).bind fun _ => .done _

/-- So its saver writes last as well. -/
theorem writesLast_saver : (codec.saver engine).WritesLast :=
  fun job => ⟨codec.encoded engine job, codec.silent_encoded engine job, rfl⟩

end Codec

/-- A scripted saver fails, or fetches and then writes. -/
theorem Saver.writesLast_scripted (fails : Bool) : (scripted fails).WritesLast := by
  intro job
  cases fails with
  | true => exact ⟨.fail (job.fault "cannot encode"), .fail _, rfl⟩
  | false =>
    exact ⟨Saving.fetchAll job.header >>= fun _ => .done (Bytes.ofText "FAKE"),
      (Saving.silent_fetchAll _).bind fun _ => .done _, by
        show Saving.fetch _ _ = Saving.fetch _ _
        exact congrArg _ (funext fun pixels => by cases pixels <;> rfl)⟩

namespace Save

variable {α β : Type} {R : World → World → Prop} {m n : Metadata} {a b : Image LoadId}

/-- Step after step. -/
theorem perform_bind (image : Image LoadId) (p : Saving α) (f : α → Saving β)
    (s : Target × World) :
    perform image (p >>= f) s = next (perform image p s) fun a s => perform image (f a) s := by
  show perform image (p.bind f) s = _
  induction p generalizing s with
  | done a => rfl
  | fail e => rfl
  | warn messages p ih => exact ih _
  | fetch rects p ih => exact ih _ _
  | write bytes p ih =>
    obtain ⟨target, w⟩ := s
    simp only [Saving.bind, perform]
    split
    · exact ih _ _
    · exact ih _ _

/-- A result touches nothing. -/
theorem perform_lift (image : Image LoadId) (x : Except Error α) (s : Target × World) :
    perform image (Saving.lift x) s = (x, s) := by
  cases x <;> rfl

/-- All pixels are fetched as the world fetches them, and the target waits. -/
theorem perform_fetchAll (image : Image LoadId) (target : Target) (w : World) :
    perform image (Saving.fetchAll image.header) (target, w) =
      ((w.fetchAll image).1, target, (w.fetchAll image).2) := perform_lift ..

/-- A write succeeds with the target, and changes nothing where it fails. -/
theorem perform_put (image : Image LoadId) (bytes : Bytes) (target : Target) (w : World) :
    perform image (Saving.put bytes) (target, w) =
      match target.write bytes w.files with
      | .error e => (.error e, target, w)
      | .ok (target, files) => (.ok (), target, { w with host := { w.host with files } }) := by
  rw [Saving.put, perform]
  cases target.write bytes w.files <;> rfl

/-- Who writes nothing leaves the target as it was. -/
theorem target_of_silent {p : Saving α} (hsilent : p.Silent) (image : Image LoadId)
    (s : Target × World) : (perform image p s).2.1 = s.1 := by
  induction hsilent generalizing s with
  | done a => rfl
  | fail e => rfl
  | warn messages _ ih => exact ih _
  | fetch rects _ ih => exact ih _ _

/-- **Twins are dealt with alike** as long as nothing is written. -/
theorem perform_same (htwins : Image.Twins R m n a b) (hworlds : World.Parallel R)
    {p : Saving α} (hsilent : p.Silent) (target : Target) {w v : World} (hR : R w v) :
    (perform a p (target, w)).1 = (perform b p (target, v)).1 ∧
      R (perform a p (target, w)).2.2 (perform b p (target, v)).2.2 := by
  induction hsilent generalizing w v with
  | done a => exact ⟨rfl, hR⟩
  | fail e => exact ⟨rfl, hR⟩
  | warn messages _ ih => exact ih (hworlds.warn hR messages)
  | fetch rects _ ih =>
    obtain ⟨hpixels, hR⟩ := htwins.fetchEach rects hR
    simp only [perform]
    rw [hpixels]
    exact ih _ hR

end Save

end Raster
