/-
# Extracted bands

Bands `first` to `first + n - 1` of an image make an image of `n` bands, and band `j` of its
pixels is band `first + j` of the pixels they come from (`ShowsBands`). Where there are no such
bands the range is refused.

| `first + n`, as a number | answer |
| --- | --- |
| at most the number of bands | the bands (`showsBands_extracted`) |
| more, and a 32-bit word | refused |
| more than a word can count | the sum itself fails |

Before anything is compared the sum has to be a word. So the last row is where a range that is
not there is not refused as one, and it is the only one (`extractBands_exact_iff`).
-/
import Raster.Proofs.Image.Operations
import Raster.Proofs.Image.Pixel

namespace Raster

/-- A slice of a slice. -/
theorem Bytes.take_drop_take_drop (bytes : Bytes) {start n offset k : Nat} (hend : offset + k ≤ n) :
    (((bytes.drop start).take n).drop offset).take k = (bytes.drop (start + offset)).take k := by
  rw [List.drop_take, List.take_take, List.drop_drop, Nat.min_eq_left (by omega)]

namespace Header

/-- How many whole pixels there are in packed bytes. -/
def pixelsIn (h : Header) (bytes : Bytes) : Nat := bytes.length / h.pixelBytes

/-- The bytes of one band of one pixel. -/
def bandAt (h : Header) (bytes : Bytes) (pixel band : Nat) : Bytes :=
  (bytes.drop (pixel * h.pixelBytes + band * h.format.size)).take h.format.size

end Header

/-- Every pixel cut down to some of its bytes. -/
theorem Source.mapPixels_pixelPart {h : Header} {start n : Nat} (hn : 0 < n)
    (hend : start + n ≤ h.pixelBytes) (bytes : Bytes) :
    mapPixels h (Image.pixelPart start n) bytes = .ok ((List.range (h.pixelsIn bytes)).flatMap
      fun i => (bytes.drop (i * h.pixelBytes + start)).take n) := by
  have hsize : h.pixelSize ≠ 0 := by
    intro hzero
    rw [← Header.toNat_pixelSize, hzero] at hend
    exact absurd hend (by show ¬_ ≤ 0; omega)
  have hcut : ∀ i ∈ List.range (h.pixelsIn bytes),
      Image.pixelPart start n ((bytes.drop (i * h.pixelBytes)).take h.pixelBytes)
        = some ((bytes.drop (i * h.pixelBytes + start)).take n) := by
    intro i hi
    have hwhole : (i + 1) * h.pixelBytes ≤ bytes.length :=
      Nat.le_trans (Nat.mul_le_mul_right _ (List.mem_range.1 hi)) (Nat.div_mul_le_self ..)
    have hlength : ((bytes.drop (i * h.pixelBytes)).take h.pixelBytes).length = h.pixelBytes := by
      rw [Nat.succ_mul] at hwhole
      rw [List.length_take, List.length_drop]
      omega
    rw [Image.pixelPart, Bytes.slice?_eq, hlength, if_pos hend, Bytes.take_drop_take_drop _ hend]
  have hall : (List.range (h.pixelsIn bytes)).mapM (Image.pixelPart start n ∘ fun i =>
        (bytes.drop (i * h.pixelBytes)).take h.pixelBytes)
      = some ((List.range (h.pixelsIn bytes)).map fun i =>
        (bytes.drop (i * h.pixelBytes + start)).take n) := mapM_eq_some hcut
  rw [Header.pixelsIn] at hall ⊢
  rw [mapPixels, if_neg hsize, Bytes.chunks_eq, List.mapM_map, Header.toNat_pixelSize, hall,
    List.flatMap_def]

namespace Image

variable {ι : Type}

/-- Whatever rectangle is fetched, in whatever state: the second image fails as the first one
does and leaves the state that it leaves, and where pixels come, it has as many, and each of its
bands is the one that many bands further on in the first image. -/
def ShowsBands (image out : Image ι) (first : Nat) : Prop :=
  ∀ (σ : Type) (files : σ → Files) (answer : ι → Rect → σ → Except Error Bytes × σ) (r : Rect)
    (s : σ), r.fits image.header = true →
    (out.fetch files answer r s).2 = (image.fetch files answer r s).2 ∧
    Agree (fun bytes part => out.header.pixelsIn part = image.header.pixelsIn bytes ∧
        ∀ i < image.header.pixelsIn bytes, ∀ j < out.header.bands.toNat,
          out.header.bandAt part i j = image.header.bandAt bytes i (first + j))
      (image.fetch files answer r s).1 (out.fetch files answer r s).1

/-- What the extraction of some bands should do: refuse bands that are not there, and else make an
image of them that is as its input in all other respects. -/
def ExtractsExactly (image : Image ι) (first n : UInt32) : Prop :=
  if n = 0 ∨ image.header.bands.toNat < first.toNat + n.toNat then
    ∃ message, image.extractBands first n = .error (.badOption "n" message)
  else
    ∃ out, image.extractBands first n = .ok out ∧ out.header = { image.header with bands := n } ∧
      out.metadata = image.metadata ∧ image.ShowsBands out first.toNat

/-- An image shows all of its own bands. -/
theorem showsBands_refl (image : Image ι) : image.ShowsBands image 0 := by
  intro σ files answer r s _
  refine ⟨rfl, ?_⟩
  cases (image.fetch files answer r s).1 with
  | error e => exact .error e
  | ok bytes => exact .ok ⟨rfl, fun i _ j _ => by rw [Nat.zero_add]⟩

/-- **Cutting bands out of every pixel shows these bands.** -/
theorem showsBands_map {image : Image ι} {first n : UInt32} (hn : 0 < n.toNat)
    (hend : first.toNat + n.toNat ≤ image.header.bands.toNat) :
    image.ShowsBands (image.map { image.header with bands := n }
      (pixelPart (first.toNat * image.header.format.size) (n.toNat * image.header.format.size)))
      first.toNat := by
  intro σ files answer r s _
  set size := image.header.format.size with hsize
  have hpositive : 0 < n.toNat * size := Nat.mul_pos hn image.header.format.size_pos
  have hpart : first.toNat * size + n.toNat * size ≤ image.header.pixelBytes := by
    rw [← Nat.add_mul]
    exact Nat.mul_le_mul_right _ hend
  rw [fetch_map files answer image { image.header with bands := n } _ rfl rfl]
  obtain ⟨read, s⟩ := image.fetch files answer r s
  cases read with
  | error e => exact ⟨rfl, .error e⟩
  | ok bytes =>
    refine ⟨rfl, ?_⟩
    show Agree _ (.ok bytes) (Source.mapPixels image.header _ bytes)
    rw [Source.mapPixels_pixelPart hpositive hpart]
    have hpiece : ∀ i < image.header.pixelsIn bytes,
        ((bytes.drop (i * image.header.pixelBytes + first.toNat * size)).take
          (n.toNat * size)).length = n.toNat * size := by
      intro i hi
      have hwhole : (i + 1) * image.header.pixelBytes ≤ bytes.length :=
        Nat.le_trans (Nat.mul_le_mul_right _ hi) (Nat.div_mul_le_self ..)
      rw [Nat.succ_mul] at hwhole
      rw [List.length_take, List.length_drop]
      omega
    -- All pieces are of one length, so pixel `i` of the result is piece `i`.
    refine .ok ⟨?_, fun i hi j hj => ?_⟩
    · rw [Header.pixelsIn, Bytes.length_flatMap fun i hi => hpiece i (List.mem_range.1 hi),
        List.length_range]
      exact Nat.mul_div_cancel _ hpositive
    · have hband : j * size + size ≤ n.toNat * size := by
        rw [← Nat.succ_mul]
        exact Nat.mul_le_mul_right _ hj
      rw [Header.bandAt, Header.bandAt]
      show List.take size (List.drop (i * (n.toNat * size) + j * size) _) = _
      rw [← Bytes.take_drop_take_drop _ hband, Bytes.take_drop_flatMap hpiece hi,
        Bytes.take_drop_take_drop _ hband, Nat.add_assoc, ← Nat.add_mul]

/-- **The bands are extracted that were asked for,** if there are such bands. -/
theorem showsBands_extracted {image : Image ι} {first n : UInt32} (hn : n ≠ 0)
    (hend : first.toNat + n.toNat ≤ image.header.bands.toNat) :
    image.ShowsBands (image.extracted first n) first.toNat := by
  have hpositive : 0 < n.toNat := Nat.pos_of_ne_zero fun h => hn (UInt32.toNat_inj.1 h)
  rw [extracted]
  split
  · rename_i hall
    obtain ⟨rfl, rfl⟩ := hall
    exact showsBands_refl image
  · exact showsBands_map hpositive hend

/-- A range is refused whose end is a word and no band. -/
theorem extractBands_eq_error_iff {image : Image ι} {first n : UInt32} :
    (∃ message, image.extractBands first n = .error (.badOption "n" message)) ↔
      first.toNat + n.toNat < UInt32.size ∧
        (n = 0 ∨ image.header.bands.toNat < first.toNat + n.toNat) := by
  rw [extractBands]
  cases hsum : checkedSum first n with
  | error e =>
    obtain ⟨hlarge, rfl⟩ := checkedSum_eq_error.1 hsum
    refine iff_of_false ?_ fun h => Nat.not_lt.2 hlarge h.1
    rintro ⟨message, herror⟩
    cases herror
  | ok behind =>
    rw [checkedSum_eq_ok.1 hsum, ← UInt32.lt_iff_toNat_lt, and_iff_right behind.toNat_lt]
    dsimp only [bind, Except.bind]
    split
    · rename_i hrefused
      exact iff_of_true ⟨_, rfl⟩ hrefused
    · rename_i hinside
      refine iff_of_false ?_ hinside
      rintro ⟨message, herror⟩
      split at herror <;> cases herror

/-- **Extraction is exact** but for the ranges whose end no word counts. -/
theorem extractBands_exact_iff (image : Image ι) (first n : UInt32) :
    image.ExtractsExactly first n ↔ first.toNat + n.toNat < UInt32.size := by
  have hbands : image.header.bands.toNat < UInt32.size := image.header.bands.toNat_lt
  rw [ExtractsExactly, extractBands_eq_error_iff]
  split
  · rename_i hrange
    exact and_iff_left hrange
  · rename_i hrange
    obtain ⟨hn, hend⟩ := not_or.1 hrange
    have hend := Nat.not_lt.1 hend
    have hok := extractBands_eq_ok.2 ⟨hn, hend, rfl⟩
    exact iff_of_true ⟨_, hok, image.header_extracted first n, image.metadata_extracted first n,
      showsBands_extracted hn hend⟩ (Nat.lt_of_le_of_lt hend hbands)

/-- Three bands from the last band number but one on, of an image with two bands: the range is not
refused, for its end is no word. -/
theorem extractBands_inexact :
    let h : Header :=
      { width := 2, height := 1, bands := 2, format := .ushort, interpretation := .grey16 }
    ∃ base : Image Empty, ofBytes { origin := 0 } h [1, 2, 3, 4, 5, 6, 7, 8] = .ok base ∧
      base.extractBands 4294967294 3 = .error .overflow ∧
      ¬base.ExtractsExactly 4294967294 3 := by
  intro h
  refine ⟨_, rfl, rfl, fun hexact => ?_⟩
  rw [ExtractsExactly, if_pos (by decide)] at hexact
  obtain ⟨message, herror⟩ := hexact
  cases herror

end Image

end Raster
