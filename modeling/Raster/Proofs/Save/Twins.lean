/-
# Images that show the same

Two images are twins where their headers are the same and every rectangle is answered
alike; what they say beside their pixels may differ. No operation on pixels can tell
twins apart: it fails for both with the same error, or makes twins of them.

| operations | |
| --- | --- |
| points and codings | `twins_flatten` to `twins_decode` |
| colours | `Colour.twins_convert` |
| fitting to a saver | `Normalize.twins_convertSaveable` |

Answering a rectangle may change the world, by decoding a load. So twins are told by a
relation of worlds that every fetch keeps. The widest one is to give the same answers
and leave the same files, whatever rectangles are fetched one after the other and
whatever is warned about in between (`World.Alike`). Two images may be twins in one
world and not in another: they can come from different loads.
-/
import Raster.Proofs.Image.Window
import Raster.Proofs.Normalize
import Raster.World

namespace Raster

/-! ### Worlds -/

namespace World

variable {α β : Type} {R S : World → World → Prop}

/-- Two answers are the same, and the worlds that are left are related. -/
def Same (R : World → World → Prop) (x y : Except Error α × World) : Prop := x.1 = y.1 ∧ R x.2 y.2

/-- Where two answers are the same, so is what is made of them. -/
theorem same_next {x y : Except Error α × World} {f g : α → World → Except Error β × World}
    (h : Same R x y) (hS : ∀ {w v}, R w v → S w v)
    (hnext : ∀ a {w v}, R w v → Same S (f a w) (g a v)) : Same S (next x f) (next y g) := by
  obtain ⟨x, w⟩ := x
  obtain ⟨y, v⟩ := y
  obtain ⟨rfl, hR⟩ : x = y ∧ R w v := h
  cases x with
  | ok a => exact hnext a hR
  | error e => exact ⟨rfl, hS hR⟩

/-- A rectangle inside is asked of the source. -/
theorem fetch_of_fits {image : Image LoadId} {r : Rect} (h : r.fits image.header = true)
    (w : World) : w.fetch image r = image.source.fetch files answer r w := if_pos h

/-- Any other is refused at once. -/
theorem fetch_of_not_fits {image : Image LoadId} {r : Rect} (h : ¬r.fits image.header = true)
    (w : World) : w.fetch image r = (.error r.outside, w) := if_neg h

/-- A pointwise source asks the source below and maps what comes. -/
theorem fetch_mapped (input : Source LoadId) {shape : Header} (pixel : Bytes → Option Bytes)
    {r : Rect} (h : r.fits shape = true) (w : World) :
    (Source.mapped input shape pixel).fetch files answer r w =
      next (input.fetch files answer r w) fun bytes w =>
        (Source.mapPixels shape pixel bytes, w) := by
  rw [Source.fetch, if_pos h]
  cases input.fetch files answer r w with
  | mk x w => cases x <;> rfl

/-- What holds of a world, and goes on to hold where loads answer rectangles, holds after a fetch.
The induction is on the chain of transformations down to where the pixels come from. -/
theorem fetch_induction {P : World → Prop} {w : World} (hw : P w)
    (hanswer : ∀ id r, P (answer id r w).2) (image : Image LoadId) (r : Rect) :
    P (w.fetch image r).2 := by
  have hsource : ∀ source : Source LoadId, P (source.fetch files answer r w).2 := by
    intro source
    induction source with
    | direct id read => exact hw
    | pending id load => exact hanswer load r
    | mapped input shape pixel ih =>
      by_cases hfits : r.fits shape = true
      · rw [fetch_mapped input pixel hfits]
        cases hfetched : input.fetch files answer r w with
        | mk x w' =>
          rw [hfetched] at ih
          cases x <;> exact ih
      · rw [Source.fetch, if_neg hfits]
        exact hw
  by_cases hfits : r.fits image.header = true
  · rw [fetch_of_fits hfits]
    exact hsource image.source
  · rw [fetch_of_not_fits hfits]
    exact hw

/-- The first rectangle, and then the others, if it could be had. -/
theorem fetchEach_cons (image : Image LoadId) (r : Rect) (rest : List Rect) (w : World) :
    image.fetchEach files answer (r :: rest) w = next (w.fetch image r) fun bytes w =>
      next (image.fetchEach files answer rest w) fun others w =>
        (.ok (bytes ++ others), w) := by
  rw [Image.fetchEach, fetch]
  cases image.fetch files answer r w with
  | mk x w =>
    cases x with
    | error e => rfl
    | ok bytes =>
      dsimp only [next]
      cases image.fetchEach files answer rest w with
      | mk x w => cases x <;> rfl

/-- Something that an observer of an image does. -/
inductive Probe where
  | fetch (r : Rect)
  /-- A loader could see what was warned about before it decodes. -/
  | warn (messages : List String)

/-- The answers to probes one after the other, whether or not the ones before could be had. -/
def probe (image : Image LoadId) : List Probe → World → List (Except Error Bytes) × World
  | [], w => ([], w)
  | .fetch r :: rest, w =>
    ((w.fetch image r).1 :: (probe image rest (w.fetch image r).2).1,
      (probe image rest (w.fetch image r).2).2)
  | .warn messages :: rest, w => probe image rest (w.warnAll messages)

/-- Two images show the same, each one in its world: whatever is probed, the answers are the same
and so are the files that are left. -/
def Alike (a b : Image LoadId) (w v : World) : Prop :=
  ∀ probes, (probe a probes w).1 = (probe b probes v).1 ∧
    (probe a probes w).2.files = (probe b probes v).2.files

/-- Worlds with the same files, also after the same warnings. -/
structure Parallel (R : World → World → Prop) : Prop where
  files : ∀ {w v}, R w v → w.files = v.files
  warn : ∀ {w v}, R w v → ∀ messages, R (w.warnAll messages) (v.warnAll messages)

variable {a b : Image LoadId} {w v : World}

/-- Images that show the same do so in the next rectangle, and go on doing so after it. -/
theorem Alike.fetch (h : Alike a b w v) (r : Rect) :
    Same (Alike a b) (w.fetch a r) (v.fetch b r) :=
  ⟨(List.cons.inj (h [.fetch r]).1).1, fun probes =>
    ⟨(List.cons.inj (h (.fetch r :: probes)).1).2, (h (.fetch r :: probes)).2⟩⟩

/-- Worlds in which two images show the same have the same files, also after warnings, which are
among the probes. -/
theorem parallel_alike (a b : Image LoadId) : Parallel (Alike a b) where
  files h := (h []).2
  warn h messages probes := h (.warn messages :: probes)

end World

namespace Image

/-- Images of one shape, with some metadata each, whose rectangles are answered alike in related
worlds. -/
structure Twins (R : World → World → Prop) (m n : Metadata) (a b : Image LoadId) : Prop where
  header : a.header = b.header
  left : a.metadata = m
  right : b.metadata = n
  fetch : ∀ {w v}, R w v → ∀ r, World.Same R (w.fetch a r) (v.fetch b r)

variable {R : World → World → Prop} {m n : Metadata} {a b : Image LoadId}

namespace Twins

/-- Twins answer all probes alike. -/
theorem probe (htwins : Twins R m n a b) (hworlds : World.Parallel R) :
    ∀ (probes : List World.Probe) {w v : World}, R w v →
      (World.probe a probes w).1 = (World.probe b probes v).1 ∧
        R (World.probe a probes w).2 (World.probe b probes v).2
  | [], _, _, hR => ⟨rfl, hR⟩
  | .fetch r :: rest, w, v, hR => by
    obtain ⟨hfirst, hR⟩ := htwins.fetch hR r
    obtain ⟨hrest, hR⟩ := probe htwins hworlds rest hR
    exact ⟨List.cons_eq_cons.2 ⟨hfirst, hrest⟩, hR⟩
  | .warn messages :: rest, w, v, hR => probe htwins hworlds rest (hworlds.warn hR messages)

/-- **Twins show the same.** -/
theorem alike (htwins : Twins R m n a b) (hworlds : World.Parallel R) {w v : World} (hR : R w v) :
    World.Alike a b w v :=
  fun probes => ⟨(htwins.probe hworlds probes hR).1, hworlds.files (htwins.probe hworlds probes hR).2⟩

/-- **Twins are fetched alike.** -/
theorem fetchEach (htwins : Twins R m n a b) :
    ∀ (rects : List Rect) {w v : World}, R w v →
      World.Same R (a.fetchEach World.files World.answer rects w)
        (b.fetchEach World.files World.answer rects v)
  | [], _, _, hR => ⟨rfl, hR⟩
  | r :: rest, w, v, hR => by
    rw [World.fetchEach_cons, World.fetchEach_cons]
    refine World.same_next (htwins.fetch hR r) id fun bytes {w v} hR => ?_
    exact World.same_next (fetchEach htwins rest hR) id fun others {w v} hR => ⟨rfl, hR⟩

/-- What the sources of twins answer inside. -/
theorem source (htwins : Twins R m n a b) {w v : World} (hR : R w v) {r : Rect}
    (hfit : r.fits b.header = true) :
    World.Same R (a.source.fetch World.files World.answer r w)
      (b.source.fetch World.files World.answer r v) := by
  have hsame := htwins.fetch hR r
  rw [World.fetch_of_fits (htwins.header ▸ hfit), World.fetch_of_fits hfit] at hsame
  exact hsame

/-- Outside, all images of one shape answer alike. -/
theorem of_source (hheader : a.header = b.header) (hleft : a.metadata = m)
    (hright : b.metadata = n)
    (hsource : ∀ {w v}, R w v → ∀ r : Rect, r.fits b.header = true →
      World.Same R (a.source.fetch World.files World.answer r w)
        (b.source.fetch World.files World.answer r v)) : Twins R m n a b where
  header := hheader
  left := hleft
  right := hright
  fetch {w v} hR r := by
    by_cases hfit : r.fits b.header = true
    · rw [World.fetch_of_fits (hheader ▸ hfit), World.fetch_of_fits hfit]
      exact hsource hR r hfit
    · rw [World.fetch_of_not_fits (hheader ▸ hfit), World.fetch_of_not_fits hfit]
      exact ⟨rfl, hR⟩

/-- Twins with other metadata. -/
theorem withMetadata (htwins : Twins R m n a b) (m' n' : Metadata) :
    Twins R m' n' { a with metadata := m' } { b with metadata := n' } :=
  ⟨htwins.header, rfl, rfl, htwins.fetch⟩

/-- Twins under another header of the same size. -/
theorem withHeader (htwins : Twins R m n a b) {header : Header}
    (hwidth : header.width = b.header.width) (hheight : header.height = b.header.height) :
    Twins R m n (a.withHeader header) (b.withHeader header) := by
  refine of_source rfl htwins.left htwins.right fun hR r hfit => ?_
  have hinside : r.fits b.header = true := by
    rw [Rect.fits_iff, ← hwidth, ← hheight]
    exact Rect.fits_iff.1 hfit
  exact htwins.source hR hinside

/-- Twins stay twins when all of their pixels are transformed alike. -/
theorem map (htwins : Twins R m n a b) (header : Header) (pixel : Bytes → Option Bytes) :
    Twins R m n (a.map header pixel) (b.map header pixel) := by
  refine of_source rfl htwins.left htwins.right fun {w v} hR r _ => ?_
  simp only [Image.map, htwins.header]
  by_cases hinput : r.fits b.header = true
  · rw [World.fetch_mapped _ _ hinput, World.fetch_mapped _ _ hinput]
    exact World.same_next (htwins.source hR hinput) id fun bytes {w v} hR => ⟨rfl, hR⟩
  · rw [Source.fetch, Source.fetch, if_neg hinput, if_neg hinput]
    exact ⟨rfl, hR⟩

end Twins

/-! ### Points and codings -/

/-- Twins stay twins under every operation on pixels: each looks at the header and maps what is
fetched. Flattening is the first of them. -/
theorem twins_flatten (htwins : Twins R m n a b) (background : List Double) :
    Agree (Twins R m n) (a.flatten background) (b.flatten background) := by
  simp only [flatten, htwins.header]
  split
  · exact .ok htwins
  · exact agree_bind_same fun colours => .ok (htwins.map ..)

/-- Bands are cut out of both, or refused for the same reason. -/
theorem twins_extractBands (htwins : Twins R m n a b) (first n' : UInt32) :
    Agree (Twins R m n) (a.extractBands first n') (b.extractBands first n') := by
  simp only [extractBands, htwins.header]
  refine agree_bind_same fun behind => ?_
  split
  · exact .error _
  · split
    · exact .ok htwins
    · exact .ok (htwins.map ..)

/-- A cast never fails. -/
theorem twins_cast (htwins : Twins R m n a b) (target : BandFormat) (shift : Bool) :
    Twins R m n (a.cast target shift) (b.cast target shift) := by
  simp only [cast, htwins.header]
  split
  · exact htwins
  · exact htwins.map ..

/-- Nor does a relabelling. -/
theorem twins_withInterpretation (htwins : Twins R m n a b) (interpretation : Interpretation) :
    Twins R m n (a.withInterpretation interpretation) (b.withInterpretation interpretation) := by
  simp only [withInterpretation, htwins.header]
  exact htwins.withHeader rfl rfl

/-- Twins are refused alike where another coding is expected. -/
theorem expectCoding_eq (htwins : Twins R m n a b) (coding : Coding) :
    a.expectCoding coding = b.expectCoding coding := by
  rw [expectCoding, expectCoding, htwins.header]

/-- Unpacking checks the coding, which twins share. -/
theorem twins_labqToLab (htwins : Twins R m n a b) :
    Agree (Twins R m n) a.labqToLab b.labqToLab := by
  simp only [labqToLab, expectCoding_eq htwins, htwins.header]
  exact agree_bind_same fun _ => .ok (htwins.map ..)

/-- So does unpacking radiance. -/
theorem twins_radToFloat (htwins : Twins R m n a b) :
    Agree (Twins R m n) a.radToFloat b.radToFloat := by
  simp only [radToFloat, expectCoding_eq htwins, htwins.header]
  exact agree_bind_same fun _ => .ok (htwins.map ..)

/-- So the coding decides in the same way for both. -/
theorem twins_decode (htwins : Twins R m n a b) : Agree (Twins R m n) a.decode b.decode := by
  simp only [decode, htwins.header]
  split
  · exact .ok htwins
  · exact twins_labqToLab htwins
  · exact twins_radToFloat htwins

/-- Packing checks the bands as well. -/
theorem twins_labToLabq (htwins : Twins R m n a b) :
    Agree (Twins R m n) a.labToLabq b.labToLabq := by
  simp only [labToLabq, expectCoding_eq htwins, htwins.header]
  refine agree_bind_same fun _ => ?_
  split
  · exact .error _
  · exact .ok (htwins.map ..)

/-- And so does this. -/
theorem twins_floatToRad (htwins : Twins R m n a b) :
    Agree (Twins R m n) a.floatToRad b.floatToRad := by
  have hcast := twins_cast htwins .float false
  simp only [floatToRad, expectCoding_eq htwins, htwins.header, hcast.header]
  refine agree_bind_same fun _ => ?_
  split
  · exact .error _
  · exact .ok (hcast.map ..)

end Image

/-! ### Colours -/

/-- A colour engine that cannot tell twins apart. -/
structure ColourEngine.Blind (colour : ColourEngine LoadId) : Prop where
  colourspace : ∀ {R m n a b}, Image.Twins R m n a b → ∀ target,
    Agree (Image.Twins R m n) (colour.colourspace a target) (colour.colourspace b target)
  importProfile : ∀ {R m n a b}, Image.Twins R m n a b → ∀ embedded,
    Agree (Image.Twins R m n) (colour.importProfile a embedded) (colour.importProfile b embedded)
  exportProfile : ∀ {R m n a b}, Image.Twins R m n a b → ∀ depth,
    Agree (Image.Twins R m n) (colour.exportProfile a depth) (colour.exportProfile b depth)

namespace Colour

variable {R : World → World → Prop} {m n : Metadata} {a b : Image LoadId}

/-- A conversion looks at the header for its source and its room, and maps pixels. -/
theorem twins_convert (htwins : Image.Twins R m n a b) (target : Interpretation)
    (sixteen : Bool) : Agree (Image.Twins R m n) (convert a target sixteen)
      (convert b target sixteen) := by
  refine agree_bind (Image.twins_decode htwins) fun a b htwins => ?_
  simp only [htwins.header]
  split
  · exact .error _
  · split
    · exact .ok (Image.twins_withInterpretation htwins target)
    · split
      · exact .error _
      · exact agree_bind_same fun bands => .ok (htwins.map ..)

/-- **The engine that works by formula cannot tell twins apart.** -/
theorem blind_basic : (basic : ColourEngine LoadId).Blind where
  colourspace htwins target := twins_convert htwins target false
  importProfile htwins _ := twins_convert htwins .xyz false
  exportProfile htwins depth := by
    simp only [basic]
    split
    · exact twins_convert htwins .cmyk _
    · exact .error _

end Colour

/-! ### Fitting an image to a saver -/

namespace Normalize

variable {R : World → World → Prop} {m n : Metadata} {a b : Image LoadId} {saveable : Saveable}
  {colour : ColourEngine LoadId}

/-- The steps of fitting an image go by the header too, so the first one does the same to both. -/
theorem twins_unpack (hcolour : colour.Blind) (htwins : Image.Twins R m n a b) :
    Agree (Image.Twins R m n) (unpack a colour) (unpack b colour) := by
  simp only [unpack, htwins.header]
  split
  · exact hcolour.colourspace htwins .srgb
  · exact Image.twins_radToFloat htwins
  · exact .ok htwins

/-- Bringing twins to a model is the same conversion. -/
theorem twins_firstModel (hcolour : colour.Blind) (sixteen : Bool)
    (htwins : Image.Twins R m n a b) : Agree (Image.Twins R m n)
      (firstModel sixteen saveable colour a) (firstModel sixteen saveable colour b) := by
  simp only [firstModel]
  split
  · exact hcolour.colourspace htwins _
  · split
    · exact hcolour.exportProfile htwins _
    · split
      · exact hcolour.colourspace htwins _
      · exact .error _

/-- Both go by way of an import, or neither does. -/
theorem twins_fitPlain (hcolour : colour.Blind) (sixteen : Bool)
    (htwins : Image.Twins R m n a b) : Agree (Image.Twins R m n)
      (fitPlain sixteen saveable colour a) (fitPlain sixteen saveable colour b) := by
  have hcmyk : isCmyk a = isCmyk b := by rw [isCmyk, isCmyk, htwins.header]
  simp only [fitPlain, hcmyk, htwins.header]
  split
  · exact .ok htwins
  · split
    · split
      · exact .ok htwins
      · exact agree_bind (hcolour.importProfile htwins true) fun a b htwins =>
          twins_firstModel hcolour sixteen htwins
    · exact twins_firstModel hcolour sixteen htwins

/-- So the colour step leaves twins. -/
theorem twins_fitColour (hcolour : colour.Blind) (htwins : Image.Twins R m n a b) :
    Agree (Image.Twins R m n) (fitColour a saveable colour) (fitColour b saveable colour) := by
  cases hany : saveable.any with
  | true =>
    rw [fitColour_any hany, fitColour_any hany]
    exact .ok htwins
  | false =>
    rw [fitColour_eq hany, fitColour_eq hany, htwins.header]
    exact agree_bind (twins_unpack hcolour htwins) fun a b htwins =>
      twins_fitPlain hcolour _ htwins

/-- Alpha is dropped from both or from neither. -/
theorem twins_dropAlpha (background : List Double) (htwins : Image.Twins R m n a b) :
    Agree (Image.Twins R m n) (dropAlpha saveable background a)
      (dropAlpha saveable background b) := by
  simp only [dropAlpha, htwins.header]
  split
  · exact Image.twins_flatten htwins background
  · exact .ok htwins

/-- So are bands, and their limit overflows for both. -/
theorem twins_dropBands (htwins : Image.Twins R m n a b) :
    Agree (Image.Twins R m n) (dropBands saveable a) (dropBands saveable b) := by
  simp only [dropBands, htwins.header]
  refine agree_bind_same fun most => ?_
  split
  · exact Image.twins_extractBands htwins 0 _
  · exact .ok htwins

/-- Twins have one format, so both are cast. -/
theorem twins_promote (table : FormatTable) (htwins : Image.Twins R m n a b) :
    Image.Twins R m n (promote table a) (promote table b) := by
  simp only [promote, htwins.header]
  split
  · exact Image.twins_cast htwins _ _
  · exact htwins

/-- And one coding, so both are packed or unpacked. -/
theorem twins_recode (codings : CodingSet) (htwins : Image.Twins R m n a b) :
    Agree (Image.Twins R m n) (recode a codings) (recode b codings) := by
  simp only [recode, htwins.header]
  split
  · exact .ok htwins
  · refine agree_bind (Image.twins_decode htwins) fun a b htwins => ?_
    split
    · exact Image.twins_labToLabq htwins
    · split
      · exact Image.twins_floatToRad htwins
      · exact .ok htwins

/-- **A saver gets twins for twins.** -/
theorem twins_convertSaveable (hcolour : colour.Blind) (table : FormatTable) (codings : CodingSet)
    (background : List Double) (htwins : Image.Twins R m n a b) :
    Agree (Image.Twins R m n) (convertSaveable a saveable table codings background colour)
      (convertSaveable b saveable table codings background colour) := by
  by_cases hcoded : b.header.coding ≠ .none ∧ codings.accepts b.header.coding = true
  · rw [convertSaveable, convertSaveable, htwins.header, if_pos hcoded, if_pos hcoded]
    exact .ok htwins
  by_cases hplain : b.header.coding = .none ∧ saveable.any = true ∧
      table b.header.format = b.header.format
  · rw [convertSaveable, convertSaveable, htwins.header, if_neg hcoded, if_pos hplain,
      if_neg hcoded, if_pos hplain]
    exact .ok htwins
  rw [convertSaveable_eq hcoded hplain,
    convertSaveable_eq (htwins.header ▸ hcoded) (htwins.header ▸ hplain)]
  refine agree_bind (twins_fitColour hcolour htwins) fun a b htwins => ?_
  refine agree_bind (twins_dropAlpha background htwins) fun a b htwins => ?_
  refine agree_bind (twins_dropBands htwins) fun a b htwins => ?_
  exact twins_recode codings (twins_promote table htwins)

end Normalize

end Raster
