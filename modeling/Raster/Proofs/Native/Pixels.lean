/-
# The pixels of a container

Whatever the input, the pixels of a container that holds all of them show the
bytes behind its header, in machine order (`Layout.body`): a file is read row by
row, a buffer is cut, a stream is copied first, and all three answer every
rectangle alike (`exists_pixelsOf`).
-/
import Raster.Native.Handler
import Raster.Proofs.Host
import Raster.Proofs.Image.ByteSwap

namespace Raster

/-- A rectangle inside the image looks no further than the image's bytes. -/
theorem Rect.window_take {h : Header} {r : Rect} (hfit : r.fits h = true) (bytes : Bytes) :
    r.window h (bytes.take h.imageBytes) = r.window h bytes := by
  rw [window, window]
  refine List.flatMap_congr fun i hi => ?_
  have hend := row_end_le hfit (List.mem_range.1 hi)
  rw [rowOf, rowOf, List.drop_take, List.take_take, Nat.min_eq_left (by omega)]

/-! ### Inputs -/

namespace Input

/-- What is read from a file all at once is its content. -/
theorem read_of_readAll_file {path : String} {bytes : Bytes} {host : Host}
    (h : ((Input.file path).readAll host).1 = .ok bytes) : host.files.read path = .ok bytes :=
  mapError_eq_ok.1 (show (host.files.read path).mapError Error.io = .ok bytes from h)

end Input

namespace Files

/-- The content of a file as packed bytes, which rows are cut out of. -/
theorem exists_packed_of_content {files : Files} {node : Node} {bytes : Bytes}
    (h : files.content node = .ok bytes) :
    ∃ packed, files.packed node = .ok packed ∧ packed.toList = bytes := by
  rw [content] at h
  cases hpacked : files.packed node with
  | error fault =>
    rw [hpacked] at h
    cases h
  | ok packed =>
    rw [hpacked] at h
    exact ⟨packed, rfl, Except.ok.inj h⟩

/-- A file that can be read is an open node with the same bytes. -/
theorem exists_node_of_read {files : Files} {path : String} {bytes : Bytes}
    (h : files.read path = .ok bytes) :
    ∃ node, files.node path = .ok node ∧ files.content node = .ok bytes :=
  bind_eq_ok.1 h

end Files

/-- What a load of an input has open among the files still has these bytes later on. -/
def Input.StaysIn (input : Input) (files later : Files) (bytes : Bytes) : Prop :=
  ∀ path node, input = .file path → files.node path = .ok node → later.content node = .ok bytes

/-- A load has its bytes open at the moment when it reads them. -/
theorem Input.staysIn_self {input : Input} {host : Host} {bytes : Bytes}
    (h : (input.readAll host).1 = .ok bytes) : input.StaysIn host.files host.files bytes := by
  rintro path node rfl hnode
  obtain ⟨node', hnode', hcontent⟩ := Files.exists_node_of_read (read_of_readAll_file h)
  rw [hnode] at hnode'
  exact Except.ok.inj hnode' ▸ hcontent

namespace Native

/-- The pixels in the bytes of a container, in machine order. -/
def Layout.body (layout : Layout) (bytes : Bytes) : Bytes :=
  reorder layout.header.format layout.order
    ((bytes.drop layout.pixels.toNat).take layout.header.imageBytes)

section

variable {layout : Layout} {bytes : Bytes} {n : UInt64}

/-- A container that ends behind its pixels has all of them. -/
theorem length_body (hend : layout.pixels.toNat + layout.header.imageBytes ≤ bytes.length) :
    (layout.body bytes).length = layout.header.imageBytes := by
  rw [Layout.body, length_reorder, List.length_take, List.length_drop]
  omega

/-- A window of the bytes from the first pixel on, put into machine order, is one of the body. -/
theorem reorder_window_drop (hend : layout.pixels.toNat + layout.header.imageBytes ≤ bytes.length)
    {r : Rect} (hfit : r.fits layout.header = true) :
    reorder layout.header.format layout.order
      (r.window layout.header (bytes.drop layout.pixels.toNat))
        = r.window layout.header (layout.body bytes) := by
  have hlen : ((bytes.drop layout.pixels.toNat).take layout.header.imageBytes).length
      = layout.header.imageBytes := by
    rw [List.length_take, List.length_drop]
    omega
  have hdvd : layout.header.format.componentSize ∣ layout.header.imageBytes :=
    Nat.dvd_mul_right_of_dvd (Nat.dvd_mul_right_of_dvd
      (Nat.dvd_mul_left_of_dvd layout.header.format.componentSize_dvd_size _) _) _
  rw [← Rect.window_take hfit, reorder_window (by rwa [hlen]), Layout.body]

/-- The end of the pixels, where it is a word. -/
theorem pixelEnd_eq_some {pixels stop : UInt64} {h : Header} (hn : h.checkedImageSize = some n) :
    pixelEnd pixels h = some stop ↔ pixels.toNat + h.imageBytes = stop.toNat := by
  rw [pixelEnd, hn, Option.bind_some, Header.checkedAdd_eq_some,
    (Header.checkedImageSize_eq_some.1 hn).2]

/-- Where the end of the pixels is a word, it is found without a wrap. -/
theorem exists_pixelEnd (pixels : UInt64) {h : Header} (hn : h.checkedImageSize = some n)
    (hlt : pixels.toNat + h.imageBytes < UInt64.size) :
    ∃ stop, pixelEnd pixels h = some stop ∧ stop.toNat = pixels.toNat + h.imageBytes := by
  have heq : (UInt64.ofNat (pixels.toNat + h.imageBytes)).toNat = pixels.toNat + h.imageBytes :=
    UInt64.toNat_ofNat_of_lt' hlt
  exact ⟨_, (pixelEnd_eq_some hn).2 heq.symm, heq⟩

/-- Reading row by row from an open file shows the body. -/
theorem filePixels_shows {node : Node} {packed : Array UInt8} {files : Files}
    (hn : layout.header.checkedImageSize = some n) (hpacked : files.packed node = .ok packed)
    (hend : layout.pixels.toNat + layout.header.imageBytes ≤ packed.size)
    (hshort : packed.size < 0x8000000000000000) :
    (filePixels node layout.header layout.pixels layout.order).Shows files
      (layout.body packed.toList) := by
  intro r hfit
  rw [Image.fetchFrom_direct rfl hfit, hpacked]
  simp only [filePixels] at hfit ⊢
  rw [readRows_eq_window (Header.imageBytes_lt hn) hfit hend (by omega), Except.map,
    reorder_window_drop (by rwa [Array.length_toList]) hfit]

/-- Cutting rectangles out of a buffer shows the body. -/
theorem bufferPixels_shows (hn : layout.header.checkedImageSize = some n)
    (hend : layout.pixels.toNat + layout.header.imageBytes ≤ bytes.length) (files : Files) :
    (bufferPixels bytes layout.header layout.pixels layout.order).Shows files
      (layout.body bytes) := by
  intro r hfit
  rw [Image.fetchFrom_direct rfl hfit]
  simp only [bufferPixels] at hfit ⊢
  rw [Rect.cut_eq_window (Header.imageBytes_lt hn) hfit
      (by rw [List.size_toArray, List.length_drop]; omega), Except.map, reorder_window_drop hend hfit]

end

/-- **The pixels of a container that holds all of them can be read, and show its body** for as long
as an open file keeps its content. -/
theorem exists_pixelsOf {context : LoadContext} {layout : Layout} {bytes : Bytes} {files : Files}
    {n : UInt64} (hn : layout.header.checkedImageSize = some n)
    (hend : layout.pixels.toNat + layout.header.imageBytes ≤ bytes.length)
    (hshort : bytes.length < 0x8000000000000000)
    (hfile : ∀ path, context.input = .file path → files.read path = .ok bytes) :
    ∃ image, pixelsOf context layout bytes files = .ok image ∧ image.header = layout.header ∧
      ∀ later, context.input.StaysIn files later bytes →
        image.Shows later (layout.body bytes) := by
  obtain ⟨stop, hstop, hstopNat⟩ := exists_pixelEnd layout.pixels hn (by rw [UInt64.size]; omega)
  cases hinput : context.input with
  | file path =>
    obtain ⟨node, hnode, -⟩ := Files.exists_node_of_read (hfile path hinput)
    refine ⟨filePixels node layout.header layout.pixels layout.order, ?_, rfl, ?_⟩
    · simp only [pixelsOf, hinput, hnode]
    · intro later hstays
      obtain ⟨packed, hpacked, rfl⟩ := Files.exists_packed_of_content (hstays path node rfl hnode)
      rw [Array.length_toList] at hend hshort
      exact filePixels_shows hn hpacked hend hshort
  | buffer content =>
    have hlong : ¬bytes.length < stop.toNat := by omega
    refine ⟨bufferPixels bytes layout.header layout.pixels layout.order, ?_, rfl,
      fun later _ => bufferPixels_shows hn hend later⟩
    simp only [pixelsOf, hinput, hstop, if_neg hlong]
  | stream id =>
    -- What a stream gave is in memory, so no later file can change it.
    have hbetween : Rect.between? bytes.toArray layout.pixels stop
        = some ((bytes.drop layout.pixels.toNat).take layout.header.imageBytes) :=
      Rect.between?_eq_some rfl hstopNat (by rw [List.size_toArray]; omega)
    have hlen : (layout.body bytes).length = layout.header.imageBytes := length_body hend
    obtain ⟨image, hok, hheader⟩ : ∃ image : Image Empty,
        Image.ofBytes { origin := 0 } layout.header (layout.body bytes) = .ok image ∧
          image.header = layout.header :=
      ⟨_, Image.ofBytes_eq_ok.2 ⟨Header.imageBytes_lt hn, hlen, rfl⟩, rfl⟩
    refine ⟨image, ?_, hheader, fun later _ => Image.shows_of_ofBytes hok later⟩
    simp only [pixelsOf, hinput, hstop, hbetween]
    exact hok

/-- **The decode step on a readable container** gives an image with its header, which shows the body
for as long as an open file keeps its content; and the files stay as they were. -/
theorem exists_decode_later {context : LoadContext} {host : Host} {bytes : Bytes} {layout : Layout}
    {n : UInt64} (hread : (context.input.readAll host).1 = .ok bytes)
    (hlayout : readLayout (mediumOf context.input) bytes = .ok layout)
    (hn : layout.header.checkedImageSize = some n)
    (hend : layout.pixels.toNat + layout.header.imageBytes ≤ bytes.length)
    (hshort : bytes.length < 0x8000000000000000) :
    ∃ image, (decode context host).result = .ok image ∧ image.header = layout.header ∧
      (decode context host).host.files = host.files ∧
      ∀ later, context.input.StaysIn host.files later bytes →
        image.Shows later (layout.body bytes) := by
  obtain ⟨warned, hwarned⟩ : ∃ warned, warned =
      host.warnAll (LoadContext.unknownOptions context.name context.options) := ⟨_, rfl⟩
  have hfiles : warned.files = host.files := by rw [hwarned, Host.files_warnAll]
  have hfst : (context.input.readAll warned).1 = .ok bytes := by
    rw [context.input.readAll_fst_congr hfiles (by rw [hwarned, Host.streams_warnAll]), hread]
  obtain ⟨after, hafter⟩ : ∃ after, context.input.readAll warned = (.ok bytes, after) :=
    ⟨_, Prod.ext hfst rfl⟩
  have hafterFiles : after.files = host.files := by
    rw [← hfiles, ← context.input.files_readAll warned, hafter]
  obtain ⟨image, hok, hheader, hshows⟩ := exists_pixelsOf hn hend hshort
    fun path hpath => Input.read_of_readAll_file (hpath ▸ hread)
  refine ⟨image, ?_, hheader, ?_, hshows⟩
  · simp only [decode, ← hwarned, layoutOf, hafter, hlayout, hafterFiles, hok]
  · simp only [decode, ← hwarned, layoutOf, hafter, hlayout, hafterFiles]

/-- The image that the decode step gives shows the body. -/
theorem exists_decode {context : LoadContext} {host host' : Host} {bytes : Bytes} {layout : Layout}
    {n : UInt64} (hread : context.input.readAll host = (.ok bytes, host'))
    (hlayout : readLayout (mediumOf context.input) bytes = .ok layout)
    (hn : layout.header.checkedImageSize = some n)
    (hend : layout.pixels.toNat + layout.header.imageBytes ≤ bytes.length)
    (hshort : bytes.length < 0x8000000000000000) :
    ∃ image, (decode context host).result = .ok image ∧ image.header = layout.header ∧
      (decode context host).host.files = host.files ∧
      image.Shows host.files (layout.body bytes) := by
  have hread : (context.input.readAll host).1 = .ok bytes := congrArg Prod.fst hread
  obtain ⟨image, hok, hheader, hfiles, hshows⟩ :=
    exists_decode_later hread hlayout hn hend hshort
  exact ⟨image, hok, hheader, hfiles, hshows _ (Input.staysIn_self hread)⟩

end Native

end Raster
