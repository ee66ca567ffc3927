/-
# Any bytes as a container

A container from outside can say anything about its dimensions, names and counts.
Its metadata stands behind its pixels, so whoever has read the metadata has seen
that the pixels are all there:

| offset in the bytes | found by |
| --- | --- |
| 5 | `orderIn` |
| 36, then as many bytes as that says | `pixelOffset` |
| the pixels, row by row | `rowIn` |
| four bytes at least behind the pixels | `pixels_end_le` |

So a header that is accepted can be decoded, its pixels are those rows, and where
the bytes come from makes no difference (`header_decode_fetch`).
-/
import Raster.Proofs.Native.RoundTrip

namespace Raster

namespace Native

/-! ### What reading takes -/

section

variable {order : ByteOrder} {bytes rest : Bytes}

/-- Bytes are read where there are enough of them, and from the front. -/
theorem readBytes_eq_ok {n : Nat} {out : Bytes × Bytes} :
    readBytes n bytes = .ok out ↔ n ≤ bytes.length ∧ out = (bytes.take n, bytes.drop n) := by
  rw [readBytes]
  split
  · rename_i hshort
    rw [List.length_take] at hshort
    constructor
    · intro h
      cases h
    · intro h
      omega
  · rename_i hlong
    rw [List.length_take] at hlong
    constructor
    · intro h
      exact ⟨by omega, (Except.ok.inj h).symm⟩
    · rintro ⟨-, rfl⟩
      rfl

/-- The same for a single byte. -/
theorem readByte_eq_ok {b : UInt8} : readByte bytes = .ok (b, rest) ↔ bytes = b :: rest := by
  cases bytes with
  | nil =>
    constructor
    · intro h
      cases h
    · intro h
      cases h
  | cons a as =>
    constructor
    · intro h
      cases h
      rfl
    · intro h
      cases h
      rfl

/-- `n` bytes are there, and reading goes on behind them. -/
def Takes (n : Nat) (bytes rest : Bytes) : Prop := n ≤ bytes.length ∧ rest = bytes.drop n

/-- Reading on takes the sum of both. -/
theorem Takes.trans {m n : Nat} {rest' : Bytes} (h : Takes m bytes rest)
    (h' : Takes n rest rest') : Takes (m + n) bytes rest' := by
  obtain ⟨hm, rfl⟩ := h
  obtain ⟨hn, rfl⟩ := h'
  rw [List.length_drop] at hn
  exact ⟨by omega, List.drop_drop⟩

/-- Reading `n` bytes takes as many. -/
theorem takes_readBytes {n : Nat} {piece : Bytes} (h : readBytes n bytes = .ok (piece, rest)) :
    Takes n bytes rest := by
  obtain ⟨hle, hout⟩ := readBytes_eq_ok.1 h
  exact ⟨hle, congrArg Prod.snd hout⟩

/-- Reading a byte takes one. -/
theorem takes_readByte {b : UInt8} (h : readByte bytes = .ok (b, rest)) : Takes 1 bytes rest := by
  obtain rfl := readByte_eq_ok.1 h
  exact ⟨Nat.le_add_left .., rfl⟩

/-- So does reading what they stand for. -/
theorem takes_map {α : Type} {n : Nat} {g : Bytes → α} {a : α}
    (h : (readBytes n bytes).map (fun (piece, rest) => (g piece, rest)) = .ok (a, rest)) :
    Takes n bytes rest := by
  obtain ⟨out, hread, hout⟩ := map_eq_ok.1 h
  obtain rfl := (Prod.mk.inj hout).2
  exact takes_readBytes hread

/-- A word of 32 bits takes four. -/
theorem takes_read32 {n : UInt32} (h : read32 order bytes = .ok (n, rest)) : Takes 4 bytes rest :=
  takes_map h

/-- And one of 64 bits eight. -/
theorem takes_read64 {n : UInt64} (h : read64 order bytes = .ok (n, rest)) : Takes 8 bytes rest :=
  takes_map h

/-- A text takes the length that was said before it. -/
theorem takes_readText {n : Nat} {s : String} (h : readText n bytes = .ok (s, rest)) :
    Takes n bytes rest := by
  obtain ⟨⟨piece, rest'⟩, hpiece, h⟩ := bind_eq_ok.1 h
  dsimp only at h
  split at h
  · obtain ⟨-, rfl⟩ := Prod.mk.inj (Except.ok.inj h)
    exact takes_readBytes hpiece
  · cases h

/-! ### The parts of a container -/

/-- The byte order that a container names. -/
def orderIn (bytes : Bytes) : ByteOrder := (bytes[5]?.bind orderOfTag?).getD .machine

/-- Where the pixels of a container start: behind the interpretation's name. -/
def pixelOffset (bytes : Bytes) : Nat := 37 + (bytes[36]?.getD 0).toNat

/-- The start says the order in its last byte. -/
theorem readStart_spec (h : readStart bytes = .ok (order, rest)) :
    Takes 6 bytes rest ∧ order = orderIn bytes := by
  rw [readStart] at h
  obtain ⟨⟨start, rest'⟩, hstart, h⟩ := bind_eq_ok.1 h
  obtain ⟨hle, hout⟩ := readBytes_eq_ok.1 hstart
  obtain ⟨rfl, rfl⟩ := Prod.mk.inj hout
  dsimp only at h
  split at h
  · cases h
  · split at h
    · cases h
    · split at h
      · rename_i found hfound
        obtain ⟨rfl, rfl⟩ := Prod.mk.inj (Except.ok.inj h)
        have htag : bytes[5]? = some (((bytes.take 6).drop 5).headD 0) := by
          rw [List.headD_eq_head?_getD, List.head?_drop, List.getElem?_take_of_lt (by omega),
            List.getElem?_eq_getElem (by omega), Option.getD_some]
        refine ⟨takes_readBytes hstart, ?_⟩
        rw [orderIn, htag, Option.bind_some, hfound, Option.getD_some]
      · cases h

/-- A header takes 31 bytes and the interpretation's name, whose length is the last of the 31. -/
theorem readRawHeader_spec {raw : RawHeader} (h : readRawHeader order bytes = .ok (raw, rest)) :
    Takes (31 + (bytes[30]?.getD 0).toNat) bytes rest := by
  simp only [readRawHeader, bind_eq_ok] at h
  obtain ⟨⟨_, r₁⟩, hformat, ⟨_, r₂⟩, hcoding, ⟨_, r₃⟩, hwidth, ⟨_, r₄⟩, hheight, ⟨_, r₅⟩, hbands,
    ⟨_, r₆⟩, hxres, ⟨_, r₇⟩, hyres, ⟨length, r₈⟩, hlength, ⟨_, r₉⟩, hname, h⟩ := h
  obtain ⟨-, rfl⟩ := Prod.mk.inj (Except.ok.inj h)
  have hfront : Takes 30 bytes r₇ :=
    ((((((takes_readByte hformat).trans (takes_readByte hcoding)).trans (takes_read32 hwidth)).trans
      (takes_read32 hheight)).trans (takes_read32 hbands)).trans (takes_read64 hxres)).trans
      (takes_read64 hyres)
  have hbyte : bytes[30]? = some length := by
    have hcons : bytes.drop 30 = length :: r₈ := hfront.2.symm.trans (readByte_eq_ok.1 hlength)
    rw [← List.head?_drop, hcons, List.head?_cons]
  rw [hbyte, Option.getD_some]
  exact (hfront.trans (takes_readByte hlength)).trans (takes_readText hname)

/-- A header that passes the check could have been written. -/
theorem storable_of_check {raw : RawHeader} {h : Header} (hcheck : raw.check = .ok h) :
    Storable h := by
  simp only [RawHeader.check] at hcheck
  split at hcheck
  · cases hcheck
  · rename_i format _
    split at hcheck
    · cases hcheck
    · rename_i coding _
      split at hcheck
      · cases hcheck
      · rename_i interpretation _
        -- what is left is the check of the header that was put together
        obtain ⟨hs, rfl⟩ := check_of_eq_ok.1 ((check_of { raw with
          format, coding, interpretation }).trans hcheck)
        exact hs

/-- A header that passes its check has a size that fits a word. -/
theorem checkedImageSize_of_check {raw : RawHeader} {h : Header} (hcheck : raw.check = .ok h) :
    ∃ n, h.checkedImageSize = some n :=
  Option.isSome_iff_exists.1 (storable_of_check hcheck).sized

/-- Metadata has at least its count. -/
theorem length_of_readMetadata {metadata : Metadata} (h : readMetadata order bytes = .ok metadata) :
    4 ≤ bytes.length := by
  obtain ⟨⟨count, rest⟩, hcount, -⟩ := bind_eq_ok.1 h
  exact (takes_read32 hcount).1

end

/-- **What a container that is read consists of.** -/
theorem readLayout_eq_ok {medium : Medium} {bytes : Bytes} {layout : Layout} :
    readLayout medium bytes = .ok layout ↔ ∃ rest raw rest' stop,
      readStart bytes = .ok (layout.order, rest) ∧
      readRawHeader layout.order rest = .ok (raw, rest') ∧
      raw.check = .ok layout.header ∧
      layout.pixels = UInt64.ofNat (bytes.length - rest'.length) ∧
      pixelEnd layout.pixels layout.header = some stop ∧ medium.reaches stop = true ∧
      readMetadata layout.order (bytes.drop stop.toNat) = .ok layout.metadata := by
  simp only [readLayout, bind_eq_ok]
  constructor
  · rintro ⟨⟨order, rest⟩, hstart, ⟨raw, rest'⟩, hraw, header, hcheck, h⟩
    split at h
    · cases h
    · rename_i stop hstop
      split at h
      · rename_i hreach
        obtain ⟨metadata, hmetadata, h⟩ := bind_eq_ok.1 h
        obtain rfl := Except.ok.inj h
        exact ⟨rest, raw, rest', stop, hstart, hraw, hcheck, rfl, hstop, hreach, hmetadata⟩
      · cases h
  · obtain ⟨header, order, pixels, metadata⟩ := layout
    rintro ⟨rest, raw, rest', stop, hstart, hraw, hcheck, rfl, hstop, hreach, hmetadata⟩
    refine ⟨(order, rest), hstart, (raw, rest'), hraw, header, hcheck, ?_⟩
    simp only at hstop hmetadata
    simp only [hstop, hreach, if_true, hmetadata]
    rfl

section

variable {medium : Medium} {bytes : Bytes} {layout : Layout}

/-- So has every layout that is read. -/
theorem sized_of_readLayout (h : readLayout medium bytes = .ok layout) :
    ∃ n, layout.header.checkedImageSize = some n := by
  obtain ⟨_, _, _, _, -, -, hcheck, -⟩ := readLayout_eq_ok.1 h
  exact checkedImageSize_of_check hcheck

/-- And its header can be stored again. -/
theorem storable_of_readLayout (h : readLayout medium bytes = .ok layout) :
    Storable layout.header := by
  obtain ⟨_, _, _, _, -, -, hcheck, -⟩ := readLayout_eq_ok.1 h
  exact storable_of_check hcheck

/-- Its order is the one that the container names. -/
theorem order_of_readLayout (h : readLayout medium bytes = .ok layout) :
    layout.order = orderIn bytes := by
  obtain ⟨_, _, _, _, hstart, -⟩ := readLayout_eq_ok.1 h
  exact (readStart_spec hstart).2

/-- And its pixels start behind the name of the interpretation. -/
theorem pixels_of_readLayout (h : readLayout medium bytes = .ok layout) :
    layout.pixels.toNat = pixelOffset bytes := by
  obtain ⟨rest, raw, rest', _, hstart, hraw, -, hpixels, -⟩ := readLayout_eq_ok.1 h
  have hfront := (readStart_spec hstart).1
  have hlength : (rest[30]?.getD 0) = bytes[36]?.getD 0 := by
    rw [hfront.2, List.getElem?_drop]
  have htakes := hfront.trans (readRawHeader_spec hraw)
  rw [hlength] at htakes
  obtain ⟨hle, hrest⟩ := htakes
  have hbyte := (bytes[36]?.getD 0).toNat_lt
  have hoffset : bytes.length - rest'.length = pixelOffset bytes := by
    rw [hrest, List.length_drop, pixelOffset]
    omega
  rw [hpixels, hoffset]
  exact UInt64.toNat_ofNat_of_lt' (by rw [pixelOffset, UInt64.size]; omega)

/-- **The pixels of a container that is read are all there,** since its metadata is. -/
theorem pixels_end_le (h : readLayout medium bytes = .ok layout) :
    pixelOffset bytes + layout.header.imageBytes + 4 ≤ bytes.length := by
  obtain ⟨_, _, _, stop, -, -, -, -, hstop, -, hmetadata⟩ := readLayout_eq_ok.1 h
  obtain ⟨n, hn⟩ := sized_of_readLayout h
  have hend := (pixelEnd_eq_some hn).1 hstop
  have hbehind := length_of_readMetadata hmetadata
  rw [List.length_drop] at hbehind
  rw [pixels_of_readLayout h] at hend
  omega

/-- A container in memory and one in a file read alike. -/
theorem readLayout_congr (h : readLayout medium bytes = .ok layout)
    (hshort : bytes.length < 0x8000000000000000) (other : Medium) :
    readLayout other bytes = .ok layout := by
  obtain ⟨n, hn⟩ := sized_of_readLayout h
  have hend := pixels_end_le h
  have hoffset := pixels_of_readLayout h
  obtain ⟨rest, raw, rest', stop, hstart, hraw, hcheck, hpixels, hstop, -, hmetadata⟩ :=
    readLayout_eq_ok.1 h
  refine readLayout_eq_ok.2
    ⟨rest, raw, rest', stop, hstart, hraw, hcheck, hpixels, hstop, ?_, hmetadata⟩
  have hstopNat := (pixelEnd_eq_some hn).1 hstop
  cases other with
  | memory => rfl
  | file => exact decide_eq_true (by omega)

end

/-! ### The two steps of a load -/

/-- Where a row of a rectangle stands in a container, and how many bytes it has. -/
def rowIn (bytes : Bytes) (h : Header) (r : Rect) (i : Nat) : Option Bytes :=
  bytes.slice?
    (pixelOffset bytes + ((r.top.toNat + i) * h.lineBytes + r.left.toNat * h.pixelBytes))
    (r.width.toNat * h.pixelBytes)

/-- A rectangle that fits lies in the container with each of its rows. -/
theorem rowIn_eq_some {bytes : Bytes} {h : Header} {r : Rect} {i : Nat}
    (hend : pixelOffset bytes + h.imageBytes ≤ bytes.length) (hfit : r.fits h = true)
    (hi : i < r.height.toNat) :
    rowIn bytes h r i = some (r.rowOf h (bytes.drop (pixelOffset bytes)) (r.top.toNat + i)) := by
  have hrow := Rect.row_end_le hfit hi
  rw [rowIn, Bytes.slice?_eq, if_pos (by omega), Rect.rowOf, List.drop_drop]

/-- **A rectangle of the body is its rows in the container,** put into machine order. -/
theorem window_body {medium : Medium} {bytes : Bytes} {layout : Layout}
    (h : readLayout medium bytes = .ok layout) {r : Rect} (hfit : r.fits layout.header = true) :
    ∃ row : Nat → Bytes,
      (∀ i < r.height.toNat, rowIn bytes layout.header r i = some (row i)) ∧
        r.window layout.header (layout.body bytes) =
          reorder layout.header.format (orderIn bytes) ((List.range r.height.toNat).flatMap row) := by
  have hoffset := pixels_of_readLayout h
  have hend := pixels_end_le h
  refine ⟨fun i => r.rowOf layout.header (bytes.drop (pixelOffset bytes)) (r.top.toNat + i),
    fun i hi => rowIn_eq_some (by omega) hfit hi, ?_⟩
  rw [← reorder_window_drop (by omega) hfit, order_of_readLayout h, hoffset]
  rfl

section

variable {bytes : Bytes} {context : LoadContext} {host : Host}

/-- The header step says what stands in the bytes. -/
theorem header_eq_ok (hread : (context.input.readAll host).1 = .ok bytes) {info : ImageInfo} :
    (header context host).result = .ok info ↔
      ∃ layout, readLayout (mediumOf context.input) bytes = .ok layout ∧
        info = { header := layout.header, metadata := layout.metadata } := by
  obtain ⟨after, hafter⟩ : ∃ after, context.input.readAll host = (.ok bytes, after) :=
    ⟨_, Prod.ext hread rfl⟩
  simp only [header, layoutOf, hafter]
  cases readLayout (mediumOf context.input) bytes with
  | error fault =>
    constructor
    · intro h
      cases h
    · rintro ⟨layout, h, -⟩
      cases h
  | ok layout =>
    constructor
    · intro h
      exact ⟨layout, rfl, (Except.ok.inj h).symm⟩
    · rintro ⟨layout', h, rfl⟩
      obtain rfl := Except.ok.inj h
      rfl

/-- The header step leaves the input as it was, but for the position of a stream. -/
theorem readAll_header (hread : (context.input.readAll host).1 = .ok bytes) :
    (context.input.readAll (header context host).host).1 = .ok bytes := by
  have hhost : (header context host).host = (context.input.readAll host).2 := by
    obtain ⟨after, hafter⟩ : ∃ after, context.input.readAll host = (.ok bytes, after) :=
      ⟨_, Prod.ext hread rfl⟩
    simp only [header, layoutOf, hafter]
    cases readLayout (mediumOf context.input) bytes <;> rfl
  rw [hhost]
  exact Input.readAll_readAll hread

end

/-- **Any bytes as a container.**  Whether the bytes of an input are accepted, and with what header
and metadata, does not depend on the kind of input. Where they are accepted, decoding succeeds as
long as the input has the same bytes, with the same header; and every rectangle that fits is
fetched: its rows are those in the bytes, none of which lies outside, in machine order. (A byte
string in memory is shorter than `2^63` bytes.) -/
theorem header_decode_fetch {bytes : Bytes} (hshort : bytes.length < 0x8000000000000000)
    {context : LoadContext} {host : Host} (hread : (context.input.readAll host).1 = .ok bytes) :
    (∀ context' host', (context'.input.readAll host').1 = .ok bytes → ∀ info,
      (loader.header context host).result = .ok info ↔
        (loader.header context' host').result = .ok info) ∧
    (context.input.readAll (loader.header context host).host).1 = .ok bytes ∧
    ∀ info, (loader.header context host).result = .ok info →
      pixelOffset bytes + info.header.imageBytes ≤ bytes.length ∧
      ∀ host', (context.input.readAll host').1 = .ok bytes →
        ∃ image, (loader.decode context host').result = .ok image ∧ image.header = info.header ∧
          ∀ later, context.input.StaysIn host'.files later bytes →
            ∀ r, r.fits info.header = true →
              ∃ row : Nat → Bytes,
                (∀ i < r.height.toNat, rowIn bytes info.header r i = some (row i)) ∧
                image.fetchFrom later r = .ok (reorder info.header.format (orderIn bytes)
                  ((List.range r.height.toNat).flatMap row)) := by
  refine ⟨?_, readAll_header hread, ?_⟩
  · intro context' host' hread' info
    have hsame : ∀ layout, readLayout (mediumOf context.input) bytes = .ok layout ↔
        readLayout (mediumOf context'.input) bytes = .ok layout :=
      fun layout => ⟨fun h => readLayout_congr h hshort _, fun h => readLayout_congr h hshort _⟩
    refine (header_eq_ok hread).trans (Iff.trans ?_ (header_eq_ok hread').symm)
    simp only [hsame]
  · intro info hinfo
    obtain ⟨layout, hlayout, rfl⟩ := (header_eq_ok hread).1 hinfo
    obtain ⟨n, hn⟩ := sized_of_readLayout hlayout
    have hoffset := pixels_of_readLayout hlayout
    have hend := pixels_end_le hlayout
    refine ⟨Nat.le_trans (Nat.le_add_right _ 4) hend, fun host' hread' => ?_⟩
    obtain ⟨image, hdecode, hheader, -, hshows⟩ :=
      exists_decode_later hread' hlayout hn (by omega) hshort
    refine ⟨image, hdecode, hheader, fun later hstays r hfit => ?_⟩
    obtain ⟨row, hrow, hwindow⟩ := window_body hlayout hfit
    refine ⟨row, hrow, ?_⟩
    rw [hshows later hstays r (hheader ▸ hfit), hheader, hwindow]

/-- Two 16-bit pixels in a file, most significant byte first: the second one is fetched in machine
order, and the same bytes in a buffer have the same header. -/
theorem header_decode_fetch_foreign :
    let h : Header :=
      { width := 2, height := 1, bands := 1, format := .ushort, interpretation := .bw }
    let bytes := encode .big h {} [1, 0, 2, 0]
    let host : Host :=
      { files := { names := Fields.empty.insert "a" (.file 0), contents := [bytes.toArray] } }
    let context (input : Input) : LoadContext :=
      { name := "nimgload", input, options := {}, access := .random, failOn := .none }
    bytes.length < 0x8000000000000000 ∧
      ((Input.file "a").readAll host).1 = .ok bytes ∧
      (loader.header (context (.buffer bytes)) {}).result = .ok { header := h } ∧
      ∃ image, (loader.decode (context (.file "a")) host).result = .ok image ∧
        image.header = h ∧ image.fetchFrom host.files ⟨1, 0, 1, 1⟩ = .ok [2, 0] := by
  intro h bytes host context
  have hshort : bytes.length < 0x8000000000000000 := by decide
  have hread : ((Input.file "a").readAll host).1 = .ok bytes := by rfl
  have hbuffer : (loader.header (context (.buffer bytes)) {}).result = .ok { header := h } := by
    have hs : Storable h := by constructor <;> decide
    have hbuffer : ((context (.buffer bytes)).input.readAll {}).1 = .ok bytes := rfl
    exact (header_eq_ok hbuffer).2
      ⟨_, readLayout_encode_ok hs (by decide) (by decide) hshort .memory, rfl⟩
  have hread' : ((context (.file "a")).input.readAll host).1 = .ok bytes := hread
  obtain ⟨hsame, -, hall⟩ := header_decode_fetch hshort hread'
  have hheader := (hsame (context (.buffer bytes)) {} rfl _).2 hbuffer
  obtain ⟨-, hdecode⟩ := hall _ hheader
  obtain ⟨image, hok, himage, hfetch⟩ := hdecode host hread
  obtain ⟨row, hrow, hpixels⟩ := hfetch host.files (Input.staysIn_self hread) ⟨1, 0, 1, 1⟩ rfl
  have hsecond : rowIn bytes h ⟨1, 0, 1, 1⟩ 0 = some [0, 2] := by decide
  have hrow : row 0 = [0, 2] := Option.some.inj ((hrow 0 (by decide)).symm.trans hsecond)
  refine ⟨hshort, hread, hbuffer, image, hok, himage, hpixels.trans ?_⟩
  rw [show (⟨1, 0, 1, 1⟩ : Rect).height.toNat = 1 from rfl, List.range_one, List.flatMap_singleton,
    hrow]
  decide

end Native

end Raster
