/-
# Raw samples read exactly the window that the options describe

| the options describe a window (`Described`) by | |
| --- | --- |
| `width`, `height`, `bands` | texts of positive 32-bit words |
| `format`, `interpretation` | known names, or nothing |
| `offset` | the text of a 64-bit word, or nothing |

A file is accepted if the window lies inside it (`Params.Inside`): its dimensions are capped and
its end, as a number, fits a 64-bit word and is not behind the end of the file. Every row of a
rectangle is then read from inside the window.
-/
import Raster.Proofs.Image.Window
import Raster.Proofs.Native.Pixels
import Raster.Proofs.Options
import Raster.Proofs.Text.Number
import Raster.Raw

namespace Raster

namespace Raw

/-! ### What the options say -/

/-- An option says a dimension: a positive word. -/
def SaysDimension (options : Options) (key : String) (n : UInt32) : Prop :=
  ∃ text, options.value? key = some text ∧ Number.Spells text n.toNat ∧ 1 ≤ n.toNat

/-- An option says a thing by its name, or a default by being absent. -/
def SaysName {α : Type} (options : Options) (key : String) (ofName? : String → Option α)
    (default a : α) : Prop :=
  options.value? key = none ∧ a = default ∨
    ∃ name, options.value? key = some name ∧ ofName? name = some a

/-- An option says how many bytes come first, or none by being absent. -/
def SaysOffset (options : Options) (key : String) (n : UInt64) : Prop :=
  options.value? key = none ∧ n = 0 ∨
    ∃ text, options.value? key = some text ∧ Number.Spells text n.toNat

/-- **The options describe a window.** -/
structure Described (options : Options) (p : Params) : Prop where
  width : SaysDimension options "width" p.header.width
  height : SaysDimension options "height" p.header.height
  bands : SaysDimension options "bands" p.header.bands
  format : SaysName options "format" BandFormat.ofName? .uchar p.header.format
  interpretation :
    SaysName options "interpretation" Interpretation.ofName? .multiband p.header.interpretation
  offset : SaysOffset options "offset" p.offset
  /-- The samples are not coded, and have no resolution of their own. -/
  plain : p.header =
    { width := p.header.width, height := p.header.height, bands := p.header.bands,
      format := p.header.format, interpretation := p.header.interpretation }

section Taking

variable {options rest : Options} {key : String}

/-- A dimension is taken where it is said, and its option is used up. -/
theorem takeDimension_eq_ok {n : UInt32} : takeDimension options key = .ok (n, rest) ↔
    SaysDimension options key n ∧ rest = options.unset key := by
  rw [takeDimension]
  constructor
  · intro h
    split at h
    · cases h
    · cases h
    · rename_i m left htaken
      obtain ⟨⟨-, hnone⟩ | ⟨text, m', htext, hread, hm⟩, hrest⟩ :=
        Options.takeParsed_number_eq_ok.1 htaken
      · cases hnone
      · obtain rfl := Option.some.inj hm
        split at h
        · cases h
        · rename_i hpositive
          obtain ⟨rfl, rfl⟩ := Prod.mk.inj (Except.ok.inj h)
          refine ⟨⟨text, htext, Number.word32_eq_ok.1 hread, Nat.one_le_iff_ne_zero.2 fun h0 => ?_⟩,
            hrest⟩
          exact hpositive (UInt32.toNat_inj.1 h0)
  · rintro ⟨⟨text, htext, hspells, hpositive⟩, rfl⟩
    have htaken : options.takeParsed key (Options.number Number.word32) =
        .ok (some n, options.unset key) :=
      Options.takeParsed_number_eq_ok.2
        ⟨.inr ⟨text, n, htext, Number.word32_eq_ok.2 hspells, rfl⟩, rfl⟩
    have hn : n ≠ 0 := by
      rintro rfl
      exact absurd hpositive (by decide)
    rw [htaken]
    exact if_neg hn

/-- So is what is said by name, or not said. -/
theorem takeNamed_eq_ok {α : Type} {kind : String} {ofName? : String → Option α} {default a : α} :
    takeNamed options key kind ofName? default = .ok (a, rest) ↔
      SaysName options key ofName? default a ∧ rest = options.unset key := by
  rw [takeNamed, SaysName]
  cases hname : options.value? key with
  | none => simp [Options.unset_eq_self hname, eq_comm]
  | some name => cases hknown : ofName? name <;> simp [hknown, eq_comm]

variable {other : String} (hkey : Options.normalKey key ≠ Options.normalKey other)
include hkey

/-- What other options say is still said when one was used up. -/
theorem saysDimension_unset {n : UInt32} :
    SaysDimension (options.unset other) key n ↔ SaysDimension options key n := by
  rw [SaysDimension, SaysDimension, Options.value?_unset hkey]

/-- Also by name. -/
theorem saysName_unset {α : Type} {ofName? : String → Option α} {default a : α} :
    SaysName (options.unset other) key ofName? default a ↔
      SaysName options key ofName? default a := by
  rw [SaysName, SaysName, Options.value?_unset hkey]

end Taking

/-- **What the options describe is taken from them.** -/
theorem take_eq_ok {options rest : Options} {p : Params} :
    Params.take options = .ok (p, rest) ↔ Described options p ∧
      rest = (((((options.unset "width").unset "height").unset "bands").unset "format").unset
        "interpretation").unset "offset" := by
  simp only [Params.take, bind_eq_ok, Prod.exists, takeDimension_eq_ok, takeNamed_eq_ok,
    Options.takeParsed_number_eq_ok, Number.word64_eq_ok, and_assoc, exists_and_left,
    exists_eq_left]
  -- no option is forgotten before it is looked up
  simp (disch := decide) only [saysDimension_unset, saysName_unset, Options.value?_unset]
  constructor
  · rintro ⟨w, hw, h, hh, b, hb, f, hf, i, hi, offset, hoffset, htaken⟩
    obtain ⟨rfl, rfl⟩ := Prod.mk.inj (Except.ok.inj htaken)
    refine ⟨⟨hw, hh, hb, hf, hi, ?_, rfl⟩, rfl⟩
    rcases hoffset with ⟨hnone, rfl⟩ | ⟨text, htext, n, hspells, rfl⟩
    · exact .inl ⟨hnone, rfl⟩
    · exact .inr ⟨text, htext, hspells⟩
  · rintro ⟨⟨hw, hh, hb, hf, hi, hoffset, hplain⟩, rfl⟩
    obtain ⟨header, n⟩ := p
    have hheader := congrArg (Params.mk · n) hplain.symm
    refine ⟨_, hw, _, hh, _, hb, _, hf, _, hi, ?_⟩
    rcases hoffset with ⟨hnone, rfl⟩ | ⟨text, htext, hspells⟩
    · exact ⟨none, .inl ⟨hnone, rfl⟩, congrArg (fun p => Except.ok (p, _)) hheader⟩
    · exact ⟨some n, .inr ⟨text, htext, n, hspells, rfl⟩,
        congrArg (fun p => Except.ok (p, _)) hheader⟩

/-! ### Where the window lies -/

/-- The window lies in a file of some size, and its end, so its size as well, fits a 64-bit word. -/
structure Params.Inside (p : Params) (size : Nat) : Prop where
  capped : p.header.Capped
  word : p.offset.toNat + p.header.imageBytes < UInt64.size
  held : p.offset.toNat + p.header.imageBytes ≤ size

/-- The end of a window is a word, and nothing wraps on the way to it. -/
theorem needed_eq_some {p : Params} {n : UInt64} : p.needed = some n ↔
    p.header.Capped ∧ p.offset.toNat + p.header.imageBytes = n.toNat := by
  simp only [Params.needed, Option.bind_eq_some_iff, Header.checkedImageSize_eq_some,
    Header.checkedAdd_eq_some]
  constructor
  · rintro ⟨image, ⟨hcapped, himage⟩, hend⟩
    exact ⟨hcapped, himage ▸ hend⟩
  · rintro ⟨hcapped, hend⟩
    have hn := n.toNat_lt
    have himage : (UInt64.ofNat p.header.imageBytes).toNat = p.header.imageBytes :=
      UInt64.toNat_ofNat_of_lt' (by rw [UInt64.size]; omega)
    exact ⟨.ofNat p.header.imageBytes, ⟨hcapped, himage.symm⟩, himage.symm ▸ hend⟩

/-- One byte at the largest offset: its end is no word, and does not wrap around to zero. -/
example : Params.needed
    { header := { width := 1, height := 1, bands := 1, format := .uchar, interpretation := .bw }
      offset := 0xffffffffffffffff } = none := by decide

/-- **A file is opened** if the window lies in it. -/
theorem openChecked_eq_ok {context : LoadContext} {p : Params} {path : String} {files : Files}
    {node node' : Node} {bytes : Bytes} (hnode : files.node path = .ok node)
    (hcontent : files.content node = .ok bytes) :
    openChecked context p path files = .ok node' ↔ p.Inside bytes.length ∧ node' = node := by
  obtain ⟨packed, hpacked, rfl⟩ := Files.exists_packed_of_content hcontent
  rw [openChecked, bind_eq_ok]
  simp only [mapError_eq_ok, hnode, Except.ok.injEq, exists_eq_left']
  cases hneeded : p.needed with
  | none =>
    refine iff_of_false nofun ?_
    rintro ⟨⟨hcapped, hword, -⟩, -⟩
    have hsome := needed_eq_some.2
      ⟨hcapped, (UInt64.toNat_ofNat_of_lt' hword).symm⟩
    cases hneeded.symm.trans hsome
  | some needed =>
    obtain ⟨hcapped, hend⟩ := needed_eq_some.1 hneeded
    have hinside : p.Inside packed.toList.length ↔ needed.toNat ≤ packed.size := by
      rw [Array.length_toList]
      exact ⟨fun h => hend ▸ h.held, fun h => ⟨hcapped, hend ▸ needed.toNat_lt, hend ▸ h⟩⟩
    dsimp only
    rw [hinside, bind_eq_ok]
    simp only [mapError_eq_ok, hpacked, Except.ok.injEq, exists_eq_left']
    split
    · rename_i hshort
      exact iff_of_false nofun fun h => absurd h.1 (Nat.not_le_of_lt hshort)
    · rename_i hlong
      exact ⟨fun h => ⟨Nat.le_of_not_lt hlong, (Except.ok.inj h).symm⟩,
        fun h => congrArg Except.ok h.2.symm⟩

variable {context : LoadContext} {host : Host} {path : String} {bytes : Bytes} {p : Params}

/-- **A load of a file finds its window.** -/
theorem examine_eq_ok {node node' : Node} (hinput : context.input = .file path)
    (hnode : host.files.node path = .ok node) (hcontent : host.files.content node = .ok bytes) :
    (examine context host).1 = .ok (p, node') ↔
      Described context.options p ∧ p.Inside bytes.length ∧ node' = node := by
  simp only [examine, hinput]
  cases htake : Params.take context.options with
  | error e =>
    refine iff_of_false nofun ?_
    rintro ⟨hdescribed, -⟩
    cases htake.symm.trans (take_eq_ok.2 ⟨hdescribed, rfl⟩)
  | ok taken =>
    obtain ⟨p', rest⟩ := taken
    obtain ⟨hdescribed, hrest⟩ := take_eq_ok.1 htake
    have hopened : ∀ node', openChecked context p' path (host.warnAll
        (LoadContext.unknownOptions context.name rest)).files = .ok node' ↔
          p'.Inside bytes.length ∧ node' = node := by
      intro node'
      rw [Host.files_warnAll]
      exact openChecked_eq_ok hnode hcontent
    have hsame : Described context.options p ↔ p = p' := by
      refine ⟨fun h => ?_, fun h => h ▸ hdescribed⟩
      have hagain := htake.symm.trans (take_eq_ok.2 ⟨h, rfl⟩)
      exact (Prod.mk.inj (Except.ok.inj hagain)).1.symm
    simp only [map_eq_ok, hopened, hsame, Prod.mk.injEq]
    grind

/-! ### What is read from it -/

/-- Where row `y` of a rectangle starts in the file. -/
def Params.rowStart (p : Params) (r : Rect) (y : Nat) : Nat :=
  p.offset.toNat + (y * p.header.width.toNat + r.left.toNat) *
    (p.header.bands.toNat * p.header.format.size)

/-- How many bytes a row of a rectangle has. -/
def Params.rowLength (p : Params) (r : Rect) : Nat :=
  r.width.toNat * (p.header.bands.toNat * p.header.format.size)

/-- A row is found behind those above it and what is left of the rectangle. -/
theorem rowStart_eq (r : Rect) (y : Nat) : p.rowStart r y =
    p.offset.toNat + (y * p.header.lineBytes + r.left.toNat * p.header.pixelBytes) := by
  rw [Params.rowStart, Header.mul_lineBytes_add]
  rfl

/-- Rows of the window are rows of the file. -/
theorem rowOf_drop (r : Rect) (y : Nat) : r.rowOf p.header (bytes.drop p.offset.toNat) y =
    (bytes.drop (p.rowStart r y)).take (p.rowLength r) := by
  rw [Rect.rowOf, List.drop_drop, rowStart_eq]
  rfl

/-- No row leaves the window. -/
theorem row_end_le {r : Rect} (hfit : r.fits p.header = true) {i : Nat} (hi : i < r.height.toNat) :
    p.rowStart r (r.top.toNat + i) + p.rowLength r ≤ p.offset.toNat + p.header.imageBytes := by
  have hend := Rect.row_end_le hfit hi
  rw [rowStart_eq, Nat.add_assoc]
  exact Nat.add_le_add_left hend _

/-- **The rows of a rectangle are read from the file.** -/
theorem fetchFrom_pixels {node : Node} {files : Files} (hcontent : files.content node = .ok bytes)
    (hinside : p.Inside bytes.length) (hshort : bytes.length < 0x8000000000000000) {r : Rect}
    (hfit : r.fits p.header = true) :
    (pixels p node).fetchFrom files r = .ok ((List.range r.height.toNat).flatMap fun i =>
      (bytes.drop (p.rowStart r (r.top.toNat + i))).take (p.rowLength r)) := by
  obtain ⟨packed, hpacked, rfl⟩ := Files.exists_packed_of_content hcontent
  have hheld := hinside.held
  have hword := hinside.word
  rw [Array.length_toList] at hheld hshort
  rw [Image.fetchFrom_direct rfl hfit, hpacked,
    readRows_eq_window (by omega) hfit hheld (by omega), Rect.window]
  simp only [rowOf_drop]

/-- **Raw samples are read from exactly the window that the options describe.** The header of a
file is found if they describe a window that lies in it. Then the file is decoded as long as it
has the same bytes, with the same header; and every rectangle that fits is fetched: its rows are
those of the file, none of which leaves the window. (A file is shorter than `2^63` bytes.) -/
theorem header_decode_window (hinput : context.input = .file path)
    (hread : host.files.read path = .ok bytes) :
    (∀ info, (loader.header context host).result = .ok info ↔
      ∃ p, Described context.options p ∧ p.Inside bytes.length ∧ info = { header := p.header }) ∧
    ∀ p, Described context.options p → p.Inside bytes.length →
      ∀ host', host'.files.read path = .ok bytes →
        ∃ image, (loader.decode context host').result = .ok image ∧ image.header = p.header ∧
          (bytes.length < 0x8000000000000000 →
            ∀ later, context.input.StaysIn host'.files later bytes →
              ∀ r, r.fits p.header = true →
                (∀ i < r.height.toNat, p.offset.toNat ≤ p.rowStart r (r.top.toNat + i) ∧
                  p.rowStart r (r.top.toNat + i) + p.rowLength r
                    ≤ p.offset.toNat + p.header.imageBytes) ∧
                image.fetchFrom later r = .ok ((List.range r.height.toNat).flatMap fun i =>
                  (bytes.drop (p.rowStart r (r.top.toNat + i))).take (p.rowLength r))) := by
  constructor
  · intro info
    obtain ⟨node, hnode, hcontent⟩ := Files.exists_node_of_read hread
    have hfound : ∀ p node', (examine context host).1 = .ok (p, node') ↔
        Described context.options p ∧ p.Inside bytes.length ∧ node' = node :=
      fun p node' => examine_eq_ok hinput hnode hcontent
    rw [show (loader.header context host).result = (examine context host).1.map
      fun found => { header := found.1.header } from rfl, map_eq_ok, Prod.exists]
    simp only [hfound]
    grind
  · intro p hdescribed hinside host' hread'
    obtain ⟨node, hnode, hcontent⟩ := Files.exists_node_of_read hread'
    have hfound := (examine_eq_ok hinput hnode hcontent).2 ⟨hdescribed, hinside, rfl⟩
    refine ⟨pixels p node, map_eq_ok.2 ⟨(p, node), hfound, rfl⟩, rfl, ?_⟩
    intro hshort later hstays r hfit
    have hlater := hstays path node hinput hnode
    exact ⟨fun i hi => ⟨Nat.le_add_right .., row_end_le hfit hi⟩,
      fetchFrom_pixels hlater hinside hshort hfit⟩

/-- Four 16-bit samples behind one byte: the last one is the eighth and ninth byte of the file. -/
theorem header_decode_window_behind :
    let bytes : Bytes := [0, 1, 2, 3, 4, 5, 6, 7, 8, 9]
    let context : LoadContext :=
      { name := "rawload", input := .file "a", access := .random, failOn := .none,
        options := .ofList [("width", "2"), ("height", "02"), ("bands", "+1"),
          ("format", "UShort"), ("offset", "1")] }
    let host : Host :=
      { files := { names := Fields.empty.insert "a" (.file 0), contents := [bytes.toArray] } }
    let h : Header :=
      { width := 2, height := 2, bands := 1, format := .ushort, interpretation := .multiband }
    let p : Params := { header := h, offset := 1 }
    host.files.read "a" = .ok bytes ∧ Described context.options p ∧ p.Inside bytes.length ∧
      (loader.header context host).result = .ok { header := h } ∧
      ∃ image, (loader.decode context host).result = .ok image ∧ image.header = h ∧
        image.fetchFrom host.files ⟨1, 1, 1, 1⟩ = .ok [7, 8] := by
  intro bytes context host h p
  have hread : host.files.read "a" = .ok bytes := rfl
  have hdescribed : Described context.options p := {
    width := ⟨"2", by decide +kernel, Number.word32_eq_ok.1 rfl, by decide⟩
    height := ⟨"02", by decide +kernel, Number.word32_eq_ok.1 rfl, by decide⟩
    bands := ⟨"+1", by decide +kernel, Number.word32_eq_ok.1 rfl, by decide⟩
    format := .inr ⟨"UShort", by decide +kernel, by decide +kernel⟩
    interpretation := .inl ⟨by decide +kernel, rfl⟩
    offset := .inr ⟨"1", by decide +kernel, Number.word64_eq_ok.1 rfl⟩
    plain := rfl }
  have hinside : p.Inside bytes.length := ⟨by decide, by decide, by decide⟩
  have hinput : context.input = .file "a" := rfl
  obtain ⟨hheader, hdecode⟩ := header_decode_window hinput hread
  obtain ⟨image, hok, himage, hfetch⟩ := hdecode p hdescribed hinside host hread
  have hstays : (Input.file "a").StaysIn host.files host.files bytes :=
    Input.staysIn_self (show ((Input.file "a").readAll host).1 = .ok bytes from rfl)
  obtain ⟨-, hrows⟩ := hfetch (by decide) host.files hstays ⟨1, 1, 1, 1⟩ (by decide)
  exact ⟨hread, hdescribed, hinside, (hheader _).2 ⟨p, hdescribed, hinside, rfl⟩, image, hok,
    himage, hrows⟩

end Raw
end Raster
