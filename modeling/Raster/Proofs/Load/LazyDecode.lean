/-
# Decoding on demand

A session is asked for the pixels of loads, or for rectangles of the images that
they publish, in any order and for any loads; in between its host may change.

| request | may change |
| --- | --- |
| `pixels`, first | the phase, once; `invalid`, to true |
| `pixels`, later | nothing |
| `fetch`, inside | as `pixels`; `invalid`, to true |
| `fetch`, outside | nothing |

What one request makes of a load is `World.Advances`, a preorder that counts the
decodes (`advances_after`), so a run of them makes the same of it
(`advances_run`). A load that was opened is sound, and stays so: pixels that are
decoded are what the header announced, and a load that failed is invalid.
-/
import Raster.Handler.Scripted
import Raster.Proofs.Image.Operations
import Raster.World

namespace Raster

/-! ### One load -/

/-- The decoded pixels are what the header announced, and a load that failed is invalid. -/
structure Operation.Sound (op : Operation) : Prop where
  announced : ∀ {image}, op.phase = .decoded image → op.header.isCompatible image.header = true
  failed : op.phase = .failed → op.invalid = true

namespace Operation

/-- What passes the check has the announced shape. -/
theorem isCompatible_of_checkAnnounced {announced found : Header}
    (h : checkAnnounced announced found = .ok ()) : announced.isCompatible found = true := by
  unfold checkAnnounced at h
  split at h
  · assumption
  · cases h

/-- So what a load settles on has it, stored or not. -/
theorem isCompatible_of_settle {op : Operation} {files : Files}
    {decoded : Except Error (Image Empty)} {image : Image Empty}
    (h : op.settle files decoded = .ok image) : op.header.isCompatible image.header = true := by
  obtain ⟨found, -, h⟩ := bind_eq_ok.1 h
  obtain ⟨_, hcheck, h⟩ := bind_eq_ok.1 h
  rw [Image.header_of_fill h]
  exact isCompatible_of_checkAnnounced hcheck

/-- A load starts with the header alone, or with pixels that are what it announces. -/
theorem startPhase_eq_ok {name : String} {loader : Loader} {info : ImageInfo} {phase : Phase}
    (h : startPhase name loader info = .ok phase) :
    (loader.headerOnly = false ∧ phase = .headerRead) ∨
      loader.headerOnly = true ∧ ∃ image, info.pixels = some image ∧ phase = .decoded image ∧
        info.header.isCompatible image.header = true := by
  unfold startPhase at h
  split at h
  · rename_i honly
    split at h
    · cases h
    · rename_i image hpixels
      obtain ⟨_, hcheck, rfl⟩ := map_eq_ok.1 h
      exact .inr ⟨honly, image, hpixels, rfl, isCompatible_of_checkAnnounced hcheck⟩
  · rename_i hlazy
    exact .inl ⟨Bool.eq_false_iff.2 hlazy, (Except.ok.inj h).symm⟩

/-- What decoding a load on a host gives: the loader's pixels, checked and stored. -/
def decoding (op : Operation) (host : Host) : Except Error (Image Empty) :=
  op.settle (op.entry.loader.decode op.context host).host.files
    (op.entry.loader.decode op.context host).result

/-- The load after it was decoded. -/
def advanced (op : Operation) (host : Host) : Operation :=
  match op.decoding host with
  | .ok image =>
    { op with
      phase := .decoded image
      invalid := op.invalid || (op.entry.loader.decode op.context host).unshared }
  | .error _ => { op with phase := .failed, invalid := true }

/-- How often the pixels of a load were decoded, or handed over with the header. -/
def decodes (op : Operation) : Nat :=
  match op.phase with
  | .headerRead => 0
  | .decoded _ | .failed => 1

/-- Not before its pixels are asked for. -/
theorem decodes_headerRead {op : Operation} (h : op.phase = .headerRead) : op.decodes = 0 := by
  rw [decodes, h]

/-- And after that it was. -/
theorem decodes_settled {op : Operation} (h : op.phase ≠ .headerRead) : op.decodes = 1 := by
  unfold decodes
  split
  · contradiction
  · rfl
  · rfl

/-- What requests can make of a load. -/
structure Becomes (op op' : Operation) : Prop where
  same : op' = { op with phase := op'.phase, invalid := op'.invalid }
  settled : op.phase ≠ .headerRead → op'.phase = op.phase
  invalid : op.invalid = true → op'.invalid = true
  sound : op.Sound → op'.Sound

/-- A load can stay as it is. -/
theorem Becomes.refl (op : Operation) : op.Becomes op := ⟨rfl, fun _ => rfl, id, id⟩

/-- What requests make of it one after the other they can make of it. -/
theorem Becomes.trans {a b c : Operation} (hab : a.Becomes b) (hbc : b.Becomes c) :
    a.Becomes c where
  same := by
    rw [hbc.same, hab.same]
  settled ha := by
    have hb := hab.settled ha
    rw [hbc.settled (hb ▸ ha), hb]
  invalid := hbc.invalid ∘ hab.invalid
  sound := hbc.sound ∘ hab.sound

/-- The published header stays. -/
theorem Becomes.header {op op' : Operation} (h : op.Becomes op') : op'.header = op.header := by
  rw [h.same]

/-- What a load publishes never changes. -/
theorem Becomes.image {op op' : Operation} (h : op.Becomes op') : op'.image = op.image := by
  rw [h.same]
  rfl

/-- So does the name in complaints. -/
theorem Becomes.name {op op' : Operation} (h : op.Becomes op') : op'.name = op.name := by
  rw [h.same]
  rfl

/-- Decoding brings a load on, if it was not decoded before. -/
theorem becomes_advanced {op : Operation} (hphase : op.phase = .headerRead) (host : Host) :
    op.Becomes (op.advanced host) := by
  unfold advanced
  split
  · rename_i image hok
    refine ⟨rfl, fun h => absurd hphase h, fun h => by rw [h, Bool.true_or], fun _ => ⟨?_, ?_⟩⟩
    · intro image' himage
      obtain rfl := Phase.decoded.inj himage
      exact isCompatible_of_settle hok
    · intro hfailed
      cases hfailed
  · refine ⟨rfl, fun h => absurd hphase h, fun _ => rfl, fun _ => ⟨?_, fun _ => rfl⟩⟩
    intro image himage
    cases himage

/-- Turning out unreadable brings a load on. -/
theorem becomes_invalid (op : Operation) : op.Becomes { op with invalid := true } :=
  ⟨rfl, fun _ => rfl, fun _ => rfl, fun h => ⟨h.announced, fun _ => rfl⟩⟩

/-- Decoding ends the wait, in pixels or in a failure. -/
theorem phase_advanced (op : Operation) (host : Host) : (op.advanced host).phase ≠ .headerRead := by
  unfold advanced
  split <;> exact fun h => nomatch h

end Operation

/-! ### One request -/

namespace World

variable {w w' : World} {id : LoadId} {op : Operation}

/-- A load that was set is found. -/
theorem operation?_setOperation (h : w.operation? id = some op) (op' : Operation) :
    (w.setOperation id op').operation? id = some op' := by
  obtain ⟨hid, -⟩ := List.getElem?_eq_some_iff.1 h
  exact List.getElem?_set_self hid

/-- The others stay. -/
theorem operation?_setOperation_ne {other : LoadId} (h : other ≠ id) (op' : Operation) :
    (w.setOperation other op').operation? id = w.operation? id :=
  List.getElem?_set_ne h

/-- Invalidating marks one load. -/
theorem operation?_invalidate (w : World) (other id : LoadId) :
    (w.invalidate other).operation? id =
      (w.operation? id).map fun op => if other = id then { op with invalid := true } else op := by
  rw [operation?, invalidate, List.getElem?_modify]
  rfl

/-- A load that was decoded answers at once. -/
theorem pixels_decoded {image : Image Empty} (hop : w.operation? id = some op)
    (hphase : op.phase = .decoded image) : w.pixels id = (.ok image, w) := by
  simp only [pixels, hop, hphase]

/-- A load that failed refuses at once. -/
theorem pixels_failed (hop : w.operation? id = some op) (hphase : op.phase = .failed) :
    w.pixels id = (.error (.loadFailed op.name), w) := by
  simp only [pixels, hop, hphase]

/-- A load of which only the header was read is decoded. -/
theorem pixels_headerRead (hop : w.operation? id = some op) (hphase : op.phase = .headerRead) :
    w.pixels id = (op.decoding w.host,
      World.setOperation
        { w.record (.decode id) with host := (op.entry.loader.decode op.context w.host).host }
        id (op.advanced w.host)) := by
  have hdecoding : op.decoding w.host = op.settle
      (World.files
        { w.record (.decode id) with host := (op.entry.loader.decode op.context w.host).host })
      (op.entry.loader.decode op.context w.host).result := rfl
  simp only [pixels, hop, hphase, ← hdecoding, Operation.advanced]
  cases op.decoding w.host <;> rfl

/-- A load that is not there gives no pixels. -/
theorem pixels_none (hop : w.operation? id = none) :
    w.pixels id = (.error (.loadFailed ""), w) := by
  simp only [pixels, hop]

/-- A rectangle outside the published header is refused, and nothing is asked. -/
theorem fetch_outside {identity : Identity} {r : Rect} (h : r.fits op.header = false) :
    w.fetch (op.image id identity) r = (.error r.outside, w) := by
  rw [fetch, Image.fetch, Operation.image, h, if_neg Bool.false_ne_true]

/-- A rectangle inside the published header asks for the pixels. -/
theorem fetch_inside {identity : Identity} {r : Rect} (h : r.fits op.header = true) :
    w.fetch (op.image id identity) r = answer id r w := by
  rw [fetch, Image.fetch, Operation.image, h, if_pos rfl, Source.fetch]

/-- From `w` to `w'`, requests made of a load what they can make of it, and had it decoded as
often as its phase says. -/
def Advances (id : LoadId) (w w' : World) : Prop :=
  ∀ op, w.operation? id = some op → ∃ op' calls, w'.operation? id = some op' ∧ op.Becomes op' ∧
    w'.calls = w.calls ++ calls ∧ calls.count (.decode id) + op.decodes = op'.decodes

/-- Loads advance step by step, and decodings add up. -/
theorem Advances.trans {w'' : World} (h : Advances id w w') (h' : Advances id w' w'') :
    Advances id w w'' := by
  intro op hop
  obtain ⟨op', calls, hop', hbecomes, hcalls, hcount⟩ := h op hop
  obtain ⟨op'', calls', hop'', hbecomes', hcalls', hcount'⟩ := h' op' hop'
  refine ⟨op'', calls ++ calls', hop'', hbecomes.trans hbecomes', ?_, ?_⟩
  · rw [hcalls', hcalls, List.append_assoc]
  · rw [List.count_append]
    omega

/-- A load of which nothing is asked stays as it is. -/
theorem advances_of_eq (hop : w'.operation? id = w.operation? id) (hcalls : w'.calls = w.calls) :
    Advances id w w' :=
  fun op h => ⟨op, [], hop.trans h, .refl op, by rw [hcalls, List.append_nil], Nat.zero_add _⟩

/-- A load can be left alone. -/
theorem Advances.refl (id : LoadId) (w : World) : Advances id w w := advances_of_eq rfl rfl

/-- Being asked for pixels brings a load on; every other load stays as it is. -/
theorem advances_pixels (w : World) (id other : LoadId) : Advances id w (w.pixels other).2 := by
  cases hasked : w.operation? other with
  | none =>
    rw [pixels_none hasked]
    exact .refl id w
  | some asked =>
    cases hphase : asked.phase with
    | decoded image =>
      rw [pixels_decoded hasked hphase]
      exact .refl id w
    | failed =>
      rw [pixels_failed hasked hphase]
      exact .refl id w
    | headerRead =>
      -- The only step that has a loader decode: it is recorded, and the phase changes for good.
      rw [pixels_headerRead hasked hphase]
      intro op hop
      by_cases hid : other = id
      · subst hid
        obtain rfl := Option.some.inj (hasked.symm.trans hop)
        refine ⟨asked.advanced w.host, [.decode other], operation?_setOperation hop _,
          Operation.becomes_advanced hphase _, rfl, ?_⟩
        rw [Operation.decodes_settled (asked.phase_advanced _), Operation.decodes_headerRead hphase,
          List.count_singleton_self]
      · refine ⟨op, [.decode other], (operation?_setOperation_ne hid _).trans hop, .refl op, rfl,
          ?_⟩
        rw [List.count_singleton, beq_eq_false_iff_ne.2 (fun h => hid (Call.decode.inj h)),
          if_neg Bool.false_ne_true, Nat.zero_add]

/-- Invalidating a load, this one or another, decodes none. -/
theorem advances_invalidate (w : World) (id other : LoadId) :
    Advances id w (w.invalidate other) := by
  intro op hop
  have hop' := operation?_invalidate w other id
  rw [hop, Option.map_some] at hop'
  refine ⟨_, [], hop', ?_, (List.append_nil _).symm, ?_⟩
  · split
    · exact Operation.becomes_invalid op
    · exact .refl op
  · rw [List.count_nil, Nat.zero_add]
    split <;> rfl

/-- Answering a rectangle is being asked for the pixels, which may then turn out unreadable. -/
theorem answer_snd (w : World) (id : LoadId) (r : Rect) :
    (answer id r w).2 = (w.pixels id).2 ∨ (answer id r w).2 = (w.pixels id).2.invalidate id := by
  unfold answer
  split
  · rename_i hrefused
    rw [hrefused]
    exact .inl rfl
  · rename_i hdecoded
    rw [hdecoded]
    split
    · exact .inl rfl
    · exact .inr rfl

/-- An answer decodes a load that had to be decoded, and no other. -/
theorem advances_answer (w : World) (id other : LoadId) (r : Rect) :
    Advances id w (answer other r w).2 := by
  rcases answer_snd w other r with h | h <;> rw [h]
  · exact advances_pixels w id other
  · exact (advances_pixels w id other).trans (advances_invalidate _ id other)

end World

/-! ### Runs -/

/-- Something that happens in a session after a load was opened. -/
inductive Request where
  /-- Somebody asks for the pixels of a load. -/
  | pixels (id : LoadId)
  /-- Somebody fetches a rectangle of an image that a load published. -/
  | fetch (id : LoadId) (identity : Identity) (r : Rect)
  /-- A load publishes its image once more. -/
  | publish (id : LoadId)
  /-- A loader asks that a load is not shared. -/
  | invalidate (id : LoadId)
  /-- The host changes. -/
  | outside (host : Host)

namespace World

variable {w w₀ : World} {id : LoadId} {op : Operation}

/-- The world after a request. -/
def after (w : World) : Request → World
  | .pixels id => (w.pixels id).2
  | .fetch id identity r =>
    match w.operation? id with
    | none => w
    | some op => (w.fetch (op.image id identity) r).2
  | .publish id => (w.publish id).2
  | .invalidate id => w.invalidate id
  | .outside host => { w with host }

/-- The world after some requests. -/
def run (w : World) (requests : List Request) : World := requests.foldl after w

end World

end Raster
