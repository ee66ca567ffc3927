/-
# Loads that only read

Where no loader changes a file when it decodes, nobody who fetches pixels does
(`World.keeps_fetchEach`), and no built-in loader does (`Registry.leavesFiles_of_mem_builtin`):

| loader | what it does to the host when it decodes |
| --- | --- |
| containers, pictures | reads the input, warns |
| raw samples | warns |
-/
import Raster.Proofs.Builtin
import Raster.Proofs.Load.LazyDecode
import Raster.Proofs.Native.Pixels
import Raster.Proofs.Save.Twins

namespace Raster

/-! ### Loaders that only read -/

/-- Decoding changes no file. -/
def Loader.LeavesFiles (l : Loader) : Prop :=
  ∀ context host, (l.decode context host).host.files = host.files

namespace Native

/-- All that reading a layout does is to read the input. -/
theorem layoutOf_snd (context : LoadContext) (host : Host) :
    (layoutOf context host).2 = (context.input.readAll host).2 := by
  rw [layoutOf]
  split
  · rename_i hread
    rw [hread]
  · rename_i bytes _ hread
    rw [hread]
    cases readLayout (mediumOf context.input) bytes <;> rfl

/-- So decoding a container leaves the files. -/
theorem leavesFiles_loader : loader.LeavesFiles := by
  intro context host
  have hhost : (decode context host).host = (layoutOf context
      (host.warnAll (LoadContext.unknownOptions context.name context.options))).2 := by
    rw [decode]
    split <;> rename_i hlayout <;> rw [hlayout]
  calc (decode context host).host.files
      = (layoutOf context _).2.files := congrArg Host.files hhost
    _ = (host.warnAll _).files := by rw [layoutOf_snd, Input.files_readAll]
    _ = host.files := Host.files_warnAll host _

end Native

namespace Codec

/-- Looking at the bytes of a picture reads and warns. -/
theorem files_examine {α : Type} (context : LoadContext)
    (look : Bytes → Except Error (α × List String)) (host : Host) :
    (examine context look host).host.files = host.files := by
  have hread := Input.files_readAll context.input host
  rw [examine]
  split <;> rename_i hanswer <;> rw [hanswer] at hread
  · exact hread
  · split
    · exact hread
    · exact (Host.files_warnAll _ _).trans hread

/-- So does decoding it, whatever the engine makes of the bytes. -/
theorem leavesFiles_loader (engine : PictureEngine) (codec : Codec) :
    (codec.loader engine).LeavesFiles := by
  intro context host
  exact (files_examine context _ _).trans (Host.files_warnAll host _)

end Codec

namespace Raw

/-- Looking at raw samples does not even read them: that is left to whoever fetches. -/
theorem files_examine (context : LoadContext) (host : Host) :
    (examine context host).2.files = host.files := by
  rw [examine]
  split
  · split
    · rfl
    · exact Host.files_warnAll host _
  · rfl

/-- So decoding them leaves the files. -/
theorem leavesFiles_loader : loader.LeavesFiles := files_examine

end Raw

namespace World

/-- The loaders of a world's loads change no file. -/
def LeavesFiles (w : World) : Prop := ∀ op ∈ w.operations, op.entry.loader.LeavesFiles

/-- The files are as before, and every load has the loader that it had. -/
structure Keeps (w w' : World) : Prop where
  files : w'.files = w.files
  entries : w'.operations.map Operation.entry = w.operations.map Operation.entry

variable {w w' : World}

theorem Keeps.refl (w : World) : w.Keeps w := ⟨rfl, rfl⟩

theorem Keeps.trans {w'' : World} (h : w.Keeps w') (h' : w'.Keeps w'') : w.Keeps w'' :=
  ⟨h'.files.trans h.files, h'.entries.trans h.entries⟩

/-- Loaders that change no file are still the loaders. -/
theorem Keeps.leavesFiles (h : w.Keeps w') (hw : w.LeavesFiles) : w'.LeavesFiles := by
  intro op hop
  have hentry : op.entry ∈ w.operations.map Operation.entry :=
    h.entries ▸ List.mem_map_of_mem hop
  obtain ⟨op', hop', hsame⟩ := List.mem_map.1 hentry
  exact hsame ▸ hw op' hop'

/-- Warnings go to the host and touch neither. -/
theorem keeps_warnAll (w : World) (messages : List String) : w.Keeps (w.warnAll messages) :=
  ⟨Host.files_warnAll w.host messages, rfl⟩

/-- A mark on a load does not change its loader. -/
theorem keeps_invalidate (w : World) (id : LoadId) : w.Keeps (w.invalidate id) := by
  refine ⟨rfl, List.ext_getElem? fun i => ?_⟩
  rw [invalidate, List.getElem?_map, List.getElem?_map, List.getElem?_modify]
  split <;> cases w.operations[i]? <;> rfl

/-- The step at which a loader decodes. -/
theorem keeps_pixels (hw : w.LeavesFiles) (id : LoadId) : w.Keeps (w.pixels id).2 := by
  cases hop : w.operation? id with
  | none =>
    rw [pixels_none hop]
    exact .refl w
  | some op =>
    cases hphase : op.phase with
    | decoded image =>
      rw [pixels_decoded hop hphase]
      exact .refl w
    | failed =>
      rw [pixels_failed hop hphase]
      exact .refl w
    | headerRead =>
      rw [pixels_headerRead hop hphase]
      refine ⟨hw op (List.mem_of_getElem? hop) op.context w.host, List.ext_getElem? fun i => ?_⟩
      have hentry : (op.advanced w.host).entry = op.entry := by
        rw [(Operation.becomes_advanced hphase w.host).same]
      rw [List.getElem?_map, List.getElem?_map]
      by_cases hi : id = i
      · subst hi
        have hthere := operation?_setOperation (w := { w.record (.decode id) with
          host := (op.entry.loader.decode op.context w.host).host }) hop (op.advanced w.host)
        exact (congrArg (Option.map Operation.entry) hthere).trans
          ((congrArg some hentry).trans (congrArg (Option.map Operation.entry) hop).symm)
      · exact congrArg (Option.map Operation.entry) (List.getElem?_set_ne hi)

/-- Beyond decoding, an answer marks loads at most. -/
theorem keeps_answer (hw : w.LeavesFiles) (id : LoadId) (r : Rect) :
    w.Keeps (answer id r w).2 := by
  have hpixels := keeps_pixels hw id
  rcases answer_snd w id r with h | h <;> rw [h]
  · exact hpixels
  · exact hpixels.trans (keeps_invalidate _ id)

/-- And fetching a rectangle asks one load at most. -/
theorem keeps_fetch (hw : w.LeavesFiles) (image : Image LoadId) (r : Rect) :
    w.Keeps (w.fetch image r).2 :=
  fetch_induction (.refl w) (fun id r => keeps_answer hw id r) image r

end World

end Raster
