/-
# What is built in

The registry of the built-in handlers has one saver for each format and kind of target
(`Registry.mem_builtin_savers`) and one loader for each format and kind of input, but
only one of raw samples (`Registry.exists_loadFormat`). Their operations have different
names, so each one is found under its own (`Registry.loader_builtin`,
`Registry.saver_builtin`).
-/
import Mathlib.Data.List.Nodup
import Raster.Builtin
import Raster.Proofs.Discovery

namespace Raster

/-! ### Formats -/

/-- The format of a built-in loader, and what it reads from. -/
inductive LoadFormat where
  | native (io : IoKind)
  | picture (codec : Codec) (io : IoKind)
  | raw
  deriving DecidableEq

namespace LoadFormat

/-- The loader of a format. -/
def loader (engine : PictureEngine) : LoadFormat → Loader
  | native _ => Native.loader
  | picture codec _ => codec.loader engine
  | raw => Raw.loader

/-- What the loader of a format says about itself. -/
def descriptor : LoadFormat → Descriptor
  | native io => { Native.describe (.loader "nimg" io) with codings := .plainOnly }
  | picture codec io => codec.describe (.loader codec.name io)
  | raw =>
    { (Descriptor.loader "raw" .file).withSuffixes [".raw"] with
      description := "load raw data from a file" }

/-- Every format. -/
def all : List LoadFormat :=
  IoKind.all.map native ++ Codec.all.flatMap (fun codec => IoKind.all.map (picture codec)) ++ [raw]

/-- The list is complete. -/
theorem mem_all (format : LoadFormat) : format ∈ all := by
  cases format with
  | native io => cases io <;> decide
  | picture codec io => cases codec <;> cases io <;> decide
  | raw => decide

/-- No two loaders have the same name. -/
theorem nodup_names : (all.map fun format => format.descriptor.name).Nodup := by decide

/-- So a loader is known by its name. -/
theorem name_injective {a b : LoadFormat} (h : a.descriptor.name = b.descriptor.name) : a = b :=
  List.inj_on_of_nodup_map nodup_names a.mem_all b.mem_all h

end LoadFormat

/-- The format of a built-in saver. -/
inductive SaveFormat where
  | native
  | picture (codec : Codec)
  deriving DecidableEq

namespace SaveFormat

/-- The saver of a format. -/
def saver (engine : PictureEngine) : SaveFormat → Saver
  | native => Native.saver
  | picture codec => codec.saver engine

/-- What the saver of a format says about itself. -/
def descriptor (io : IoKind) : SaveFormat → Descriptor
  | native => Native.describe (.saver "nimg" io)
  | picture codec => codec.saverDescriptor io

/-- Every format, with every kind of target. -/
def all : List (SaveFormat × IoKind) :=
  (native :: Codec.all.map picture).flatMap fun format => IoKind.all.map fun io => (format, io)

/-- The list is complete. -/
theorem mem_all (format : SaveFormat) (io : IoKind) : (format, io) ∈ all := by
  cases format with
  | native => cases io <;> decide
  | picture codec => cases codec <;> cases io <;> decide

/-- No two savers have the same name. -/
theorem nodup_names : (all.map fun saves => (saves.1.descriptor saves.2).name).Nodup := by decide

/-- So a saver, and its kind of target, are known by the name. -/
theorem name_injective {a b : SaveFormat} {io io' : IoKind}
    (h : (a.descriptor io).name = (b.descriptor io').name) : (a, io) = (b, io') :=
  List.inj_on_of_nodup_map nodup_names (a.mem_all io) (b.mem_all io') h

/-- What a saver makes of an image before it writes. -/
def encoded (engine : PictureEngine) (job : SaveJob) : SaveFormat → Saving Bytes
  | native => Native.encoded job
  | picture codec => codec.encoded engine job

end SaveFormat

/-! ### The registry -/

namespace Registry

/-- The built-in handlers, in the order of their registration. -/
def handlers (engine : PictureEngine) : List Registration :=
  Codec.handlers engine ++ Native.handlers ++ Raw.handlers

variable {engine : PictureEngine}

/-- The loaders among the built-in handlers are those of the formats. -/
theorem mem_handlers_loader {d : Descriptor} {l : Loader} :
    Registration.loader d l ∈ handlers engine ↔
      ∃ format : LoadFormat, d = format.descriptor ∧ l = format.loader engine := by
  simp only [handlers, Codec.handlers, Codec.handlersOf, Native.handlers, Native.handlersOf,
    Raw.handlers, List.mem_append, List.mem_flatMap, List.mem_cons, List.not_mem_nil, or_false,
    reduceCtorEq, Registration.loader.injEq]
  constructor
  · rintro ((⟨codec, -, io, -, rfl, rfl⟩ | ⟨io, -, rfl, rfl⟩) | ⟨rfl, rfl⟩)
    · exact ⟨.picture codec io, rfl, rfl⟩
    · exact ⟨.native io, rfl, rfl⟩
    · exact ⟨.raw, rfl, rfl⟩
  · rintro ⟨format, rfl, rfl⟩
    cases format with
    | native io => exact .inl (.inr ⟨io, by cases io <;> decide, rfl, rfl⟩)
    | picture codec io =>
      exact .inl (.inl ⟨codec, by cases codec <;> decide, io, by cases io <;> decide, rfl, rfl⟩)
    | raw => exact .inr ⟨rfl, rfl⟩

/-- And the savers among them are those of the formats, one for each kind of target. -/
theorem mem_handlers_saver {d : Descriptor} {s : Saver} :
    Registration.saver d s ∈ handlers engine ↔
      ∃ (format : SaveFormat) (io : IoKind), d = format.descriptor io ∧ s = format.saver engine := by
  simp only [handlers, Codec.handlers, Codec.handlersOf, Native.handlers, Native.handlersOf,
    Raw.handlers, List.mem_append, List.mem_flatMap, List.mem_cons, List.not_mem_nil, or_false,
    reduceCtorEq, false_or, Registration.saver.injEq]
  constructor
  · rintro (⟨codec, -, io, -, rfl, rfl⟩ | ⟨io, -, rfl, rfl⟩)
    · exact ⟨.picture codec, io, rfl, rfl⟩
    · exact ⟨.native, io, rfl, rfl⟩
  · rintro ⟨format, io, rfl, rfl⟩
    have hio : io ∈ IoKind.all := by cases io <;> decide
    cases format with
    | native => exact .inr ⟨io, hio, rfl, rfl⟩
    | picture codec => exact .inl ⟨codec, by cases codec <;> decide, io, hio, rfl, rfl⟩

/-- A built-in loader is that of a format. -/
theorem exists_loadFormat {entry : LoaderEntry} (h : entry ∈ (builtin engine).loaders) :
    ∃ format : LoadFormat, entry.descriptor = format.descriptor ∧ entry.loader = format.loader engine := by
  have hlisted := (ranked_loaders (handlers engine)).perm.mem_iff.1 (List.mem_map_of_mem h)
  exact mem_handlers_loader.1 (List.mem_filter.1 hlisted).1

/-- Every format has its loader. -/
theorem exists_mem_builtin_loaders (format : LoadFormat) : ∃ entry ∈ (builtin engine).loaders,
    entry.descriptor = format.descriptor ∧ entry.loader = format.loader engine := by
  have hproblem : (Registration.loader format.descriptor (format.loader engine)).problem = none := by
    cases format with
    | native io => cases io <;> rfl
    | picture codec io => cases codec <;> cases io <;> rfl
    | raw => rfl
  have haccepted : Registration.loader format.descriptor (format.loader engine)
      ∈ Registration.accepted .load (handlers engine) :=
    List.mem_filter.2 ⟨mem_handlers_loader.2 ⟨format, rfl, rfl⟩, decide_eq_true ⟨rfl, hproblem⟩⟩
  obtain ⟨entry, hentry, hsame⟩ :=
    List.mem_map.1 ((ranked_loaders (handlers engine)).perm.mem_iff.2 haccepted)
  exact ⟨entry, hentry, Registration.loader.inj hsame⟩

/-- **The built-in savers are those of the formats,** one for each kind of target. -/
theorem mem_builtin_savers {entry : SaverEntry} : entry ∈ (builtin engine).savers ↔
    ∃ (format : SaveFormat) (io : IoKind),
      entry = { descriptor := format.descriptor io, saver := format.saver engine } := by
  have hperm := (ranked_savers (handlers engine)).perm
  constructor
  · intro h
    have hlisted := hperm.mem_iff.1 (List.mem_map_of_mem h)
    obtain ⟨format, io, hd, hs⟩ := mem_handlers_saver.1 (List.mem_filter.1 hlisted).1
    exact ⟨format, io, by rw [← hd, ← hs]⟩
  · rintro ⟨format, io, rfl⟩
    have hproblem : (Registration.saver (format.descriptor io) (format.saver engine)).problem = none := by
      cases format with
      | native => cases io <;> rfl
      | picture codec => cases codec <;> cases io <;> rfl
    have haccepted : Registration.saver (format.descriptor io) (format.saver engine)
        ∈ Registration.accepted .save (handlers engine) :=
      List.mem_filter.2
        ⟨mem_handlers_saver.2 ⟨format, io, rfl, rfl⟩, decide_eq_true ⟨rfl, hproblem⟩⟩
    obtain ⟨entry, hentry, hsame⟩ := List.mem_map.1 (hperm.mem_iff.2 haccepted)
    obtain ⟨hd, hs⟩ := Registration.saver.inj hsame
    rw [← hd, ← hs]
    exact hentry

/-- **The loader of a format is found by the name of its operation.** -/
theorem loader_builtin (format : LoadFormat) :
    ∃ entry, (builtin engine).loader format.descriptor.name = .ok entry ∧
      entry.descriptor = format.descriptor ∧ entry.loader = format.loader engine := by
  obtain ⟨there, hthere, hname, -⟩ := exists_mem_builtin_loaders format
  rw [loader]
  cases hfound : (builtin engine).loaders.find? fun e => e.descriptor.name == format.descriptor.name with
  | none =>
    refine absurd ?_ (List.find?_eq_none.1 hfound there hthere)
    rw [hname, beq_self_eq_true]
  | some entry =>
    obtain ⟨other, hdescriptor, hloader⟩ := exists_loadFormat (List.mem_of_find?_eq_some hfound)
    have hname := List.find?_some (p := fun e : LoaderEntry =>
      e.descriptor.name == format.descriptor.name) hfound
    rw [hdescriptor, beq_iff_eq] at hname
    obtain rfl := LoadFormat.name_injective hname
    exact ⟨entry, rfl, hdescriptor, hloader⟩

/-- **The saver of a format is found by the name of its operation.** -/
theorem saver_builtin (format : SaveFormat) (io : IoKind) :
    (builtin engine).saver (format.descriptor io).name =
      .ok { descriptor := format.descriptor io, saver := format.saver engine } := by
  rw [saver]
  cases hfound : (builtin engine).savers.find? fun e =>
      e.descriptor.name == (format.descriptor io).name with
  | none =>
    refine absurd ?_ (List.find?_eq_none.1 hfound
      { descriptor := format.descriptor io, saver := format.saver engine }
      (mem_builtin_savers.2 ⟨format, io, rfl⟩))
    exact beq_self_eq_true _
  | some entry =>
    obtain ⟨other, io', rfl⟩ := mem_builtin_savers.1 (List.mem_of_find?_eq_some hfound)
    have hname := List.find?_some (p := fun e : SaverEntry =>
      e.descriptor.name == (format.descriptor io).name) hfound
    obtain ⟨rfl, rfl⟩ := Prod.mk.inj (SaveFormat.name_injective (beq_iff_eq.1 hname))
    rfl

end Registry

end Raster
