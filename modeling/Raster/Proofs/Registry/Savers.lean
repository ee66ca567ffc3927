/-
# Which saver is found

A file is saved by what its name ends in, a buffer or stream by a suffix that is
asked for. Either search goes through the savers of its own kind, so whether they
find the same format is a question of how the kinds were registered:

| registered in the kinds | the searches |
| --- | --- |
| alike (`Alike`), ties in the same order | find the same format (`findSave_alike`) |
| with the same suffixes and priorities only | may differ (`findSave_unlike`) |

Two formats of one priority are tried in the order of their registration, and a
blocked one not at all; both are said for each kind by itself. The built-in savers
are registered alike (`findSave_builtin`).
-/
import Mathlib.Data.List.Find
import Raster.Handler.Scripted
import Raster.Proofs.Builtin
import Raster.Proofs.Registry.Suffixes

namespace Raster

/-! ### What discovery may pick -/

/-- A character that is not in a beginning ends the search for it. -/
theorem prefix_append_cons_iff {α : Type} {start cs rest : List α} {c : α} (hc : c ∉ start) :
    start <+: cs ++ c :: rest ↔ start <+: cs := by
  refine ⟨fun h => ?_, fun h => h.trans (List.prefix_append ..)⟩
  induction cs generalizing start with
  | nil =>
    cases start with
    | nil => exact List.nil_prefix
    | cons a start => exact absurd (List.cons_prefix_cons.1 h).1 (List.ne_of_not_mem_cons hc).symm
  | cons b cs ih =>
    cases start with
    | nil => exact List.nil_prefix
    | cons a start =>
      obtain ⟨rfl, hstart⟩ := List.cons_prefix_cons.1 h
      exact List.cons_prefix_cons.2 ⟨rfl, ih (List.not_mem_of_not_mem_cons hc) hstart⟩

/-- Whether discovery may pick a saver does not depend on its kind. -/
theorem Descriptor.isDiscoverable_iff_format {d : Descriptor} (hdirection : d.direction = .save) :
    d.isDiscoverable = true ↔ d.blocked = false ∧ ¬"rawload".toList <+: d.format.toList := by
  rw [Registry.isDiscoverable_iff, Descriptor.name, hdirection, String.toList_append,
    String.toList_append, List.append_assoc]
  exact and_congr_right fun _ => not_congr (prefix_append_cons_iff (by decide))

namespace Registration

/-- Whether the suffixes were given as file names or suffixes. -/
def Spelled (r : Registration) : Prop :=
  ∃ (d : Descriptor) (texts : List String), r.descriptor = d.withSuffixes texts

/-- What a saver is registered with, its kind aside. -/
structure Offer where
  format : String
  suffixes : List String
  priority : Int
  blocked : Bool
  deriving DecidableEq

namespace Offer

/-- What a saver is registered with. -/
def ofDescriptor (d : Descriptor) : Offer := ⟨d.format, d.suffixes, d.priority, d.blocked⟩

/-- Whether a suffix is written; blocked, none is. -/
def Writes (offer : Offer) (suffix : String) : Prop :=
  offer.blocked = false ∧ suffix ∈ offer.suffixes

instance (offer : Offer) (suffix : String) : Decidable (offer.Writes suffix) :=
  inferInstanceAs (Decidable (_ ∧ _))

end Offer

/-- What the savers of one kind are registered with, in the order of their registration. -/
def offers (registrations : List Registration) (io : IoKind) : List Offer :=
  ((accepted .save registrations).filter fun r => r.descriptor.io = io).map fun r =>
    .ofDescriptor r.descriptor

/-- The formats in which the savers of one kind and priority write a suffix, in the order of their
registration. -/
def formatsFor (registrations : List Registration) (io : IoKind) (suffix : String)
    (priority : Int) : List String :=
  (((offers registrations io).filter fun offer => offer.priority = priority).filter
    (·.Writes suffix)).map (·.format)

/-- **Registered alike:** the same formats with the same suffixes and priorities in both kinds,
those that share a suffix and a priority in the same order. -/
def Alike (registrations : List Registration) (one other : IoKind) : Prop :=
  ∀ suffix priority, formatsFor registrations one suffix priority =
    formatsFor registrations other suffix priority

/-- The same formats with the same suffixes and priorities in every kind, in any order. -/
def Matched (registrations : List Registration) : Prop :=
  ∀ one other, ((offers registrations one).map fun offer =>
    (offer.format, offer.suffixes, offer.priority)).Perm ((offers registrations other).map
      fun offer => (offer.format, offer.suffixes, offer.priority))

/-- Kinds with the same registrations in the same order are registered alike. -/
theorem alike_of_offers_eq {registrations : List Registration} {one other : IoKind}
    (h : offers registrations one = offers registrations other) :
    Alike registrations one other :=
  fun suffix priority => by rw [formatsFor, formatsFor, h]

end Registration

namespace Registry

open Registration (Offer)

/-- The format that a search for a saver came to, if any. -/
def formatFound (found : Except Error SaverEntry) : Option String :=
  found.toOption.map (·.descriptor.format)

/-- What the savers of one kind are registered with, in the order in which they are tried. -/
def offers (r : Registry) (io : IoKind) : List Offer :=
  (r.savers.filter fun e => e.descriptor.io = io).map fun e => .ofDescriptor e.descriptor

/-- Priority and format of the savers of one kind that write a suffix, in the order in which they
are tried. -/
def ranking (r : Registry) (io : IoKind) (suffix : String) : List (Int × String) :=
  ((r.offers io).filter (·.Writes suffix)).map fun offer => (offer.priority, offer.format)

variable {registrations : List Registration} {io : IoKind} {suffix : String}

/-- Whoever is listed was registered and accepted. -/
theorem mem_of_mem_savers {e : SaverEntry} (he : e ∈ (ofRegistrations registrations).savers) :
    e.registration ∈ registrations ∧ e.registration.problem = none := by
  have hlisted := (ranked_savers registrations).perm.mem_iff.1 (List.mem_map_of_mem he)
  obtain ⟨hregistered, haccepted⟩ := List.mem_filter.1 hlisted
  exact ⟨hregistered, (of_decide_eq_true haccepted).2⟩

/-- Only savers are accepted among the savers. -/
theorem direction_of_mem_savers {e : SaverEntry}
    (he : e ∈ (ofRegistrations registrations).savers) : e.descriptor.direction = .save := by
  have haccepted := (mem_of_mem_savers he).2
  by_contra hload
  rw [SaverEntry.registration, Registration.problem, if_pos hload] at haccepted
  cases haccepted

/-- Savers that are registered in the order of their priorities are listed as registered. -/
theorem savers_of_falling (h : (usableSavers registrations).Pairwise fun a b =>
    b.descriptor.priority ≤ a.descriptor.priority) :
    (ofRegistrations registrations).savers = usableSavers registrations :=
  List.mergeSort_of_pairwise (h.imp decide_eq_true)

/-- What is tried, read off the registrations that were accepted. -/
theorem offers_eq (r : Registry) (io : IoKind) : r.offers io =
    ((r.savers.map SaverEntry.registration).filter fun e => e.descriptor.io = io).map
      fun e => .ofDescriptor e.descriptor := by
  rw [offers, List.filter_map, List.map_map]
  rfl

/-- Savers are tried by falling priority. -/
theorem falling_offers : ((ofRegistrations registrations).offers io).Pairwise
    fun a b => b.priority ≤ a.priority := by
  rw [offers_eq]
  exact List.pairwise_map.2 ((ranked_savers registrations).falling.filter _)

/-- What is tried at a priority is what was registered there. -/
theorem ties_offers (priority : Int) :
    (((ofRegistrations registrations).offers io).filter fun offer => offer.priority = priority) =
      (Registration.offers registrations io).filter fun offer => offer.priority = priority := by
  have hties := congrArg (List.filter fun r => r.descriptor.io = io)
    ((ranked_savers registrations).ties priority)
  rw [List.filter_comm, List.filter_comm (l := Registration.accepted _ _)] at hties
  have hmap : ∀ l : List Registration,
      (l.map fun r => Offer.ofDescriptor r.descriptor).filter (·.priority = priority) =
        (l.filter fun r => r.descriptor.priority = priority).map
          fun r => .ofDescriptor r.descriptor := fun l => List.filter_map
  rw [offers_eq, Registration.offers, hmap, hmap, hties]

/-- Registered alike, two kinds try the same formats in the same order. -/
theorem ranking_eq {other : IoKind} (halike : Registration.Alike registrations io other) :
    (ofRegistrations registrations).ranking io suffix =
      (ofRegistrations registrations).ranking other suffix := by
  have hfalling : ∀ kind, ((ofRegistrations registrations).ranking kind suffix).Pairwise
      fun a b => b.1 ≤ a.1 := fun kind => List.pairwise_map.2 (falling_offers.filter _)
  have hties : ∀ kind priority,
      (((ofRegistrations registrations).ranking kind suffix).filter fun a => a.1 = priority) =
        (Registration.formatsFor registrations kind suffix priority).map (priority, ·) := by
    intro kind priority
    rw [ranking, Registration.formatsFor, ← ties_offers, List.filter_comm, List.filter_map,
      List.map_map]
    refine List.map_congr_left fun offer hoffer => ?_
    have hpriority : offer.priority = priority := of_decide_eq_true (List.mem_filter.1 hoffer).2
    rw [hpriority]
    rfl
  refine eq_of_falling (hfalling io) (hfalling other) fun priority => ?_
  rw [hties, hties, halike]

/-- The first format to be tried that is not read only by name. -/
def firstFormat (ranking : List (Int × String)) : Option String :=
  (ranking.find? fun a => ¬"rawload".toList <+: a.2.toList).map (·.2)

/-- What a search finds is the first in the ranking. -/
theorem find?_discoverableSavers {picked : SaverEntry → Bool}
    (hpicked : ∀ e ∈ (ofRegistrations registrations).savers, e.descriptor.io = io →
      (picked e = true ↔ suffix ∈ e.descriptor.suffixes)) :
    (((ofRegistrations registrations).discoverableSavers io).find? picked).map
        (·.descriptor.format) =
      firstFormat ((ofRegistrations registrations).ranking io suffix) := by
  rw [firstFormat, ranking, offers, discoverableSavers]
  simp only [List.find?_filter, List.find?_map, List.filter_map, Option.map_map]
  refine congrArg _ (List.find?_congr fun e he => ?_)
  rw [Bool.eq_iff_iff]
  have hformat := Descriptor.isDiscoverable_iff_format (direction_of_mem_savers he)
  have hkind := hpicked e he
  simp only [Function.comp_apply, decide_eq_true_eq, Bool.and_eq_true, beq_iff_eq,
    hformat, Registration.Offer.Writes, Registration.Offer.ofDescriptor]
  grind

/-- **A suffix is looked up** in the ranking of its kind. -/
theorem formatFound_findSaveBySuffix :
    formatFound ((ofRegistrations registrations).findSaveBySuffix io suffix) =
      firstFormat ((ofRegistrations registrations).ranking io (normalSuffix suffix)) := by
  rw [← find?_discoverableSavers fun e _ _ => List.contains_iff_mem, findSaveBySuffix]
  cases List.find? _ _ <;> rfl

/-- **A file is looked up** by its suffix as well. -/
theorem formatFound_findSave (hspelled : ∀ r ∈ registrations, r.Spelled) {name : String}
    (hname : Dotted name) :
    formatFound ((ofRegistrations registrations).findSave name) =
      firstFormat ((ofRegistrations registrations).ranking .file (normalSuffix name)) := by
  have hmatches : ∀ e ∈ (ofRegistrations registrations).savers, e.descriptor.io = .file →
      (e.descriptor.matchesFilename (Options.splitName name).1 = true ↔
        normalSuffix name ∈ e.descriptor.suffixes) := by
    intro e he _
    obtain ⟨d, texts, hd⟩ := hspelled _ (mem_of_mem_savers he).1
    rw [SaverEntry.registration, Registration.descriptor] at hd
    rw [hd]
    exact Descriptor.matchesFilename_withSuffixes hname
  rw [← find?_discoverableSavers hmatches, findSave]
  dsimp only
  cases List.find? _ _ <;> rfl

/-- **Registered alike, a file is saved in the format of the other kind.** -/
theorem formatFound_of_alike (hspelled : ∀ r ∈ registrations, r.Spelled)
    (halike : Registration.Alike registrations .file io) {name : String} (hname : Dotted name) :
    formatFound ((ofRegistrations registrations).findSave name) =
      formatFound ((ofRegistrations registrations).findSaveBySuffix io name) := by
  rw [formatFound_findSave hspelled hname, formatFound_findSaveBySuffix, ranking_eq halike]

/-- A saver of a format for one kind, with the suffix `.x`. -/
def writer (format : String) (io : IoKind) (blocked : Bool) : Registration :=
  .saver { (Descriptor.saver format io).withSuffixes ["x"] with blocked } (.scripted false)

/-- The suffix of these savers has no blank around it. -/
theorem spelled_writer {format : String} {io : IoKind} {blocked : Bool} :
    (writer format io blocked).Spelled :=
  ⟨(writer format io blocked).descriptor, ["x"], rfl⟩

/-- Two formats, registered in the same order in every kind. -/
def paired : List Registration := [
  writer "a" .file false, writer "b" .file false, writer "a" .buffer false,
  writer "b" .buffer false, writer "a" .stream false, writer "b" .stream false]

/-- **The same format for a file, a buffer and a stream.** A name that has a suffix ends in one
that is kept if the one it has is kept. So where the savers of the three kinds are registered
alike, a file of that name is saved in the format in which a buffer or a stream is. -/
theorem findSave_alike (hspelled : ∀ r ∈ registrations, r.Spelled)
    (hbuffer : Registration.Alike registrations .file .buffer)
    (hstream : Registration.Alike registrations .file .stream) {name : String}
    (hname : Dotted name) :
    (∀ (d : Descriptor) (texts : List String),
      (d.withSuffixes texts).matchesFilename (Options.splitName name).1 = true ↔
        normalSuffix name ∈ (d.withSuffixes texts).suffixes) ∧
    formatFound ((ofRegistrations registrations).findSave name) =
      formatFound ((ofRegistrations registrations).findSaveBySuffix .buffer name) ∧
    formatFound ((ofRegistrations registrations).findSave name) =
      formatFound ((ofRegistrations registrations).findSaveBySuffix .stream name) :=
  ⟨fun _ _ => Descriptor.matchesFilename_withSuffixes hname,
    formatFound_of_alike hspelled hbuffer hname, formatFound_of_alike hspelled hstream hname⟩

/-- Upper case and options do not keep a file from the format that is tried first. -/
theorem findSave_alike_paired :
    formatFound ((ofRegistrations paired).findSave "dir.d/photo.X[Q=9]") = some "a" ∧
    formatFound ((ofRegistrations paired).findSaveBySuffix .buffer "dir.d/photo.X[Q=9]") =
      some "a" ∧
    formatFound ((ofRegistrations paired).findSaveBySuffix .stream "dir.d/photo.X[Q=9]") =
      some "a" := by
  have hspelled : ∀ r ∈ paired, r.Spelled := by simp [paired, spelled_writer]
  have halike : ∀ io, Registration.Alike paired .file io := by
    intro io
    refine Registration.alike_of_offers_eq ?_
    cases io <;> decide +kernel
  have hname : Dotted "dir.d/photo.X[Q=9]" := by decide +kernel
  obtain ⟨-, hbuffer, hstream⟩ :=
    findSave_alike hspelled (halike .buffer) (halike .stream) hname
  have hfile : formatFound ((ofRegistrations paired).findSave "dir.d/photo.X[Q=9]") =
      some "a" := by
    rw [findSave, discoverableSavers, savers_of_falling (by decide +kernel)]
    decide +kernel
  exact ⟨hfile, hbuffer ▸ hfile, hstream ▸ hfile⟩

/-! ### What is built in -/

/-- The built-in savers are registered kind by kind. -/
theorem alike_handlers (engine : PictureEngine) (one other : IoKind) :
    Registration.Alike (handlers engine) one other := by
  refine Registration.alike_of_offers_eq ?_
  cases one <;> cases other <;> rfl

/-- No built-in suffix has one either. -/
theorem spelled_handlers (engine : PictureEngine) : ∀ r ∈ handlers engine, r.Spelled := by
  intro r hr
  cases r with
  | loader d l =>
    obtain ⟨format, rfl, -⟩ := mem_handlers_loader.1 hr
    cases format with
    | native io => exact ⟨(LoadFormat.native io).descriptor, [Native.suffix], rfl⟩
    | picture codec io => exact ⟨(LoadFormat.picture codec io).descriptor, codec.suffixes, rfl⟩
    | raw => exact ⟨LoadFormat.raw.descriptor, [".raw"], rfl⟩
  | saver d s =>
    obtain ⟨format, io, rfl, -⟩ := mem_handlers_saver.1 hr
    cases format with
    | native => exact ⟨SaveFormat.native.descriptor io, [Native.suffix], rfl⟩
    | picture codec => exact ⟨(SaveFormat.picture codec).descriptor io, codec.suffixes, rfl⟩

/-- **The built-in savers of every kind agree** on every name that has a suffix. -/
theorem findSave_builtin (engine : PictureEngine) {name : String} (hname : Dotted name)
    (io : IoKind) : formatFound ((builtin engine).findSave name) =
      formatFound ((builtin engine).findSaveBySuffix io name) :=
  formatFound_of_alike (spelled_handlers engine) (alike_handlers engine .file io) hname

/-! ### Kinds that are not registered alike -/

/-- Two formats, registered for files in the other order than for buffers and streams. -/
def crossed : List Registration := [
  writer "a" .file false, writer "b" .file false, writer "b" .buffer false,
  writer "a" .buffer false, writer "b" .stream false, writer "a" .stream false]

/-- A format that is blocked for files only. -/
def halfBlocked : List Registration :=
  [writer "a" .file true, writer "a" .buffer false, writer "a" .stream false]

/-- **Suffixes and priorities are not all that counts.** With the same ones in every kind, a file
is saved in another format than a buffer where ties are in another order, and not at all where it
alone is blocked. -/
theorem findSave_unlike : Dotted "p.x" ∧
    ((∀ r ∈ crossed, r.Spelled) ∧ Registration.Matched crossed ∧
      formatFound ((ofRegistrations crossed).findSave "p.x") = some "a" ∧
      formatFound ((ofRegistrations crossed).findSaveBySuffix .buffer "p.x") = some "b" ∧
      formatFound ((ofRegistrations crossed).findSaveBySuffix .stream "p.x") = some "b") ∧
    (∀ r ∈ halfBlocked, r.Spelled) ∧ Registration.Matched halfBlocked ∧
      formatFound ((ofRegistrations halfBlocked).findSave "p.x") = none ∧
      formatFound ((ofRegistrations halfBlocked).findSaveBySuffix .buffer "p.x") = some "a" ∧
      formatFound ((ofRegistrations halfBlocked).findSaveBySuffix .stream "p.x") = some "a" := by
  have hcrossed : Registration.Matched crossed := by
    intro one other
    cases one <;> cases other <;> decide +kernel
  have hhalf : Registration.Matched halfBlocked := by
    intro one other
    cases one <;> cases other <;> decide +kernel
  simp only [findSave, findSaveBySuffix, discoverableSavers,
    savers_of_falling (show (usableSavers crossed).Pairwise _ by decide +kernel),
    savers_of_falling (show (usableSavers halfBlocked).Pairwise _ by decide +kernel)]
  refine ⟨by decide +kernel, ⟨by simp [crossed, spelled_writer], hcrossed, ?_, ?_, ?_⟩,
    by simp [halfBlocked, spelled_writer], hhalf, ?_, ?_, ?_⟩
  all_goals decide +kernel

end Registry
end Raster
