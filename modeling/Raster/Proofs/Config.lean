/-
# A settings file over the stock values

Which values a file may hold, and how settings are read from them, is up to the language
of settings files. What is relied on is little (`ConfigLanguage.Lawful`):

| the language | |
| --- | --- |
| writes a group of the stock settings | as a table |
| reads the stock settings | as they were written |
| reads a setting in a table | from what stands under its name alone; if nothing, it is the stock one |

So a setting that a file leaves alone is read from what the stock settings have for it
(`ConfigLanguage.Lawful.resolve_keeps`). A file leaves a setting alone if it has nothing
under the setting's keys, and does not put something else than a table in the place of
its group (`Toml.Passes`). This is one of the things that an override leaf by leaf comes
to (`merge_overrides`).
-/
import Raster.Config.Toml
import Raster.Proofs.Result
import Raster.Proofs.Toml.Merge

namespace Raster

/-! ### Languages of settings files -/

/-- A setting is what is read from a value, or the stock one where there is none. -/
def Config.Setting.Reads (c : Config) (s : Config.Setting) (read : Toml → Option s.Value) :
    Option Toml → Prop
  | none => s.of c = s.stock
  | some v => read v = some (s.of c)

/-- A setting that is read from the same in two settings is the same in both. -/
theorem Config.Setting.Reads.unique {c c' : Config} {s : Config.Setting}
    {read : Toml → Option s.Value} {given : Option Toml} (h : s.Reads c read given)
    (h' : s.Reads c' read given) : s.of c = s.of c' := by
  cases given with
  | none => exact Eq.trans h h'.symm
  | some v => exact Option.some.inj (Eq.trans h.symm h')

/-- What stands under the keys of a setting, where its group is a table. -/
theorem Config.Setting.at?_path {s : Config.Setting} {v : Toml} {entries : List (String × Toml)}
    (h : v.get? s.group.name = some (.table entries)) :
    v.at? s.path = Toml.find? s.name entries := by
  rw [path, Toml.at?, h]
  show (Toml.find? s.name entries).bind (Toml.at? []) = _
  cases Toml.find? s.name entries <;> rfl

namespace ConfigLanguage

/-- What settings rely on of the language that they are written in. -/
structure Lawful (language : ConfigLanguage) : Prop where
  /-- Each group of the stock settings is written as a table. -/
  tables : ∀ {stock}, language.write {} = some stock → ∀ g : Config.Group,
    ∃ entries, stock.get? g.name = some (.table entries)
  /-- The stock settings read back. -/
  reads_back : ∀ {stock}, language.write {} = some stock → language.read stock = some {}
  /-- Where its group is a table, a setting is read from what stands under its name and from nothing
  else; if nothing stands there, it is the stock one. -/
  fields : ∃ read : (s : Config.Setting) → Toml → Option s.Value,
    ∀ {v c entries} (s : Config.Setting), language.read v = some c →
      v.get? s.group.name = some (.table entries) →
        s.Reads c (read s) (Toml.find? s.name entries)

variable {language : ConfigLanguage} {stock : Toml} {file : Option Toml} {c : Config}

/-- Settings come of a value that can be read and holds valid settings. -/
theorem resolve_eq_ok {base : Toml} : language.resolve base file = .ok c ↔
    language.read (file.elim base base.merge) = some c ∧ c.validate = .ok () := by
  have hmerged : language.resolve base file =
      (language.read (file.elim base base.merge)).elim (.error .file)
        fun c => c.validate >>= fun _ => .ok c := by
    cases file with
    | none =>
      rw [Option.elim_none, resolve]
      cases language.read base <;> rfl
    | some v =>
      rw [Option.elim_some, resolve]
      cases language.read (base.merge v) <;> rfl
  rw [hmerged]
  cases language.read (file.elim base base.merge) with
  | none => exact iff_of_false nofun nofun
  | some found =>
    rw [Option.elim, bind_eq_ok]
    constructor
    · rintro ⟨_, hvalid, hsame⟩
      cases hsame
      exact ⟨rfl, hvalid⟩
    · rintro ⟨hfound, hvalid⟩
      cases hfound
      exact ⟨(), hvalid, rfl⟩

/-- A file that leaves a setting alone has a table in the place of its group, or nothing. -/
theorem isTable_of_passes {s : Config.Setting} {v w : Toml} (h : v.Passes s.path)
    (hgroup : v.get? s.group.name = some w) : w.isTable = true := by
  obtain ⟨entries, rfl, hinner⟩ := Toml.passes_cons.1 h
  obtain ⟨inner, rfl, -⟩ := Toml.passes_cons.1 (hinner w hgroup)
  rfl

/-- Where a file leaves a setting alone, its group stays a table. -/
theorem exists_group_merge {s : Config.Setting} {v : Toml} (h : v.Passes s.path)
    {entries : List (String × Toml)} (hbase : stock.get? s.group.name = some (.table entries)) :
    ∃ merged, (stock.merge v).get? s.group.name = some (.table merged) := by
  obtain ⟨overlay, rfl, -⟩ := Toml.passes_cons.1 h
  cases stock with
  | table base =>
    rw [Toml.get?] at hbase
    rw [Toml.merge_table, Toml.get?, Toml.find?_merged]
    cases hover : Toml.find? s.group.name overlay with
    | none => exact ⟨entries, hbase⟩
    | some w =>
      obtain ⟨inner, rfl⟩ := Toml.isTable_iff.1 (isTable_of_passes h hover)
      rw [hbase]
      dsimp only [Toml.mergeOver]
      rw [Toml.merge_table]
      exact ⟨_, rfl⟩
  | _ => cases hbase

/-- **What a file leaves alone keeps its stock value.** -/
theorem Lawful.resolve_keeps (hlawful : language.Lawful) (hstock : language.write {} = some stock)
    {s : Config.Setting} (hs : ∀ v, file = some v → v.Passes s.path)
    (h : language.resolve stock file = .ok c) : s.of c = s.stock := by
  obtain ⟨read, hfields⟩ := hlawful.fields
  obtain ⟨entries, hgroup⟩ := hlawful.tables hstock s.group
  obtain ⟨merged, hmerged⟩ : ∃ merged,
      (file.elim stock stock.merge).get? s.group.name = some (.table merged) := by
    cases file with
    | none => exact ⟨entries, hgroup⟩
    | some v => exact exists_group_merge (hs v rfl) hgroup
  have hsame : (file.elim stock stock.merge).at? s.path = stock.at? s.path := by
    cases file with
    | none => rfl
    | some v => exact Toml.at?_merge (hs v rfl) stock
  have hread := hfields s (resolve_eq_ok.1 h).1 hmerged
  have hread' := hfields s (hlawful.reads_back hstock) hgroup
  have hgiven : Toml.find? s.name merged = Toml.find? s.name entries :=
    (Config.Setting.at?_path hmerged).symm.trans (hsame.trans (Config.Setting.at?_path hgroup))
  rw [hgiven] at hread
  exact hread.unique hread'

end ConfigLanguage

/-! ### Settings in TOML -/

namespace Config

/-- Settings are put together from the value of each one. -/
theorem assemble_eq_some {value? : (s : Setting) → Option s.Value} {c : Config}
    (h : assemble value? = some c) (s : Setting) : value? s = some (s.of c) := by
  obtain ⟨threshold, hthreshold, h⟩ := Option.bind_eq_some_iff.1 h
  obtain ⟨disc, hdisc, h⟩ := Option.bind_eq_some_iff.1 h
  obtain ⟨access, haccess, h⟩ := Option.bind_eq_some_iff.1 h
  obtain ⟨failOn, hfailOn, h⟩ := Option.bind_eq_some_iff.1 h
  obtain ⟨memory, hmemory, h⟩ := Option.bind_eq_some_iff.1 h
  obtain ⟨enabled, henabled, h⟩ := Option.bind_eq_some_iff.1 h
  obtain ⟨maxEntries, hmaxEntries, h⟩ := Option.bind_eq_some_iff.1 h
  obtain ⟨keep, hkeep, h⟩ := Option.bind_eq_some_iff.1 h
  obtain ⟨background, hbackground, h⟩ := Option.bind_eq_some_iff.1 h
  obtain ⟨maxThreads, hmaxThreads, h⟩ := Option.bind_eq_some_iff.1 h
  cases h
  cases s with
  | discThreshold => exact hthreshold
  | disc => exact hdisc
  | access => exact haccess
  | failOn => exact hfailOn
  | memory => exact hmemory
  | enabled => exact henabled
  | maxEntries => exact hmaxEntries
  | keep => exact hkeep
  | background => exact hbackground
  | maxThreads => exact hmaxThreads

/-- A setting is read from what is given for it, or is the stock one. -/
theorem reads_ofToml {v : Toml} {c : Config} (h : ofToml v = some c) (s : Setting) :
    s.Reads c s.read (s.given v) := by
  rw [ofToml] at h
  obtain ⟨-, h⟩ := Option.ite_none_right_eq_some.1 h
  have hvalue := assemble_eq_some h s
  cases hgiven : s.given v with
  | none =>
    rw [hgiven] at hvalue
    exact (Option.some.inj hvalue).symm
  | some w =>
    rw [hgiven] at hvalue
    exact hvalue

/-- In tables, what is given for a setting stands under its name. -/
theorem Setting.given_table {s : Setting} {v : Toml} {entries : List (String × Toml)}
    (h : v.get? s.group.name = some (.table entries)) :
    s.given v = Toml.find? s.name entries := by
  cases v with
  | table groups =>
    rw [given, member, show Toml.find? s.group.name groups = some (.table entries) from h]
    rfl
  | _ => cases h

/-- TOML does what settings rely on. -/
theorem lawful_toml : ConfigLanguage.toml.Lawful where
  tables h g := by
    obtain rfl := Option.some.inj h
    cases g <;> exact ⟨_, rfl⟩
  reads_back h := by
    obtain rfl := Option.some.inj h
    decide +kernel
  fields := ⟨Setting.read, fun s hread hgroup => Setting.given_table hgroup ▸ reads_ofToml hread s⟩

/-! ### The whole of it -/

/-- **Laying a value over another is an override leaf by leaf:** a leaf of the overlay counts, and
one of the base where the overlay leaves its path alone. So nothing else changes; laying the same
value, whose tables have every key once, over once more changes nothing; and in the settings that
come of laying a file over the stock ones, in whatever language, a setting that the file leaves alone
has its stock value. -/
theorem merge_overrides :
    (∀ (base overlay : Toml) (path : List String) (v : Toml),
        (base.merge overlay).leaf? path = some v ↔
          overlay.leaf? path = some v ∨ overlay.Passes path ∧ base.leaf? path = some v)
      ∧ (∀ (base overlay : Toml) (path : List String), overlay.Passes path →
        (base.merge overlay).at? path = base.at? path)
      ∧ (∀ base overlay : Toml, overlay.Distinct →
        (base.merge overlay).merge overlay = base.merge overlay)
      ∧ ∀ (language : ConfigLanguage), language.Lawful → ∀ stock, language.write {} = some stock →
        ∀ (file : Option Toml) (c : Config) (s : Setting),
          language.resolve stock file = .ok c → (∀ v, file = some v → v.Passes s.path) →
            s.of c = s.stock :=
  ⟨Toml.leaf?_merge,
    fun base _ _ h => Toml.at?_merge h base,
    fun base _ h => h.merge_merge base,
    fun _ hlawful _ hstock _ _ _ h hs => hlawful.resolve_keeps hstock hs h⟩

/-- A file that sets the size of the cache, and has a date that nothing asks for: the stock size is
replaced, once and for all. Without the date it is read, and the cache stays enabled. -/
theorem merge_overrides_maxEntries :
    let sized : Toml := .table [("max_entries", .integer 5)]
    let file : Toml := .table [("cache", sized)]
    let day : Toml := .datetime { date := some ⟨2024, 2, 29⟩, time := none, offset := none }
    let dated : Toml := .table [("cache", sized), ("day", day)]
    ∃ stock, ConfigLanguage.toml.write {} = some stock
      ∧ (stock.merge dated).leaf? ["cache", "max_entries"] = some (.integer 5)
      ∧ (stock.merge dated).at? ["cache", "enabled"] = some (.boolean true)
      ∧ (stock.merge dated).merge dated = stock.merge dated
      ∧ ConfigLanguage.toml.resolve stock (some file) = .ok { cache := { maxEntries := 5 } }
      ∧ Setting.enabled.of { cache := { maxEntries := 5 } } = Setting.enabled.stock := by
  intro sized file day dated
  obtain ⟨stock, hstock⟩ : ∃ stock, ConfigLanguage.toml.write {} = some stock := ⟨_, rfl⟩
  obtain ⟨hleaf, hkept, htwice, hresolve⟩ := merge_overrides
  have hsized : sized.Passes ["enabled"] := Toml.passes_table.2 nofun
  have hpasses : dated.Passes ["cache", "enabled"] := by
    refine Toml.passes_table.2 fun cache hcache => ?_
    obtain rfl := Option.some.inj hcache
    exact hsized
  have hpasses' : file.Passes Setting.enabled.path := by
    refine Toml.passes_table.2 fun cache hcache => ?_
    obtain rfl := Option.some.inj hcache
    exact hsized
  have hdistinct : dated.Distinct := by
    have hinner : sized.Distinct :=
      .table (List.pairwise_singleton ..) fun e he => List.mem_singleton.1 he ▸ .leaf rfl
    refine .table (by decide) (List.forall_mem_cons.2 ⟨hinner, List.forall_mem_cons.2 ⟨?_, nofun⟩⟩)
    exact .leaf rfl
  have hread : ConfigLanguage.toml.resolve stock (some file)
      = .ok { cache := { maxEntries := 5 } } := by
    obtain rfl := Option.some.inj hstock
    exact ConfigLanguage.resolve_eq_ok.2 ⟨by decide +kernel, rfl⟩
  refine ⟨stock, hstock, (hleaf ..).2 (.inl rfl), (hkept _ _ _ hpasses).trans ?_,
    htwice _ _ hdistinct, hread, hresolve _ lawful_toml stock hstock _ _ _ hread ?_⟩
  · obtain rfl := Option.some.inj hstock
    rfl
  · rintro v ⟨⟩
    exact hpasses'

end Config

end Raster
